import Ovlive.Impl.Api.Accounts

/-!
# What a request does

The rule of every handler (`handle_sat`): what it did before each of its
operations (`Allowed`), and before it ends (`Ended`). A password is verified
once, after the address is charged; an account's keys are touched for a user
whose password was verified (`Vouched`), and other accounts for an admin; an
account and a key are charged for a key that was looked up and its user.
-/

namespace OV.Impl

open Prog

abbrev AccountEvent := Event AccountOp.Ans

/-- A user was looked up, and its password verified. -/
def Vouched (tr : List AccountEvent) (u : User) : Prop :=
  u.isActive = true ∧ (∃ email, (⟨.userByEmail email, some (some u)⟩ : AccountEvent) ∈ tr) ∧
    ∃ password, (⟨.verifyPassword password u.passwordHash, true⟩ : AccountEvent) ∈ tr

/-- A key was looked up by its hash. -/
def Found (tr : List AccountEvent) (k : ApiKey) : Prop :=
  ∃ hash, (⟨.keyByHash hash, some (some k)⟩ : AccountEvent) ∈ tr

/-- The address of the request was charged. -/
def ChargedIp (tr : List AccountEvent) (ip : IpAddr) : Prop := (⟨.checkIp ip, true⟩ : AccountEvent) ∈ tr

def AccountOp.isVerify : AccountOp → Bool
  | .verifyPassword _ _ => true
  | _ => false

def AccountOp.isCheckUser : AccountOp → Bool
  | .checkUser _ => true
  | _ => false

/-- The parts of a request that has them. -/
def AccountRequest.parts? : AccountRequest → Option RequestParts
  | .register _ _ => none
  | .createKey parts _ | .listKeys parts | .deleteKey parts _ | .adminUsers parts | .adminKeys parts
  | .adminSetRevoked parts _ _ | .adminSetActive parts _ _ | .data parts => some parts

/-- What a request did before an operation. -/
def Allowed (r : AccountRequest) (tr : List AccountEvent) (e : AccountEvent) : Prop :=
  match e.op with
  | .verifyPassword _ _ =>
    (∃ parts, r.parts? = some parts ∧ ChargedIp tr (clientIp parts.toParts)) ∧ ∀ d ∈ tr, d.op.isVerify = false
  | .checkIp ip => ∃ parts, r.parts? = some parts ∧ ip = clientIp parts.toParts
  | .insertKey userId _ _ _ rate => (∃ u, Vouched tr u ∧ u.id = userId) ∧ 1 ≤ rate ∧ rate ≤ 600
  | .deleteKey _ userId | .listKeys userId => ∃ u, Vouched tr u ∧ u.id = userId
  | .listAllUsers | .listAllKeys | .setKeyRevoked _ _ | .dropLimiter _ | .setUserActive _ _ =>
    ∃ u, Vouched tr u ∧ u.isAdmin = true
  | .checkUser id =>
    (∃ k, Found tr k ∧ ∃ u, (⟨.activeUser k.userId, some (some u)⟩ : AccountEvent) ∈ tr ∧ u.id = id) ∧
      ∀ d ∈ tr, d.op.isCheckUser = false
  | .checkKey k => Found tr k
  | _ => True

def AccountResponse.Refuses : AccountResponse → Prop
  | .error _ _ | .challenge => True
  | _ => False

theorem Vouched.append {tr : List AccountEvent} {u : User} (h : Vouched tr u) (tr' : List AccountEvent) :
    Vouched (tr ++ tr') u := by
  obtain ⟨hactive, ⟨email, he⟩, password, hp⟩ := h
  exact ⟨hactive, ⟨email, List.mem_append_left _ he⟩, password, List.mem_append_left _ hp⟩

/-! ## Extractors -/

section

variable {I : List AccountEvent → AccountEvent → Prop} {tr : List AccountEvent} {parts : RequestParts}

theorem checkIp_sat {E : List AccountEvent → Except AccountResponse Unit → Prop}
    (hI : ∀ x, I tr ⟨.checkIp (clientIp parts.toParts), x⟩)
    (hok : E (tr ++ [⟨.checkIp (clientIp parts.toParts), true⟩]) (.ok ()))
    (hrefuse : ∀ tr' resp, resp.Refuses → E tr' (.error resp)) : (checkIp parts).Sat I E tr := by
  simp only [checkIp, sat_bind, sat_perform]
  intro x
  refine ⟨hI x, ?_⟩
  cases x
  · exact hrefuse _ _ trivial
  · exact hok

theorem checkUserAndKey_sat {E : List AccountEvent → Except AccountResponse Unit → Prop} {u : User} {k : ApiKey}
    (hu : ∀ x, I tr ⟨.checkUser u.id, x⟩)
    (hk : ∀ x, I (tr ++ [⟨.checkUser u.id, true⟩]) ⟨.checkKey k, x⟩)
    (hok : E (tr ++ [⟨.checkUser u.id, true⟩] ++ [⟨.checkKey k, true⟩]) (.ok ()))
    (hrefuse : ∀ tr' resp, resp.Refuses → E tr' (.error resp)) : (checkUserAndKey u k).Sat I E tr := by
  simp only [checkUserAndKey, sat_bind, sat_perform]
  intro x
  refine ⟨hu x, ?_⟩
  cases x
  · exact hrefuse _ _ trivial
  · intro y
    refine ⟨hk y, ?_⟩
    cases y
    · exact hrefuse _ _ trivial
    · exact hok

theorem authenticate_sat {E : List AccountEvent → Option (Option User) → Prop} {email password : String}
    (hI : ∀ x, I tr ⟨.userByEmail email, x⟩)
    (hverify : ∀ u x, I (tr ++ [⟨.userByEmail email, some (some u)⟩]) ⟨.verifyPassword password u.passwordHash, x⟩)
    (hok : ∀ tr' u, Vouched tr' u → E tr' (some (some u))) (hfail : ∀ tr', E tr' none)
    (hnone : ∀ tr', E tr' (some none)) : (authenticate email password).Sat I E tr := by
  simp only [authenticate, sat_bind, sat_perform]
  intro x
  refine ⟨hI x, ?_⟩
  rcases x with _ | _ | u
  · exact hfail _
  · exact hnone _
  · by_cases hactive : u.isActive = true
    · simp only [hactive, if_true, sat_bind, sat_perform]
      intro y
      refine ⟨hverify u y, ?_⟩
      cases y
      · exact hnone _
      · exact hok _ u ⟨hactive, ⟨email, by simp⟩, ⟨password, by simp⟩⟩
    · simp only [hactive, if_false, Bool.false_eq_true]
      exact hnone _

end

variable [Crypto] {r : AccountRequest} {parts : RequestParts}

/-- What a request did before its response. -/
def Ended (tr : List AccountEvent) : AccountResponse → Prop
  | .served (some (u, k)) =>
    (⟨.checkUser u.id, true⟩ : AccountEvent) ∈ tr ∧ (⟨.checkKey k, true⟩ : AccountEvent) ∈ tr
  | .created row full =>
    ∃ k userId name keyPrefix rate, row = k.row ∧
      (⟨.insertKey userId name keyPrefix (Crypto.sha256Hex full) rate, some k⟩ : AccountEvent) ∈ tr
  | _ => True

theorem AccountResponse.Refuses.ended {resp : AccountResponse} {tr : List AccountEvent} (h : resp.Refuses) :
    Ended tr resp := by
  cases resp <;> trivial

/-- What the extractor of a user leaves. -/
def Extracted (tr : List AccountEvent) : Except AccountResponse User → Prop
  | .error resp => resp.Refuses
  | .ok u => Vouched tr u

theorem basicUser_sat (hr : r.parts? = some parts) : (basicUser parts).Sat (Allowed r) Extracted [] := by
  simp only [basicUser, sat_bind]
  refine checkIp_sat (fun x => ⟨parts, hr, rfl⟩) ?_ fun tr' resp h => h
  simp only
  split
  · trivial
  · rename_i email password _
    rw [sat_bind]
    refine authenticate_sat (fun x => trivial) (fun u x => ⟨⟨parts, hr, by simp [ChargedIp]⟩, by simp [AccountOp.isVerify]⟩)
      (fun tr' u h => h) (fun _ => trivial) fun _ => trivial

theorem adminUser_sat (hr : r.parts? = some parts) :
    (adminUser parts).Sat (Allowed r) (fun tr a => Extracted tr a ∧ ∀ u, a = .ok u → u.isAdmin = true) [] := by
  simp only [adminUser, sat_bind]
  refine (basicUser_sat hr).mono fun tr a ha => ?_
  cases a with
  | error resp => exact ⟨ha, fun v hv => by cases hv⟩
  | ok u =>
    simp only
    split
    · exact ⟨ha, fun v hv => by cases hv; assumption⟩
    · exact ⟨trivial, fun v hv => by cases hv⟩

theorem authenticateKey_sat {I : List AccountEvent → AccountEvent → Prop} {tr : List AccountEvent}
    {E : List AccountEvent → Option (Option (ApiKey × User)) → Prop} {plaintext : String}
    (hkey : ∀ x, I tr ⟨.keyByHash (Crypto.sha256Hex plaintext), x⟩)
    (huser : ∀ k x, I (tr ++ [⟨.keyByHash (Crypto.sha256Hex plaintext), some (some k)⟩]) ⟨.activeUser k.userId, x⟩)
    (htouch : ∀ tr' k x, I tr' ⟨.touchKey k, x⟩)
    (hok : ∀ k u, E (tr ++ [⟨.keyByHash (Crypto.sha256Hex plaintext), some (some k)⟩] ++
      [⟨.activeUser k.userId, some (some u)⟩] ++ [⟨.touchKey k.id, ()⟩]) (some (some (k, u))))
    (hfail : ∀ tr', E tr' none) (hnone : ∀ tr', E tr' (some none)) : (authenticateKey plaintext).Sat I E tr := by
  simp only [authenticateKey, sat_bind, sat_perform]
  intro x
  refine ⟨hkey x, ?_⟩
  rcases x with _ | _ | k
  · exact hfail _
  · exact hnone _
  · intro y
    refine ⟨huser k y, ?_⟩
    rcases y with _ | _ | u
    · exact hfail _
    · exact hnone _
    · intro z
      exact ⟨htouch _ _ z, hok k u⟩

theorem optionalApiKeyUser_sat (hr : r.parts? = some parts) :
    (optionalApiKeyUser parts).Sat (Allowed r)
      (fun tr a => match a with
        | .error resp => resp.Refuses
        | .ok auth => Ended tr (.served auth)) [] := by
  simp only [optionalApiKeyUser, sat_bind]
  refine checkIp_sat (fun x => ⟨parts, hr, rfl⟩) ?_ fun tr' resp h => h
  simp only
  split
  · trivial
  · rename_i raw _
    rw [sat_bind]
    refine authenticateKey_sat (fun _ => trivial) (fun _ _ => trivial) (fun _ _ _ => trivial) (fun k u => ?_)
      (fun _ => trivial) fun _ => trivial
    simp only [sat_bind]
    refine checkUserAndKey_sat
      (fun x => ⟨⟨k, ⟨Crypto.sha256Hex (String.ofList raw), by simp⟩, u, by simp, rfl⟩, by simp [AccountOp.isCheckUser]⟩)
      (fun x => ⟨Crypto.sha256Hex (String.ofList raw), by simp⟩) ?_ fun _ _ h => h
    exact ⟨by simp, by simp⟩

/-! ## Handlers -/

theorem register_sat (email password : String) : (register email password).Sat (Allowed r) Ended [] := by
  rw [register]
  split
  · trivial
  · split
    · trivial
    · simp only [sat_bind, sat_perform]
      intro x
      refine ⟨trivial, ?_⟩
      cases x with
      | none => trivial
      | some hash =>
        simp only [sat_bind, sat_perform]
        intro y
        refine ⟨trivial, ?_⟩
        cases y <;> trivial

theorem createKey_sat (hr : r.parts? = some parts) (body : Option CreateKeyReq) :
    (createKey parts body).Sat (Allowed r) Ended [] := by
  simp only [createKey, sat_bind]
  refine (basicUser_sat hr).mono fun tr a ha => ?_
  cases a with
  | error resp => exact ha.ended
  | ok u =>
    cases body with
    | none => trivial
    | some req =>
      simp only [createApiKey, sat_bind, sat_perform]
      intro raw
      have hrate : 1 ≤ req.rate ∧ req.rate ≤ 600 := by
        rw [CreateKeyReq.rate]
        omega
      refine ⟨trivial, fun x => ⟨⟨⟨u, Vouched.append ha _, rfl⟩, hrate⟩, ?_⟩⟩
      cases x with
      | none => trivial
      | some k => exact ⟨k, _, _, _, _, rfl, List.mem_append_right _ (List.mem_singleton_self _)⟩

theorem listKeys_sat (hr : r.parts? = some parts) : (listKeys parts).Sat (Allowed r) Ended [] := by
  simp only [listKeys, sat_bind]
  refine (basicUser_sat hr).mono fun tr a ha => ?_
  cases a with
  | error resp => exact ha.ended
  | ok u =>
    simp only [sat_bind, sat_perform]
    intro x
    refine ⟨⟨u, ha, rfl⟩, ?_⟩
    cases x <;> trivial

theorem deleteKey_sat (hr : r.parts? = some parts) (id : Option Uuid) : (deleteKey parts id).Sat (Allowed r) Ended [] := by
  simp only [deleteKey, sat_bind]
  refine (basicUser_sat hr).mono fun tr a ha => ?_
  cases a with
  | error resp => exact ha.ended
  | ok u =>
    cases id with
    | none => trivial
    | some id =>
      simp only [sat_bind, sat_perform]
      intro x
      refine ⟨⟨u, ha, rfl⟩, ?_⟩
      rcases x with _ | _ | _ <;> trivial

/-- A handler that starts with the extractor of an admin. -/
theorem admin_sat (hr : r.parts? = some parts) {f : Except AccountResponse User → Task AccountResponse}
    (hrefuse : ∀ tr resp, resp.Refuses → (f (.error resp)).Sat (Allowed r) Ended tr)
    (hok : ∀ tr u, Vouched tr u → u.isAdmin = true → (f (.ok u)).Sat (Allowed r) Ended tr) :
    (adminUser parts >>= f).Sat (Allowed r) Ended [] := by
  rw [sat_bind]
  refine (adminUser_sat hr).mono fun tr a ha => ?_
  cases a with
  | error resp => exact hrefuse tr resp ha.1
  | ok u => exact hok tr u ha.1 (ha.2 u rfl)

theorem adminUsers_sat (hr : r.parts? = some parts) : (adminUsers parts).Sat (Allowed r) Ended [] := by
  refine admin_sat hr (fun tr resp h => h.ended) fun tr u hu hadmin => ?_
  simp only [sat_bind, sat_perform]
  intro x
  refine ⟨⟨u, hu, hadmin⟩, ?_⟩
  cases x <;> trivial

theorem adminKeys_sat (hr : r.parts? = some parts) : (adminKeys parts).Sat (Allowed r) Ended [] := by
  refine admin_sat hr (fun tr resp h => h.ended) fun tr u hu hadmin => ?_
  simp only [sat_bind, sat_perform]
  intro x
  refine ⟨⟨u, hu, hadmin⟩, ?_⟩
  cases x <;> trivial

theorem adminSetRevoked_sat (hr : r.parts? = some parts) (id : Option Uuid) (revoked : Bool) :
    (adminSetRevoked parts id revoked).Sat (Allowed r) Ended [] := by
  refine admin_sat hr (fun tr resp h => h.ended) fun tr u hu hadmin => ?_
  cases id with
  | none => trivial
  | some id =>
    simp only [setRevoked, sat_bind, sat_perform]
    intro x
    refine ⟨⟨u, hu, hadmin⟩, ?_⟩
    rcases x with _ | _ | _
    · trivial
    · trivial
    · simp only [sat_bind]
      exact fun y => ⟨⟨u, hu.append _, hadmin⟩, trivial⟩

theorem adminSetActive_sat (hr : r.parts? = some parts) (id : Option Uuid) (active : Bool) :
    (adminSetActive parts id active).Sat (Allowed r) Ended [] := by
  refine admin_sat hr (fun tr resp h => h.ended) fun tr u hu hadmin => ?_
  cases id with
  | none => trivial
  | some id =>
    simp only [setActive, sat_bind, sat_perform]
    intro x
    refine ⟨⟨u, hu, hadmin⟩, ?_⟩
    rcases x with _ | _ | _ <;> trivial

theorem data_sat (hr : r.parts? = some parts) : (data parts).Sat (Allowed r) Ended [] := by
  simp only [data, sat_bind]
  refine (optionalApiKeyUser_sat hr).mono fun tr a ha => ?_
  cases a with
  | error resp => exact AccountResponse.Refuses.ended ha
  | ok auth => exact ha

theorem handle_sat (r : AccountRequest) : (handle r).Sat (Allowed r) Ended [] := by
  cases r with
  | register email password => exact register_sat email password
  | createKey parts body => exact createKey_sat rfl body
  | listKeys parts => exact listKeys_sat rfl
  | deleteKey parts id => exact deleteKey_sat rfl id
  | adminUsers parts => exact adminUsers_sat rfl
  | adminKeys parts => exact adminKeys_sat rfl
  | adminSetRevoked parts id revoked => exact adminSetRevoked_sat rfl id revoked
  | adminSetActive parts id active => exact adminSetActive_sat rfl id active
  | data parts => exact data_sat rfl

/-! ## Operations -/

namespace Accounts

variable [Governor] {s : Accounts} {l : Luck}

/-- What an operation may write to the database. -/
inductive Wrote (s : Accounts) (l : Luck) : AccountOp → Db → Prop
  | insertUser {email hash db} (h : s.db.insertUser (s.newUser l email hash false) = some db) :
    Wrote s l (.insertUser email hash) db
  | insertKey {userId name keyPrefix hash rate db}
    (h : s.db.insertKey (s.newKey l userId name keyPrefix hash rate) = some db) :
    Wrote s l (.insertKey userId name keyPrefix hash rate) db
  | deleteKey (keyId userId : Uuid) : Wrote s l (.deleteKey keyId userId) (s.db.deleteKey keyId userId).2
  | touchKey (id : Uuid) : Wrote s l (.touchKey id) (s.db.touchKey id s.now)
  | setKeyRevoked (id : Uuid) (revoked : Bool) :
    Wrote s l (.setKeyRevoked id revoked) (s.db.setKeyRevoked id revoked).2
  | setUserActive (id : Uuid) (active : Bool) :
    Wrote s l (.setUserActive id active) (s.db.setUserActive id active).2

omit [Crypto] in
theorem write_db {α : Type} (s : Accounts) (l : Luck) (r : Option (α × Db)) :
    (s.write l r).2.db = s.db ∨ ∃ a db, r = some (a, db) ∧ (s.write l r).2.db = db := by
  unfold write
  split
  · exact .inr ⟨_, _, rfl, rfl⟩
  · exact .inr ⟨_, _, rfl, rfl⟩
  · exact .inl rfl

/-- An operation leaves the database alone, or writes what it is for. -/
theorem exec_db (s : Accounts) (l : Luck) (o : AccountOp) : (exec l o s).2.db = s.db ∨ Wrote s l o (exec l o s).2.db := by
  cases o with
  | insertUser email hash =>
    refine (write_db s l _).imp_right ?_
    rintro ⟨a, db, hr, hdb⟩
    obtain ⟨db', hdb', heq⟩ := Option.map_eq_some_iff.mp hr
    cases heq
    exact hdb ▸ .insertUser hdb'
  | insertKey userId name keyPrefix hash rate =>
    refine (write_db s l _).imp_right ?_
    rintro ⟨a, db, hr, hdb⟩
    obtain ⟨db', hdb', heq⟩ := Option.map_eq_some_iff.mp hr
    cases heq
    exact hdb ▸ .insertKey hdb'
  | deleteKey keyId userId =>
    refine (write_db s l _).imp_right ?_
    rintro ⟨a, db, hr, hdb⟩
    cases hr
    exact hdb ▸ .deleteKey keyId userId
  | touchKey id =>
    refine (write_db s l _).imp_right ?_
    rintro ⟨a, db, hr, hdb⟩
    cases hr
    exact hdb ▸ .touchKey id
  | setKeyRevoked id revoked =>
    refine (write_db s l _).imp_right ?_
    rintro ⟨a, db, hr, hdb⟩
    cases hr
    exact hdb ▸ .setKeyRevoked id revoked
  | setUserActive id active =>
    refine (write_db s l _).imp_right ?_
    rintro ⟨a, db, hr, hdb⟩
    cases hr
    exact hdb ▸ .setUserActive id active
  | _ => exact .inl rfl

omit [Crypto] in
theorem quiet_start : start.Quiet := nofun

/-! ## Schedules -/

abbrev Moves := List (Service.Move AccountRequest Luck AccountEnv)

/-- A request with an email and a password. -/
def withPassword (credentials : String) : RequestParts where
  peer := none
  headers := [("authorization", "Basic ".toList ++ credentials.toList)]
  query := none

/-- A request with a key. -/
def withKey (key : String) : RequestParts where
  peer := none
  headers := [("x-api-key", key.toList)]
  query := none

/-- A process that starts, and seeds an admin where there are no users. -/
def booted : Service.Move AccountRequest Luck AccountEnv := .env (.boot "root@x" "password" 100 100 true { uuid := 1 })

/-- A request and its operations, with what each of them draws. -/
def request (i : Nat) (r : AccountRequest) (ls : List Luck) : Moves := .start i r :: ls.map (.go i)

end Accounts

end OV.Impl
