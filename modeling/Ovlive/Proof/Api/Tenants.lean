import Ovlive.Proof.Api.Admins

/-!
# One account's rows

As long as no request verifies the password of an account or of an admin, the
account's row and its keys stay as they are, but for when the keys were last
used, and no listing shows one of them (`isolated_of_run`).
-/

namespace OV.Impl

/-- A key, but for when it was last used. -/
def ApiKey.unused (k : ApiKey) : ApiKey := { k with lastUsedAt := none }

/-- The rows of an account. -/
def Db.rowsOf (db : Db) (id : Uuid) : List User × List ApiKey :=
  (db.users.filter fun u => u.id = id, (db.apiKeys.filter fun k => k.userId = id).map ApiKey.unused)

/-- A listing shows a key. -/
def Shows : AccountEvent → ApiKey → Prop
  | ⟨.listKeys _, some ks⟩, k | ⟨.listAllKeys, some ks⟩, k => k ∈ ks
  | _, _ => False

namespace Db

theorem insertKey_apiKeys {db db' : Db} {k : ApiKey} (h : db.insertKey k = some db') : db'.apiKeys = db.apiKeys ++ [k] := by
  rw [insertKey] at h
  split at h
  · cases h
    rfl
  · cases h

theorem insertUser_apiKeys {db db' : Db} {u : User} (h : db.insertUser u = some db') : db'.apiKeys = db.apiKeys := by
  rw [insertUser] at h
  split at h
  · cases h
    rfl
  · cases h

theorem insertUser_fresh {db db' : Db} {u : User} (h : db.insertUser u = some db') : u.id ∉ db.users.map User.id := by
  rw [insertUser] at h
  split at h
  · rename_i hfresh
    exact hfresh.1
  · cases h

theorem userIds_setUserActive (db : Db) (id : Uuid) (active : Bool) :
    (db.setUserActive id active).2.users.map User.id = db.users.map User.id :=
  map_update (p := fun u => u.id = id) (f := fun u => { u with isActive := active }) (fun _ => rfl) db.users

variable {db db' : Db} {id : Uuid}

theorem rowsOf_insertUser {u : User} (h : db.insertUser u = some db') (hid : id ∈ db.users.map User.id) :
    db'.rowsOf id = db.rowsOf id := by
  have hne : u.id ≠ id := fun he => insertUser_fresh h (he ▸ hid)
  rw [rowsOf, insertUser_users h, insertUser_apiKeys h, List.filter_append]
  simp [hne, rowsOf]

theorem rowsOf_insertKey {k : ApiKey} (h : db.insertKey k = some db') (hne : k.userId ≠ id) :
    db'.rowsOf id = db.rowsOf id := by
  rw [rowsOf, insertKey_users h, insertKey_apiKeys h, List.filter_append]
  simp [hne, rowsOf]

theorem rowsOf_deleteKey (keyId : Uuid) {userId : Uuid} (hne : userId ≠ id) :
    (db.deleteKey keyId userId).2.rowsOf id = db.rowsOf id := by
  have hkeep : (db.apiKeys.filter fun k => !(k.id = keyId && k.userId = userId)).filter (fun k => k.userId = id) =
      db.apiKeys.filter fun k => k.userId = id := by
    rw [List.filter_filter]
    refine List.filter_congr fun k _ => ?_
    by_cases hk : k.userId = id
    · have : k.userId ≠ userId := fun he => hne (he.symm.trans hk)
      simp [hk, Ne.symm hne]
    · simp [hk]
  exact Prod.ext rfl (congrArg (List.map ApiKey.unused) hkeep)

theorem rowsOf_touchKey (keyId : Uuid) (now : Nat) : (db.touchKey keyId now).rowsOf id = db.rowsOf id := by
  have hkeep : ∀ ks : List ApiKey,
      ((ks.map fun k => if k.id = keyId then { k with lastUsedAt := some now } else k).filter fun k => k.userId = id).map
        ApiKey.unused = (ks.filter fun k => k.userId = id).map ApiKey.unused := by
    intro ks
    induction ks with
    | nil => rfl
    | cons k ks ih =>
      have hk : (if k.id = keyId then { k with lastUsedAt := some now } else k).userId = k.userId ∧
          (if k.id = keyId then { k with lastUsedAt := some now } else k).unused = k.unused := by
        split <;> exact ⟨rfl, rfl⟩
      rw [List.map_cons, List.filter_cons, List.filter_cons, hk.1]
      split
      · rw [List.map_cons, List.map_cons, hk.2, ih]
      · exact ih
  exact Prod.ext rfl (hkeep db.apiKeys)

end Db

namespace Accounts

open Service

section

variable [Crypto] [Governor] {s t : Pool Accounts AccountOp AccountOp.Ans AccountResponse} {as : List Does} {v : Uuid}

theorem exec_userIds (a : Accounts) (l : Luck) (o : AccountOp) (hv : v ∈ a.db.users.map User.id) :
    v ∈ (exec l o a).2.db.users.map User.id := by
  have h := exec_db a l o
  generalize (exec l o a).2.db = db at h ⊢
  rcases h with rfl | h
  · exact hv
  · cases h with
    | insertUser h => rw [Db.insertUser_users h, List.map_append]; exact List.mem_append_left _ hv
    | insertKey h => rwa [Db.insertKey_users h]
    | deleteKey | touchKey | setKeyRevoked => exact hv
    | setUserActive id active =>
      rwa [Db.userIds_setUserActive]

/-- An operation on other rows. -/
def Spares (v : Uuid) : AccountOp → Prop
  | .insertKey userId _ _ _ _ | .deleteKey _ userId | .listKeys userId => userId ≠ v
  | o => o.isAdmin = false

theorem exec_rowsOf {a : Accounts} {l : Luck} {o : AccountOp} (hv : v ∈ a.db.users.map User.id) (ho : Spares v o) :
    (exec l o a).2.db.rowsOf v = a.db.rowsOf v := by
  have h := exec_db a l o
  generalize (exec l o a).2.db = db at h ⊢
  rcases h with rfl | h
  · rfl
  · cases h with
    | insertUser h => exact Db.rowsOf_insertUser h hv
    | insertKey h => exact Db.rowsOf_insertKey h ho
    | deleteKey keyId userId => exact Db.rowsOf_deleteKey keyId ho
    | touchKey id => exact Db.rowsOf_touchKey id _
    | setKeyRevoked | setUserActive => cases ho

/-- A listing of another account's keys shows none of this one. -/
theorem exec_shows {a : Accounts} {l : Luck} {o : AccountOp} {k : ApiKey} (ho : Spares v o)
    (h : Shows ⟨o, (exec l o a).1⟩ k) : k.userId ≠ v := by
  cases o with
  | listKeys userId =>
    simp only [exec, read] at h
    split at h
    · have hk : k ∈ a.db.listKeys userId := h
      rw [Db.listKeys, Db.newestFirst, List.mem_mergeSort, List.mem_filter] at hk
      have huser : k.userId = userId := by simpa using hk.2
      exact huser ▸ ho
    · cases h
  | listAllKeys => cases ho
  | _ => cases h

/-- Where no password of the account or of an admin is verified, its rows stay. -/
theorem isolated_of_run (hq : s.Quiet) (hv : v ∈ s.shared.db.users.map User.id) (h : Run server.Step s as t)
    (hno : ∀ i u, Vouched (Act.events i as) u → u.id ≠ v ∧ u.isAdmin = false) :
    t.shared.db.rowsOf v = s.shared.db.rowsOf v ∧ ∀ i e l, .did i e l ∈ as → ∀ k, Shows e k → k.userId ≠ v := by
  suffices h' : (v ∈ t.shared.db.users.map User.id ∧ t.shared.db.rowsOf v = s.shared.db.rowsOf v) ∧
      ∀ i e l, .did i e l ∈ as → ∀ k, Shows e k → k.userId ≠ v from ⟨h'.1.2, h'.2⟩
  induction h with
  | nil => exact ⟨⟨hv, rfl⟩, fun i e l he => nomatch he⟩
  | snoc h hr ih =>
    rename_i as w a t
    have hno' : ∀ i u, Vouched (Act.events i as) u → u.id ≠ v ∧ u.isAdmin = false := fun i u hu =>
      hno i u (events_append ▸ hu.append _)
    obtain ⟨⟨hmem, hrows⟩, hshown⟩ := ih hno'
    have hrun := h.snoc hr
    cases hr with
    | start => exact ⟨⟨hmem, hrows⟩, fun i e l he => hshown i e l (by simpa using he)⟩
    | env x =>
      refine ⟨?_, fun i e l he => hshown i e l (by simpa using he)⟩
      have hne : w.shared.db.users ≠ [] := by
        rintro hnil
        rw [hnil] at hmem
        cases hmem
      show v ∈ (env x w.shared).db.users.map User.id ∧ (env x w.shared).db.rowsOf v = _
      rw [env_db _ x hne]
      exact ⟨hmem, hrows⟩
    | did hbusy l =>
      rename_i i o k
      obtain ⟨r, -, hallowed⟩ := sat_of_run handle_sat hq hrun
      have hspares : Spares v o := by
        cases o with
        | insertKey userId =>
          obtain ⟨⟨u, hu, rfl⟩, -⟩ := hallowed
          exact (hno' i u hu).1
        | deleteKey keyId userId | listKeys userId =>
          obtain ⟨u, hu, rfl⟩ := hallowed
          exact (hno' i u hu).1
        | listAllUsers | listAllKeys | setKeyRevoked | dropLimiter | setUserActive =>
          obtain ⟨u, hu, hadmin⟩ := hallowed
          rw [(hno' i u hu).2] at hadmin
          cases hadmin
        | _ => rfl
      refine ⟨⟨exec_userIds _ l o hmem, (exec_rowsOf hmem hspares).trans hrows⟩, fun j e l' he k' hk => ?_⟩
      rcases List.mem_append.mp he with he | he
      · exact hshown j e l' he k' hk
      · cases List.mem_singleton.mp he
        exact exec_shows hspares hk

end

section

attribute [local instance] Crypto.plain Governor.standard

/-- Two accounts, and the process starts again. -/
def registered : Moves :=
  booted :: request 0 (.register "ann@x" "password") [{}, { uuid := 2 }] ++
    request 1 (.register "bob@x" "password") [{}, { uuid := 3 }] ++ [booted]

/-- The other account makes a key. -/
def creating : Moves :=
  request 2 (.createKey (withPassword "bob@x:password") (some { name := none, ratePerMin := none }))
    [{}, {}, {}, { bytes := [1, 2] }, { uuid := 4 }]

/-- Who is looked up is another account, and no admin. -/
def passesBy (v : Uuid) : Does → Bool
  | .did _ ⟨.userByEmail _, some (some u)⟩ _ => u.id ≠ v && !u.isAdmin
  | _ => true

theorem isolated_of_run_creating :
    (server.played (server.played start registered rfl).2 creating rfl).2.shared.db.rowsOf 2 =
      (server.played start registered rfl).2.shared.db.rowsOf 2 := by
  have hpass : (server.played (server.played start registered rfl).2 creating rfl).1.all (passesBy 2) = true := by
    decide +kernel
  refine (isolated_of_run (quiet_played _ rfl _) (by decide +kernel) (run_played _ rfl) fun i u hu => ?_).1
  obtain ⟨-, ⟨email, hmem⟩, -⟩ := hu
  obtain ⟨l, hl⟩ := mem_events.mp hmem
  simpa [passesBy] using List.all_eq_true.mp hpass _ hl

end

end Accounts

end OV.Impl
