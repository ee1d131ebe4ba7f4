import Ovlive.Proof.Api.Handlers

/-!
# Who administers

No request makes an admin: whoever the first process seeded, if it seeded
anybody, is the only one there ever is (`admins_settled`). And an admin who
is disabled while no request is in flight has locked the service for good:
nobody can enable an account again, and no later process seeds another admin
(`locked_out`).
-/

namespace OV.Impl

/-- The accounts that may administer. -/
def Db.admins (db : Db) : List Uuid := (db.users.filter User.isAdmin).map User.id

/-- No account that may administer is active. -/
def Db.Locked (db : Db) : Prop := ∀ u ∈ db.users, u.isAdmin = true → u.isActive = false

/-- The operations of the admin endpoints. -/
def AccountOp.isAdmin : AccountOp → Bool
  | .listAllUsers | .listAllKeys | .setKeyRevoked _ _ | .dropLimiter _ | .setUserActive _ _ => true
  | _ => false

namespace Db

theorem insertUser_users {db db' : Db} {u : User} (h : db.insertUser u = some db') : db'.users = db.users ++ [u] := by
  rw [insertUser] at h
  split at h
  · cases h
    rfl
  · cases h

theorem insertKey_users {db db' : Db} {k : ApiKey} (h : db.insertKey k = some db') : db'.users = db.users := by
  rw [insertKey] at h
  split at h
  · cases h
    rfl
  · cases h

theorem admins_insertUser {db db' : Db} {u : User} (h : db.insertUser u = some db') (hu : u.isAdmin = false) :
    db'.admins = db.admins := by
  rw [admins, insertUser_users h, List.filter_append]
  simp [hu, admins]

theorem admins_updateUser (db : Db) (id : Uuid) {f : User → User} (hid : ∀ u, (f u).id = u.id)
    (hemail : ∀ u, (f u).email = u.email) (hadmin : ∀ u, (f u).isAdmin = u.isAdmin) :
    (db.updateUser id f hid hemail).admins = db.admins := by
  have h : ∀ us : List User, ((us.map fun u => if u.id = id then f u else u).filter User.isAdmin).map User.id =
      (us.filter User.isAdmin).map User.id := by
    intro us
    induction us with
    | nil => rfl
    | cons u us ih =>
      have hu : (if u.id = id then f u else u).isAdmin = u.isAdmin ∧ (if u.id = id then f u else u).id = u.id := by
        split
        · exact ⟨hadmin u, hid u⟩
        · exact ⟨rfl, rfl⟩
      rw [List.map_cons, List.filter_cons, List.filter_cons, hu.1]
      split
      · rw [List.map_cons, List.map_cons, hu.2, ih]
      · exact ih
  exact h db.users

end Db

namespace Accounts

open Service

section

variable [Crypto] [Governor] {s t : Pool Accounts AccountOp AccountOp.Ans AccountResponse} {as bs : List Does}

theorem exec_admins (a : Accounts) (l : Luck) (o : AccountOp) : (exec l o a).2.db.admins = a.db.admins := by
  have h := exec_db a l o
  generalize (exec l o a).2.db = db at h ⊢
  rcases h with rfl | h
  · rfl
  · cases h with
    | insertUser h => exact Db.admins_insertUser h rfl
    | insertKey h => rw [Db.admins, Db.insertKey_users h, Db.admins]
    | deleteKey | touchKey | setKeyRevoked => rfl
    | setUserActive id active =>
      exact Db.admins_updateUser a.db id (f := fun u => { u with isActive := active }) (fun _ => rfl) (fun _ => rfl) fun _ => rfl

/-- Users are never removed. -/
theorem exec_users (a : Accounts) (l : Luck) (o : AccountOp) (hu : a.db.users ≠ []) : (exec l o a).2.db.users ≠ [] := by
  have h := exec_db a l o
  generalize (exec l o a).2.db = db at h ⊢
  rcases h with rfl | h
  · exact hu
  · cases h with
    | insertUser h => rw [Db.insertUser_users h]; exact List.append_ne_nil_of_left_ne_nil hu _
    | insertKey h => rwa [Db.insertKey_users h]
    | deleteKey | touchKey | setKeyRevoked => exact hu
    | setUserActive => simpa [Db.setUserActive, Db.updateUser] using hu

/-- A process seeds nobody where there are users. -/
theorem env_db (a : Accounts) (x : AccountEnv) (hu : a.db.users ≠ []) : (env x a).db = a.db := by
  cases x with
  | pass | gc => rfl
  | boot =>
    have hempty : a.db.users.isEmpty = false := by simpa using hu
    simp [env, seedAdmin, hempty]

/-- And at most one admin where there are none. -/
theorem env_admins_length (a : Accounts) (x : AccountEnv) (h : a.db.admins.length ≤ 1) :
    (env x a).db.admins.length ≤ 1 := by
  by_cases hu : a.db.users = []
  · have hnil : a.db.admins = [] := by rw [Db.admins, hu]; rfl
    cases x with
    | pass | gc => exact h
    | boot email password ipPerMin userPerMin counted l =>
      show (a.seedAdmin email password counted l).admins.length ≤ 1
      rw [seedAdmin]
      split
      · exact h
      · split
        · exact h
        · rcases write_db a l _ with hdb | ⟨_, db, hr, hdb⟩
          · rw [hdb]
            exact h
          · obtain ⟨db', hdb', heq⟩ := Option.map_eq_some_iff.mp hr
            cases heq
            rw [hdb, Db.admins, Db.insertUser_users hdb', hu]
            exact Nat.le_refl 1
  · rwa [env_db a x hu]

/-- The admins are those of the first user's time, and at most one. -/
theorem admins_settled (h0 : Run server.Step start as s) (h : Run server.Step s bs t) :
    s.shared.db.admins.length ≤ 1 ∧ (s.shared.db.users ≠ [] → t.shared.db.admins = s.shared.db.admins) := by
  constructor
  · exact shared_of_run (P := fun a => a.db.admins.length ≤ 1) h0 (fun l o a ha => by rwa [server, exec_admins])
      (fun x a ha => env_admins_length a x ha) (Nat.zero_le 1)
  · intro hu
    refine (shared_of_run (P := fun a => a.db.users ≠ [] ∧ a.db.admins = s.shared.db.admins) h (fun l o a ha => ?_)
      (fun x a ha => ?_) ⟨hu, rfl⟩).2
    · exact ⟨exec_users a l o ha.1, (exec_admins a l o).trans ha.2⟩
    · show (env x a).db.users ≠ [] ∧ (env x a).db.admins = _
      rw [env_db a x ha.1]
      exact ha

end

section

attribute [local instance] Crypto.plain Governor.standard

theorem admins_settled_registering :
    (server.played (server.played start [booted] rfl).2
      (request 0 (.register "ann@x" "password") [{}, { uuid := 2 }]) rfl).2.shared.db.admins = [1] :=
  (admins_settled (run_played (S := server) (s := start) [booted] rfl) (run_played _ rfl)).2 (by decide +kernel)

end

section

variable [Crypto] [Governor] {s t : Pool Accounts AccountOp AccountOp.Ans AccountResponse} {as : List Does}

/-- Only an admin's operation enables an admin. -/
theorem exec_locked {a : Accounts} {l : Luck} {o : AccountOp} (ha : a.db.Locked) (ho : o.isAdmin = false) :
    (exec l o a).2.db.Locked := by
  have h := exec_db a l o
  generalize (exec l o a).2.db = db at h ⊢
  rcases h with rfl | h
  · exact ha
  · cases h with
    | insertUser h =>
      intro u hu hadmin
      rw [Db.insertUser_users h] at hu
      rcases List.mem_append.mp hu with hu | hu
      · exact ha u hu hadmin
      · rw [List.mem_singleton.mp hu] at hadmin
        cases hadmin
    | insertKey h => rwa [Db.Locked, Db.insertKey_users h]
    | deleteKey | touchKey | setKeyRevoked => exact ha
    | setUserActive => cases ho

/-- What was looked up is a row of the table. -/
theorem mem_of_userByEmail {a : Accounts} {l : Luck} {email : String} {u : User}
    (h : (exec l (.userByEmail email) a).1 = some (some u)) : u ∈ a.db.users := by
  simp only [exec, read] at h
  split at h
  · exact List.mem_of_find?_eq_some (Option.some.inj h)
  · cases h

/-- An active admin was looked up. -/
def SawAdmin (e : AccountEvent) : Prop :=
  ∃ email u, e = ⟨.userByEmail email, some (some u)⟩ ∧ u.isAdmin = true ∧ u.isActive = true

/-- Where the admins are disabled and no request is in flight, no admin's
operation is ever done again, and they stay disabled. -/
theorem locked_out (hq : s.Quiet) (hu : s.shared.db.users ≠ []) (hlocked : s.shared.db.Locked)
    (h : Run server.Step s as t) :
    t.shared.db.Locked ∧ ∀ i e l, .did i e l ∈ as → e.op.isAdmin = false := by
  suffices h' : (t.shared.db.users ≠ [] ∧ t.shared.db.Locked) ∧
      ∀ i e l, .did i e l ∈ as → e.op.isAdmin = false ∧ ¬SawAdmin e from
    ⟨h'.1.2, fun i e l he => (h'.2 i e l he).1⟩
  induction h with
  | nil => exact ⟨⟨hu, hlocked⟩, fun i e l he => nomatch he⟩
  | snoc h hr ih =>
    rename_i as v a t
    obtain ⟨⟨hne, hl⟩, hev⟩ := ih
    have hrun := h.snoc hr
    cases hr with
    | start => exact ⟨⟨hne, hl⟩, fun i e l he => hev i e l (by simpa using he)⟩
    | env x =>
      refine ⟨?_, fun i e l he => hev i e l (by simpa using he)⟩
      show (env x v.shared).db.users ≠ [] ∧ (env x v.shared).db.Locked
      rw [env_db _ x hne]
      exact ⟨hne, hl⟩
    | did hbusy l =>
      rename_i i o k
      obtain ⟨r, -, hallowed⟩ := sat_of_run handle_sat hq hrun
      -- an admin's operation comes after the admin was looked up, and none was active then
      have hno : ¬∃ u, Vouched (Act.events i as) u ∧ u.isAdmin = true := by
        rintro ⟨u, ⟨hactive, ⟨email, hmem⟩, -⟩, hadmin⟩
        obtain ⟨l', hl'⟩ := mem_events.mp hmem
        exact (hev i _ l' hl').2 ⟨email, u, rfl, hadmin, hactive⟩
      have hop : o.isAdmin = false := by
        cases o <;> first | rfl | exact absurd hallowed hno
      refine ⟨⟨exec_users _ l o hne, exec_locked hl hop⟩, fun j e l' he => ?_⟩
      rcases List.mem_append.mp he with he | he
      · exact hev j e l' he
      · cases List.mem_singleton.mp he
        refine ⟨hop, fun hsaw => ?_⟩
        obtain ⟨email, u, heq, hadmin, hactive⟩ := hsaw
        cases o with
        | userByEmail email' =>
          simp only [Event.mk.injEq, AccountOp.userByEmail.injEq] at heq
          have hmem := mem_of_userByEmail (eq_of_heq heq.2)
          rw [hl u hmem hadmin] at hactive
          cases hactive
        | _ => cases congrArg Event.op heq

end

section

attribute [local instance] Crypto.plain Governor.standard

/-- The admin disables itself, and the process starts again. -/
def disabling : Moves :=
  booted :: request 0 (.adminSetActive (withPassword "root@x:password") (some 1) false) [{}, {}, {}, {}] ++ [booted]

theorem locked_out_disabling :
    (server.played (server.played start disabling rfl).2
      (request 1 (.adminSetActive (withPassword "root@x:password") (some 1) true) [{}, {}]) rfl).2.shared.db.Locked :=
  (locked_out (quiet_played _ rfl _) (by decide +kernel) (by unfold Db.Locked; decide +kernel) (run_played _ rfl)).1

end

end Accounts

end OV.Impl
