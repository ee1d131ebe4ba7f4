import Ovlive.Framework.Latest
import Ovlive.Framework.Lists
import Ovlive.Proof.Api.Tenants

/-!
# Which keys are good

What the statements of a run answered (`effects`) decides which keys
authenticate after it: a key that was created, unless it was deleted, as its
last revocation and its owner's last activation left it (`good_iff`). That
takes answers that are not lost and no id that is drawn again for a key.

A request that comes in after a key was revoked or deleted is not served for
it (`revoked_refused`), and one after an account was disabled is neither
served nor let in for the account (`disabled_refused`), whatever other
requests do in the meantime, unless they undo it.
-/

namespace OV.Impl

/-- What a statement did, as it was answered. -/
inductive Effect
  | created (k : ApiKey)
  | deleted (id : Uuid)
  | revoked (id : Uuid) (b : Bool)
  | active (id : Uuid) (b : Bool)
  deriving DecidableEq

def effect : AccountEvent → Option Effect
  | ⟨.insertKey .., some k⟩ => some (.created k)
  | ⟨.deleteKey id _, some true⟩ => some (.deleted id)
  | ⟨.setKeyRevoked id b, some true⟩ => some (.revoked id b)
  | ⟨.setUserActive id b, some true⟩ => some (.active id b)
  | _ => none

namespace Effect

variable (es : List Effect) (id : Uuid)

def createdIds : List Uuid :=
  es.filterMap fun
    | .created k => some k.id
    | _ => none

/-- Whether a key is revoked, by the last statement about it. -/
def revokedBy : Bool :=
  (latest (fun
    | .revoked id' b => if id' = id then some b else none
    | _ => none) es).getD false

/-- Whether an account is active, likewise. -/
def activeBy : Bool :=
  (latest (fun
    | .active id' b => if id' = id then some b else none
    | _ => none) es).getD true

variable {es id}

theorem createdIds_append (es fs : List Effect) : createdIds (es ++ fs) = createdIds es ++ createdIds fs :=
  List.filterMap_append

theorem mem_createdIds_append (fs : List Effect) (h : id ∈ createdIds es) : id ∈ createdIds (es ++ fs) :=
  createdIds_append es fs ▸ List.mem_append_left _ h

theorem revokedBy_snoc (es : List Effect) (e : Effect) (id : Uuid) :
    revokedBy (es ++ [e]) id =
      match e with
      | .revoked id' b => if id' = id then b else revokedBy es id
      | _ => revokedBy es id := by
  rw [revokedBy, latest_snoc]
  cases e with
  | revoked id' b => by_cases h : id' = id <;> simp [h, revokedBy]
  | _ => rfl

theorem activeBy_snoc (es : List Effect) (e : Effect) (id : Uuid) :
    activeBy (es ++ [e]) id =
      match e with
      | .active id' b => if id' = id then b else activeBy es id
      | _ => activeBy es id := by
  rw [activeBy, latest_snoc]
  cases e with
  | active id' b => by_cases h : id' = id <;> simp [h, activeBy]
  | _ => rfl

/-- Without a statement about it a key is not revoked. -/
theorem revokedBy_of_no (h : ∀ b, .revoked id b ∉ es) : revokedBy es id = false := by
  rw [revokedBy]
  generalize hl : latest _ es = l
  cases l with
  | none => rfl
  | some b =>
    obtain ⟨e, he, hb⟩ := exists_mem_of_latest hl
    cases e with
    | revoked id' b =>
      obtain ⟨rfl, -⟩ := Option.ite_none_right_eq_some.mp hb
      exact absurd he (h b)
    | _ => cases hb

theorem activeBy_of_no (h : ∀ b, .active id b ∉ es) : activeBy es id = true := by
  rw [activeBy]
  generalize hl : latest _ es = l
  cases l with
  | none => rfl
  | some b =>
    obtain ⟨e, he, hb⟩ := exists_mem_of_latest hl
    cases e with
    | active id' b =>
      obtain ⟨rfl, -⟩ := Option.ite_none_right_eq_some.mp hb
      exact absurd he (h b)
    | _ => cases hb

end Effect

open Effect

namespace Db

theorem keyIds_updateKey (db : Db) (id : Uuid) {f : ApiKey → ApiKey} (hid : ∀ k, (f k).id = k.id)
    (hhash : ∀ k, (f k).keyHash = k.keyHash) (howner : ∀ k, (f k).userId = k.userId) :
    (db.updateKey id f hid hhash howner).apiKeys.map ApiKey.id = db.apiKeys.map ApiKey.id :=
  map_update (p := fun k : ApiKey => k.id = id) hid db.apiKeys

variable {db : Db}

theorem keyByHash_of_mem {k : ApiKey} (hk : k ∈ db.apiKeys) (hrevoked : k.revoked = false) :
    db.keyByHash k.keyHash = some k := by
  refine find?_eq_some_of_unique hk (by simp [hrevoked]) fun l hl h => ?_
  simp only [Bool.and_eq_true, decide_eq_true_eq] at h
  exact List.inj_on_of_nodup_map db.keyHashes hl hk h.1

theorem activeUser_of_mem {u : User} (hu : u ∈ db.users) (hactive : u.isActive = true) : db.activeUser u.id = some u := by
  refine find?_eq_some_of_unique hu (by simp [hactive]) fun v hv h => ?_
  simp only [Bool.and_eq_true, decide_eq_true_eq] at h
  exact List.inj_on_of_nodup_map db.userIds hv hu h.1

/-- The row that was deleted was the only one with its id. -/
theorem deleteKey_removed {keyId userId : Uuid} (h : (db.deleteKey keyId userId).1 = true) :
    keyId ∉ (db.deleteKey keyId userId).2.apiKeys.map ApiKey.id := by
  obtain ⟨k, hk, hfound⟩ := List.any_eq_true.mp h
  simp only [Bool.and_eq_true, decide_eq_true_eq] at hfound
  obtain ⟨rfl, rfl⟩ := hfound
  intro hmem
  obtain ⟨l, hl, hid⟩ := List.mem_map.mp hmem
  obtain ⟨hl, hkeep⟩ := List.mem_filter.mp hl
  obtain rfl := List.inj_on_of_nodup_map db.keyIds hl hk hid
  simp at hkeep

theorem of_keyByHash {hash : String} {k : ApiKey} (h : db.keyByHash hash = some k) : k ∈ db.apiKeys ∧ k.revoked = false := by
  have hk := List.find?_some h
  simp only [Bool.and_eq_true, Bool.not_eq_true'] at hk
  exact ⟨List.mem_of_find?_eq_some h, hk.2⟩

theorem of_activeUser {id : Uuid} {u : User} (h : db.activeUser id = some u) :
    u ∈ db.users ∧ u.id = id ∧ u.isActive = true := by
  have hu := List.find?_some h
  simp only [Bool.and_eq_true, decide_eq_true_eq] at hu
  exact ⟨List.mem_of_find?_eq_some h, hu⟩

end Db

/-- The tables are what the effects made of them. -/
structure Recorded (es : List Effect) (db : Db) : Prop where
  /-- A key that was not deleted has its row. -/
  kept : ∀ k, .created k ∈ es → .deleted k.id ∉ es →
    ∃ used, { k with revoked := revokedBy es k.id, lastUsedAt := used } ∈ db.apiKeys
  removed : ∀ id, .deleted id ∈ es → id ∉ db.apiKeys.map ApiKey.id
  rows : ∀ id ∈ db.apiKeys.map ApiKey.id, id ∈ createdIds es
  deletedIds : ∀ id, .deleted id ∈ es → id ∈ createdIds es
  revokedIds : ∀ id b, .revoked id b ∈ es → id ∈ createdIds es
  activeIds : ∀ id b, .active id b ∈ es → id ∈ db.users.map User.id
  users : ∀ u ∈ db.users, u.isActive = activeBy es u.id

namespace Recorded

variable {es : List Effect} {db db' : Db}

theorem empty : Recorded [] {} where
  kept k hk := by cases hk
  removed id hid := by cases hid
  rows id hid := by cases hid
  deletedIds id hid := by cases hid
  revokedIds id b hid := by cases hid
  activeIds id b hid := by cases hid
  users u hu := by cases hu

theorem insertUser (h : Recorded es db) {u : User} (hu : db.insertUser u = some db') (hactive : u.isActive = true) :
    Recorded es db' where
  kept := by rw [Db.insertUser_apiKeys hu]; exact h.kept
  removed := by rw [Db.insertUser_apiKeys hu]; exact h.removed
  rows := by rw [Db.insertUser_apiKeys hu]; exact h.rows
  deletedIds := h.deletedIds
  revokedIds := h.revokedIds
  activeIds id b hid := by
    rw [Db.insertUser_users hu, List.map_append]
    exact List.mem_append_left _ (h.activeIds id b hid)
  users v hv := by
    rw [Db.insertUser_users hu] at hv
    rcases List.mem_append.mp hv with hv | hv
    · exact h.users v hv
    · rw [List.mem_singleton.mp hv, hactive, activeBy_of_no]
      exact fun b hmem => Db.insertUser_fresh hu (h.activeIds _ b hmem)

theorem insertKey (h : Recorded es db) {k : ApiKey} (hk : db.insertKey k = some db') (hrevoked : k.revoked = false)
    (hfresh : k.id ∉ createdIds es) : Recorded (es ++ [.created k]) db' where
  kept l hl hdel := by
    rw [Db.insertKey_apiKeys hk, revokedBy_snoc]
    simp only [List.mem_append, List.mem_singleton, reduceCtorEq, or_false, Effect.created.injEq] at hl hdel
    rcases hl with hl | rfl
    · obtain ⟨used, hused⟩ := h.kept l hl hdel
      exact ⟨used, List.mem_append_left _ hused⟩
    · refine ⟨l.lastUsedAt, List.mem_append_right _ ?_⟩
      rw [revokedBy_of_no fun b hmem => hfresh (h.revokedIds _ b hmem), ← hrevoked]
      exact List.mem_singleton_self l
  removed id hid := by
    rw [Db.insertKey_apiKeys hk, List.map_append, List.mem_append]
    simp only [List.mem_append, List.mem_singleton, reduceCtorEq, or_false] at hid
    rintro (hmem | hmem)
    · exact h.removed id hid hmem
    · rw [List.map_singleton, List.mem_singleton] at hmem
      exact hfresh (hmem ▸ h.deletedIds id hid)
  rows id hid := by
    rw [Db.insertKey_apiKeys hk, List.map_append] at hid
    rw [createdIds_append]
    rcases List.mem_append.mp hid with hid | hid
    · exact List.mem_append_left _ (h.rows id hid)
    · exact List.mem_append_right _ hid
  deletedIds id hid := mem_createdIds_append _ (h.deletedIds id (by simpa using hid))
  revokedIds id b hid := mem_createdIds_append _ (h.revokedIds id b (by simpa using hid))
  activeIds id b hid := by
    rw [Db.insertKey_users hk]
    exact h.activeIds id b (by simpa using hid)
  users u hu := by
    rw [activeBy_snoc]
    rw [Db.insertKey_users hk] at hu
    exact h.users u hu

/-- A statement that found no row. -/
theorem same (h : Recorded es db) (hkeys : db'.apiKeys = db.apiKeys) (husers : db'.users = db.users) : Recorded es db' where
  kept := by rw [hkeys]; exact h.kept
  removed := by rw [hkeys]; exact h.removed
  rows := by rw [hkeys]; exact h.rows
  deletedIds := h.deletedIds
  revokedIds := h.revokedIds
  activeIds := by rw [husers]; exact h.activeIds
  users := by rw [husers]; exact h.users

theorem deleteKey (h : Recorded es db) {keyId userId : Uuid} (hfound : (db.deleteKey keyId userId).1 = true) :
    Recorded (es ++ [.deleted keyId]) (db.deleteKey keyId userId).2 where
  kept k hk hdel := by
    simp only [List.mem_append, List.mem_singleton, reduceCtorEq, or_false, Effect.deleted.injEq, not_or] at hk hdel
    obtain ⟨used, hused⟩ := h.kept k hk hdel.1
    refine ⟨used, List.mem_filter.mpr ⟨?_, ?_⟩⟩
    · rwa [revokedBy_snoc]
    · simp [hdel.2]
  removed id hid := by
    simp only [List.mem_append, List.mem_singleton, Effect.deleted.injEq] at hid
    rcases hid with hid | rfl
    · exact fun hmem => h.removed id hid ((List.filter_sublist.map _).subset hmem)
    · exact Db.deleteKey_removed hfound
  rows id hid := mem_createdIds_append _ (h.rows id ((List.filter_sublist.map _).subset hid))
  deletedIds id hid := by
    simp only [List.mem_append, List.mem_singleton, Effect.deleted.injEq] at hid
    rcases hid with hid | rfl
    · exact mem_createdIds_append _ (h.deletedIds id hid)
    · obtain ⟨k, hk, hfound⟩ := List.any_eq_true.mp hfound
      simp only [Bool.and_eq_true, decide_eq_true_eq] at hfound
      exact mem_createdIds_append _ (hfound.1 ▸ h.rows _ (List.mem_map_of_mem hk))
  revokedIds id b hid := mem_createdIds_append _ (h.revokedIds id b (by simpa using hid))
  activeIds id b hid := h.activeIds id b (by simpa using hid)
  users u hu := by
    rw [activeBy_snoc]
    exact h.users u hu

theorem touchKey (h : Recorded es db) (id : Uuid) (now : Nat) : Recorded es (db.touchKey id now) where
  kept k hk hdel := by
    obtain ⟨used, hused⟩ := h.kept k hk hdel
    by_cases hid : k.id = id
    · exact ⟨some now, List.mem_map.mpr ⟨_, hused, by simp [hid]⟩⟩
    · exact ⟨used, List.mem_map.mpr ⟨_, hused, by simp [hid]⟩⟩
  removed := by rw [Db.touchKey, Db.keyIds_updateKey]; exact h.removed
  rows := by rw [Db.touchKey, Db.keyIds_updateKey]; exact h.rows
  deletedIds := h.deletedIds
  revokedIds := h.revokedIds
  activeIds := h.activeIds
  users := h.users

theorem setKeyRevoked (h : Recorded es db) {id : Uuid} {b : Bool} (hfound : (db.setKeyRevoked id b).1 = true) :
    Recorded (es ++ [.revoked id b]) (db.setKeyRevoked id b).2 where
  kept k hk hdel := by
    simp only [List.mem_append, List.mem_singleton, reduceCtorEq, or_false] at hk hdel
    obtain ⟨used, hused⟩ := h.kept k hk hdel
    refine ⟨used, List.mem_map.mpr ⟨_, hused, ?_⟩⟩
    rw [revokedBy_snoc]
    by_cases hid : k.id = id
    · simp [hid]
    · simp [hid, Ne.symm hid]
  removed id' hid := by
    rw [Db.setKeyRevoked, Db.keyIds_updateKey]
    exact h.removed id' (by simpa using hid)
  rows id' hid := by
    rw [Db.setKeyRevoked, Db.keyIds_updateKey] at hid
    exact mem_createdIds_append _ (h.rows id' hid)
  deletedIds id' hid := mem_createdIds_append _ (h.deletedIds id' (by simpa using hid))
  revokedIds id' b' hid := by
    simp only [List.mem_append, List.mem_singleton, Effect.revoked.injEq] at hid
    rcases hid with hid | ⟨rfl, -⟩
    · exact mem_createdIds_append _ (h.revokedIds id' b' hid)
    · obtain ⟨k, hk, hfound⟩ := List.any_eq_true.mp hfound
      exact mem_createdIds_append _ (of_decide_eq_true hfound ▸ h.rows _ (List.mem_map_of_mem hk))
  activeIds id' b' hid := h.activeIds id' b' (by simpa using hid)
  users u hu := by
    rw [activeBy_snoc]
    exact h.users u hu

theorem setUserActive (h : Recorded es db) {id : Uuid} {b : Bool} (hfound : (db.setUserActive id b).1 = true) :
    Recorded (es ++ [.active id b]) (db.setUserActive id b).2 where
  kept k hk hdel := by
    simp only [List.mem_append, List.mem_singleton, reduceCtorEq, or_false] at hk hdel
    rw [revokedBy_snoc]
    exact h.kept k hk hdel
  removed id' hid := h.removed id' (by simpa using hid)
  rows id' hid := mem_createdIds_append _ (h.rows id' hid)
  deletedIds id' hid := mem_createdIds_append _ (h.deletedIds id' (by simpa using hid))
  revokedIds id' b' hid := mem_createdIds_append _ (h.revokedIds id' b' (by simpa using hid))
  activeIds id' b' hid := by
    rw [Db.userIds_setUserActive]
    simp only [List.mem_append, List.mem_singleton, Effect.active.injEq] at hid
    rcases hid with hid | ⟨rfl, -⟩
    · exact h.activeIds id' b' hid
    · obtain ⟨u, hu, hfound⟩ := List.any_eq_true.mp hfound
      exact of_decide_eq_true hfound ▸ List.mem_map_of_mem hu
  users u hu := by
    obtain ⟨v, hv, rfl⟩ := List.mem_map.mp hu
    rw [activeBy_snoc]
    by_cases hid : v.id = id
    · simp [hid]
    · simpa [hid, Ne.symm hid] using h.users v hv

end Recorded

/-! ## Runs -/

namespace Accounts

open Service

/-- What the statements of a run did. -/
def effects (as : List Does) : List Effect :=
  as.filterMap fun
    | .did _ e _ => effect e
    | _ => none

def isLost : Does → Bool
  | .did _ _ l => l.fault = .lost
  | _ => false

/-- Every answer arrives. -/
def Heard (as : List Does) : Prop := ∀ a ∈ as, isLost a = false

theorem effects_append (as bs : List Does) : effects (as ++ bs) = effects as ++ effects bs := List.filterMap_append

theorem effects_did (i : Nat) (e : AccountEvent) (l : Luck) : effects [.did i e l] = (effect e).toList := by
  show List.filterMap _ [_] = _
  cases h : effect e <;> simp [h]

section

variable [Governor]

theorem write_heard {α : Type} (a : Accounts) {l : Luck} (r : Option (α × Db)) (hl : l.fault ≠ .lost) :
    a.write l r = (none, a) ∨ ∃ x db, r = some (x, db) ∧ a.write l r = (some x, { a with db := db }) := by
  unfold write
  split
  · exact .inr ⟨_, _, rfl, rfl⟩
  · exact absurd ‹_› hl
  · exact .inl rfl

/-- A statement that answered was done. -/
theorem write_answered {α : Type} {a : Accounts} {l : Luck} {r : α × Db} {x : α} (h : (a.write l (some r)).1 = some x) :
    r.1 = x ∧ (a.write l (some r)).2.db = r.2 := by
  unfold write at h ⊢
  split at h <;> rename_i heq
  · cases heq
    exact ⟨Option.some.inj h, rfl⟩
  · cases h
  · cases h

/-- A statement that answers whether it found its row. -/
theorem write_recorded {es : List Effect} {a : Accounts} {l : Luck} {e : Effect} {f : Option Bool → Option Effect}
    {r : Bool × Db} (hl : l.fault ≠ .lost) (h : Recorded es a.db) (hfailed : f none = none) (hfalse : f (some false) = none)
    (htrue : f (some true) = some e) (hfound : r.1 = true → Recorded (es ++ [e]) r.2)
    (hmissed : r.1 = false → Recorded es r.2) :
    Recorded (es ++ (f (a.write l (some r)).1).toList) (a.write l (some r)).2.db := by
  rcases write_heard a (some r) hl with hw | ⟨found, db, hr, hw⟩
  · rw [hw, hfailed, Option.toList_none, List.append_nil]
    exact h
  · cases hr
    rw [hw]
    cases found with
    | true =>
      rw [htrue]
      exact hfound rfl
    | false =>
      rw [hfalse, Option.toList_none, List.append_nil]
      exact hmissed rfl

variable [Crypto] {s t : Pool Accounts AccountOp AccountOp.Ans AccountResponse} {as bs : List Does}

/-- A statement leaves what its answer says. -/
theorem exec_recorded {es : List Effect} {a : Accounts} {l : Luck} {o : AccountOp} (hl : l.fault ≠ .lost)
    (h : Recorded es a.db) (hids : (createdIds (es ++ (effect ⟨o, (exec l o a).1⟩).toList)).Nodup) :
    Recorded (es ++ (effect ⟨o, (exec l o a).1⟩).toList) (exec l o a).2.db := by
  have hnone : Recorded (es ++ []) a.db := by rwa [List.append_nil]
  cases o with
  | insertUser email hash =>
    show Recorded (es ++ []) (a.write l _).2.db
    rcases write_db a l _ with hdb | ⟨_, db, hr, hdb⟩
    · rwa [hdb]
    · obtain ⟨db', hdb', heq⟩ := Option.map_eq_some_iff.mp hr
      cases heq
      rw [hdb]
      exact hnone.insertUser hdb' rfl
  | insertKey userId name keyPrefix hash rate =>
    simp only [exec] at hids ⊢
    rcases write_heard a (((a.db.insertKey (a.newKey l userId name keyPrefix hash rate))).map fun db =>
      (a.newKey l userId name keyPrefix hash rate, db)) hl with hw | ⟨k, db, hr, hw⟩
    · rw [hw]
      exact hnone
    · obtain ⟨db', hdb', heq⟩ := Option.map_eq_some_iff.mp hr
      cases heq
      rw [hw] at hids ⊢
      refine h.insertKey hdb' rfl fun hmem => ?_
      have hids : (createdIds (es ++ [.created (a.newKey l userId name keyPrefix hash rate)])).Nodup := hids
      rw [createdIds_append, List.nodup_append'] at hids
      exact hids.2.2 hmem (List.mem_singleton_self _)
  | deleteKey keyId userId =>
    refine write_recorded (f := fun x => effect ⟨.deleteKey keyId userId, x⟩) hl h rfl rfl rfl h.deleteKey fun hfound => ?_
    refine h.same (List.filter_eq_self.mpr fun k hk => ?_) rfl
    simpa only [Bool.not_eq_true', Bool.not_eq_true] using List.any_eq_false.mp hfound k hk
  | touchKey id =>
    show Recorded (es ++ []) (a.write l (some ((), a.db.touchKey id a.now))).2.db
    rcases write_db a l (some ((), a.db.touchKey id a.now)) with hdb | ⟨_, db, hr, hdb⟩
    · rwa [hdb]
    · cases hr
      rw [hdb]
      exact hnone.touchKey id a.now
  | setKeyRevoked id b =>
    refine write_recorded (f := fun x => effect ⟨.setKeyRevoked id b, x⟩) hl h rfl rfl rfl h.setKeyRevoked fun hfound => ?_
    refine h.same ((List.map_congr_left fun k hk => ?_).trans (List.map_id _)) rfl
    have hne := List.any_eq_false.mp hfound k hk
    rw [if_neg (by simpa using hne), id_eq]
  | setUserActive id b =>
    refine write_recorded (f := fun x => effect ⟨.setUserActive id b, x⟩) hl h rfl rfl rfl h.setUserActive fun hfound => ?_
    refine h.same rfl ((List.map_congr_left fun u hu => ?_).trans (List.map_id _))
    have hne := List.any_eq_false.mp hfound u hu
    rw [if_neg (by simpa using hne), id_eq]
  | _ => exact hnone

/-- And what a run leaves. -/
theorem recorded_of_run (h : Run server.Step start as t) (hheard : Heard as) (hids : (createdIds (effects as)).Nodup) :
    Recorded (effects as) t.shared.db := by
  induction h with
  | nil => exact .empty
  | snoc _ hr ih =>
    rename_i as u a t _
    rw [effects_append] at hids ⊢
    have hids' := hids
    rw [createdIds_append] at hids'
    have ih := ih (fun a ha => hheard a (List.mem_append_left _ ha)) (List.nodup_append'.mp hids').1
    cases hr with
    | start hfree r =>
      rename_i i
      have hnil : effects [(.start i r : Does)] = [] := rfl
      rw [hnil, List.append_nil]
      exact ih
    | did hbusy l =>
      rw [effects_did] at hids ⊢
      exact exec_recorded (of_decide_eq_false (hheard _ List.mem_concat_self)) ih hids
    | env x =>
      have hnil : effects [(.env x : Does)] = [] := rfl
      rw [hnil, List.append_nil]
      cases x with
      | pass | gc => exact ih
      | boot email password ipPerMin userPerMin counted l =>
        show Recorded _ (u.shared.seedAdmin email password counted l)
        rw [seedAdmin]
        split
        · exact ih
        · split
          · exact ih
          · rcases write_db u.shared l _ with hdb | ⟨_, db, hr, hdb⟩
            · rw [hdb]
              exact ih
            · obtain ⟨db', hdb', heq⟩ := Option.map_eq_some_iff.mp hr
              cases heq
              rw [hdb]
              exact ih.insertUser hdb' rfl

/-- A key that is looked up while no other request is at work. -/
theorem authenticateKey_alone (a : Accounts) (full : String) :
    ((authenticateKey full).alone (exec {}) a).1 =
      some ((a.db.keyByHash (Crypto.sha256Hex full)).bind fun k => (a.db.activeUser k.userId).map fun u => (k, u)) := by
  simp only [authenticateKey, Prog.alone_bind, Prog.alone_perform, exec, read, if_true]
  cases hk : a.db.keyByHash (Crypto.sha256Hex full) with
  | none => rfl
  | some k =>
    simp only [Prog.alone_bind, Prog.alone_perform, exec, read, if_true, Option.bind_some]
    cases hu : a.db.activeUser k.userId <;> rfl

/-- After a run a key authenticates exactly if it was not deleted, its last
revocation was undone and its owner was last activated. -/
theorem good_iff (h : Run server.Step start as t) (hheard : Heard as) (hids : (createdIds (effects as)).Nodup) {k : ApiKey}
    (hk : .created k ∈ effects as) {full : String} (hfull : Crypto.sha256Hex full = k.keyHash) :
    (∃ l u, ((authenticateKey full).alone (exec {}) t.shared).1 = some (some (l, u)) ∧ l.id = k.id ∧ u.id = k.userId) ↔
      .deleted k.id ∉ effects as ∧ revokedBy (effects as) k.id = false ∧ activeBy (effects as) k.userId = true := by
  have hrec := recorded_of_run h hheard hids
  generalize effects as = es at hrec hk
  generalize t.shared = a at hrec
  rw [authenticateKey_alone, hfull]
  constructor
  · rintro ⟨l, u, hauth, hl, hu⟩
    obtain ⟨l', hl', hlu⟩ := Option.bind_eq_some_iff.mp (Option.some.inj hauth)
    obtain ⟨u', hu', heq⟩ := Option.map_eq_some_iff.mp hlu
    cases heq
    obtain ⟨hmem, hlive⟩ := Db.of_keyByHash hl'
    obtain ⟨huser, -, hactive⟩ := Db.of_activeUser hu'
    have hdel : .deleted k.id ∉ es := fun hdel => hrec.removed _ hdel (hl ▸ List.mem_map_of_mem hmem)
    obtain ⟨used, hused⟩ := hrec.kept k hk hdel
    obtain rfl := List.inj_on_of_nodup_map a.db.keyIds hmem hused hl
    refine ⟨hdel, hlive, ?_⟩
    rw [← hu, ← hrec.users u huser, hactive]
  · rintro ⟨hdel, hrevoked, hactive⟩
    obtain ⟨used, hused⟩ := hrec.kept k hk hdel
    rw [hrevoked] at hused
    obtain ⟨u, hu, huser⟩ := List.mem_map.mp (a.db.owned _ hused)
    have hkey := Db.keyByHash_of_mem hused rfl
    have hrow : a.db.activeUser k.userId = some u := by
      have huser : u.id = k.userId := huser
      rw [← huser] at hactive ⊢
      exact Db.activeUser_of_mem hu ((hrec.users u hu).trans hactive)
    refine ⟨{ k with revoked := false, lastUsedAt := used }, u, ?_, rfl, huser⟩
    have hkey : a.db.keyByHash k.keyHash = some { k with revoked := false, lastUsedAt := used } := hkey
    rw [hkey, Option.bind_some]
    exact congrArg some (congrArg (Option.map _) hrow)

end

section

attribute [local instance] Crypto.plain Governor.standard

/-- The admin's two keys. -/
def made : Moves :=
  booted ::
    request 0 (.createKey (withPassword "root@x:password") (some { name := none, ratePerMin := none }))
      [{}, {}, {}, { bytes := [1, 2] }, { uuid := 4 }] ++
    request 1 (.createKey (withPassword "root@x:password") (some { name := none, ratePerMin := none }))
      [{}, {}, {}, { bytes := [3, 4] }, { uuid := 5 }]

/-- One of them is revoked, and restored. -/
def restored : Moves :=
  made ++ request 2 (.adminSetRevoked (withPassword "root@x:password") (some 4) true) (List.replicate 5 {}) ++
    request 3 (.adminSetRevoked (withPassword "root@x:password") (some 4) false) (List.replicate 5 {})

theorem good_iff_restored :
    ∃ l u, ((authenticateKey "ovl_0102").alone (exec {}) (server.played start restored rfl).2.shared).1 =
      some (some (l, u)) ∧ l.id = 4 ∧ u.id = 1 := by
  have hk : (effects (server.played start restored rfl).1).head? = some (.created
      { id := 4, userId := 1, name := "default", keyPrefix := "ovl_0102", keyHash := "ovl_0102", ratePerMin := 120
        revoked := false, createdAt := 0, lastUsedAt := none }) := by decide +kernel
  exact (good_iff (run_played _ rfl) (by unfold Heard; decide +kernel) (by decide +kernel) (List.mem_of_head? hk) rfl).mpr
    ⟨by decide +kernel, by decide +kernel, by decide +kernel⟩

end

/-! ## Later requests -/

section

variable [Crypto] [Governor] {s t : Pool Accounts AccountOp AccountOp.Ans AccountResponse} {as bs : List Does}

theorem env_apiKeys (x : AccountEnv) (a : Accounts) : (env x a).db.apiKeys = a.db.apiKeys := by
  cases x with
  | pass | gc => rfl
  | boot email password ipPerMin userPerMin counted l =>
    show (a.seedAdmin email password counted l).apiKeys = _
    rw [seedAdmin]
    split
    · rfl
    · split
      · rfl
      · rcases write_db a l _ with hdb | ⟨_, db, hr, hdb⟩
        · rw [hdb]
        · obtain ⟨db', hdb', heq⟩ := Option.map_eq_some_iff.mp hr
          cases heq
          rw [hdb, Db.insertUser_apiKeys hdb']

/-- What a task that comes in later than an operation looked up, it looked up later. -/
theorem later_of_mem {i j : Nat} {e d : AccountEvent} {l : Luck} {r : AccountRequest} (hq : s.Quiet)
    (h : Run server.Step s (as ++ .did j d l :: bs) t) (hstart : .start i r ∈ bs)
    (he : e ∈ Act.events i (as ++ .did j d l :: bs)) : ∃ l', .did i e l' ∈ bs := by
  rw [List.append_cons] at h he
  rw [events_append, events_eq_nil_of_start h hq hstart, List.nil_append] at he
  exact mem_events.mp he

/-- No row of the key is good. -/
def Barred (id : Uuid) (db : Db) : Prop := ∀ k ∈ db.apiKeys, k.id = id → k.revoked = true

/-- A key was revoked or deleted. -/
def Bars (id : Uuid) : AccountEvent → Prop
  | ⟨.setKeyRevoked id' true, some _⟩ | ⟨.deleteKey id' _, some true⟩ => id' = id
  | _ => False

/-- A key is restored, or another gets its id. -/
def restores (id : Uuid) : AccountOp → Luck → Bool
  | .setKeyRevoked id' b, _ => id' = id && !b
  | .insertKey .., l => l.uuid = id
  | _, _ => false

def spares (id : Uuid) : Does → Bool
  | .did _ e l => !restores id e.op l
  | _ => true

theorem exec_barred {id : Uuid} {l : Luck} {o : AccountOp} {a : Accounts} (ho : restores id o l = false) (ha : Barred id a.db) :
    Barred id (exec l o a).2.db := by
  have h := exec_db a l o
  generalize (exec l o a).2.db = db at h ⊢
  rcases h with rfl | h
  · exact ha
  · cases h with
    | insertUser h => rwa [Barred, Db.insertUser_apiKeys h]
    | insertKey h =>
      intro k hk hid
      rw [Db.insertKey_apiKeys h] at hk
      rcases List.mem_append.mp hk with hk | hk
      · exact ha k hk hid
      · rw [List.mem_singleton.mp hk] at hid
        exact absurd hid (of_decide_eq_false ho)
    | deleteKey => exact fun k hk => ha k (List.mem_filter.mp hk).1
    | touchKey id' =>
      intro k hk hid
      obtain ⟨k', hk', rfl⟩ := List.mem_map.mp hk
      by_cases hid' : k'.id = id'
      · simp only [hid', if_true] at hid ⊢
        exact ha k' hk' (hid'.trans hid)
      · simp only [hid', if_false] at hid ⊢
        exact ha k' hk' hid
    | setKeyRevoked id' b =>
      intro k hk hid
      obtain ⟨k', hk', rfl⟩ := List.mem_map.mp hk
      by_cases hid' : k'.id = id'
      · simp only [hid', if_true] at hid ⊢
        simpa [restores, hid] using ho
      · simp only [hid', if_false] at hid ⊢
        exact ha k' hk' hid
    | setUserActive => exact ha

/-- Once it was revoked or deleted it has none. -/
theorem exec_bars {id : Uuid} {l : Luck} {o : AccountOp} {a : Accounts} (h : Bars id ⟨o, (exec l o a).1⟩) :
    Barred id (exec l o a).2.db := by
  cases o with
  | setKeyRevoked id' b =>
    simp only [exec] at h ⊢
    cases hx : (a.write l (some (a.db.setKeyRevoked id' b))).1 with
    | none =>
      rw [hx] at h
      cases b <;> cases h
    | some x =>
      rw [hx] at h
      rw [(write_answered hx).2]
      cases b with
      | false => cases h
      | true =>
        obtain rfl : id' = id := h
        intro k hk hid
        obtain ⟨k', hk', rfl⟩ := List.mem_map.mp hk
        by_cases hid' : k'.id = id'
        · simp only [hid', if_true]
        · simp only [hid', if_false] at hid
  | deleteKey id' userId =>
    simp only [exec] at h ⊢
    cases hx : (a.write l (some (a.db.deleteKey id' userId))).1 with
    | none =>
      rw [hx] at h
      cases h
    | some x =>
      rw [hx] at h
      obtain ⟨hfound, hdb⟩ := write_answered hx
      rw [hdb]
      cases x with
      | false => cases h
      | true =>
        obtain rfl : id' = id := h
        intro k hk hid
        exact absurd (List.mem_map.mpr ⟨k, hk, hid⟩) (Db.deleteKey_removed hfound)
  | _ => cases h

/-- A request that is served for a key looked both up, if it came in later, later. -/
theorem looked_up {i j : Nat} {d : AccountEvent} {l : Luck} {r : AccountRequest} {u : User} {k : ApiKey}
    (hq : s.Quiet) (h : Run server.Step s (as ++ .did j d l :: bs) t) (hstart : .start i r ∈ bs)
    (hserved : t.slot i = .busy (.ret (.served (some (u, k))))) :
    (∃ hash l', .did i ⟨.keyByHash hash, some (some k)⟩ l' ∈ bs) ∧
      ∃ owner v l', .did i ⟨.activeUser owner, some (some v)⟩ l' ∈ bs ∧ v.id = u.id := by
  obtain ⟨huser, hkey⟩ := result_of_run handle_sat hq h (List.mem_append_right _ (List.mem_cons_of_mem _ hstart)) hserved
  obtain ⟨lu, hlu⟩ := later_of_mem hq h hstart huser
  obtain ⟨lk, hlk⟩ := later_of_mem hq h hstart hkey
  constructor
  · obtain ⟨cs, ds, rfl⟩ := List.append_of_mem hlk
    have h' := h
    rw [← List.cons_append, ← List.append_assoc] at h'
    obtain ⟨-, -, hash, hmem⟩ := sat_of_run handle_sat hq h'
    refine ⟨hash, later_of_mem hq h hstart ?_⟩
    rw [← List.cons_append, ← List.append_assoc, events_append]
    exact List.mem_append_left _ hmem
  · obtain ⟨cs, ds, rfl⟩ := List.append_of_mem hlu
    have h' := h
    rw [← List.cons_append, ← List.append_assoc] at h'
    obtain ⟨-, -, ⟨k', -, v, hmem, hv⟩, -⟩ := sat_of_run handle_sat hq h'
    obtain ⟨l', hl'⟩ := later_of_mem hq h hstart (e := ⟨.activeUser k'.userId, some (some v)⟩) (by
      rw [← List.cons_append, ← List.append_assoc, events_append]
      exact List.mem_append_left _ hmem)
    exact ⟨k'.userId, v, l', hl', hv⟩

/-- A request that comes in after a key was revoked or deleted is not served for it. -/
theorem revoked_refused {i j : Nat} {d : AccountEvent} {l : Luck} {r : AccountRequest} {id : Uuid} {u : User} {k : ApiKey}
    (hq : s.Quiet) (h : Run server.Step s (as ++ .did j d l :: bs) t) (hbars : Bars id d)
    (hno : ∀ i e l, .did i e l ∈ bs → restores id e.op l = false) (hstart : .start i r ∈ bs)
    (hserved : t.slot i = .busy (.ret (.served (some (u, k))))) : k.id ≠ id := by
  obtain ⟨⟨hash, l', hl'⟩, -⟩ := looked_up hq h hstart hserved
  rw [List.append_cons] at h
  obtain ⟨v, hv, hbs⟩ := h.of_append
  obtain ⟨w, -, hr⟩ := hv.last
  have hbarred : Barred id v.shared.db := by
    cases hr with
    | did _ l => exact exec_bars hbars
  have henv : ∀ x (a : Accounts), Barred id a.db → Barred id (env x a).db := fun x a ha => by
    rwa [Barred, env_apiKeys]
  -- no row of the key is found as long as it is barred
  have hfound : ∀ (l : Luck) (o : AccountOp) (a : Accounts), Barred id a.db →
      ∀ hash k, (⟨o, (exec l o a).1⟩ : AccountEvent) = ⟨.keyByHash hash, some (some k)⟩ → k.id ≠ id := by
    intro l o a ha hash k heq hid
    obtain rfl : o = .keyByHash hash := congrArg Event.op heq
    have hk := eq_of_heq (Event.mk.inj heq).2
    simp only [exec, read] at hk
    split at hk
    · obtain ⟨hmem, hlive⟩ := Db.of_keyByHash (Option.some.inj hk)
      rw [ha k hmem hid] at hlive
      cases hlive
    · cases hk
  exact (answers_of_run (Q := fun e => ∀ hash k, e = ⟨.keyByHash hash, some (some k)⟩ → k.id ≠ id) hbs hno
    (fun l o a ho ha => exec_barred ho ha) henv hfound hbarred).2 i _ l' hl' hash k rfl

end

section

attribute [local instance] Crypto.plain Governor.standard

/-- The admin is about to revoke one of the keys. -/
def revoking : Moves :=
  made ++ request 2 (.adminSetRevoked (withPassword "root@x:password") (some 4) true) (List.replicate 3 {})

theorem revoked_refused_revoking :
    ∃ u k, (server.played (server.played start (revoking ++ [.go 2 {}]) rfl).2
      (request 3 (.data (withKey "ovl_0304")) (List.replicate 6 {})) rfl).2.slot 3 =
        .busy (.ret (.served (some (u, k)))) ∧ k.id ≠ 4 := by
  have hbefore : Run server.Step start _ _ := run_played revoking rfl
  have hrevoke : server.Step (server.played start revoking rfl).2 (.did 2 ⟨.setKeyRevoked 4 true, some true⟩ {})
      (server.played start (revoking ++ [.go 2 {}]) rfl).2 := step_of_move (m := .go 2 {}) rfl
  have h := (hbefore.snoc hrevoke).trans
    (run_played (request 3 (.data (withKey "ovl_0304")) (List.replicate 6 {})) rfl)
  rw [← List.append_cons] at h
  have hno : ((server.played (server.played start (revoking ++ [.go 2 {}]) rfl).2
      (request 3 (.data (withKey "ovl_0304")) (List.replicate 6 {})) rfl).1.all (spares 4)) = true := by decide +kernel
  refine ⟨_, _, rfl, revoked_refused quiet_start h rfl (fun i e l he => ?_) List.mem_cons_self rfl⟩
  simpa [spares] using List.all_eq_true.mp hno _ he

end

section

variable [Crypto] [Governor] {s t : Pool Accounts AccountOp AccountOp.Ans AccountResponse} {as bs : List Does}

/-- The account has a row, which is not active. -/
def Disabled (id : Uuid) (db : Db) : Prop := ∃ u ∈ db.users, u.id = id ∧ u.isActive = false

def leavesDisabled (id : Uuid) : Does → Bool
  | .did _ e _ => e.op ≠ .setUserActive id true
  | _ => true

theorem exec_disabled {id : Uuid} {l : Luck} {o : AccountOp} {a : Accounts} (ho : o ≠ .setUserActive id true)
    (ha : Disabled id a.db) : Disabled id (exec l o a).2.db := by
  have h := exec_db a l o
  generalize (exec l o a).2.db = db at h ⊢
  obtain ⟨u, hu, hid, hactive⟩ := ha
  rcases h with rfl | h
  · exact ⟨u, hu, hid, hactive⟩
  · cases h with
    | insertUser h => exact ⟨u, Db.insertUser_users h ▸ List.mem_append_left _ hu, hid, hactive⟩
    | insertKey h => exact ⟨u, Db.insertKey_users h ▸ hu, hid, hactive⟩
    | deleteKey | touchKey | setKeyRevoked => exact ⟨u, hu, hid, hactive⟩
    | setUserActive id' b =>
      refine ⟨_, List.mem_map_of_mem hu, ?_⟩
      by_cases hid' : u.id = id'
      · simp only [hid', if_true]
        refine ⟨hid'.symm.trans hid, ?_⟩
        cases b with
        | false => rfl
        | true => exact absurd (by rw [← hid', hid]) ho
      · simp only [hid', if_false]
        exact ⟨hid, hactive⟩

/-- Once it was disabled it is. -/
theorem exec_disables {id : Uuid} {l : Luck} {a : Accounts} (h : (exec l (.setUserActive id false) a).1 = some true) :
    Disabled id (exec l (.setUserActive id false) a).2.db := by
  simp only [exec] at h ⊢
  obtain ⟨hfound, hdb⟩ := write_answered h
  obtain ⟨u, hu, hid⟩ := List.any_eq_true.mp hfound
  rw [hdb]
  refine ⟨_, List.mem_map_of_mem hu, ?_⟩
  simp only [of_decide_eq_true hid, if_true]
  exact ⟨trivial, trivial⟩

/-- An account is looked up that may go on. -/
def SawActive (id : Uuid) (e : AccountEvent) : Prop :=
  ∃ u : User, u.id = id ∧
    ((∃ email, e = ⟨.userByEmail email, some (some u)⟩ ∧ u.isActive = true) ∨
      ∃ owner, e = ⟨.activeUser owner, some (some u)⟩)

theorem not_sawActive {id : Uuid} (l : Luck) (o : AccountOp) {a : Accounts} (ha : Disabled id a.db) :
    ¬SawActive id ⟨o, (exec l o a).1⟩ := by
  obtain ⟨v, hv, hid, hinactive⟩ := ha
  have hrow : ∀ u ∈ a.db.users, u.id = id → u.isActive = false := fun u hu huid =>
    List.inj_on_of_nodup_map a.db.userIds hu hv (huid.trans hid.symm) ▸ hinactive
  rintro ⟨u, huid, ⟨email, heq, hactive⟩ | ⟨owner, heq⟩⟩
  · obtain rfl : o = .userByEmail email := congrArg Event.op heq
    have hmem := mem_of_userByEmail (eq_of_heq (Event.mk.inj heq).2)
    rw [hrow u hmem huid] at hactive
    cases hactive
  · obtain rfl : o = .activeUser owner := congrArg Event.op heq
    have hu := eq_of_heq (Event.mk.inj heq).2
    simp only [exec, read] at hu
    split at hu
    · obtain ⟨hmem, -, hactive⟩ := Db.of_activeUser (Option.some.inj hu)
      rw [hrow u hmem huid] at hactive
      cases hactive
    · cases hu

/-- A request that comes in after an account was disabled is not let in for the
account, nor served for one of its keys. -/
theorem disabled_refused {i j : Nat} {l : Luck} {r : AccountRequest} {id : Uuid} (hq : s.Quiet)
    (h : Run server.Step s (as ++ .did j ⟨.setUserActive id false, some true⟩ l :: bs) t)
    (hno : ∀ i e l, .did i e l ∈ bs → e.op ≠ .setUserActive id true) (hstart : .start i r ∈ bs) :
    (∀ u, Vouched (Act.events i (as ++ .did j ⟨.setUserActive id false, some true⟩ l :: bs)) u → u.id ≠ id) ∧
      ∀ u k, t.slot i = .busy (.ret (.served (some (u, k)))) → u.id ≠ id := by
  have h' := h
  rw [List.append_cons] at h'
  obtain ⟨v, hv, hbs⟩ := h'.of_append
  obtain ⟨w, -, hr⟩ := hv.last
  have hdisabled : Disabled id v.shared.db := by
    generalize hd : (⟨.setUserActive id false, some true⟩ : AccountEvent) = d at hr
    cases hr with
    | did _ l =>
      obtain ⟨hop, hans⟩ := Event.mk.inj hd
      subst hop
      exact exec_disables (eq_of_heq hans).symm
  have henv : ∀ x (a : Accounts), Disabled id a.db → Disabled id (env x a).db := by
    rintro x a ⟨u, hu, hid⟩
    exact ⟨u, (env_db a x (List.ne_nil_of_mem hu)).symm ▸ hu, hid⟩
  have hsaw := (answers_of_run (Q := fun e => ¬SawActive id e) hbs hno (fun l o a ho ha => exec_disabled ho ha) henv
    (fun l o a ha => not_sawActive l o ha) hdisabled).2
  constructor
  · rintro u ⟨hactive, ⟨email, hmem⟩, -⟩ hid
    obtain ⟨l', hl'⟩ := later_of_mem hq h hstart hmem
    exact hsaw i _ l' hl' ⟨u, hid, .inl ⟨email, rfl, hactive⟩⟩
  · intro u k hserved hid
    obtain ⟨-, owner, v, l', hl', hv⟩ := looked_up hq h hstart hserved
    exact hsaw i _ l' hl' ⟨v, hv.trans hid, .inr ⟨owner, rfl⟩⟩

end

section

attribute [local instance] Crypto.plain Governor.standard

/-- The admin is about to disable itself, with a key that is good. -/
def leaving : Moves :=
  made ++ request 2 (.adminSetActive (withPassword "root@x:password") (some 1) false) (List.replicate 3 {})

/-- The key is refused then. -/
theorem disabled_refused_leaving :
    (server.played (server.played start (leaving ++ [.go 2 {}]) rfl).2
      (request 3 (.data (withKey "ovl_0102")) (List.replicate 3 {})) rfl).2.slot 3 =
        .busy (.ret (.error 401 "invalid or revoked API key")) ∧
      ∀ u k, (server.played (server.played start (leaving ++ [.go 2 {}]) rfl).2
        (request 3 (.data (withKey "ovl_0102")) (List.replicate 3 {})) rfl).2.slot 3 =
          .busy (.ret (.served (some (u, k)))) → u.id ≠ 1 := by
  have hbefore : Run server.Step start _ _ := run_played leaving rfl
  have hdisable : server.Step (server.played start leaving rfl).2 (.did 2 ⟨.setUserActive 1 false, some true⟩ {})
      (server.played start (leaving ++ [.go 2 {}]) rfl).2 := step_of_move (m := .go 2 {}) rfl
  have h := (hbefore.snoc hdisable).trans
    (run_played (request 3 (.data (withKey "ovl_0102")) (List.replicate 3 {})) rfl)
  rw [← List.append_cons] at h
  have hno : ((server.played (server.played start (leaving ++ [.go 2 {}]) rfl).2
      (request 3 (.data (withKey "ovl_0102")) (List.replicate 3 {})) rfl).1.all (leavesDisabled 1)) = true := by
    decide +kernel
  refine ⟨rfl, (disabled_refused quiet_start h (fun i e l he => ?_) List.mem_cons_self).2⟩
  simpa [leavesDisabled] using List.all_eq_true.mp hno _ he

end

end Accounts

end OV.Impl
