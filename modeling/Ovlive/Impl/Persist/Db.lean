import Mathlib.Data.List.Nodup
import Mathlib.Tactic.Common

/-!
# Accounts and API keys (`crates/persist/src/db.rs`, `migrations/0001_init.sql`)

The two tables with the constraints of the migration as fields, and the
statements of `Db`. A statement that would break a constraint is an error
(`none`) and changes nothing. Rows are in the order they were inserted; times
are nanoseconds.
-/

namespace OV.Impl

abbrev Uuid := Nat

structure User where
  id : Uuid
  email : String
  passwordHash : String
  isAdmin : Bool
  isActive : Bool
  createdAt : Nat
  deriving DecidableEq

structure ApiKey where
  id : Uuid
  userId : Uuid
  name : String
  /-- The first characters, shown in lists. -/
  keyPrefix : String
  keyHash : String
  ratePerMin : Int
  revoked : Bool
  createdAt : Nat
  lastUsedAt : Option Nat
  deriving DecidableEq

structure Db where
  users : List User := []
  apiKeys : List ApiKey := []
  /-- `PRIMARY KEY`, `UNIQUE` and `REFERENCES`. -/
  userIds : (users.map User.id).Nodup := by simp
  emails : (users.map User.email).Nodup := by simp
  keyIds : (apiKeys.map ApiKey.id).Nodup := by simp
  keyHashes : (apiKeys.map ApiKey.keyHash).Nodup := by simp
  owned : ∀ k ∈ apiKeys, k.userId ∈ users.map User.id := by simp

namespace Db

variable (db : Db)

/-! ## Queries -/

/-- `SELECT * FROM users WHERE email = $1`. -/
def userByEmail (email : String) : Option User := db.users.find? fun u => u.email = email

/-- `SELECT * FROM users WHERE id = $1 AND is_active = TRUE`. -/
def activeUser (id : Uuid) : Option User := db.users.find? fun u => u.id = id && u.isActive

/-- `SELECT * FROM api_keys WHERE key_hash = $1 AND revoked = FALSE`. -/
def keyByHash (hash : String) : Option ApiKey := db.apiKeys.find? fun k => k.keyHash = hash && !k.revoked

/-- `ORDER BY created_at DESC`. -/
def newestFirst {α : Type} (createdAt : α → Nat) (rows : List α) : List α :=
  rows.mergeSort fun a b => createdAt b ≤ createdAt a

/-- `list_keys`. -/
def listKeys (userId : Uuid) : List ApiKey := newestFirst ApiKey.createdAt (db.apiKeys.filter fun k => k.userId = userId)

/-- `admin_list_users`. -/
def adminListUsers : List User := newestFirst User.createdAt db.users

/-- `admin_list_keys`. -/
def adminListKeys : List ApiKey := newestFirst ApiKey.createdAt db.apiKeys

/-! ## Statements that write -/

/-- `INSERT INTO users`. -/
def insertUser (u : User) : Option Db :=
  if h : u.id ∉ db.users.map User.id ∧ u.email ∉ db.users.map User.email then
    some
      { db with
        users := db.users ++ [u]
        userIds := by
          rw [List.map_append, List.nodup_append']
          exact ⟨db.userIds, List.nodup_singleton _, by simpa using h.1⟩
        emails := by
          rw [List.map_append, List.nodup_append']
          exact ⟨db.emails, List.nodup_singleton _, by simpa using h.2⟩
        owned := fun k hk => by
          rw [List.map_append]
          exact List.mem_append_left _ (db.owned k hk) }
  else none

/-- `INSERT INTO api_keys`. -/
def insertKey (k : ApiKey) : Option Db :=
  if h : (k.id ∉ db.apiKeys.map ApiKey.id ∧ k.keyHash ∉ db.apiKeys.map ApiKey.keyHash) ∧
      k.userId ∈ db.users.map User.id then
    some
      { db with
        apiKeys := db.apiKeys ++ [k]
        keyIds := by
          rw [List.map_append, List.nodup_append']
          exact ⟨db.keyIds, List.nodup_singleton _, by simpa using h.1.1⟩
        keyHashes := by
          rw [List.map_append, List.nodup_append']
          exact ⟨db.keyHashes, List.nodup_singleton _, by simpa using h.1.2⟩
        owned := fun l hl => by
          rcases List.mem_append.mp hl with hl | hl
          · exact db.owned l hl
          · exact List.mem_singleton.mp hl ▸ h.2 }
  else none

/-- `DELETE FROM api_keys WHERE id = $1 AND user_id = $2`, and whether there was such a row. -/
def deleteKey (keyId userId : Uuid) : Bool × Db :=
  (db.apiKeys.any fun k => k.id = keyId && k.userId = userId,
    { db with
      apiKeys := db.apiKeys.filter fun k => !(k.id = keyId && k.userId = userId)
      keyIds := db.keyIds.sublist (List.filter_sublist.map _)
      keyHashes := db.keyHashes.sublist (List.filter_sublist.map _)
      owned := fun k hk => db.owned k (List.mem_filter.mp hk).1 })

/-- Columns that an update leaves alone. -/
theorem map_update {α β : Type} {p : α → Prop} [DecidablePred p] {f : α → α} {g : α → β} (h : ∀ a, g (f a) = g a)
    (rows : List α) : (rows.map fun a => if p a then f a else a).map g = rows.map g := by
  rw [List.map_map]
  refine List.map_congr_left fun a _ => ?_
  show g (if p a then f a else a) = g a
  split
  · exact h a
  · rfl

/-- `UPDATE api_keys SET … WHERE id = $1`, of columns that no constraint is about. -/
def updateKey (id : Uuid) (f : ApiKey → ApiKey) (hid : ∀ k, (f k).id = k.id) (hhash : ∀ k, (f k).keyHash = k.keyHash)
    (howner : ∀ k, (f k).userId = k.userId) : Db :=
  { db with
    apiKeys := db.apiKeys.map fun k => if k.id = id then f k else k
    keyIds := by rw [map_update hid]; exact db.keyIds
    keyHashes := by rw [map_update hhash]; exact db.keyHashes
    owned := fun k hk => by
      obtain ⟨l, hl, hlk⟩ := List.mem_map.mp hk
      have hkl : k.userId = l.userId := by rw [← hlk]; split <;> simp only [howner]
      rw [hkl]
      exact db.owned l hl }

/-- `UPDATE api_keys SET last_used_at = now() WHERE id = $1`. -/
def touchKey (id : Uuid) (now : Nat) : Db :=
  db.updateKey id (fun k => { k with lastUsedAt := some now }) (fun _ => rfl) (fun _ => rfl) fun _ => rfl

/-- `admin_set_key_revoked`. -/
def setKeyRevoked (id : Uuid) (revoked : Bool) : Bool × Db :=
  (db.apiKeys.any fun k => k.id = id,
    db.updateKey id (fun k => { k with revoked := revoked }) (fun _ => rfl) (fun _ => rfl) fun _ => rfl)

/-- `UPDATE users SET … WHERE id = $1`, of such columns. -/
def updateUser (id : Uuid) (f : User → User) (hid : ∀ u, (f u).id = u.id) (hemail : ∀ u, (f u).email = u.email) : Db :=
  { db with
    users := db.users.map fun u => if u.id = id then f u else u
    userIds := by rw [map_update hid]; exact db.userIds
    emails := by rw [map_update hemail]; exact db.emails
    owned := fun k hk => by rw [map_update hid]; exact db.owned k hk }

/-- `admin_set_user_active`. -/
def setUserActive (id : Uuid) (active : Bool) : Bool × Db :=
  (db.users.any fun u => u.id = id, db.updateUser id (fun u => { u with isActive := active }) (fun _ => rfl) fun _ => rfl)

end Db

end OV.Impl
