import Ovlive.Framework.Assoc
import Ovlive.Framework.Bucket
import Ovlive.Framework.Tasks
import Ovlive.Framework.Text
import Ovlive.Framework.Wire
import Ovlive.Impl.Api.Auth
import Ovlive.Impl.Persist.Db

/-!
# Accounts, keys and limits (`crates/api/src/auth.rs`, `rest.rs`, `state.rs`, `crates/persist/src/db.rs`)

Every request as a program whose operations are the statements the database
runs, the charges of the limiters and the work of the password hash, in the
order the code does them (`handle`). Between two of them any other request may
go on. The extractors and handlers are those of the source, under their names;
the handler of a data endpoint is left at the point its extractor lets it start.

A statement may fail, and it may also be done and the answer be lost
(`Fault`). Uuids, salts and keys are drawn (`Luck`); hashes and base64 are a
library's (`Crypto`), and so are the limiters (`Governor`).
-/

namespace OV.Impl

/-- The hashes, and base64. -/
class Crypto where
  /-- `Argon2::hash_password`, with a salt, as the string that is stored. -/
  hashPassword : String → String → Option String
  verifyPassword : String → String → Bool
  sha256Hex : String → String
  decodeBase64 : List Char → Option (List UInt8)

/-- Hashes that hide nothing, and base64 that encodes nothing. -/
@[reducible] def Crypto.plain : Crypto where
  hashPassword password _ := some password
  verifyPassword password hash := password = hash
  sha256Hex s := s
  decodeBase64 s := some (s.map fun c => c.toNat.toUInt8)

/-! ## Responses -/

/-- A user as it is serialized. -/
structure UserRow where
  id : Uuid
  email : String
  isAdmin : Bool
  isActive : Bool
  createdAt : Nat

/-- A key as it is serialized. -/
structure KeyRow where
  id : Uuid
  userId : Uuid
  name : String
  keyPrefix : String
  ratePerMin : Int
  revoked : Bool
  createdAt : Nat
  lastUsedAt : Option Nat

def User.row (u : User) : UserRow where
  id := u.id
  email := u.email
  isAdmin := u.isAdmin
  isActive := u.isActive
  createdAt := u.createdAt

def ApiKey.row (k : ApiKey) : KeyRow where
  id := k.id
  userId := k.userId
  name := k.name
  keyPrefix := k.keyPrefix
  ratePerMin := k.ratePerMin
  revoked := k.revoked
  createdAt := k.createdAt
  lastUsedAt := k.lastUsedAt

inductive AccountResponse
  /-- `err`. -/
  | error (status : Nat) (message : String)
  /-- `err` with the header that asks for credentials. -/
  | challenge
  /-- A path or a body that its extractor does not read. -/
  | rejected
  | registered (id : Uuid) (email : String)
  /-- The new key, in full. -/
  | created (key : KeyRow) (full : String)
  | keys (rows : List KeyRow)
  | users (rows : List UserRow)
  | noContent
  | revoked (id : Uuid) (revoked : Bool)
  | active (id : Uuid) (active : Bool)
  /-- The handler of a data endpoint starts, for a key or for nobody. -/
  | served (auth : Option (User × ApiKey))

def tooMany (message : String) : AccountResponse := .error 429 message

/-! ## Operations -/

inductive AccountOp
  | checkIp (ip : IpAddr)
  | checkUser (id : Uuid)
  | checkKey (key : ApiKey)
  | userByEmail (email : String)
  | verifyPassword (password hash : String)
  | hashPassword (password : String)
  | insertUser (email hash : String)
  | randomBytes
  | insertKey (userId : Uuid) (name keyPrefix keyHash : String) (ratePerMin : Int)
  | listKeys (userId : Uuid)
  | deleteKey (keyId userId : Uuid)
  | keyByHash (hash : String)
  | activeUser (id : Uuid)
  | touchKey (id : Uuid)
  | listAllUsers
  | listAllKeys
  | setKeyRevoked (id : Uuid) (revoked : Bool)
  | dropLimiter (id : Uuid)
  | setUserActive (id : Uuid) (active : Bool)
  deriving DecidableEq

/-- The answers; of a statement, nothing when it is an error. -/
@[reducible] def AccountOp.Ans : AccountOp → Type
  | checkIp _ | checkUser _ | checkKey _ | verifyPassword _ _ => Bool
  | userByEmail _ | activeUser _ => Option (Option User)
  | keyByHash _ => Option (Option ApiKey)
  | hashPassword _ => Option String
  | insertUser _ _ => Option User
  | randomBytes => List UInt8
  | insertKey _ _ _ _ _ => Option ApiKey
  | listKeys _ | listAllKeys => Option (List ApiKey)
  | listAllUsers => Option (List User)
  | deleteKey _ _ | setKeyRevoked _ _ | setUserActive _ _ => Option Bool
  | touchKey _ | dropLimiter _ => Unit

abbrev Task (α : Type) := Prog AccountOp AccountOp.Ans α

abbrev perform (o : AccountOp) : Task o.Ans := Prog.perform o

/-! ## Extractors -/

/-- The parts of a request, with its query. -/
structure RequestParts extends Parts where
  query : Option (List Char)

def checkIp (parts : RequestParts) : Task (Except AccountResponse Unit) := do
  if ← perform (.checkIp (clientIp parts.toParts)) then return .ok ()
  else return .error (tooMany "rate limit exceeded for this IP")

def checkUserAndKey (user : User) (key : ApiKey) : Task (Except AccountResponse Unit) := do
  if ← perform (.checkUser user.id) then
    if ← perform (.checkKey key) then return .ok ()
    else return .error (tooMany "rate limit exceeded for this key")
  else return .error (tooMany "rate limit exceeded for this account")

/-- `strip_prefix`. -/
def stripPrefix (p s : List Char) : Option (List Char) := if p <+: s then some (s.drop p.length) else none

/-- `api_key_from_parts`: a bearer token, a header, or a parameter. -/
def apiKeyFromParts (parts : RequestParts) : Option (List Char) :=
  (do
    let s ← toStr (← parts.headers.get "authorization")
    let rest ← stripPrefix "Bearer ".toList s
    some (Text.trim rest)) <|>
  (do
    let s ← toStr (← parts.headers.get "x-api-key")
    some (Text.trim s)) <|>
  (do (Text.split '&' (← parts.query)).findSome? (stripPrefix "key=".toList))

section

variable [Crypto]

/-- `basic_credentials`. -/
def basicCredentials (parts : RequestParts) : Option (String × String) := do
  let v ← toStr (← parts.headers.get "authorization")
  let b64 ← stripPrefix "Basic ".toList v
  let decoded ← Crypto.decodeBase64 (Text.trim b64)
  let s ← String.fromUTF8? ⟨decoded.toArray⟩
  let (email, password) ← Text.splitOnce ':' s.toList
  some (String.ofList email, String.ofList password)

/-- `Db::authenticate`. -/
def authenticate (email password : String) : Task (Option (Option User)) := do
  match ← perform (.userByEmail email) with
  | none => return none
  | some none => return some none
  | some (some u) =>
    if u.isActive then
      if ← perform (.verifyPassword password u.passwordHash) then return some (some u)
      else return some none
    else return some none

/-- `Db::authenticate_key`. -/
def authenticateKey (plaintext : String) : Task (Option (Option (ApiKey × User))) := do
  match ← perform (.keyByHash (Crypto.sha256Hex plaintext)) with
  | none => return none
  | some none => return some none
  | some (some key) =>
    match ← perform (.activeUser key.userId) with
    | none => return none
    | some none => return some none
    | some (some user) =>
      perform (.touchKey key.id)
      return some (some (key, user))

/-- The extractor of the data endpoints. -/
def optionalApiKeyUser (parts : RequestParts) : Task (Except AccountResponse (Option (User × ApiKey))) := do
  match ← checkIp parts with
  | .error r => return .error r
  | .ok () =>
    match apiKeyFromParts parts with
    | none => return .ok none
    | some raw =>
      match ← authenticateKey (String.ofList raw) with
      | none => return .error (.error 500 "auth error")
      | some none => return .error (.error 401 "invalid or revoked API key")
      | some (some (key, user)) =>
        match ← checkUserAndKey user key with
        | .error r => return .error r
        | .ok () => return .ok (some (user, key))

/-- The extractor of the account endpoints. -/
def basicUser (parts : RequestParts) : Task (Except AccountResponse User) := do
  match ← checkIp parts with
  | .error r => return .error r
  | .ok () =>
    match basicCredentials parts with
    | none => return .error .challenge
    | some (email, password) =>
      match ← authenticate email password with
      | none => return .error (.error 500 "auth error")
      | some none => return .error (.error 401 "invalid credentials")
      | some (some user) => return .ok user

/-- The extractor of the admin endpoints. -/
def adminUser (parts : RequestParts) : Task (Except AccountResponse User) := do
  match ← basicUser parts with
  | .error r => return .error r
  | .ok user => if user.isAdmin then return .ok user else return .error (.error 403 "admin only")

/-! ## Handlers -/

/-- `register`. -/
def register (email password : String) : Task AccountResponse := do
  if '@' ∉ email.toList then return .error 400 "invalid email"
  else if password.utf8ByteSize < 8 then return .error 400 "password must be at least 8 characters"
  else
    match ← perform (.hashPassword password) with
    | none => return .error 409 "email already registered"
    | some hash =>
      match ← perform (.insertUser email hash) with
      | none => return .error 409 "email already registered"
      | some user => return .registered user.id user.email

/-- Two lower-case hexadecimal digits a byte. -/
def hexOf (bytes : List UInt8) : String :=
  String.ofList (bytes.flatMap fun b => [Nat.digitChar (b.toNat / 16), Nat.digitChar (b.toNat % 16)])

/-- `generate_key`, from the bytes drawn. -/
def generateKey (raw : List UInt8) : String × String × String :=
  let full := "ovl_" ++ hexOf raw
  (full, String.ofList (full.toList.take 12), Crypto.sha256Hex full)

/-- `Db::create_api_key`. -/
def createApiKey (userId : Uuid) (name : String) (ratePerMin : Int) : Task (Option (ApiKey × String)) := do
  let (full, keyPrefix, hash) := generateKey (← perform .randomBytes)
  match ← perform (.insertKey userId name keyPrefix hash ratePerMin) with
  | none => return none
  | some key => return some (key, full)

structure CreateKeyReq where
  name : Option String
  ratePerMin : Option Int

/-- The rate a key gets. -/
def CreateKeyReq.rate (req : CreateKeyReq) : Int := max 1 (min (req.ratePerMin.getD 120) 600)

/-- `create_key`; the body is read after the credentials. -/
def createKey (parts : RequestParts) (body : Option CreateKeyReq) : Task AccountResponse := do
  match ← basicUser parts with
  | .error r => return r
  | .ok user =>
    match body with
    | none => return .rejected
    | some req =>
      match ← createApiKey user.id (req.name.getD "default") req.rate with
      | none => return .error 500 "could not create key"
      | some (key, full) => return .created key.row full

/-- `list_keys`. -/
def listKeys (parts : RequestParts) : Task AccountResponse := do
  match ← basicUser parts with
  | .error r => return r
  | .ok user =>
    match ← perform (.listKeys user.id) with
    | none => return .error 500 "could not list keys"
    | some keys => return .keys (keys.map ApiKey.row)

/-- `delete_key`. -/
def deleteKey (parts : RequestParts) (id : Option Uuid) : Task AccountResponse := do
  match ← basicUser parts with
  | .error r => return r
  | .ok user =>
    match id with
    | none => return .rejected
    | some id =>
      match ← perform (.deleteKey id user.id) with
      | none => return .error 500 "could not delete key"
      | some false => return .error 404 "key not found"
      | some true => return .noContent

/-- `admin_users`. -/
def adminUsers (parts : RequestParts) : Task AccountResponse := do
  match ← adminUser parts with
  | .error r => return r
  | .ok _ =>
    match ← perform .listAllUsers with
    | none => return .error 500 "could not list users"
    | some users => return .users (users.map User.row)

/-- `admin_keys`. -/
def adminKeys (parts : RequestParts) : Task AccountResponse := do
  match ← adminUser parts with
  | .error r => return r
  | .ok _ =>
    match ← perform .listAllKeys with
    | none => return .error 500 "could not list keys"
    | some keys => return .keys (keys.map ApiKey.row)

/-- `set_revoked`. -/
def setRevoked (id : Uuid) (revoked : Bool) : Task AccountResponse := do
  match ← perform (.setKeyRevoked id revoked) with
  | none => return .error 500 "could not update key"
  | some false => return .error 404 "key not found"
  | some true =>
    perform (.dropLimiter id)
    return .revoked id revoked

/-- `admin_revoke_key` and `admin_unrevoke_key`. -/
def adminSetRevoked (parts : RequestParts) (id : Option Uuid) (revoked : Bool) : Task AccountResponse := do
  match ← adminUser parts with
  | .error r => return r
  | .ok _ =>
    match id with
    | none => return .rejected
    | some id => setRevoked id revoked

/-- `set_user_active`. -/
def setActive (id : Uuid) (active : Bool) : Task AccountResponse := do
  match ← perform (.setUserActive id active) with
  | none => return .error 500 "could not update user"
  | some false => return .error 404 "user not found"
  | some true => return .active id active

/-- `admin_disable_user` and `admin_enable_user`. -/
def adminSetActive (parts : RequestParts) (id : Option Uuid) (active : Bool) : Task AccountResponse := do
  match ← adminUser parts with
  | .error r => return r
  | .ok _ =>
    match id with
    | none => return .rejected
    | some id => setActive id active

/-- A data endpoint, up to where its handler starts. -/
def data (parts : RequestParts) : Task AccountResponse := do
  match ← optionalApiKeyUser parts with
  | .error r => return r
  | .ok auth => return .served auth

inductive AccountRequest
  | register (email password : String)
  | createKey (parts : RequestParts) (body : Option CreateKeyReq)
  | listKeys (parts : RequestParts)
  | deleteKey (parts : RequestParts) (id : Option Uuid)
  | adminUsers (parts : RequestParts)
  | adminKeys (parts : RequestParts)
  | adminSetRevoked (parts : RequestParts) (id : Option Uuid) (revoked : Bool)
  | adminSetActive (parts : RequestParts) (id : Option Uuid) (active : Bool)
  | data (parts : RequestParts)

/-- The routes. -/
def handle : AccountRequest → Task AccountResponse
  | .register email password => register email password
  | .createKey parts body => createKey parts body
  | .listKeys parts => listKeys parts
  | .deleteKey parts id => deleteKey parts id
  | .adminUsers parts => adminUsers parts
  | .adminKeys parts => adminKeys parts
  | .adminSetRevoked parts id revoked => adminSetRevoked parts id revoked
  | .adminSetActive parts id active => adminSetActive parts id active
  | .data parts => data parts

end

/-! ## Limits -/

section

variable [Governor]

/-- A keyed limiter: a bucket for each key it was charged for. -/
structure Keyed (K : Type) where
  perMin : Nat
  states : Map K Governor.State

namespace Keyed

variable {K : Type} [DecidableEq K]

/-- `Quota::per_minute`, of a number that is not zero. -/
def bucket (m : Keyed K) : Bucket Governor.State := Governor.perMinute (max m.perMin 1)

/-- The state of a key's bucket. -/
def state (m : Keyed K) (k : K) : Governor.State := (m.states.lookup k).getD m.bucket.fresh

/-- `check_key`. -/
def checkKey (m : Keyed K) (k : K) (now : Nat) : Bool × Keyed K :=
  let r := m.bucket.charge (m.state k) now
  (r.1, { m with states := m.states.insert k r.2 })

/-- `retain_recent`. -/
def retainRecent (m : Keyed K) (now : Nat) : Keyed K :=
  { m with states := Map.retain (fun _ s => m.bucket.recent s now) m.states }

end Keyed

structure RateLimits where
  perIp : Keyed IpAddr
  perUser : Keyed Uuid
  /-- The limiters made so far, each with its own quota. -/
  perKey : Map Uuid (Nat × Governor.State)

namespace RateLimits

def new (ipPerMin userPerMin : Nat) : RateLimits where
  perIp := { perMin := ipPerMin, states := ∅ }
  perUser := { perMin := userPerMin, states := ∅ }
  perKey := ∅

def gc (m : RateLimits) (now : Nat) : RateLimits :=
  { m with perIp := m.perIp.retainRecent now, perUser := m.perUser.retainRecent now }

/-- The limiter that `key_limiter` finds or makes, by its quota and its state. -/
def keyLimiter (m : RateLimits) (key : ApiKey) : Nat × Governor.State :=
  let quota := max (max key.ratePerMin 1).toNat 1
  (m.perKey.lookup key.id).getD (quota, (Governor.perMinute quota).fresh)

/-- `key_limiter(state, key).check()`. -/
def checkKey (m : RateLimits) (key : ApiKey) (now : Nat) : Bool × RateLimits :=
  let (quota, s) := m.keyLimiter key
  let r := (Governor.perMinute quota).charge s now
  (r.1, { m with perKey := m.perKey.insert key.id (quota, r.2) })

end RateLimits

end

/-! ## The server -/

/-- What becomes of a statement. -/
inductive Fault
  | done | failed | lost
  deriving DecidableEq

/-- What an operation draws, and whether its statement fails. -/
structure Luck where
  uuid : Uuid := 0
  bytes : List UInt8 := []
  salt : String := ""
  fault : Fault := .done

section

variable [Governor]

structure Accounts where
  db : Db
  limits : RateLimits
  now : Nat

namespace Accounts

/-- The answer of a query. -/
def read {α : Type} (l : Luck) (a : α) : Option α := if l.fault = .done then some a else none

/-- The answer of a statement that writes, and what it leaves. -/
def write {α : Type} (s : Accounts) (l : Luck) (r : Option (α × Db)) : Option α × Accounts :=
  match l.fault, r with
  | .done, some (a, db) => (some a, { s with db := db })
  | .lost, some (_, db) => (none, { s with db := db })
  | _, _ => (none, s)

/-- The user a registration inserts. -/
def newUser (s : Accounts) (l : Luck) (email hash : String) (admin : Bool) : User where
  id := l.uuid
  email := email
  passwordHash := hash
  isAdmin := admin
  isActive := true
  createdAt := s.now

/-- The key that is inserted. -/
def newKey (s : Accounts) (l : Luck) (userId : Uuid) (name keyPrefix keyHash : String) (ratePerMin : Int) : ApiKey where
  id := l.uuid
  userId := userId
  name := name
  keyPrefix := keyPrefix
  keyHash := keyHash
  ratePerMin := ratePerMin
  revoked := false
  createdAt := s.now
  lastUsedAt := none

variable [Crypto]

/-- An operation, done at once. -/
def exec (l : Luck) : (o : AccountOp) → Accounts → o.Ans × Accounts
  | .checkIp ip, s =>
    let r := s.limits.perIp.checkKey ip s.now
    (r.1, { s with limits := { s.limits with perIp := r.2 } })
  | .checkUser id, s =>
    let r := s.limits.perUser.checkKey id s.now
    (r.1, { s with limits := { s.limits with perUser := r.2 } })
  | .checkKey key, s =>
    let r := s.limits.checkKey key s.now
    (r.1, { s with limits := r.2 })
  | .userByEmail email, s => (read l (s.db.userByEmail email), s)
  | .verifyPassword password hash, s => (Crypto.verifyPassword password hash, s)
  | .hashPassword password, s => (Crypto.hashPassword password l.salt, s)
  | .insertUser email hash, s =>
    let u := s.newUser l email hash false
    s.write l ((s.db.insertUser u).map fun db => (u, db))
  | .randomBytes, s => (l.bytes, s)
  | .insertKey userId name keyPrefix keyHash ratePerMin, s =>
    let k := s.newKey l userId name keyPrefix keyHash ratePerMin
    s.write l ((s.db.insertKey k).map fun db => (k, db))
  | .listKeys userId, s => (read l (s.db.listKeys userId), s)
  | .deleteKey keyId userId, s => s.write l (some (s.db.deleteKey keyId userId))
  | .keyByHash hash, s => (read l (s.db.keyByHash hash), s)
  | .activeUser id, s => (read l (s.db.activeUser id), s)
  | .touchKey id, s => ((), (s.write l (some ((), s.db.touchKey id s.now))).2)
  | .listAllUsers, s => (read l s.db.adminListUsers, s)
  | .listAllKeys, s => (read l s.db.adminListKeys, s)
  | .setKeyRevoked id revoked, s => s.write l (some (s.db.setKeyRevoked id revoked))
  | .dropLimiter id, s => ((), { s with limits := { s.limits with perKey := s.limits.perKey.erase id } })
  | .setUserActive id active, s => s.write l (some (s.db.setUserActive id active))

/-- `seed_admin`; its count may fail, too. -/
def seedAdmin (s : Accounts) (email password : String) (counted : Bool) (l : Luck) : Db :=
  if !counted || !s.db.users.isEmpty then s.db
  else
    match Crypto.hashPassword password l.salt with
    | none => s.db
    | some hash => (s.write l ((s.db.insertUser (s.newUser l email hash true)).map fun db => ((), db))).2.db

end Accounts

/-- Time passes, the limiters are swept, or the process ends and another starts. -/
inductive AccountEnv
  | pass (elapsed : Nat)
  | gc
  | boot (email password : String) (ipPerMin userPerMin : Nat) (counted : Bool) (l : Luck)

namespace Accounts

variable [Crypto]

def env : AccountEnv → Accounts → Accounts
  | .pass elapsed, s => { s with now := s.now + elapsed }
  | .gc, s => { s with limits := s.limits.gc s.now }
  | .boot email password ipPerMin userPerMin counted l, s =>
    { s with db := s.seedAdmin email password counted l, limits := .new ipPerMin userPerMin }

/-- Requests over the accounts. -/
def server : Service Accounts AccountOp AccountOp.Ans AccountResponse AccountRequest Luck AccountEnv where
  handler := handle
  exec := exec
  env := env
  halts
    | .boot .. => true
    | _ => false

/-- No users, and limits of a process that is not started. -/
def empty : Accounts where
  db := {}
  limits := .new 1 1
  now := 0

/-- What happens to the accounts. -/
abbrev Does := Act AccountOp.Ans AccountRequest Luck AccountEnv

/-- Before the first process no request is there. -/
def start : Pool Accounts AccountOp AccountOp.Ans AccountResponse where
  shared := empty
  slot _ := .free

end Accounts

end

end OV.Impl
