import Ovlive.Framework.Ip

/-!
# The rate-limit identity (`crates/api/src/auth.rs`)

The address a request is accounted to. A header value is a list of bytes, as
characters below 256, and names are in lower case, as a header map keeps them.
The buckets of the limiters themselves are a library's and are left out:
requests accounted to one address are in one bucket.
-/

namespace OV.Impl

/-- Headers in the order they were received. -/
abbrev Headers := List (String × List Char)

/-- `HeaderMap::get`: the first value of a name. -/
def Headers.get (h : Headers) (name : String) : Option (List Char) := (h.find? fun f => f.1 = name).map Prod.snd

/-- A byte that `HeaderValue::to_str` accepts. -/
def visible (c : Char) : Bool := (32 ≤ c.toNat && c.toNat < 127) || c = '\t'

/-- `HeaderValue::to_str`. -/
def toStr (value : List Char) : Option (List Char) := if value.all visible then some value else none

/-- What of a request its accounting depends on. -/
structure Parts where
  peer : Option IpAddr
  headers : Headers

/-- `is_trusted_proxy`. -/
def isTrustedProxy : IpAddr → Bool
  | .v4 a b _ _ =>
    a = 127 || (a = 10 || (a = 172 && 16 ≤ b && b ≤ 31) || (a = 192 && b = 168)) || (a = 169 && b = 254) || a = 100
  | .v6 a b c d e f g h =>
    IpAddr.v6 a b c d e f g h = .v6 0 0 0 0 0 0 0 1 || a &&& 0xfe00 = 0xfc00 || a &&& 0xffc0 = 0xfe80

/-- `header_ip`. -/
def headerIp (headers : Headers) (name : String) : Option IpAddr := do
  IpAddr.parse? (Text.trim (← toStr (← headers.get name)))

/-- `forwarded_for`: the leftmost hop. -/
def forwardedFor (headers : Headers) : Option IpAddr := do
  let hops ← toStr (← headers.get "x-forwarded-for")
  IpAddr.parse? (Text.trim (← (Text.split ',' hops).head?))

/-- `client_ip`. -/
def clientIp (parts : Parts) : IpAddr :=
  let claimed :=
    if parts.peer.all isTrustedProxy then
      (headerIp parts.headers "cf-connecting-ip").or (forwardedFor parts.headers)
    else none
  claimed.getD (parts.peer.getD (.v4 0 0 0 0))

end OV.Impl
