import Ovlive.Impl.Api.Auth

/-!
# The bundled proxy (`docker/web/nginx.conf.template`)

What the two API locations forward: the headers they set replace the client's,
and all others are passed on. `$proxy_add_x_forwarded_for` is the client's own
`X-Forwarded-For`, the values of all its lines, with the address nginx saw the
connection come from behind it.
-/

namespace OV.Impl.Nginx

/-- `$remote_addr`: the address of the connection, and the text nginx writes for
it, which reads back as that address. -/
structure RemoteAddr where
  addr : IpAddr
  text : List Char
  parses : IpAddr.parse? text = some addr
  plain : (text.all fun c => visible c && c != ',' && !Text.isWhite c) = true

/-- A client's request, and the scheme it came by. -/
structure Request where
  host : List Char
  scheme : List Char
  headers : Headers

/-- The locations that pass requests to the server. -/
inductive Location
  | stream
  | api

/-- The values of all lines of a header. -/
def lines (headers : Headers) (name : String) : List (List Char) :=
  (headers.filter fun f => f.1 = name).map Prod.snd

/-- `$proxy_add_x_forwarded_for`. -/
def proxyAddXForwardedFor (remote : RemoteAddr) (headers : Headers) : List Char :=
  (lines headers "x-forwarded-for").foldr (fun v rest => v ++ ',' :: ' ' :: rest) remote.text

/-- The headers a location sets. -/
def setHeaders (loc : Location) (remote : RemoteAddr) (r : Request) : Headers :=
  (match loc with
    | .stream =>
      [("upgrade", (r.headers.get "upgrade").getD []), ("connection", "upgrade".toList)]
    | .api => []) ++
    [("host", r.host), ("x-forwarded-for", proxyAddXForwardedFor remote r.headers), ("x-forwarded-proto", r.scheme)]

/-- The headers the server receives; one that is set to nothing is not sent. -/
def forward (loc : Location) (remote : RemoteAddr) (r : Request) : Headers :=
  ((setHeaders loc remote r).filter fun f => f.2 ≠ []) ++
    r.headers.filter fun f => f.1 ∉ (setHeaders loc remote r).map Prod.fst

end OV.Impl.Nginx
