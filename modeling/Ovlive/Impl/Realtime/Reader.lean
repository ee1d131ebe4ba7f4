import Ovlive.Impl.Core.Model

/-!
# What the decoders read (`crates/realtime/src`)

The decoders stream a document with `quick_xml` and read instants with
`chrono`. Both are packages of their own and stay open here, as the class
`Feed`: a document is the events the reader yields before its end or its first
error, which is where every decoder stops.
-/

namespace OV.Impl

/-- An event of `quick_xml`, with the local name of a tag. -/
inductive XmlEvent
  | start (name : String) (attributes : List (String × String))
  /-- Character data; `none` if it does not unescape. -/
  | text (unescaped : Option String)
  | end_ (name : String)
  /-- What every decoder skips: empty elements, comments, CDATA, declarations. -/
  | other

class Feed where
  /-- The events of `Reader::from_str`, with `trim_text`. -/
  read : String → List XmlEvent
  /-- `DateTime::parse_from_rfc3339`. -/
  parseFromRfc3339 : String → Option Instant

namespace Feed

/-- The value of a leaf, as the decoders take it: unescaped and trimmed. -/
def trimmed (val : String) : String := String.ofList (Text.trim val.toList)

/-- `t.unescape().unwrap_or_default()`. -/
def unescaped (val : Option String) : String := val.getD ""

end Feed

end OV.Impl
