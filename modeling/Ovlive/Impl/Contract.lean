import Ovlive.Framework.Wire
import Ovlive.Impl.Api.Convert

/-!
# The stream's contract (`packages/proto/ovlive.proto`)

What the fields of each message stand for: the numbers and types that the
contract declares (`kind`, `Typed`) and the message that fields of these types
spell (`ofFields`). A field with a number that the contract does not declare
says nothing, a declared one that is missing is its default. Of the `payload`
members of a message at most one is written.

`Exact` is what the types of the contract hold: doubles, floats, and 32-bit
numbers. The server's encoder is generated from the contract when it is built;
`Encodes` is what the stream relies on of it.
-/

namespace OV.Impl

open Wire

/-- The fields declared are of their types. -/
def TypedBy (kind : Nat → Option Kind) (fs : List Field) : Prop :=
  ∀ f ∈ fs, f.Ok ∧ ∀ k, kind f.num = some k → f.Is k

/-- A field with this number is a message that keeps a condition. -/
def Embeds (k : Nat) (P : List Field → Prop) (fs : List Field) : Prop :=
  ∀ f ∈ fs, f.num = k → ∃ ms, f = .msg k ms ∧ P ms

/-- Of the fields with these numbers there is at most one. -/
def AtMostOne (nums : List Nat) (fs : List Field) : Prop := (fs.filter fun f => f.num ∈ nums).length ≤ 1

/-! ## Server to client -/

namespace VehicleState

def kind : Nat → Option Kind
  | 1 | 2 | 3 | 4 | 6 | 11 | 12 | 13 | 15 | 16 | 17 => some .string
  | 5 | 10 => some .int32
  | 7 | 8 => some .double
  | 9 | 23 => some .float
  | 14 | 21 | 22 | 24 => some .bool
  | _ => none

def Typed : List Field → Prop := TypedBy kind

def ofFields (fs : List Field) : VehicleState where
  id := scalar 1 Field.text "" fs
  dataowner := scalar 2 Field.text "" fs
  vehicleNumber := scalar 3 Field.text "" fs
  linePublicNumber := scalar 4 Field.text "" fs
  vehicleType := scalar 5 Field.int 0 fs
  operatorName := scalar 6 Field.text "" fs
  lat := scalar 7 Field.double (.fin 0) fs
  lon := scalar 8 Field.double (.fin 0) fs
  bearing := scalar 9 Field.float (.fin 0) fs
  delaySeconds := scalar 10 Field.int 0 fs
  delayKnown := scalar 21 Field.bool false fs
  destination := scalar 11 Field.text "" fs
  blockCode := scalar 12 Field.text "" fs
  journeyNumber := scalar 13 Field.text "" fs
  atStop := scalar 14 Field.bool false fs
  currentStopId := scalar 15 Field.text "" fs
  lineColor := scalar 16 Field.text "" fs
  lineTextColor := scalar 17 Field.text "" fs
  schedulePositioned := scalar 22 Field.bool false fs
  speedKmh := scalar 23 Field.float (.fin 0) fs
  speedKnown := scalar 24 Field.bool false fs

structure Exact (m : VehicleState) : Prop where
  vehicleType : FitsI32 m.vehicleType
  lat : Ieee.Has Ieee.binary64 m.lat
  lon : Ieee.Has Ieee.binary64 m.lon
  bearing : Ieee.Has Ieee.binary32 m.bearing
  delaySeconds : FitsI32 m.delaySeconds
  speedKmh : Ieee.Has Ieee.binary32 m.speedKmh

end VehicleState

namespace VehicleMove

def kind : Nat → Option Kind
  | 1 | 7 => some .string
  | 2 | 3 => some .double
  | 4 | 10 => some .float
  | 5 => some .int32
  | 6 | 8 | 9 | 11 => some .bool
  | _ => none

def Typed : List Field → Prop := TypedBy kind

def ofFields (fs : List Field) : VehicleMove where
  id := scalar 1 Field.text "" fs
  lat := scalar 2 Field.double (.fin 0) fs
  lon := scalar 3 Field.double (.fin 0) fs
  bearing := scalar 4 Field.float (.fin 0) fs
  delaySeconds := scalar 5 Field.int 0 fs
  delayKnown := scalar 8 Field.bool false fs
  atStop := scalar 6 Field.bool false fs
  currentStopId := scalar 7 Field.text "" fs
  schedulePositioned := scalar 9 Field.bool false fs
  speedKmh := scalar 10 Field.float (.fin 0) fs
  speedKnown := scalar 11 Field.bool false fs

structure Exact (m : VehicleMove) : Prop where
  lat : Ieee.Has Ieee.binary64 m.lat
  lon : Ieee.Has Ieee.binary64 m.lon
  bearing : Ieee.Has Ieee.binary32 m.bearing
  delaySeconds : FitsI32 m.delaySeconds
  speedKmh : Ieee.Has Ieee.binary32 m.speedKmh

end VehicleMove

namespace Update

def kind : Nat → Option Kind
  | 3 => some .string
  | 4 => some .bool
  | _ => none

def Typed (fs : List Field) : Prop :=
  TypedBy kind fs ∧ Embeds 1 VehicleState.Typed fs ∧ Embeds 2 VehicleMove.Typed fs

def ofFields (fs : List Field) : Update where
  entered := repeated 1 (fun f => VehicleState.ofFields f.fields) fs
  moved := repeated 2 (fun f => VehicleMove.ofFields f.fields) fs
  left := repeated 3 Field.text fs
  isSnapshot := scalar 4 Field.bool false fs

structure Exact (m : Update) : Prop where
  entered : ∀ v ∈ m.entered, v.Exact
  moved : ∀ v ∈ m.moved, v.Exact

end Update

structure ServerError where
  code : Nat
  message : String
  deriving DecidableEq

namespace ServerError

def kind : Nat → Option Kind
  | 1 => some .uint32
  | 2 => some .string
  | _ => none

def Typed : List Field → Prop := TypedBy kind

def ofFields (fs : List Field) : ServerError where
  code := scalar 1 Field.nat 0 fs
  message := scalar 2 Field.text "" fs

end ServerError

/-- `ServerMessage`, with the members of its `payload`. -/
structure ServerObject where
  update : Option Update := none
  pong : Option Bool := none
  error : Option ServerError := none

namespace ServerObject

def kind : Nat → Option Kind
  | 2 => some .bool
  | _ => none

def Typed (fs : List Field) : Prop :=
  TypedBy kind fs ∧ Embeds 1 Update.Typed fs ∧ Embeds 3 ServerError.Typed fs ∧ AtMostOne [1, 2, 3] fs

/-- The members that are written; an embedded message is all that its fields say. -/
def ofFields (fs : List Field) : ServerObject where
  update := (last? 1 fs).map fun _ => Update.ofFields (repeated 1 Field.fields fs).flatten
  pong := (last? 2 fs).map Field.bool
  error := (last? 3 fs).map fun _ => ServerError.ofFields (repeated 3 Field.fields fs).flatten

end ServerObject

namespace ServerMessage

/-- A message the server sends, with the one member of its `payload`. -/
def object : ServerMessage → ServerObject
  | update u => { update := some u }
  | pong => { pong := some true }

def Exact : ServerMessage → Prop
  | update u => u.Exact
  | pong => True

end ServerMessage

/-- An encoder of the server's messages: a frame that is not too long for its
lengths is of the contract's types, and spells the message. -/
def Encodes (encode : ServerMessage → Bytes) : Prop :=
  ∀ m : ServerMessage, m.Exact → (encode m).length < 2 ^ 32 →
    ∃ fs, encode m = render fs ∧ ServerObject.Typed fs ∧ ServerObject.ofFields fs = m.object

/-! ## Client to server -/

namespace Viewport

def kind : Nat → Option Kind
  | 1 | 2 | 3 | 4 => some .double
  | 5 => some .uint32
  | _ => none

def Typed : List Field → Prop := TypedBy kind

def ofFields (fs : List Field) : Viewport where
  minLat := scalar 1 Field.double (.fin 0) fs
  minLon := scalar 2 Field.double (.fin 0) fs
  maxLat := scalar 3 Field.double (.fin 0) fs
  maxLon := scalar 4 Field.double (.fin 0) fs
  zoom := scalar 5 Field.nat 0 fs

structure Exact (m : Viewport) : Prop where
  minLat : Ieee.Has Ieee.binary64 m.minLat
  minLon : Ieee.Has Ieee.binary64 m.minLon
  maxLat : Ieee.Has Ieee.binary64 m.maxLat
  maxLon : Ieee.Has Ieee.binary64 m.maxLon
  zoom : m.zoom < 2 ^ 32

end Viewport

namespace PbFilters

def kind : Nat → Option Kind
  | 2 | 3 => some .string
  | _ => none

/-- The numbers of a packed payload. -/
def unpack : Nat → Bytes → List Int
  | 0, _ => []
  | passes + 1, b =>
    match readVarint b with
    | some (n, rest) => toI32 n :: unpack passes rest
    | none => []

/-- The numbers of a repeated enum's field, packed or one by one. -/
def numbers : Field → List Int
  | .varint _ n => [toI32 n]
  | .len _ b => unpack b.length b
  | _ => []

/-- A field of a repeated enum. -/
def IsNumbers (f : Field) : Prop :=
  f.Is .int32 ∨ ∃ vs : List Int, (∀ v ∈ vs, FitsI32 v) ∧
    f = .len f.num (vs.flatMap fun v => varint (ofI32 v))

def Typed (fs : List Field) : Prop := TypedBy kind fs ∧ ∀ f ∈ fs, f.num = 1 → IsNumbers f

def ofFields (fs : List Field) : PbFilters where
  vehicleTypes := (repeated 1 numbers fs).flatten
  dataowners := repeated 2 Field.text fs
  search := scalar 3 Field.text "" fs

end PbFilters

namespace View

def kind : Nat → Option Kind
  | 3 => some .string
  | _ => none

/-- `Subscribe` and `UpdateViewport` are declared alike. -/
def Typed (fs : List Field) : Prop :=
  TypedBy kind fs ∧ Embeds 1 Viewport.Typed fs ∧ Embeds 2 PbFilters.Typed fs

def ofFields (fs : List Field) : View where
  viewport := (last? 1 fs).map fun _ => Viewport.ofFields (repeated 1 Field.fields fs).flatten
  filters := (last? 2 fs).map fun _ => PbFilters.ofFields (repeated 2 Field.fields fs).flatten
  pinned := repeated 3 Field.text fs

/-- The vehicle types its filters name. -/
def types (m : View) : List Int := (m.filters.map PbFilters.vehicleTypes).getD []

def Exact (m : View) : Prop := ∀ v, m.viewport = some v → v.Exact

end View

namespace ClientMessage

def kind : Nat → Option Kind
  | 3 => some .bool
  | _ => none

def Typed (fs : List Field) : Prop :=
  TypedBy kind fs ∧ Embeds 1 View.Typed fs ∧ Embeds 2 View.Typed fs ∧ AtMostOne [1, 2, 3] fs

def ofFields (fs : List Field) : ClientMessage where
  payload :=
    if (last? 1 fs).isSome then some (.subscribe (View.ofFields (repeated 1 Field.fields fs).flatten))
    else if (last? 2 fs).isSome then some (.updateViewport (View.ofFields (repeated 2 Field.fields fs).flatten))
    else (last? 3 fs).map fun f => .ping f.bool

/-- The view it asks for. -/
def asked (m : ClientMessage) : Option View :=
  match m.payload with
  | some (.subscribe s) => some s
  | some (.updateViewport u) => some u
  | _ => none

/-- The vehicle types it names. -/
def types (m : ClientMessage) : List Int := (m.asked.map View.types).getD []

def Exact (m : ClientMessage) : Prop := ∀ v, m.asked = some v → v.Exact

end ClientMessage

end OV.Impl
