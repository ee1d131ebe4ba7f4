import Ovlive.Impl.Contract

/-!
# The clients' codec (`packages/api-types/src/gen/ovlive.js`, `proto.ts`)

The generated module, over a library of readers and writers (`Codec`), in the
direction the clients use it: `encode` and `verify` of what a client sends,
`decode` of what it receives. A read or write is `none` where the code throws.

A decoded message has the default of its prototype in a field that was not
written, and `toObject` with defaults writes the same default: an object is
what its message reads as. `Number`, `Boolean` and the copies of `fromObject`
keep the values of the types the clients pass.
-/

namespace OV.Impl

open Wire

variable [Codec]

/-- The case of a `switch` for a field of no number declared. -/
def skipField {M : Type} (tag long : Nat) (m : M) : Read M := into (Codec.skipType (tag % 8) long) fun _ => m

/-- The guard each `decode` starts with. -/
def guardDepth {M : Type} (long : Nat) (r : Read M) : Read M :=
  if Codec.recursionLimit < long then fun _ => none else r

/-! ## Server to client -/

namespace VehicleState

def empty : VehicleState := ofFields []

/-- The body of the loop of `decode`. -/
def decodeField (long tag : Nat) (m : VehicleState) : Read VehicleState :=
  match tag / 8 with
  | 1 => into Codec.string fun x => { m with id := x }
  | 2 => into Codec.string fun x => { m with dataowner := x }
  | 3 => into Codec.string fun x => { m with vehicleNumber := x }
  | 4 => into Codec.string fun x => { m with linePublicNumber := x }
  | 5 => into Codec.int32 fun x => { m with vehicleType := x }
  | 6 => into Codec.string fun x => { m with operatorName := x }
  | 7 => into Codec.double fun x => { m with lat := x }
  | 8 => into Codec.double fun x => { m with lon := x }
  | 9 => into Codec.float fun x => { m with bearing := x }
  | 10 => into Codec.int32 fun x => { m with delaySeconds := x }
  | 21 => into Codec.bool fun x => { m with delayKnown := x }
  | 11 => into Codec.string fun x => { m with destination := x }
  | 12 => into Codec.string fun x => { m with blockCode := x }
  | 13 => into Codec.string fun x => { m with journeyNumber := x }
  | 14 => into Codec.bool fun x => { m with atStop := x }
  | 15 => into Codec.string fun x => { m with currentStopId := x }
  | 16 => into Codec.string fun x => { m with lineColor := x }
  | 17 => into Codec.string fun x => { m with lineTextColor := x }
  | 22 => into Codec.bool fun x => { m with schedulePositioned := x }
  | 23 => into Codec.float fun x => { m with speedKmh := x }
  | 24 => into Codec.bool fun x => { m with speedKnown := x }
  | _ => skipField tag long m

def decode (long : Nat) (length : Option Nat) : Read VehicleState :=
  guardDepth long (Wire.decode (decodeField long) empty length)

end VehicleState

namespace VehicleMove

def empty : VehicleMove := ofFields []

def decodeField (long tag : Nat) (m : VehicleMove) : Read VehicleMove :=
  match tag / 8 with
  | 1 => into Codec.string fun x => { m with id := x }
  | 2 => into Codec.double fun x => { m with lat := x }
  | 3 => into Codec.double fun x => { m with lon := x }
  | 4 => into Codec.float fun x => { m with bearing := x }
  | 5 => into Codec.int32 fun x => { m with delaySeconds := x }
  | 8 => into Codec.bool fun x => { m with delayKnown := x }
  | 6 => into Codec.bool fun x => { m with atStop := x }
  | 7 => into Codec.string fun x => { m with currentStopId := x }
  | 9 => into Codec.bool fun x => { m with schedulePositioned := x }
  | 10 => into Codec.float fun x => { m with speedKmh := x }
  | 11 => into Codec.bool fun x => { m with speedKnown := x }
  | _ => skipField tag long m

def decode (long : Nat) (length : Option Nat) : Read VehicleMove :=
  guardDepth long (Wire.decode (decodeField long) empty length)

end VehicleMove

namespace Update

def empty : Update := ofFields []

def decodeField (long tag : Nat) (m : Update) : Read Update :=
  match tag / 8 with
  | 1 => into (embedded (VehicleState.decode (long + 1))) fun x => { m with entered := m.entered ++ [x] }
  | 2 => into (embedded (VehicleMove.decode (long + 1))) fun x => { m with moved := m.moved ++ [x] }
  | 3 => into Codec.string fun x => { m with left := m.left ++ [x] }
  | 4 => into Codec.bool fun x => { m with isSnapshot := x }
  | _ => skipField tag long m

def decode (long : Nat) (length : Option Nat) : Read Update :=
  guardDepth long (Wire.decode (decodeField long) empty length)

end Update

namespace ServerError

def empty : ServerError := ofFields []

def decodeField (long tag : Nat) (m : ServerError) : Read ServerError :=
  match tag / 8 with
  | 1 => into Codec.uint32 fun x => { m with code := x }
  | 2 => into Codec.string fun x => { m with message := x }
  | _ => skipField tag long m

def decode (long : Nat) (length : Option Nat) : Read ServerError :=
  guardDepth long (Wire.decode (decodeField long) empty length)

end ServerError

namespace ServerObject

def decodeField (long tag : Nat) (m : ServerObject) : Read ServerObject :=
  match tag / 8 with
  | 1 => into (embedded (Update.decode (long + 1))) fun x => { m with update := some x }
  | 2 => into Codec.bool fun x => { m with pong := some x }
  | 3 => into (embedded (ServerError.decode (long + 1))) fun x => { m with error := some x }
  | _ => skipField tag long m

def decode (long : Nat) (length : Option Nat) : Read ServerObject :=
  guardDepth long (Wire.decode (decodeField long) {} length)

end ServerObject

/-- `decodeServer`. -/
def decodeServer (bytes : Bytes) : Option ServerObject := (ServerObject.decode 0 none bytes).map Prod.fst

/-! ## Client to server -/

/-- The guard each `encode` starts with. -/
def guardEncode (q : Nat) (b : Option Bytes) : Option Bytes := if Codec.recursionLimit < q then none else b

/-- The message of `verify` that is too deep. -/
def tooDeep : String := "maximum nesting depth exceeded"

namespace Viewport

def encode (m : Viewport) (q : Nat) : Option Bytes :=
  guardEncode q <| some <|
    Codec.writeUint32 9 ++ Codec.writeDouble m.minLat ++
    (Codec.writeUint32 17 ++ Codec.writeDouble m.minLon) ++
    (Codec.writeUint32 25 ++ Codec.writeDouble m.maxLat) ++
    (Codec.writeUint32 33 ++ Codec.writeDouble m.maxLon) ++
    (Codec.writeUint32 40 ++ Codec.writeUint32 m.zoom)

/-- `verify`; numbers are numbers, and `zoom` a whole one. -/
def verify (_ : Viewport) (long : Nat) : Option String :=
  if Codec.recursionLimit < long then some tooDeep else none

/-- `fromObject`: `zoom >>> 0`. -/
def fromObject (m : Viewport) : Viewport := { m with zoom := m.zoom % 2 ^ 32 }

end Viewport

namespace PbFilters

def encode (m : PbFilters) (q : Nat) : Option Bytes :=
  guardEncode q <| some <|
    (if m.vehicleTypes = [] then []
      else Codec.writeUint32 10 ++ Codec.ldelim (m.vehicleTypes.flatMap Codec.writeInt32)) ++
    (m.dataowners.flatMap fun s => Codec.writeUint32 18 ++ Codec.writeString s) ++
    (Codec.writeUint32 26 ++ Codec.writeString m.search)

/-- `verify`: an enum's value is one of its numbers. -/
def verify (m : PbFilters) (long : Nat) : Option String :=
  if Codec.recursionLimit < long then some tooDeep
  else if m.vehicleTypes.all fun v => 0 ≤ v && v ≤ 5 then none
  else some "vehicle_types: enum value[] expected"

end PbFilters

namespace View

/-- `encode` of `Subscribe` and of `UpdateViewport`. -/
def encode (m : View) (q : Nat) : Option Bytes :=
  guardEncode q <|
    ((m.viewport.elim (some []) fun v =>
      (v.encode (q + 1)).map fun b => Codec.writeUint32 10 ++ Codec.ldelim b)).bind fun viewport =>
    ((m.filters.elim (some []) fun f =>
      (f.encode (q + 1)).map fun b => Codec.writeUint32 18 ++ Codec.ldelim b)).map fun filters =>
    viewport ++ filters ++ m.pinned.flatMap fun s => Codec.writeUint32 26 ++ Codec.writeString s

def verify (m : View) (long : Nat) : Option String :=
  if Codec.recursionLimit < long then some tooDeep
  else
    (m.viewport.bind fun v => (v.verify (long + 1)).map ("viewport." ++ ·)) <|>
    (m.filters.bind fun f => (f.verify (long + 1)).map ("filters." ++ ·))

def fromObject (m : View) : View := { m with viewport := m.viewport.map Viewport.fromObject }

end View

namespace ClientMessage

def encode (m : ClientMessage) (q : Nat) : Option Bytes :=
  guardEncode q <|
    match m.payload with
    | none => some []
    | some (.subscribe s) => (s.encode (q + 1)).map fun b => Codec.writeUint32 10 ++ Codec.ldelim b
    | some (.updateViewport u) => (u.encode (q + 1)).map fun b => Codec.writeUint32 18 ++ Codec.ldelim b
    | some (.ping b) => some (Codec.writeUint32 24 ++ Codec.writeBool b)

def verify (m : ClientMessage) (long : Nat) : Option String :=
  if Codec.recursionLimit < long then some tooDeep
  else match m.payload with
    | some (.subscribe s) => (s.verify (long + 1)).map ("subscribe." ++ ·)
    | some (.updateViewport u) => (u.verify (long + 1)).map ("update_viewport." ++ ·)
    | _ => none

def fromObject (m : ClientMessage) : ClientMessage where
  payload := m.payload.map fun
    | .subscribe s => .subscribe s.fromObject
    | .updateViewport u => .updateViewport u.fromObject
    | .ping b => .ping b

end ClientMessage

/-- `encodeClient`. -/
def encodeClient (m : ClientMessage) : Except String Bytes :=
  match m.verify 0 with
  | some err => .error ("ClientMessage: " ++ err)
  | none =>
    match m.fromObject.encode 0 with
    | some b => .ok b
    | none => .error "max depth exceeded"

end OV.Impl
