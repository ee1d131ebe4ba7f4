import Ovlive.Impl.Realtime.Reader

/-!
# KV6 (`crates/realtime/src/kv6.rs`)

A KV6 payload holds records whose element name is the message type, each with
flat leaf fields. `Kv6.step` is one event of the document; `parseKv6` folds it
over the events of a payload.
-/

namespace OV.Impl

/-- `kind_from`. -/
def kindFrom (name : String) : Option MessageKind :=
  match name with
  | "INIT" => some .init
  | "ARRIVAL" => some .arrival
  | "ONSTOP" => some .onStop
  | "DEPARTURE" => some .departure
  | "ONROUTE" => some .onRoute
  | "DELAY" => some .delay
  | "OFFROUTE" => some .offroute
  | "END" => some .end_
  | _ => none

namespace Kv6

/-- The record being read. -/
structure Builder where
  kind : Option MessageKind := none
  dataowner : Option String := none
  vehicleNumber : Option String := none
  line : Option String := none
  journey : Option String := none
  operatingDay : Option String := none
  blockCode : Option String := none
  userStopCode : Option String := none
  punctuality : Option Int := none
  rdX : Option Num := none
  rdY : Option Num := none
  timestamp : Option Instant := none

variable [Feed]

/-- `Builder::set`: an empty value sets nothing. -/
def Builder.set (b : Builder) (field val : String) : Builder :=
  let v := Feed.trimmed val
  if v.isEmpty then b
  else
    match field with
    | "dataownercode" => { b with dataowner := some v }
    | "vehiclenumber" => { b with vehicleNumber := some v }
    | "lineplanningnumber" => { b with line := some v }
    | "journeynumber" => { b with journey := some v }
    | "operatingday" => { b with operatingDay := some v }
    | "blockcode" | "omloopnumber" => if (b.blockCode.getD "").isEmpty then { b with blockCode := some v } else b
    | "userstopcode" => { b with userStopCode := some v }
    | "punctuality" => { b with punctuality := (Text.parseI32? v.toList).map Int32.toInt }
    | "rd-x" => { b with rdX := (Text.parseF64? v.toList).filter fun x => (Num.fin 0).lt x }
    | "rd-y" => { b with rdY := (Text.parseF64? v.toList).filter fun y => (Num.fin 0).lt y }
    | "timestamp" => { b with timestamp := Feed.parseFromRfc3339 v }
    | _ => b

/-- `Builder::build`, at the time the clock shows: no event without a key, and
none for vehicle number 0, which stands for an unknown vehicle. -/
def Builder.build (b : Builder) (now : Instant) : Option PosEvent := do
  let dataowner ← b.dataowner
  let vehicleNumber ← b.vehicleNumber
  if vehicleNumber = "0" then none
  else
    let kind ← b.kind
    some
      { key := { dataowner := dataowner, vehicleNumber := vehicleNumber }
        kind := kind
        linePlanningNumber := b.line
        journeyNumber := b.journey
        operatingDay := b.operatingDay
        blockCode := b.blockCode
        rdX := b.rdX
        rdY := b.rdY
        punctuality := b.punctuality
        userStopCode := b.userStopCode
        timestamp := b.timestamp.getD now }

/-- The locals of `parse_kv6`. -/
structure Scan where
  events : List PosEvent := []
  cur : Option Builder := none
  field : Option String := none

/-- One event of the document. A record ends at the end tag of its own kind. -/
def step (now : Instant) (s : Scan) : XmlEvent → Scan
  | .start name _ =>
    match s.cur, kindFrom name with
    | none, some kind => { s with cur := some { kind := some kind }, field := none }
    | none, none => s
    | some _, _ => { s with field := some name }
  | .text val =>
    match s.cur, s.field with
    | some b, some f => { s with cur := some (b.set f (Feed.unescaped val)) }
    | _, _ => s
  | .end_ name =>
    match s.cur with
    | some b =>
      if b.kind.isSome ∧ kindFrom name = b.kind then
        { events := s.events ++ (b.build now).toList, cur := none, field := none }
      else { s with field := none }
    | none => { s with field := none }
  | .other => s

end Kv6

/-- `parse_kv6`, of a payload read when the clock shows `now`. -/
def parseKv6 [Feed] (now : Instant) (xml : String) : List PosEvent :=
  ((Feed.read xml).foldl (Kv6.step now) {}).events

end OV.Impl
