import Ovlive.Impl.Realtime.Reader

/-!
# NS treinposities (`crates/realtime/src/ns.rs`)

A payload is a snapshot of every reporting train: for each train its number and
one fix per material part. `Ns.step` is one event of the document, and
`parseNsTreinposities` folds it over the events of a payload. Of a train's
usable parts the one with the lowest order is kept.
-/

namespace OV.Impl

namespace Ns

/-- How far ahead of the clock a fix may be dated, in seconds. -/
def MAX_CLOCK_SKEW : Int := 60

/-- The fix of one material part. -/
structure Part where
  order : Option Int32 := none
  lat : Option Num := none
  lon : Option Num := none
  speed : Option Num := none
  course : Option Num := none
  timestamp : Option Instant := none

/-- `Part::set`: an empty value sets nothing. -/
def Part.set [Feed] (p : Part) (field val : String) : Part :=
  let v := Feed.trimmed val
  if v.isEmpty then p
  else
    match field with
    | "Materieelvolgnummer" => { p with order := Text.parseI32? v.toList }
    | "Latitude" => { p with lat := Text.parseF64? v.toList }
    | "Longitude" => { p with lon := Text.parseF64? v.toList }
    | "Snelheid" => { p with speed := Text.parseF64? v.toList }
    | "Richting" => { p with course := Text.parseF32? v.toList }
    | "GpsDatumTijd" => { p with timestamp := Feed.parseFromRfc3339 v }
    | _ => p

/-- `(lo..hi).contains(&x)`. -/
def inRange (lo hi : ℚ) (x : Num) : Bool := (Num.fin lo).le x && x.lt (Num.fin hi)

/-- `Part::usable`: coordinates inside the feed's area, timestamped within the window. -/
def Part.usable (p : Part) (now : Instant) (maxAge : Int) : Bool :=
  match p.lat, p.lon, p.timestamp with
  | some lat, some lon, some ts =>
    if !inRange 3 (15 / 2) lon || !inRange 50 54 lat then false
    else now - maxAge ≤ ts && ts ≤ now + MAX_CLOCK_SKEW * nanos
  | _, _, _ => false

/-- Whether a part replaces the best one so far: a part without an order sorts last. -/
def Part.better (p : Part) (best : Option Part) (now : Instant) (maxAge : Int) : Bool :=
  match best, p.order with
  | none, _ => p.usable now maxAge
  | some b, some o => p.usable now maxAge && o < b.order.getD Int32.maxValue
  | some _, none => false

/-- `event_for`: the event of a train, by its leading part. A course counts
while the train moves. -/
def eventFor (number : String) (p : Part) (now : Instant) : PosEvent where
  key := { dataowner := TRAIN_DATAOWNER, vehicleNumber := number }
  kind := .onRoute
  journeyNumber := some number
  lat := p.lat
  lon := p.lon
  bearing := p.course.filter fun _ => (Num.fin 0).lt (p.speed.getD (.fin 0))
  speedKmh := p.speed.map Num.f32
  vehicleType := some .train
  timestamp := p.timestamp.getD now

/-- The locals of `parse_ns_treinposities`. -/
structure Scan where
  events : List PosEvent := []
  train : Option String := none
  best : Option Part := none
  part : Option Part := none
  field : Option String := none

/-- A material part ends. -/
def Scan.endPart (now : Instant) (maxAge : Int) (s : Scan) : Scan :=
  match s.part with
  | some p => { s with part := none, best := if p.better s.best now maxAge then some p else s.best }
  | none => s

/-- A train ends. -/
def Scan.endTrain (now : Instant) (s : Scan) : Scan :=
  let events :=
    match s.train, s.best with
    | some number, some p => s.events ++ [eventFor number p now]
    | _, _ => s.events
  { s with events := events, train := none, best := none }

/-- One event of the document. -/
def step [Feed] (now : Instant) (maxAge : Int) (s : Scan) : XmlEvent → Scan
  | .start name _ =>
    match name with
    | "TreinLocation" => { s with train := none, best := none, part := none, field := none }
    | "TreinMaterieelDelen" => { s with part := some {}, field := none }
    | _ => { s with field := some name }
  | .text val =>
    match s.part, s.field with
    | some p, some f => { s with part := some (p.set f (Feed.unescaped val)) }
    | none, some "TreinNummer" =>
      let v := Feed.trimmed (Feed.unescaped val)
      if v.isEmpty then s else { s with train := some v }
    | _, _ => s
  | .end_ name =>
    match name with
    | "TreinMaterieelDelen" => { s.endPart now maxAge with field := none }
    | "TreinLocation" => { s.endTrain now with field := none }
    | _ => { s with field := none }
  | .other => s

end Ns

/-- `parse_ns_treinposities`. -/
def parseNsTreinposities [Feed] (xml : String) (now : Instant) (maxAge : Int) : List PosEvent :=
  ((Feed.read xml).foldl (Ns.step now maxAge) {}).events

end OV.Impl
