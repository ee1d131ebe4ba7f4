import Ovlive.Impl.Core.Trains
import Ovlive.Impl.Realtime.Reader

/-!
# NS RitInfo (`crates/realtime/src/ns_rit.rs`)

One document is one revision of one train's journey. Of each station the
planned and the actual times are kept, and their difference is the delay there.
`NsRit.step` is one event of the document.
-/

namespace OV.Impl

namespace NsRit

variable [Feed]

/-- `attr`: the value of an attribute. -/
def attr (attributes : List (String × String)) (name : String) : Option String :=
  (attributes.find? fun a => a.1 = name).map Prod.snd

/-- `ts`. -/
def ts (s : String) : Option Instant := Feed.parseFromRfc3339 (Feed.trimmed s)

/-- The times of one station. -/
structure StationTimes where
  plannedDep : Option Instant := none
  actualDep : Option Instant := none
  plannedArr : Option Instant := none
  actualArr : Option Instant := none

/-- A delay as an `i32`: the difference in whole seconds, towards zero, wrapped. -/
def delayOf (planned actual : Instant) : Int := (Int32.ofInt ((actual - planned).tdiv nanos)).toInt

/-- A planned and an actual time as a point. -/
def pointOf (planned actual : Option Instant) : Option DelayPoint := do
  let p ← planned
  let a ← actual
  some { at_ := a, delaySeconds := delayOf p a }

/-- `StationTimes::point`: the departure, or else the arrival. -/
def StationTimes.point (st : StationTimes) : Option DelayPoint :=
  (pointOf st.plannedDep st.actualDep).or (pointOf st.plannedArr st.actualArr)

/-- The first time of each kind is kept. -/
def StationTimes.record (st : StationTimes) (departure actual : Bool) (t : Instant) : StationTimes :=
  match departure, actual with
  | true, true => { st with actualDep := st.actualDep.or (some t) }
  | true, false => { st with plannedDep := st.plannedDep.or (some t) }
  | false, true => { st with actualArr := st.actualArr.or (some t) }
  | false, false => { st with plannedArr := st.plannedArr.or (some t) }

/-- The locals of `parse_ns_rit`. -/
structure Scan where
  number : Option String := none
  operatingDay : Option String := none
  lineCode : Option String := none
  points : List DelayPoint := []
  field : Option String := none
  actual : Bool := false
  station : Option StationTimes := none
  inStationBlock : Bool := false

/-- A time inside a station. -/
def Scan.time (s : Scan) (departure : Bool) (v : String) : Scan :=
  if s.inStationBlock then
    match s.station, ts v with
    | some st, some t => { s with station := some (st.record departure s.actual t) }
    | _, _ => s
  else s

/-- A leaf with a value. -/
def Scan.leaf (s : Scan) (field v : String) : Scan :=
  match field with
  | "TreinNummer" => { s with number := s.number.or (some v) }
  | "TreinDatum" => { s with operatingDay := s.operatingDay.or (some v) }
  | "VertrekTijd" => s.time true v
  | "AankomstTijd" => s.time false v
  | _ => s

/-- One event of the document. -/
def step (s : Scan) : XmlEvent → Scan
  | .start name attributes =>
    match name with
    | "LogischeRitDeelStation" => { s with station := some {}, inStationBlock := true }
    | "TreinSoort" =>
      { s with lineCode := (attr attributes "Code").filter fun c => !c.isEmpty, field := some name, actual := false }
    | "VertrekTijd" | "AankomstTijd" =>
      { s with actual := attr attributes "InfoStatus" == some "Actueel", field := some name }
    | _ => { s with field := some name, actual := false }
  | .text val =>
    match s.field with
    | none => s
    | some f =>
      let v := Feed.trimmed (Feed.unescaped val)
      if v.isEmpty then s else s.leaf f v
  | .end_ name =>
    if name = "LogischeRitDeelStation" then
      { s with
        points := s.points ++ (s.station.bind StationTimes.point).toList
        station := none, inStationBlock := false, field := none }
    else { s with field := none }
  | .other => s

end NsRit

/-- `parse_ns_rit`: no update without a train number. -/
def parseNsRit [Feed] (xml : String) : Option TrainUpdate :=
  let s := (Feed.read xml).foldl NsRit.step {}
  s.number.map fun number =>
    { number := number, operatingDay := s.operatingDay, lineCode := s.lineCode, points := s.points }

end OV.Impl
