import Ovlive.Framework.Clock

/-!
# The domain model (`crates/core/src/model.rs`)

Vehicle types, normalized realtime events and live trips. `Platform` is what
the program takes from outside the repository and the model leaves open: the
trigonometry behind a derived bearing, the Amsterdam rules of the time zone
database, and the operator label of a map marker (a table of brand names that
nothing modelled reads back).
-/

namespace OV.Impl

class Platform where
  /-- `rd::bearing`: initial bearing from one point to another, in degrees. -/
  bearing : Num → Num → Num → Num → Num
  /-- `chrono_tz::Europe::Amsterdam`. -/
  amsterdam : Tz
  /-- `resolveOperator(dataowner, operator).label`. -/
  operatorLabel : String → String → String

/-- A platform to evaluate the model on: no bearings, UTC, and the codes themselves. -/
@[reducible] def plainPlatform : Platform where
  bearing _ _ _ _ := .nan
  amsterdam := .utc
  operatorLabel dataowner _ := dataowner

inductive VehicleType
  | unknown | bus | tram | metro | train | ferry
  deriving DecidableEq

/-- `VehicleType::from_gtfs_route_type`. -/
def VehicleType.fromGtfsRouteType (rt : Int) : VehicleType :=
  if rt = 0 ∨ (900 ≤ rt ∧ rt ≤ 906) then .tram
  else if rt = 1 ∨ (400 ≤ rt ∧ rt ≤ 404) then .metro
  else if rt = 2 ∨ (100 ≤ rt ∧ rt ≤ 117) then .train
  else if rt = 3 ∨ (700 ≤ rt ∧ rt ≤ 716) then .bus
  else if rt = 4 ∨ (1000 ≤ rt ∧ rt ≤ 1099) then .ferry
  else .unknown

/-- The kind of a position message. -/
inductive MessageKind
  | init | arrival | onStop | departure | onRoute | delay | offroute | end_
  deriving DecidableEq

/-- A physical vehicle within an operator. -/
structure VehicleKey where
  dataowner : String
  vehicleNumber : String
  deriving DecidableEq

def VehicleKey.id (k : VehicleKey) : String := k.dataowner ++ ":" ++ k.vehicleNumber

/-- A normalized realtime position event. -/
structure PosEvent where
  key : VehicleKey
  kind : MessageKind
  linePlanningNumber : Option String := none
  journeyNumber : Option String := none
  operatingDay : Option String := none
  blockCode : Option String := none
  rdX : Option Num := none
  rdY : Option Num := none
  lat : Option Num := none
  lon : Option Num := none
  bearing : Option Num := none
  speedKmh : Option Num := none
  vehicleType : Option VehicleType := none
  punctuality : Option Int := none
  userStopCode : Option String := none
  timestamp : Instant

/-- A currently active trip. -/
structure LiveTrip where
  id : String
  key : VehicleKey
  vehicleType : VehicleType
  operatorName : Option String
  agencyId : Option String
  linePlanningNumber : Option String
  linePublicNumber : Option String
  journeyNumber : Option String
  operatingDay : Option String
  blockCode : Option String
  destination : Option String
  matchedTripId : Option String
  lineColor : Option String
  lineTextColor : Option String
  lat : Num
  lon : Num
  bearing : Num
  speedKmh : Option Num
  schedulePositioned : Bool
  delaySeconds : Int
  delayKnown : Bool
  atStop : Bool
  currentStopId : Option String
  lastKind : Option MessageKind
  hasInit : Bool
  lastUpdate : Instant
  prevLat : Num
  prevLon : Num

namespace LiveTrip

/-- `LiveTrip::new`. -/
def new (key : VehicleKey) (ts : Instant) : LiveTrip where
  id := key.id
  key := key
  vehicleType := .unknown
  operatorName := none
  agencyId := none
  linePlanningNumber := none
  linePublicNumber := none
  journeyNumber := none
  operatingDay := none
  blockCode := none
  destination := none
  matchedTripId := none
  lineColor := none
  lineTextColor := none
  lat := .nan
  lon := .nan
  bearing := .nan
  speedKmh := none
  schedulePositioned := false
  delaySeconds := 0
  delayKnown := false
  atStop := false
  currentStopId := none
  lastKind := none
  hasInit := false
  lastUpdate := ts
  prevLat := .nan
  prevLon := .nan

def hasPosition (t : LiveTrip) : Bool := t.lat.isFinite && t.lon.isFinite

/-- `"<dataowner>:<line>:<journey>"`, once both are known. -/
def realtimeTripId (t : LiveTrip) : Option String := do
  let line ← t.linePlanningNumber
  let journey ← t.journeyNumber
  some (t.key.dataowner ++ ":" ++ line ++ ":" ++ journey)

end LiveTrip

/-- The vehicle-key namespace of trains. -/
def TRAIN_DATAOWNER : String := "IFF"

end OV.Impl
