import Ovlive.Impl.Api.Boards

/-!
# The trip of a vehicle (`crates/api/src/rest.rs`, `crates/api/src/legacy.rs`)

`vehicle_trip`, the route and the calls of a vehicle's matched trip, and the
deprecated `details` of a trip, which writes its calls as instants (`absolute`).
Both read the schedule through the vehicle's match alone.
-/

namespace OV.Impl

/-- A scheduled call of a trip, with its stop. -/
structure TripStop where
  stopId : String
  name : String
  lat : Num
  lon : Num
  stopSequence : Nat
  /-- Seconds since the operating day's local midnight. -/
  scheduledArrival : Int32
  scheduledDeparture : Int32
  deriving DecidableEq

namespace GtfsStore

variable (s : GtfsStore)

/-- `trip_stops`: every call of a trip, in order. -/
def tripStops (tripId : String) : List TripStop :=
  ((s.stopTimes.lookup tripId).getD []).filterMap fun st =>
    (s.stops.lookup st.stopId).map fun stop =>
      { stopId := st.stopId
        name := stop.name
        lat := stop.lat
        lon := stop.lon
        stopSequence := st.stopSequence
        scheduledArrival := st.arrival
        scheduledDeparture := st.departure }

/-- `shape_of_trip`. -/
def shapeOfTrip (tripId : String) : Option (List (Num × Num)) := do
  let trip ← s.trips.lookup tripId
  s.shapes.lookup (← trip.shapeId)

end GtfsStore

structure VehicleTripJson where
  tripId : Option String
  routeShape : List (Num × Num)
  stops : List TripStop
  deriving DecidableEq

/-- `vehicle_trip`. -/
def vehicleTrip (live : LiveState) (gtfs : GtfsService) (id : String) : Except ErrorResponse VehicleTripJson :=
  match live.trips.lookup id with
  | none => .error { code := 404, msg := "vehicle not found" }
  | some trip =>
    match gtfs.store, trip.matchedTripId with
    | some store, some tid =>
      .ok { tripId := some tid, routeShape := (store.shapeOfTrip tid).getD [], stops := store.tripStops tid }
    | _, tid => .ok { tripId := tid, routeShape := [], stops := [] }

/-! ## The deprecated API -/

/-- `transport_type`. -/
def transportType : VehicleType → String
  | .bus => "Bus"
  | .tram => "Tram"
  | .metro => "Metro"
  | .train => "Train"
  | .ferry => "Ferry"
  | .unknown => "Unknown"

/-- `old_id`. -/
def oldId (t : LiveTrip) : String := t.realtimeTripId.getD t.id

/-- `service_date_compact`. -/
def serviceDateCompact (t : LiveTrip) : String :=
  (t.operatingDay.map fun d => String.ofList (d.toList.filter (· ≠ '-'))).getD ""

/-- `operating_day`. -/
def operatingDay (t : LiveTrip) : Option NaiveDate := t.operatingDay.bind NaiveDate.parseDashed

/-- `absolute`: a schedule value of a day as an instant. -/
def absolute (day : Option NaiveDate) (secs : Int32) (tz : Tz) : Option Instant := do
  let midnight ← localMidnightUtc (← day) tz
  some (midnight + secs.toInt * nanos)

/-- `resolve`: a live trip by either form of its id. -/
def resolve (live : LiveState) (index : VehicleIndex) (id : String) : Option LiveTrip :=
  (live.trips.lookup id).or (index.getByRealtimeTripId id)

def notFound : ErrorResponse := { code := 404, msg := "404 page not found\n" }

structure ShapePoint where
  lat : Num
  lon : Num
  order : Nat

/-- A call of `details`, with the instant that the response writes as text. -/
structure DetailsStop where
  name : String
  arrivalTime : Instant
  userStopOrder : Nat
  userStopCode : Option String
  lat : Num
  lon : Num

structure TripDetailsResponse where
  id : String
  dataOwner : String
  line : String
  journeyNumber : String
  vehicleNumbers : List String
  headsign : String
  description : String
  omloopNumber : Option String
  operatingDay : String
  shapes : List ShapePoint
  transportType : String
  stops : List DetailsStop
  hasInit : Bool

/-- A call of `details`: none without its stop, or without an operating day. -/
def detailsStop (store : GtfsStore) (day : Option NaiveDate) (tz : Tz) (st : StopTime) : Option DetailsStop := do
  let stop ← store.stops.lookup st.stopId
  let arrival ← absolute day st.arrival tz
  some
    { name := if stop.name.isEmpty then "-" else stop.name
      arrivalTime := arrival
      userStopOrder := st.stopSequence
      userStopCode := stop.code
      lat := stop.lat
      lon := stop.lon }

/-- `details`. -/
def details (tz : Tz) (live : LiveState) (index : VehicleIndex) (gtfs : GtfsService) (id : String) :
    Except ErrorResponse TripDetailsResponse := do
  let some trip := resolve live index id | .error notFound
  let some tid := trip.matchedTripId | .error notFound
  let some store := gtfs.store | .error internalError
  let info := store.trips.lookup tid
  return {
    id := oldId trip
    dataOwner := trip.key.dataowner
    line := trip.linePublicNumber.getD ""
    journeyNumber := trip.journeyNumber.getD ""
    vehicleNumbers := [trip.key.vehicleNumber]
    headsign := (info.map TripInfo.headsign).getD "-"
    description := (info.map fun t => ((store.routes.lookup t.routeId).map RouteInfo.longName).getD "").getD "-"
    omloopNumber := trip.blockCode
    operatingDay := serviceDateCompact trip
    shapes := ((store.shapeOfTrip tid).getD []).zipIdx.map fun (p, i) => { lat := p.1, lon := p.2, order := i + 1 }
    transportType := transportType trip.vehicleType
    stops := ((store.stopTimes.lookup tid).getD []).filterMap (detailsStop store (operatingDay trip) tz)
    hasInit := trip.hasInit }

end OV.Impl
