import Ovlive.Impl.Gtfs.Service

/-!
# Departure boards of the API (`crates/api/src/rest.rs`, `crates/api/src/legacy.rs`)

`stop_departures`, the next departures of a stop, and `stop_times_for`, the
calls of a service date at some stops. Both join the live index to the schedule
by the realtime trip id of the row. The time of a stop-times row is the instant
that the response writes as text.
-/

namespace OV.Impl

/-- A response without a board: its status, and its text. -/
structure ErrorResponse where
  code : Nat
  msg : String
  deriving DecidableEq

/-- `type_str`. -/
def typeStr : VehicleType → String
  | .bus => "bus"
  | .tram => "tram"
  | .metro => "metro"
  | .train => "train"
  | .ferry => "ferry"
  | .unknown => "unknown"

structure StopJson where
  stopId : String
  name : String
  code : Option String
  platformCode : Option String
  parentStation : Option String
  lat : Num
  lon : Num

/-- `StopJson::from`. -/
def StopJson.from_ (s : StopInfo) : StopJson where
  stopId := s.stopId
  name := s.name
  code := s.code
  platformCode := s.platformCode
  parentStation := s.parentStation
  lat := s.lat
  lon := s.lon

structure DepartureJson where
  tripId : String
  realtimeTripId : Option String
  vehicleId : Option String
  vehicleLat : Option Num
  vehicleLon : Option Num
  line : String
  vehicleType : String
  operator : Option String
  headsign : String
  stopSequence : Nat
  scheduledArrival : Int32
  scheduledDeparture : Int32
  expectedDeparture : Int32
  delaySeconds : Option Int
  atStop : Bool
  lineColor : Option String
  lineTextColor : Option String

structure BoardJson where
  stop : StopJson
  serviceDate : String
  departures : List DepartureJson

structure StopTimeItem where
  realtimeTripId : String
  stopId : String
  lineNumber : Option String
  agency : Option String
  vehicleNumber : Option String
  punctuality : Option Int
  scheduledArrival : Instant
  headsign : Option String
  latitude : Option Num
  longitude : Option Num

def DEFAULT_WINDOW_MIN : Int32 := 90
def MAX_WINDOW_MIN : Int32 := 360
def DEFAULT_DEPARTURES : Nat := 25
def MAX_DEPARTURES : Nat := 100

/-- How long a departure stays on the board after its time. -/
def DEPARTURE_GRACE_SECS : Int32 := 60

/-- The live vehicle that a departure is joined to: the one the index has under
its realtime trip id. -/
def Departure.vehicle (live : VehicleIndex) (d : Departure) : Option LiveTrip :=
  d.realtimeTripId.bind live.getByRealtimeTripId

/-- A row of `stop_departures`. -/
def departureJson (live : VehicleIndex) (d : Departure) : DepartureJson :=
  let vehicle := d.vehicle live
  let delay := (vehicle.filter LiveTrip.delayKnown).map LiveTrip.delaySeconds
  { tripId := d.trip.tripId
    realtimeTripId := d.realtimeTripId
    vehicleId := vehicle.map LiveTrip.id
    vehicleLat := vehicle.map LiveTrip.lat
    vehicleLon := vehicle.map LiveTrip.lon
    line := (d.route.map RouteInfo.shortName).getD ""
    vehicleType := typeStr ((d.route.map RouteInfo.vehicleType).getD .unknown)
    operator := d.route.bind RouteInfo.agencyId
    headsign := d.trip.headsign
    stopSequence := d.stopSequence
    scheduledArrival := d.scheduledArrival
    scheduledDeparture := d.scheduledDeparture
    expectedDeparture := d.scheduledDeparture + Int32.ofInt (delay.getD 0)
    delaySeconds := delay
    atStop := vehicle.any LiveTrip.atStop
    lineColor := d.route.bind RouteInfo.color
    lineTextColor := d.route.bind RouteInfo.textColor }

/-- `clamp`. -/
def clampInt32 (x lo hi : Int32) : Int32 := if x < lo then lo else if hi < x then hi else x

/-- The part of the schedule that `stop_departures` asks for: the start of the
window, its length, and the number of departures. -/
def departuresWindow (tz : Tz) (now : Instant) (window : Option Int32) (limit : Option Nat) : Int32 × Int32 × Nat :=
  (secsSinceLocalMidnight now tz - DEPARTURE_GRACE_SECS,
    clampInt32 (window.getD DEFAULT_WINDOW_MIN) 1 MAX_WINDOW_MIN * 60 + DEPARTURE_GRACE_SECS,
    max 1 (min (limit.getD DEFAULT_DEPARTURES) MAX_DEPARTURES))

/-- `stop_departures`. -/
def stopDepartures (tz : Tz) (now : Instant) (gtfs : GtfsService) (live : VehicleIndex) (stopId : String)
    (window : Option Int32) (limit : Option Nat) : Except ErrorResponse BoardJson :=
  match gtfs.stops with
  | none => .error { code := 503, msg := "stop index not built yet" }
  | some idx =>
    match idx.store.stops.lookup stopId with
    | none => .error { code := 404, msg := "stop not found" }
    | some stop =>
      let (fromSecs, windowSecs, limit) := departuresWindow tz now window limit
      .ok
        { stop := StopJson.from_ stop
          serviceDate := idx.date.formatDashed
          departures := (idx.departures stopId fromSecs windowSecs limit).map (departureJson live) }

/-- A row of `stop_times_for`. -/
def stopTimeItem (midnight : Instant) (live : VehicleIndex) (d : Departure) : StopTimeItem :=
  let vehicle := d.vehicle live
  { realtimeTripId := d.realtimeTripId.getD ""
    stopId := d.stop.stopId
    lineNumber := d.route.map RouteInfo.shortName
    agency := d.route.bind RouteInfo.agencyId
    vehicleNumber := vehicle.map fun v => v.key.vehicleNumber
    punctuality := vehicle.map LiveTrip.delaySeconds
    scheduledArrival := midnight + d.scheduledArrival.toInt * nanos
    headsign := some d.trip.headsign
    latitude := vehicle.map LiveTrip.lat
    longitude := vehicle.map LiveTrip.lon }

/-- `internal_error`. -/
def internalError : ErrorResponse := { code := 500, msg := "internal error\n" }

/-- `stop_times_for`; its last sort is a stable one. -/
def stopTimesFor (sort : SortBy fun d : Departure => d.scheduledArrival.toInt) (tz : Tz) (gtfs : GtfsService)
    (live : VehicleIndex) (stopIds : List String) : Except ErrorResponse (List StopTimeItem) :=
  match gtfs.stops with
  | none => .error internalError
  | some idx =>
    match localMidnightUtc idx.date tz with
    | none => .error internalError
    | some midnight =>
      let rows := stopIds.flatMap fun stopId =>
        (idx.callsOnServiceDate sort stopId).map fun d => (d.scheduledArrival, stopTimeItem midnight live d)
      .ok ((rows.insertionSort fun a b => a.1.toInt ≤ b.1.toInt).map Prod.snd)

end OV.Impl
