import Ovlive.Impl.Api.Trips
import Ovlive.Impl.Gtfs.Grid

/-!
# The deprecated endpoints (`crates/api/src/legacy.rs`)

The viewport that the old API takes, as four texts, its trips and its stops; the
endpoints that hand out the id of a trip: `trips`, `search` and `find_id`; and
those that take an id back: `status` and `journey_number` (`details` is with the
trips). Errors are plain texts that end a line; instants are kept for the texts
that the responses write them as.
-/

namespace OV.Impl.Legacy

/-- `text_err`. -/
def textErr (code : Nat) (msg : String) : ErrorResponse := { code := code, msg := msg ++ "\n" }

/-! ## The viewport -/

structure ViewportQuery where
  neLat : Option String := none
  neLon : Option String := none
  swLat : Option String := none
  swLon : Option String := none
  ids : Option String := none

inductive ViewportError
  | field (name : String)
  | bounds
  | tooLarge
  deriving DecidableEq

/-- `ViewportError::response`. -/
def ViewportError.response : ViewportError → ErrorResponse
  | field name => textErr 400 ("invalid " ++ name)
  | bounds => textErr 400 "invalid viewport bounds"
  | tooLarge => textErr 400 "viewport too large"

/-- `field`, of `parse_viewport`. -/
def viewportField (name : String) (raw : Option String) : Except ViewportError Num :=
  match raw.bind fun v => Text.parseF64? (Text.trim v.toList) with
  | some x => .ok x
  | none => .error (.field name)

/-- `parse_viewport`. -/
def parseViewport (q : ViewportQuery) (maxArea : Num) : Except ViewportError BBox := do
  let neLat ← viewportField "neLat" q.neLat
  let neLon ← viewportField "neLon" q.neLon
  let swLat ← viewportField "swLat" q.swLat
  let swLon ← viewportField "swLon" q.swLon
  if neLat.le swLat || neLon.le swLon then .error .bounds
  else if (Num.fin 0).lt maxArea && maxArea.lt ((neLat.sub swLat).mul (neLon.sub swLon)) then .error .tooLarge
  else .ok { minLat := swLat, minLon := swLon, maxLat := neLat, maxLon := neLon }

structure StopSummary where
  stopId : String
  stopName : String
  lat : Num
  lon : Num

/-- `StopSummary::from`. -/
def StopSummary.from_ (s : StopInfo) : StopSummary where
  stopId := s.stopId
  stopName := s.name
  lat := s.lat
  lon := s.lon

/-- `stops_in_viewport`. -/
def stopsInViewport (cosDegrees : Num → Num) (indexes : Option StopGrid) (maxArea : Num) (maxResults : Nat)
    (q : ViewportQuery) : Except ErrorResponse (List StopSummary) :=
  match parseViewport q maxArea with
  | .error e => .error e.response
  | .ok bbox =>
    match indexes with
    | none => .error internalError
    | some idx => .ok ((idx.inBbox cosDegrees bbox maxResults).map StopSummary.from_)

/-! ## The trips -/

structure TripSummary where
  id : String
  agency : String
  transportType : String
  vehicleNumber : String
  lat : Num
  lon : Num
  line : String
  timestamp : Instant

/-- `TripSummary::from`. -/
def TripSummary.from_ (t : LiveTrip) : TripSummary where
  id := oldId t
  agency := t.agencyId.getD ""
  transportType := OV.Impl.transportType t.vehicleType
  vehicleNumber := t.key.vehicleNumber
  lat := t.lat
  lon := t.lon
  line := t.linePublicNumber.getD ""
  timestamp := t.lastUpdate

/-- The ids that a query asks for beside its viewport. -/
def ViewportQuery.extra (q : ViewportQuery) : List (List Char) :=
  match q.ids with
  | none => []
  | some extra => ((Text.split ',' extra.toList).map Text.trim).filter fun s => !s.isEmpty

/-- Append the trip of an id, unless one of its id is there. -/
def appendTrip (index : VehicleIndex) (trips : List TripSummary) (id : List Char) : List TripSummary :=
  match index.getAny (String.ofList id) with
  | none => trips
  | some t =>
    let summary := TripSummary.from_ t
    if trips.any fun s => s.id = summary.id then trips else trips ++ [summary]

/-- `trips`. -/
def trips (index : VehicleIndex) (maxArea : Num) (maxResults : Nat) (q : ViewportQuery) :
    Except ErrorResponse (List TripSummary) :=
  match parseViewport q maxArea with
  | .error e => .error e.response
  | .ok bbox => .ok (q.extra.foldl (appendTrip index) (((index.query bbox {}).take maxResults).map TripSummary.from_))

def SEARCH_LIMIT : Nat := 10

structure SearchItem where
  agency : String
  transportType : String
  vehicleNumbers : List String
  lat : Num
  lon : Num
  line : String
  id : String
  timestamp : Instant
  headsign : String
  description : String
  punctuality : Int

/-- The item of a trip; without a match it has no headsign and no description. -/
def searchItem (gtfs : GtfsService) (t : LiveTrip) : SearchItem :=
  let matched := t.matchedTripId.bind fun tid => gtfs.store.bind fun s => (s.trips.lookup tid).map fun i => (s, i)
  { agency := t.agencyId.getD ""
    transportType := transportType t.vehicleType
    vehicleNumbers := [t.key.vehicleNumber]
    lat := t.lat
    lon := t.lon
    line := t.linePublicNumber.getD ""
    id := oldId t
    timestamp := t.lastUpdate
    headsign := (matched.map fun (_, i) => i.headsign).getD ""
    description := (matched.map fun (s, i) => ((s.routes.lookup i.routeId).map RouteInfo.longName).getD "").getD ""
    punctuality := t.delaySeconds }

/-- `search`. -/
def search (index : VehicleIndex) (gtfs : GtfsService) (q : Option String) : List SearchItem :=
  let query := q.getD ""
  if query.isEmpty then [] else ((index.all { search := query }).take SEARCH_LIMIT).map (searchItem gtfs)

/-! ## Ids -/

/-- `vehicle_state`: a delay has no state of its own. -/
def vehicleState : Option MessageKind → String
  | some .init => "Init"
  | some .arrival => "Arrival"
  | some .departure => "Departure"
  | some .onStop => "OnStop"
  | some .onRoute => "OnRoute"
  | some .offroute => "OffRoute"
  | some .end_ => "End"
  | some .delay | none => "None"

structure StatusResponse where
  punctuality : Int
  state : String
  userStopCode : String
  timestamp : Instant
  lat : Num
  lon : Num
  deriving DecidableEq

/-- `status`. -/
def status (live : LiveState) (index : VehicleIndex) (id : String) : Except ErrorResponse StatusResponse :=
  match resolve live index id with
  | none => .error notFound
  | some t =>
    .ok
      { punctuality := t.delaySeconds
        state := vehicleState t.lastKind
        userStopCode := t.currentStopId.getD ""
        timestamp := t.lastUpdate
        lat := t.lat
        lon := t.lon }

/-- `splitn(3, ':')`: the last part keeps what follows it. -/
def splitId (id : String) : List (List Char) :=
  match Text.splitOnce ':' id.toList with
  | none => [id.toList]
  | some (owner, rest) =>
    match Text.splitOnce ':' rest with
    | none => [owner, rest]
    | some (line, journey) => [owner, line, journey]

/-- `journey_number`: of a trip that is not live, from its id, if the schedule
has a trip under it. -/
def journeyNumber (live : LiveState) (index : VehicleIndex) (gtfs : GtfsService) (id : String) :
    Except ErrorResponse String :=
  match resolve live index id with
  | some t => .ok (t.journeyNumber.getD "")
  | none =>
    match splitId id with
    | [_, _, journey] =>
      if gtfs.store.any fun s => (s.tripByKey.lookup id).isSome then .ok (String.ofList journey) else .error notFound
    | _ => .error notFound

/-- `find_id`. -/
def findId (live : LiveState) (vehicleNumber dataOwner : Option String) : Except ErrorResponse String :=
  let number := vehicleNumber.getD ""
  let owner := dataOwner.getD ""
  if number.isEmpty || owner.isEmpty then .error (textErr 400 "vehicleNumber and dataOwner are required")
  else
    match live.trips.lookup (owner ++ ":" ++ number) with
    | some t => .ok (oldId t)
    | none => .error notFound

end OV.Impl.Legacy
