import Ovlive.Impl.Core.State

/-!
# The timetable (`crates/gtfs/src/model.rs`)

The GTFS store, how a live trip is matched to a scheduled one, and what the
match fills in. `GtfsStore.enricher` is the `Enricher` of a store: the proofs
that matching leaves the trip's key alone, and for a vehicle that is not a
train everything its own events determine, are its fields.
-/

namespace OV.Impl

structure RouteInfo where
  routeId : String
  agencyId : Option String
  shortName : String
  longName : String
  vehicleType : VehicleType
  color : Option String
  textColor : Option String

structure TripInfo where
  tripId : String
  routeId : String
  headsign : String
  blockId : Option String
  shapeId : Option String
  serviceId : String
  longName : String
  realtimeTripId : Option String

structure StopInfo where
  stopId : String
  name : String
  lat : Num
  lon : Num
  code : Option String
  platformCode : Option String
  parentStation : Option String
  locationType : Int32

structure StopTime where
  stopId : String
  stopSequence : Nat
  /-- Seconds since local midnight, past 86400 after midnight. -/
  arrival : Int32
  departure : Int32
  deriving DecidableEq

/-- A candidate rail trip for a train number. -/
structure TrainTrip where
  tripId : String
  lineCode : String

/-- The feed, as lookup tables. -/
structure GtfsStore where
  feedVersion : String := ""
  agencies : Map String String := ∅
  routes : Map String RouteInfo := ∅
  trips : Map String TripInfo := ∅
  stops : Map String StopInfo := ∅
  stopTimes : Map String (List StopTime) := ∅
  shapes : Map String (List (Num × Num)) := ∅
  tripByKey : Map String String := ∅
  serviceDates : Map String (List UInt32) := ∅
  trainTrips : Map String (List TrainTrip) := ∅

/-- `ymd_u32`: a date as the number `YYYYMMDD`. -/
def ymdU32 (d : NaiveDate) : UInt32 :=
  UInt32.ofInt d.year * 10000 + UInt32.ofNat d.month * 100 + UInt32.ofNat d.day

/-- `date_key`: the same number, read back from the date's text. -/
def dateKey (d : NaiveDate) : UInt32 := UInt32.ofNat ((Text.parseU32? d.formatCompact.toList).getD 0)

/-- `slice::binary_search`, as a test: the loop halves the part of the slice
that starts at `base` and has `size` elements. -/
def binarySearchLoop (l : List UInt32) (x : UInt32) : Nat → Nat → Nat → Nat
  | 0, base, _ => base
  | fuel + 1, base, size =>
    if 1 < size then
      let half := size / 2
      let mid := base + half
      binarySearchLoop l x fuel (if x < l.getD mid 0 then base else mid) (size - half)
    else base

def binarySearch (l : List UInt32) (x : UInt32) : Bool :=
  !l.isEmpty && l.getD (binarySearchLoop l x l.length 0 l.length) 0 == x

/-- `local_midnight_utc`. -/
def localMidnightUtc (date : NaiveDate) (tz : Tz) : Option Instant :=
  let naive := date.days * secsPerDay * nanos
  (tz.single naive).or (tz.latest naive)

/-- `num_seconds` of a duration: whole seconds, towards zero. -/
def numSeconds (d : Int) : Int := d.tdiv nanos

/-- Widest residual of a schedule anchor, in seconds. -/
def SCHEDULE_ANCHOR_TOLERANCE_SECS : Int := 90

namespace GtfsStore

variable (s : GtfsStore)

/-- Whether a service runs on a date, given as `YYYYMMDD`. -/
def runsOn (serviceId : String) (date : UInt32) : Bool :=
  (s.serviceDates.lookup serviceId).any fun dates => binarySearch dates date

/-- The key of the KV6 join. -/
def realtimeTripId (dataowner line journey : String) : String := dataowner ++ ":" ++ line ++ ":" ++ journey

/-- `match_trip_id`. -/
def matchTripId (trip : LiveTrip) : Option String := do
  let line ← trip.linePlanningNumber
  let journey ← trip.journeyNumber
  s.tripByKey.lookup (realtimeTripId trip.key.dataowner line journey)

def tripRunsOn (tripId : String) (date : UInt32) : Bool :=
  (s.trips.lookup tripId).any fun t => s.runsOn t.serviceId date

/-- The candidate that runs on a day. -/
def trainTripOn (candidates : List TrainTrip) (day : NaiveDate) : Option (TrainTrip × NaiveDate) :=
  (candidates.find? fun c => s.tripRunsOn c.tripId (dateKey day)).map fun c => (c, day)

/-- `resolve_train_trip`: the candidate of the date, or else of the day before. -/
def resolveTrainTrip (number : String) (date : NaiveDate) : Option (TrainTrip × NaiveDate) := do
  let candidates ← s.trainTrips.lookup number
  match s.trainTripOn candidates date with
  | some r => some r
  | none =>
    let day ← date.predOpt
    s.trainTripOn candidates day

variable [Platform]

/-- `match_train_trip`: the matched trip, and what the match tells about the train. -/
def matchTrainTrip (trip : LiveTrip) : LiveTrip × Option String :=
  let resolved := do
    let number ← trip.journeyNumber
    let date := (trip.operatingDay.bind NaiveDate.parseDashed).getD (Platform.amsterdam.date trip.lastUpdate)
    s.resolveTrainTrip number date
  match resolved with
  | none => (trip, none)
  | some (matched, day) =>
    ({ trip with
       linePlanningNumber := some matched.lineCode
       linePublicNumber := trip.linePublicNumber.or (some matched.lineCode)
       operatingDay := trip.operatingDay.or (some day.formatDashed) },
      some matched.tripId)

/-- A text of the feed, unless it is empty. -/
def nonEmpty (text : String) : Option String := if text.isEmpty then none else some text

/-- What a matched route fills in. -/
def fillRoute (r : RouteInfo) (trip : LiveTrip) : LiveTrip :=
  { trip with
    linePublicNumber := trip.linePublicNumber.or (nonEmpty r.shortName)
    vehicleType := if trip.vehicleType = .unknown then r.vehicleType else trip.vehicleType
    operatorName := trip.operatorName.or (r.agencyId.bind s.agencies.lookup)
    agencyId := trip.agencyId.or r.agencyId
    lineColor := trip.lineColor.or r.color
    lineTextColor := if trip.lineColor.isNone then r.textColor else trip.lineTextColor }

/-- What a matched trip fills in. -/
def fillTrip (t : TripInfo) (trip : LiveTrip) : LiveTrip :=
  let trip :=
    { trip with
      destination := trip.destination.or (nonEmpty t.headsign)
      blockCode := trip.blockCode.or t.blockId }
  match s.routes.lookup t.routeId with
  | some r => s.fillRoute r trip
  | none => trip

/-- The match of a trip that has none yet. -/
def matchTrip (trip : LiveTrip) : LiveTrip :=
  if trip.matchedTripId.isSome then trip
  else if trip.key.dataowner = TRAIN_DATAOWNER then
    { (s.matchTrainTrip trip).1 with matchedTripId := (s.matchTrainTrip trip).2 }
  else { trip with matchedTripId := s.matchTripId trip }

/-- `enrich_trip`. -/
def enrichTrip (trip : LiveTrip) : LiveTrip :=
  let trip := s.matchTrip trip
  match trip.matchedTripId.bind s.trips.lookup with
  | some t => s.fillTrip t trip
  | none => trip

/-- How far a call is from a time, by its arrival or its departure. -/
def residual (st : StopTime) (target : Int) : Int :=
  Min.min |st.arrival.toInt - target| |st.departure.toInt - target|

/-- The first of the calls nearest to a time. -/
def nearestCall (times : List StopTime) (target : Int) : Option (Int × StopTime) :=
  times.foldl
    (fun best st =>
      match best with
      | none => some (residual st target, st)
      | some (bd, b) => if residual st target < bd then some (residual st target, st) else some (bd, b))
    none

/-- `scheduled_position_of`. -/
def scheduledPositionOf (trip : LiveTrip) : Option (Num × Num) := do
  let times ← s.stopTimes.lookup (← trip.matchedTripId)
  let day ← NaiveDate.parseDashed (← trip.operatingDay)
  let midnight ← localMidnightUtc day Platform.amsterdam
  let now := numSeconds (trip.lastUpdate - midnight)
  let target := if trip.delayKnown then now - trip.delaySeconds else now
  let (residual, st) ← nearestCall times target
  if SCHEDULE_ANCHOR_TOLERANCE_SECS < residual then none
  else
    let stop ← s.stops.lookup st.stopId
    some (stop.lat, stop.lon)

/-! ## The enricher -/

section

variable {s} {trip : LiveTrip}

omit [Platform] in
theorem fillTrip_frame (t : TripInfo) (trip : LiveTrip) :
    (s.fillTrip t trip).id = trip.id ∧ (s.fillTrip t trip).key = trip.key ∧
      (s.fillTrip t trip).matchedTripId = trip.matchedTripId ∧ (s.fillTrip t trip).reading = trip.reading := by
  simp only [fillTrip]
  cases s.routes.lookup t.routeId <;> exact ⟨rfl, rfl, rfl, rfl⟩

theorem matchTrip_frame (trip : LiveTrip) :
    (s.matchTrip trip).id = trip.id ∧ (s.matchTrip trip).key = trip.key ∧
      (trip.key.dataowner ≠ TRAIN_DATAOWNER → (s.matchTrip trip).reading = trip.reading) := by
  unfold matchTrip
  split_ifs with h1 h2
  · exact ⟨rfl, rfl, fun _ => rfl⟩
  · refine ⟨?_, ?_, fun h => absurd h2 h⟩ <;>
    · simp only [matchTrainTrip]
      split <;> rfl
  · exact ⟨rfl, rfl, fun _ => rfl⟩

theorem enrichTrip_frame (trip : LiveTrip) :
    (s.enrichTrip trip).id = trip.id ∧ (s.enrichTrip trip).key = trip.key ∧
      (trip.key.dataowner ≠ TRAIN_DATAOWNER → (s.enrichTrip trip).reading = trip.reading) := by
  obtain ⟨h1, h2, h3⟩ := matchTrip_frame (s := s) trip
  simp only [enrichTrip]
  cases (s.matchTrip trip).matchedTripId.bind s.trips.lookup with
  | none => exact ⟨h1, h2, h3⟩
  | some t =>
    obtain ⟨f1, f2, _, f3⟩ := fillTrip_frame (s := s) t (s.matchTrip trip)
    exact ⟨f1.trans h1, f2.trans h2, fun h => f3.trans (h3 h)⟩

end

/-- A store as the enricher of the live state. -/
def enricher : Enricher where
  enrich := s.enrichTrip
  scheduledPosition := s.scheduledPositionOf
  enrich_id t := (enrichTrip_frame t).1
  enrich_key t := (enrichTrip_frame t).2.1
  enrich_reading t := (enrichTrip_frame t).2.2

end GtfsStore

end OV.Impl
