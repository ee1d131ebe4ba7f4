import Ovlive.Impl.Core.Filter
import Ovlive.Impl.Core.Rd
import Ovlive.Impl.Core.Trains

/-!
# Live state (`crates/core/src/state.rs`)

The live trips by vehicle id, the lifecycle rules of `LiveState::apply`, and
the spatial index of a tick. Two invariants are fields: a trip is stored under
its own id (`LiveState.own`), and an index holds positioned trips with
distinct ids (`VehicleIndex.positioned`, `VehicleIndex.distinct`).

`Enricher` is the trait of the same name with what its documentation promises
of an implementation: it fills schedule-derived fields only. `LiveTrip.reading`
is the rest, what a trip has from its own events; for a vehicle that is not a
train `enrich` leaves it alone (a train's line code and operating day come
from the schedule).
-/

namespace OV.Impl

/-- The part of a trip that the vehicle's own events determine. -/
structure Reading where
  hasInit : Bool
  journeyNumber : Option String
  linePlanningNumber : Option String
  operatingDay : Option String
  delaySeconds : Int
  delayKnown : Bool
  lastKind : Option MessageKind
  lastUpdate : Instant
  atStop : Bool
  currentStopId : Option String
  lat : Num
  lon : Num
  schedulePositioned : Bool
  deriving DecidableEq

def LiveTrip.reading (t : LiveTrip) : Reading where
  hasInit := t.hasInit
  journeyNumber := t.journeyNumber
  linePlanningNumber := t.linePlanningNumber
  operatingDay := t.operatingDay
  delaySeconds := t.delaySeconds
  delayKnown := t.delayKnown
  lastKind := t.lastKind
  lastUpdate := t.lastUpdate
  atStop := t.atStop
  currentStopId := t.currentStopId
  lat := t.lat
  lon := t.lon
  schedulePositioned := t.schedulePositioned

/-- Fills schedule-derived fields onto a live trip. -/
structure Enricher where
  enrich : LiveTrip → LiveTrip
  scheduledPosition : LiveTrip → Option (Num × Num)
  enrich_id : ∀ t, (enrich t).id = t.id
  enrich_key : ∀ t, (enrich t).key = t.key
  enrich_reading : ∀ t, t.key.dataowner ≠ TRAIN_DATAOWNER → (enrich t).reading = t.reading

/-- The enricher of a server without a timetable. -/
def NoEnricher : Enricher where
  enrich := id
  scheduledPosition _ := none
  enrich_id _ := rfl
  enrich_key _ := rfl
  enrich_reading _ _ := rfl

/-- The active trips, keyed by vehicle id. -/
structure LiveState where
  trips : Map String LiveTrip
  staleAfter : Int
  trainDelays : Option TrainDelays
  own : ∀ id t, trips.lookup id = some t → t.id = id

/-- `LiveState::new`. -/
def LiveState.new (staleAfterSecs : Int) : LiveState where
  trips := ∅
  staleAfter := staleAfterSecs * nanos
  trainDelays := none
  own := by simp

/-- The delay curve consulted for a trip: trains only, by journey number. -/
def curveOf (delays : Option TrainDelays) (trip : LiveTrip) : Option TrainDelay := do
  guard (trip.key.dataowner = TRAIN_DATAOWNER)
  let delays ← delays
  let number ← trip.journeyNumber
  delays.get number

/-- `apply_train_delay`: punctuality, operating day and line code of a train,
from its delay curve. -/
def applyTrainDelay (delays : Option TrainDelays) (trip : LiveTrip) : LiveTrip :=
  match curveOf delays trip with
  | none => trip
  | some curve =>
    { trip with
      delaySeconds := (curve.at trip.lastUpdate).getD trip.delaySeconds
      delayKnown := (curve.at trip.lastUpdate).isSome || trip.delayKnown
      operatingDay := curve.operatingDay.or trip.operatingDay
      linePlanningNumber := trip.linePlanningNumber.or curve.lineCode }

/-- The position an event carries: WGS84, or else Rijksdriehoek. -/
def fixFrom (ev : PosEvent) : Option (Num × Num) :=
  match ev.lat, ev.lon with
  | some lat, some lon => some (lat, lon)
  | _, _ =>
    match ev.rdX, ev.rdY with
    | some x, some y => some (Rd.rdToWgs84 x y)
    | _, _ => none

section

variable [Platform]

/-- Whether a position is far enough from the last one to derive a bearing. -/
def barelyMoved (trip : LiveTrip) (lat lon : Num) : Bool :=
  !((Num.fin (1 / 1000000)).lt (lat.sub trip.lat).abs || (Num.fin (1 / 1000000)).lt (lon.sub trip.lon).abs)

/-- Move a trip to a new position, deriving the bearing from the previous one
unless the vehicle barely moved. -/
def setPosition (trip : LiveTrip) (lat lon : Num) : LiveTrip :=
  { trip with
    bearing :=
      if trip.hasPosition && !barelyMoved trip lat lon then Platform.bearing trip.lat trip.lon lat lon
      else trip.bearing
    prevLat := if trip.hasPosition then trip.lat else trip.prevLat
    prevLon := if trip.hasPosition then trip.lon else trip.prevLon
    lat := lat
    lon := lon }

/-- The messages that assert a vehicle is at a station. -/
def stationEvent (kind : MessageKind) : Bool :=
  kind = .init || kind = .arrival || kind = .onStop || kind = .departure

/-- Anchor a trip without a fix to its scheduled station. -/
def anchorToSchedule (trip : LiveTrip) (ev : PosEvent) (enricher : Enricher) : LiveTrip :=
  if !stationEvent ev.kind || (trip.hasPosition && !trip.schedulePositioned) then trip
  else match enricher.scheduledPosition trip with
    | some (lat, lon) => { setPosition trip lat lon with schedulePositioned := true }
    | none => trip

/-- The first step of `apply_fields`: a real fix moves the trip and outranks a
schedule-derived position. -/
def applyFix (trip : LiveTrip) (ev : PosEvent) : LiveTrip :=
  match fixFrom ev with
  | some (lat, lon) => { setPosition trip lat lon with schedulePositioned := false }
  | none => trip

/-- `apply_fields`: what an event reports replaces what the trip had. -/
def applyFields (trip : LiveTrip) (ev : PosEvent) : LiveTrip :=
  let trip := applyFix trip ev
  { trip with
    bearing := ev.bearing.getD trip.bearing
    speedKmh := ev.speedKmh.or trip.speedKmh
    vehicleType := if trip.vehicleType = .unknown then ev.vehicleType.getD .unknown else trip.vehicleType
    delaySeconds := ev.punctuality.getD trip.delaySeconds
    delayKnown := ev.punctuality.isSome || trip.delayKnown
    lastKind := some ev.kind
    linePlanningNumber := ev.linePlanningNumber.or trip.linePlanningNumber
    journeyNumber := ev.journeyNumber.or trip.journeyNumber
    operatingDay := ev.operatingDay.or trip.operatingDay
    blockCode := ev.blockCode.or trip.blockCode
    lastUpdate := ev.timestamp }

/-- An event with a journey number that differs from the one stored. -/
def newJourney (entry : LiveTrip) (ev : PosEvent) : Bool :=
  ev.journeyNumber.isSome && ev.journeyNumber ≠ entry.journeyNumber && entry.journeyNumber.isSome

/-- The stop state an arrival or a departure leaves. -/
def markStop (entry : LiveTrip) (ev : PosEvent) : LiveTrip :=
  match ev.kind with
  | .arrival | .onStop => { entry with atStop := true, currentStopId := ev.userStopCode }
  | .departure | .onRoute => { entry with atStop := false, currentStopId := none }
  | _ => entry

namespace LiveState

/-- The trip an INIT starts. -/
def initTrip (delays : Option TrainDelays) (ev : PosEvent) (enricher : Enricher) : LiveTrip :=
  let trip := { LiveTrip.new ev.key ev.timestamp with hasInit := true }
  let trip := applyFields trip ev
  let trip := applyTrainDelay delays trip
  let trip := enricher.enrich trip
  anchorToSchedule trip ev enricher

/-- The trip any message but INIT and END leaves. -/
def updateTrip (delays : Option TrainDelays) (entry : LiveTrip) (ev : PosEvent) (enricher : Enricher) : LiveTrip :=
  let entry := if newJourney entry ev then LiveTrip.new ev.key ev.timestamp else entry
  let entry := markStop entry ev
  let entry := applyFields entry ev
  let entry := applyTrainDelay delays entry
  let entry := if entry.linePublicNumber.isNone then enricher.enrich entry else entry
  anchorToSchedule entry ev enricher

omit [Platform] in
theorem applyTrainDelay_id (delays : Option TrainDelays) (t : LiveTrip) :
    (applyTrainDelay delays t).id = t.id := by
  unfold applyTrainDelay
  split <;> rfl

theorem applyFields_id (t : LiveTrip) (ev : PosEvent) : (applyFields t ev).id = t.id := by
  simp only [applyFields, applyFix]
  split <;> rfl

theorem anchorToSchedule_id (t : LiveTrip) (ev : PosEvent) (en : Enricher) :
    (anchorToSchedule t ev en).id = t.id := by
  unfold anchorToSchedule
  split
  · rfl
  · split <;> rfl

omit [Platform] in
theorem markStop_id (t : LiveTrip) (ev : PosEvent) : (markStop t ev).id = t.id := by
  unfold markStop
  split <;> rfl

theorem initTrip_id (delays : Option TrainDelays) (ev : PosEvent) (en : Enricher) :
    (initTrip delays ev en).id = ev.key.id := by
  simp only [initTrip, anchorToSchedule_id, en.enrich_id, applyTrainDelay_id, applyFields_id]
  rfl

/-- A trip stored under the event's vehicle id stays under it. -/
theorem updateTrip_id {delays : Option TrainDelays} {t : LiveTrip} {ev : PosEvent} {en : Enricher}
    (h : t.id = ev.key.id) : (updateTrip delays t ev en).id = ev.key.id := by
  simp only [updateTrip, anchorToSchedule_id, apply_ite LiveTrip.id, en.enrich_id, ite_self,
    applyTrainDelay_id, applyFields_id, markStop_id]
  split
  · rfl
  · exact h

/-- Store a trip under its own id. -/
def put (s : LiveState) (trip : LiveTrip) : LiveState where
  trips := s.trips.insert trip.id trip
  staleAfter := s.staleAfter
  trainDelays := s.trainDelays
  own id t h := by
    by_cases e : id = trip.id
    · subst e
      rw [AList.lookup_insert, Option.some.injEq] at h
      rw [h]
    · rw [AList.lookup_insert_ne e] at h
      exact s.own id t h

def remove (s : LiveState) (id : String) : LiveState where
  trips := s.trips.erase id
  staleAfter := s.staleAfter
  trainDelays := s.trainDelays
  own k t h := by
    by_cases e : k = id
    · subst e
      rw [AList.lookup_erase] at h
      cases h
    · rw [AList.lookup_erase_ne e] at h
      exact s.own k t h

/-- The trip an event finds: the one stored, or a new one if its INIT was missed. -/
def entryFor (s : LiveState) (ev : PosEvent) : LiveTrip :=
  (s.trips.lookup ev.key.id).getD (LiveTrip.new ev.key ev.timestamp)

/-- `LiveState::apply`: the state after an event, the vehicle affected, and
whether it was removed. -/
def apply (s : LiveState) (ev : PosEvent) (enricher : Enricher) : LiveState × String × Bool :=
  match ev.kind with
  | .init => (s.put (initTrip s.trainDelays ev enricher), ev.key.id, false)
  | .end_ => (s.remove ev.key.id, ev.key.id, true)
  | _ => (s.put (updateTrip s.trainDelays (s.entryFor ev) ev enricher), ev.key.id, false)

/-- `LiveState::prune_stale`: the state without the trips whose last update is
too old, and their ids. -/
def pruneStale (s : LiveState) (now : Instant) : LiveState × List String :=
  let cutoff := now - s.staleAfter
  let keep (_ : String) (t : LiveTrip) : Bool := cutoff ≤ t.lastUpdate
  ({ trips := s.trips.retain keep
     staleAfter := s.staleAfter
     trainDelays := s.trainDelays
     own := fun id t h => by
       rw [Map.lookup_retain, Option.filter_eq_some_iff] at h
       exact s.own id t h.1 },
    (s.trips.retain fun id t => !keep id t).keys)

/-- `with_train_delays`: attach delay curves, and what a later revision of
them leaves attached. -/
def withTrainDelays (s : LiveState) (delays : TrainDelays) : LiveState :=
  { s with trainDelays := some delays }

end LiveState

/-- What happens to the live state: an event, a sweep of the stale trips, or a
revision of the delay curves. -/
inductive LiveAction
  | event (ev : PosEvent)
  | prune (now : Instant)
  | delays (d : TrainDelays)

namespace LiveState

/-- The state after an action. -/
def act (enricher : Enricher) (s : LiveState) : LiveAction → LiveState
  | .event ev => (s.apply ev enricher).1
  | .prune now => (s.pruneStale now).1
  | .delays d => s.withTrainDelays d

/-- The steps of the live state. -/
def Step (enricher : Enricher) (s : LiveState) (a : LiveAction) (t : LiveState) : Prop := s.act enricher a = t

end LiveState

end

/-! ## The index of a tick -/

/-- The positioned trips of a tick, by slot. -/
structure VehicleIndex where
  vehicles : List LiveTrip
  positioned : ∀ t ∈ vehicles, t.hasPosition = true
  distinct : (vehicles.map LiveTrip.id).Nodup

theorem LiveState.nodup_ids (s : LiveState) : ((Map.values s.trips).map LiveTrip.id).Nodup :=
  Map.nodup_map_values s.own

/-- `LiveState::build_index`. -/
def LiveState.buildIndex (s : LiveState) : VehicleIndex where
  vehicles := (Map.values s.trips).filter LiveTrip.hasPosition
  positioned _ h := (List.mem_filter.mp h).2
  distinct := s.nodup_ids.sublist (List.filter_sublist.map _)

namespace VehicleIndex

/-- `VehicleIndex::get`. -/
def get (idx : VehicleIndex) (id : String) : Option LiveTrip := idx.vehicles.find? fun t => t.id = id

/-- `VehicleIndex::get_by_realtime_trip_id`: of two trips under one id, the
index keeps the later slot. -/
def getByRealtimeTripId (idx : VehicleIndex) (rtId : String) : Option LiveTrip :=
  idx.vehicles.reverse.find? fun t => t.realtimeTripId = some rtId

/-- `VehicleIndex::get_any`: the number of parts tells the two id forms apart. -/
def getAny (idx : VehicleIndex) (id : String) : Option LiveTrip :=
  if 3 ≤ id.toList.count ':' + 1 then (idx.getByRealtimeTripId id).or (idx.get id)
  else (idx.get id).or (idx.getByRealtimeTripId id)

/-- `VehicleIndex::query`: the tree returns the points of the envelope between
the box's corners, whichever of them is the lower. -/
def query (idx : VehicleIndex) (bbox : BBox) (filters : Filters) : List LiveTrip :=
  let envelope : BBox :=
    { minLat := bbox.minLat.min bbox.maxLat
      minLon := bbox.minLon.min bbox.maxLon
      maxLat := bbox.minLat.max bbox.maxLat
      maxLon := bbox.minLon.max bbox.maxLon }
  (idx.vehicles.filter fun t => envelope.contains t.lat t.lon).filter filters.matches

/-- `VehicleIndex::all`: the whole index, without a box. -/
def all (idx : VehicleIndex) (filters : Filters) : List LiveTrip := idx.vehicles.filter filters.matches

theorem get_eq_some {idx : VehicleIndex} {id : String} {t : LiveTrip} :
    idx.get id = some t ↔ t ∈ idx.vehicles ∧ t.id = id := by
  unfold get
  constructor
  · intro h
    exact ⟨List.mem_of_find?_eq_some h, by simpa using List.find?_some h⟩
  · rintro ⟨h, rfl⟩
    cases hf : idx.vehicles.find? (fun u => u.id = t.id) with
    | none => exact absurd (List.find?_eq_none.mp hf t h) (by simp)
    | some u =>
      have hu : u.id = t.id := by simpa using List.find?_some hf
      rw [List.inj_on_of_nodup_map idx.distinct (List.mem_of_find?_eq_some hf) h hu]

theorem mem_of_mem_query {idx : VehicleIndex} {b : BBox} {f : Filters} {t : LiveTrip} (h : t ∈ idx.query b f) :
    t ∈ idx.vehicles :=
  (List.mem_filter.mp (List.mem_filter.mp h).1).1

/-- For a box with its minima below its maxima the envelope is the box. -/
theorem mem_query {idx : VehicleIndex} {b : BBox} {f : Filters} (hb : b.Ordered) {t : LiveTrip} :
    t ∈ idx.query b f ↔ t ∈ idx.vehicles ∧ b.contains t.lat t.lon = true ∧ f.matches t = true := by
  simp only [query, Num.min_of_le hb.1, Num.min_of_le hb.2, Num.max_of_le hb.1, Num.max_of_le hb.2,
    List.mem_filter, and_assoc]

end VehicleIndex

end OV.Impl
