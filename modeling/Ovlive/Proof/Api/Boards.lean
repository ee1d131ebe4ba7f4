import Ovlive.Proof.Api.Window

/-!
# The vehicles on a board

The rows of a board with the calls they are of (`BoardRequest.rows`), as the two
handlers answer them (`stopDepartures_rows`, `stopTimesFor_rows`), and the date
a call runs on (`StopIndexes.serviceDate`). A row is joined to the vehicle under
its realtime trip id, which is the same every day. `board_right_iff` says when
every row shows a vehicle of its own run, whatever is asked for and whenever: it
compares the dates of the trips that report under an id with the operating day
of the vehicle that does (`OwnRuns`). `board_not_right` is a stop-times row of
tonight with the vehicle of last night.
-/

namespace OV.Impl

/-- The date that a call runs on: the board's, or the day before it. -/
def StopIndexes.serviceDate (idx : StopIndexes) (c : Call) : Option NaiveDate :=
  if c.today then some idx.date else idx.date.predOpt

/-- The calls at a stop that can be resolved, with what they are resolved to. -/
def StopIndexes.resolved (idx : StopIndexes) (stopId : String) (calls : List Call) : List (Call × Departure) :=
  match idx.store.stops.lookup stopId with
  | none => []
  | some stop => calls.filterMap fun c => (idx.departure c stop).map fun d => (c, d)

/-- The calls of a stop in a window. -/
def StopIndexes.windowCalls (idx : StopIndexes) (stopId : String) (fromSecs windowSecs : Int32) (limit : Nat) :
    List Call :=
  let calls := Map.valuesAt idx.calls stopId
  let start := partitionPoint (fun c : Call => c.departure.toInt < fromSecs.toInt) calls
  ((calls.drop start).takeWhile fun c => c.departure.toInt ≤ StopIndexes.saturatingAdd fromSecs windowSecs).take limit

/-- A request for a board: the next departures of a stop, or the calls of the
service date at some stops. -/
inductive BoardRequest
  | departures (tz : Tz) (now : Instant) (stopId : String) (window : Option Int32) (limit : Option Nat)
  | stopTimes (byArrival : SortBy fun d : Departure => d.scheduledArrival.toInt) (tz : Tz) (stopIds : List String)

namespace BoardRequest

/-- The stops that are asked for. -/
def stops : BoardRequest → List String
  | .departures _ _ stopId _ _ => [stopId]
  | .stopTimes _ _ stopIds => stopIds

/-- The calls at a stop that a request takes. -/
def calls (idx : StopIndexes) (stopId : String) : BoardRequest → List Call
  | .departures tz now _ window limit =>
    let (fromSecs, windowSecs, limit) := departuresWindow tz now window limit
    idx.windowCalls stopId fromSecs windowSecs limit
  | .stopTimes _ _ _ => (Map.valuesAt idx.calls stopId).filter Call.today

/-- The rows of the board, with their calls. -/
def rows (idx : StopIndexes) (r : BoardRequest) : List (Call × Departure) :=
  r.stops.flatMap fun stopId => idx.resolved stopId (r.calls idx stopId)

/-- The answer has a row for a departure, with the data of a vehicle: its id, or
its place and delay. -/
def Carries (gtfs : GtfsService) (live : VehicleIndex) (d : Departure) (v : LiveTrip) : BoardRequest → Prop
  | .departures tz now stopId window limit =>
    ∃ board, stopDepartures tz now gtfs live stopId window limit = .ok board ∧ departureJson live d ∈ board.departures ∧
      v ∈ live.vehicles ∧ (departureJson live d).vehicleId = some v.id
  | .stopTimes byArrival tz stopIds =>
    ∃ items midnight, stopTimesFor byArrival tz gtfs live stopIds = .ok items ∧ stopTimeItem midnight live d ∈ items ∧
      d.vehicle live = some v

end BoardRequest

section

variable {idx : StopIndexes} {live : VehicleIndex} {stopId : String} {gtfs : GtfsService} {r : BoardRequest} {c : Call}
  {d : Departure} {v : LiveTrip}

theorem map_snd_resolved (idx : StopIndexes) (stop : StopInfo) (calls : List Call) :
    (calls.filterMap fun c => (idx.departure c stop).map fun d => (c, d)).map Prod.snd =
      calls.filterMap fun c => idx.departure c stop := by
  rw [List.map_filterMap]
  congr 1
  funext c
  cases idx.departure c stop <;> rfl

theorem departures_resolved (idx : StopIndexes) (stopId : String) (fromSecs windowSecs : Int32) (limit : Nat) :
    idx.departures stopId fromSecs windowSecs limit =
      (idx.resolved stopId (idx.windowCalls stopId fromSecs windowSecs limit)).map Prod.snd := by
  unfold StopIndexes.departures StopIndexes.resolved StopIndexes.windowCalls Map.valuesAt
  cases idx.store.stops.lookup stopId with
  | none => rfl
  | some stop =>
    cases idx.calls.lookup stopId with
    | none => simp
    | some calls => exact (map_snd_resolved idx stop _).symm

theorem callsOnServiceDate_perm (sort : SortBy fun d : Departure => d.scheduledArrival.toInt) (idx : StopIndexes)
    (stopId : String) :
    (idx.callsOnServiceDate sort stopId).Perm
      ((idx.resolved stopId ((Map.valuesAt idx.calls stopId).filter Call.today)).map Prod.snd) := by
  unfold StopIndexes.callsOnServiceDate StopIndexes.resolved Map.valuesAt
  cases idx.store.stops.lookup stopId with
  | none => exact .nil
  | some stop =>
    cases idx.calls.lookup stopId with
    | none => exact .nil
    | some calls =>
      rw [map_snd_resolved]
      exact sort.perm _

/-- What `stop_departures` answers. -/
theorem stopDepartures_rows {tz : Tz} {now : Instant} {window : Option Int32} {limit : Option Nat} {board : BoardJson}
    (hidx : gtfs.stops = some idx) (h : stopDepartures tz now gtfs live stopId window limit = .ok board) :
    board.departures =
      ((BoardRequest.departures tz now stopId window limit).rows idx).map fun row => departureJson live row.2 := by
  simp only [stopDepartures, hidx] at h
  split at h
  · cases h
  · cases h
    simp only [departures_resolved, List.map_map, BoardRequest.rows, BoardRequest.stops, List.flatMap_singleton]
    rfl

/-- What `stop_times_for` answers, in the order of arrival. -/
theorem stopTimesFor_rows {sort : SortBy fun d : Departure => d.scheduledArrival.toInt} {tz : Tz}
    {stopIds : List String} {items : List StopTimeItem} (hidx : gtfs.stops = some idx)
    (h : stopTimesFor sort tz gtfs live stopIds = .ok items) :
    ∃ midnight, items.Perm
      (((BoardRequest.stopTimes sort tz stopIds).rows idx).map fun row => stopTimeItem midnight live row.2) := by
  simp only [stopTimesFor, hidx] at h
  split at h
  · cases h
  · rename_i midnight _
    cases h
    refine ⟨midnight, ((List.perm_insertionSort _ _).map _).trans ?_⟩
    simp only [List.map_flatMap, List.map_map, BoardRequest.rows]
    refine List.Perm.flatMap_left _ fun stopId _ => ?_
    have hperm := (callsOnServiceDate_perm sort idx stopId).map (stopTimeItem midnight live)
    rwa [List.map_map] at hperm

/-- A row is a call at one of the stops, resolved. -/
theorem mem_rows :
    (c, d) ∈ r.rows idx ↔ ∃ stopId ∈ r.stops, ∃ stop, idx.store.stops.lookup stopId = some stop ∧
      c ∈ r.calls idx stopId ∧ idx.departure c stop = some d := by
  rw [BoardRequest.rows, List.mem_flatMap]
  refine exists_congr fun stopId => and_congr_right fun _ => ?_
  unfold StopIndexes.resolved
  cases idx.store.stops.lookup stopId with
  | none => simp
  | some stop =>
    simp only [List.mem_filterMap, Option.map_eq_some_iff, Prod.mk.injEq, Option.some.injEq, exists_eq_left']
    constructor
    · rintro ⟨c, hc, d, hd, rfl, rfl⟩
      exact ⟨hc, hd⟩
    · rintro ⟨hc, hd⟩
      exact ⟨c, hc, d, hd, rfl, rfl⟩

/-! ## The join -/

/-- A vehicle that is joined is in the index, under the realtime trip id of the row. -/
theorem of_vehicle (h : d.vehicle live = some v) :
    v ∈ live.vehicles ∧ v.realtimeTripId = d.realtimeTripId ∧
      ∃ rt, d.realtimeTripId = some rt ∧ live.getByRealtimeTripId rt = some v := by
  obtain ⟨rt, hrt, hv⟩ := Option.bind_eq_some_iff.mp h
  have hid := List.find?_some (p := fun t : LiveTrip => decide (t.realtimeTripId = some rt)) hv
  exact ⟨List.mem_reverse.mp (List.mem_of_find?_eq_some hv), (of_decide_eq_true hid).trans hrt.symm, rt, hrt, hv⟩

/-- A departure names the vehicle it is joined to. -/
theorem vehicleId_eq_some_iff (hv : v ∈ live.vehicles) :
    (departureJson live d).vehicleId = some v.id ↔ d.vehicle live = some v := by
  show (d.vehicle live).map LiveTrip.id = some v.id ↔ _
  constructor
  · intro h
    obtain ⟨u, hu, hid⟩ := Option.map_eq_some_iff.mp h
    rw [hu, List.inj_on_of_nodup_map live.distinct (of_vehicle hu).1 hv hid]
  · intro h
    rw [h, Option.map_some]

/-- A row with the data of a vehicle is joined to it. -/
theorem vehicle_of_carries (h : r.Carries gtfs live d v) : d.vehicle live = some v := by
  cases r with
  | departures tz now stopId window limit =>
    obtain ⟨-, -, -, hv, hid⟩ := h
    exact (vehicleId_eq_some_iff hv).mp hid
  | stopTimes byArrival tz stopIds =>
    obtain ⟨-, -, -, -, hv⟩ := h
    exact hv

/-- The departures have the vehicles that their rows are joined to, -/
theorem carries_departures {tz : Tz} {now : Instant} {window : Option Int32} {limit : Option Nat}
    (hidx : gtfs.stops = some idx) (hrow : (c, d) ∈ (BoardRequest.departures tz now stopId window limit).rows idx)
    (hv : d.vehicle live = some v) : (BoardRequest.departures tz now stopId window limit).Carries gtfs live d v := by
  obtain ⟨id, hid, stop, hstop, -⟩ := mem_rows.mp hrow
  obtain rfl := List.mem_singleton.mp hid
  obtain ⟨board, hboard⟩ : ∃ board, stopDepartures tz now gtfs live id window limit = .ok board := by
    simp only [stopDepartures, hidx, hstop]
    exact ⟨_, rfl⟩
  refine ⟨board, hboard, ?_, (of_vehicle hv).1, (vehicleId_eq_some_iff (of_vehicle hv).1).mpr hv⟩
  rw [stopDepartures_rows hidx hboard]
  exact List.mem_map_of_mem (f := fun row : Call × Departure => departureJson live row.2) hrow

/-- and so have the stop times, on a date with a midnight. -/
theorem carries_stopTimes {byArrival : SortBy fun d : Departure => d.scheduledArrival.toInt} {tz : Tz}
    {stopIds : List String} {midnight : Instant} (hidx : gtfs.stops = some idx)
    (hmidnight : localMidnightUtc idx.date tz = some midnight)
    (hrow : (c, d) ∈ (BoardRequest.stopTimes byArrival tz stopIds).rows idx) (hv : d.vehicle live = some v) :
    (BoardRequest.stopTimes byArrival tz stopIds).Carries gtfs live d v := by
  obtain ⟨items, hitems⟩ : ∃ items, stopTimesFor byArrival tz gtfs live stopIds = .ok items := by
    simp only [stopTimesFor, hidx, hmidnight]
    exact ⟨_, rfl⟩
  obtain ⟨m, hperm⟩ := stopTimesFor_rows hidx hitems
  refine ⟨items, m, hitems, ?_, hv⟩
  exact hperm.mem_iff.mpr (List.mem_map_of_mem (f := fun row : Call × Departure => stopTimeItem m live row.2) hrow)

end

/-! ## The date of a call -/

namespace Board

/-- Every call of a board is one of a trip that the board put on the call's axis. -/
theorem dated_foldl (store : GtfsStore) (stopId : String) (today : UInt32) (yesterday : Option UInt32)
    (ts : List TripInfo) :
    ∀ c ∈ Map.valuesAt (ts.foldl (addTrip store today yesterday) ([], ∅)).2 stopId,
      ∃ trip ∈ ts, (ts.foldl (addTrip store today yesterday) ([], ∅)).1[c.trip]? =
          some { tripId := trip.tripId, rtId := trip.realtimeTripId } ∧
        ∃ shift, shiftOf store today yesterday trip = some shift ∧ c.today = decide (shift = 0) := by
  induction ts using List.reverseRecOn with
  | nil =>
    intro c hc
    rw [List.foldl_nil] at hc
    simp [Map.valuesAt] at hc
  | append_singleton ts trip ih =>
    rw [List.foldl_append, List.foldl_cons, List.foldl_nil]
    generalize ts.foldl (addTrip store today yesterday) ([], ∅) = b at ih
    have hold : ∀ ds c, c ∈ Map.valuesAt b.2 stopId → ∃ t ∈ ts ++ [trip], (b.1 ++ ds)[c.trip]? =
          some { tripId := t.tripId, rtId := t.realtimeTripId } ∧
        ∃ shift, shiftOf store today yesterday t = some shift ∧ c.today = decide (shift = 0) := by
      intro ds c hc
      obtain ⟨t, ht, hday, hshift⟩ := ih c hc
      exact ⟨t, List.mem_append_left _ ht, getElem?_append_of_eq_some hday ds, hshift⟩
    unfold addTrip
    cases hs : shiftOf store today yesterday trip with
    | none => simpa using hold []
    | some shift =>
      cases htimes : store.stopTimes.lookup trip.tripId with
      | none => simpa using hold []
      | some times =>
        intro c hc
        rw [valuesAt_addCalls, List.mem_append] at hc
        rcases hc with hc | hc
        · exact hold _ c hc
        · obtain ⟨st, -, rfl⟩ := List.mem_map.mp hc
          exact ⟨trip, by simp, by simp [callOf], shift, hs, rfl⟩

end Board

section

variable {store : GtfsStore} {date : NaiveDate} {sort : CallSort} {stop : StopInfo} {stopId : String} {c : Call}
  {d : Departure}

/-- A call is of the day that the board shows its trip for. -/
theorem today_of_departure (hk : store.Keyed) (hc : c ∈ Map.valuesAt (StopIndexes.build sort store date).calls stopId)
    (hd : (StopIndexes.build sort store date).departure c stop = some d) :
    runsToday store date d.trip = true ∧ c.today = true ∨
      runsToday store date d.trip = false ∧ ranYesterday store date d.trip = true ∧ c.today = false := by
  obtain ⟨trip, htrip, hday, shift, hshift, htoday⟩ := Board.dated_foldl store stopId _ _ _ c
    ((perm_valuesAt_sort sort _ stopId).mem_iff.mp hc)
  have hresolved : d.trip = trip := by
    simp only [StopIndexes.departure, Board.resolve, Option.bind_eq_bind, Option.bind_eq_some_iff, Option.some.injEq] at hd
    obtain ⟨day, hslot, found, hfound, heq⟩ := hd
    obtain rfl : { tripId := trip.tripId, rtId := trip.realtimeTripId } = day := Option.some.inj (hday.symm.trans hslot)
    have hsame : some trip = some found := (lookup_of_mem_values hk htrip).symm.trans hfound
    rw [← heq]
    exact (Option.some.inj hsame).symm
  rw [hresolved, htoday]
  refine (day_of_shiftOf hshift).imp (fun h => ⟨h.1, decide_eq_true h.2⟩) fun h => ⟨h.1, h.2.1, ?_⟩
  rw [h.2.2]
  rfl

/-- What is kept at a stop are the calls of the index, resolved. -/
theorem mem_indexed (hk : store.Keyed) :
    d ∈ indexed store date stop stopId ↔ ∃ c ∈ Map.valuesAt (StopIndexes.build sort store date).calls stopId,
      (StopIndexes.build sort store date).departure c stop = some d :=
  (departure_build sort date stop stopId hk).2.mem_iff.symm.trans List.mem_filterMap

end

/-! ## What a day of requests reaches -/

/-- The last second of a day from which a board starts: a minute before now. -/
def lastStart : Int := 86399 - 60

/-- Whether some request of the day has a call that is kept at a stop, at a time
on the day's axis: it is in a window, and not behind as many calls as a board
has. -/
def Reached (store : GtfsStore) (date : NaiveDate) (stop : StopInfo) (stopId : String) (x : Int) : Prop :=
  -60 ≤ x ∧ x ≤ lastStart + 60 + 21600 ∧
    ((indexed store date stop stopId).filter fun d =>
      lastStart ≤ d.scheduledDeparture.toInt && d.scheduledDeparture.toInt < x).length < 100

section

variable {store : GtfsStore} {date : NaiveDate} {sort : CallSort} {stop : StopInfo} {stopId : String} {c : Call}
  {d : Departure} {idx : StopIndexes} {fromSecs windowSecs : Int32} {limit : Nat}

theorem windowCalls_eq (hw : 0 ≤ windowSecs.toInt) :
    idx.windowCalls stopId fromSecs windowSecs limit =
      ((Map.valuesAt idx.calls stopId).filter fun c => inWindow fromSecs windowSecs c.departure.toInt).take limit := by
  have h := takeWhile_drop_partitionPoint (idx.ascending stopId) fromSecs.toInt
    (StopIndexes.saturatingAdd fromSecs windowSecs)
  simp only [le_saturatingAdd_iff _ hw] at h
  simp only [StopIndexes.windowCalls, le_saturatingAdd_iff _ hw, h]
  rfl

/-- The calls of a window that starts on the day are reached. -/
theorem reached_of_mem_windowCalls (hk : store.Keyed) (hlo : -60 ≤ fromSecs.toInt) (hhi : fromSecs.toInt ≤ lastStart)
    (hw : 0 ≤ windowSecs.toInt) (hw' : windowSecs.toInt ≤ 60 + 21600) (hlimit : limit ≤ 100)
    (hc : c ∈ (StopIndexes.build sort store date).windowCalls stopId fromSecs windowSecs limit) :
    Reached store date stop stopId c.departure.toInt := by
  rw [windowCalls_eq hw] at hc
  have hin := (List.mem_filter.mp (List.mem_of_mem_take hc)).2
  simp only [inWindow, Bool.and_eq_true, decide_eq_true_eq] at hin
  refine ⟨by omega, by omega, ?_⟩
  have hfew := length_filter_lt_of_mem_take
    (((StopIndexes.build sort store date).ascending stopId).filter _) hc
  rw [List.filter_filter] at hfew
  have hlen := (departure_build_filter sort date stop stopId hk fun x =>
    lastStart ≤ x && x < c.departure.toInt).2
  rw [← hlen]
  refine lt_of_le_of_lt ?_ (hfew.trans_le hlimit)
  rw [← List.countP_eq_length_filter, ← List.countP_eq_length_filter]
  refine List.countP_mono_left fun a _ ha => ?_
  simp only [inWindow, Bool.and_eq_true, decide_eq_true_eq] at ha ⊢
  omega

/-- A call that is reached is in the longest window that starts at it, or as late
as there is one, if the sort leaves it first of its time. -/
theorem mem_windowCalls_of_reached (hk : store.Keyed)
    (hc : c ∈ Map.valuesAt (StopIndexes.build sort store date).calls stopId)
    (h : Reached store date stop stopId c.departure.toInt) (hfrom : fromSecs.toInt = min c.departure.toInt lastStart)
    (hw : windowSecs.toInt = 60 + 21600) :
    c ∈ (StopIndexes.build (SortBy.first _ c) store date).windowCalls stopId fromSecs windowSecs 100 := by
  obtain ⟨-, hhi, hfew⟩ := h
  have hmem := (perm_valuesAt_sort sort _ stopId).mem_iff.mp hc
  obtain ⟨before, after, hsplit, hbefore⟩ : ∃ before after,
      Map.valuesAt (StopIndexes.build (SortBy.first _ c) store date).calls stopId = before ++ c :: after ∧
        ∀ b ∈ before, b.departure.toInt < c.departure.toInt := by
    obtain ⟨before, after, hsort, hbefore⟩ := SortBy.sort_first (fun c : Call => c.departure.toInt) hmem
    exact ⟨before, after, (Map.valuesAt_mapValues_of_mem _ hmem).trans hsort, hbefore⟩
  rw [← (departure_build_filter (SortBy.first _ c) date stop stopId hk fun x =>
    lastStart ≤ x && x < c.departure.toInt).2, hsplit, List.filter_append, List.length_append] at hfew
  have hin : inWindow fromSecs windowSecs c.departure.toInt = true := by
    simp only [inWindow, Bool.and_eq_true, decide_eq_true_eq]
    omega
  rw [windowCalls_eq (by omega), hsplit, List.filter_append,
    List.filter_cons_of_pos (p := fun c : Call => inWindow fromSecs windowSecs c.departure.toInt) hin]
  refine mem_take_append_cons (lt_of_le_of_lt ?_ (Nat.lt_of_add_right_lt hfew))
  rw [← List.countP_eq_length_filter, ← List.countP_eq_length_filter]
  refine List.countP_mono_left fun b hb hbin => ?_
  have hlt := hbefore b hb
  simp only [inWindow, Bool.and_eq_true, decide_eq_true_eq] at hbin ⊢
  omega

theorem clock_utc (t : Instant) : Tz.utc.clock t = t := by simp [Tz.clock, Tz.offset, Tz.utc]

theorem exists_midnight_utc (date : NaiveDate) : ∃ midnight, localMidnightUtc date Tz.utc = some midnight := by
  refine ⟨midnightOf date, localMidnightUtc_eq_some.mpr ⟨clock_utc _, fun u hu => ?_⟩⟩
  rw [← clock_utc u]
  exact hu.le

theorem secsSinceLocalMidnight_utc {n : Int} (h0 : 0 ≤ n) (h1 : n < secsPerDay) :
    (secsSinceLocalMidnight (n * nanos) Tz.utc).toInt = n := by
  have hdate : (Tz.utc.date (n * nanos)).days = 0 := by
    rw [Tz.date, clock_utc]
    show n * nanos / (secsPerDay * nanos) = 0
    unfold secsPerDay nanos at *
    omega
  rw [(secsSinceLocalMidnight_toInt _ _).1, clock_utc, midnightOf, hdate]
  unfold nanos
  omega

/-- So a request of the day has it in its answer. -/
theorem mem_calls_of_reached (hk : store.Keyed) (hc : c ∈ Map.valuesAt (StopIndexes.build sort store date).calls stopId)
    (h : Reached store date stop stopId c.departure.toInt) :
    ∃ now, c ∈ (BoardRequest.departures Tz.utc now stopId (some 360) (some 100)).calls
      (StopIndexes.build (SortBy.first _ c) store date) stopId := by
  refine ⟨(min c.departure.toInt lastStart + 60) * nanos, ?_⟩
  have hlo := h.1
  have hlast : lastStart = 86339 := rfl
  have hsecs := secsSinceLocalMidnight_utc (n := min c.departure.toInt lastStart + 60) (by omega) (by unfold secsPerDay; omega)
  obtain ⟨hfrom, hlen, -⟩ :=
    departuresWindow_toInt Tz.utc ((min c.departure.toInt lastStart + 60) * nanos) (some 360) (some 100)
  rw [hsecs, add_sub_cancel_right] at hfrom
  exact mem_windowCalls_of_reached hk hc h hfrom (hlen.trans (by decide))

end

/-! ## The vehicle of a row -/

/-- The operating day of a vehicle, where it is known. -/
def LiveTrip.knownDay (t : LiveTrip) : Option NaiveDate := t.operatingDay.bind NaiveDate.parseDashed

/-- The rows show, of the vehicles whose operating day is known, those of their
own run: of its realtime trip id and its date. So none of them is on the rows of
two runs. -/
structure BoardRequest.Right (r : BoardRequest) (gtfs : GtfsService) (idx : StopIndexes) (live : VehicleIndex) : Prop where
  own : ∀ c d, (c, d) ∈ r.rows idx → ∀ v day, r.Carries gtfs live d v → v.knownDay = some day →
    v.realtimeTripId = d.realtimeTripId ∧ idx.serviceDate c = some day
  once : ∀ c d c' d', (c, d) ∈ r.rows idx → (c', d') ∈ r.rows idx → ∀ v, v.knownDay.isSome →
    r.Carries gtfs live d v → r.Carries gtfs live d' v →
      d.realtimeTripId = d'.realtimeTripId ∧ idx.serviceDate c = idx.serviceDate c'

/-- The last vehicle that reports a realtime trip id: of two the index has the
later one. -/
def VehicleIndex.Last (live : VehicleIndex) (rt : String) (v : LiveTrip) : Prop :=
  v.realtimeTripId = some rt ∧
    ∃ before after, live.vehicles = before ++ v :: after ∧ ∀ u ∈ after, u.realtimeTripId ≠ some rt

/-- The vehicle under a trip's realtime trip id is of a date, if there is one and
its operating day is known. -/
def VehicleIndex.OfDate (live : VehicleIndex) (trip : TripInfo) (date : Option NaiveDate) : Prop :=
  ∀ rt v day, trip.realtimeTripId = some rt → live.Last rt v → v.knownDay = some day → date = some day

/-- At a stop, the vehicles under the ids of the trips that run on the date are of
the date, and those under the ids of the others, where they ran on the day before
and are reached yet, are of the day before. -/
structure OwnRuns (store : GtfsStore) (date : NaiveDate) (live : VehicleIndex) (stop : StopInfo) (stopId : String) :
    Prop where
  today : ∀ trip ∈ Map.values store.trips, runsToday store date trip = true →
    (∃ st ∈ Board.timesOf store trip, st.stopId = stopId) → live.OfDate trip (some date)
  carried : ∀ trip ∈ Map.values store.trips, runsToday store date trip = false → ranYesterday store date trip = true →
    ∀ st ∈ Board.timesOf store trip, st.stopId = stopId →
      Reached store date stop stopId (st.departure + -DAY_SECS).toInt → live.OfDate trip date.predOpt

section

variable {store : GtfsStore} {date : NaiveDate} {sort : CallSort} {stop : StopInfo} {stopId : String} {c : Call}
  {d : Departure} {live : VehicleIndex} {v : LiveTrip} {gtfs : GtfsService} {r : BoardRequest} {idx : StopIndexes}

theorem getByRealtimeTripId_eq_some_iff {rt : String} : live.getByRealtimeTripId rt = some v ↔ live.Last rt v := by
  rw [VehicleIndex.getByRealtimeTripId, List.find?_eq_some_iff_append]
  simp only [decide_eq_true_eq, Bool.not_eq_true', decide_eq_false_iff_not]
  refine and_congr_right fun _ => ⟨?_, ?_⟩
  · rintro ⟨after, before, hsplit, hlast⟩
    refine ⟨before.reverse, after.reverse, ?_, fun u hu => hlast u (List.mem_reverse.mp hu)⟩
    rw [← List.reverse_reverse live.vehicles, hsplit]
    simp
  · rintro ⟨before, after, hsplit, hlast⟩
    refine ⟨after.reverse, before.reverse, ?_, fun u hu => hlast u (List.mem_reverse.mp hu)⟩
    rw [hsplit]
    simp

/-- Rows of their own runs are all there is to show. -/
theorem right_of_own (h : ∀ c d, (c, d) ∈ r.rows idx → ∀ v day, r.Carries gtfs live d v → v.knownDay = some day →
    idx.serviceDate c = some day) : r.Right gtfs idx live := by
  have hown : ∀ c d, (c, d) ∈ r.rows idx → ∀ v day, r.Carries gtfs live d v → v.knownDay = some day →
      v.realtimeTripId = d.realtimeTripId ∧ idx.serviceDate c = some day := fun c d hrow v day hv hday =>
    ⟨(of_vehicle (vehicle_of_carries hv)).2.1, h c d hrow v day hv hday⟩
  refine ⟨hown, fun c d c' d' hrow hrow' v hknown hv hv' => ?_⟩
  obtain ⟨day, hday⟩ := Option.isSome_iff_exists.mp hknown
  obtain ⟨hid, hdate⟩ := hown c d hrow v day hv hday
  obtain ⟨hid', hdate'⟩ := hown c' d' hrow' v day hv' hday
  exact ⟨hid.symm.trans hid', hdate.trans hdate'.symm⟩

/-- The calls of the day before that are taken are in a window of the day. -/
theorem reached_of_mem_calls (hk : store.Keyed) (hc : c ∈ r.calls (StopIndexes.build sort store date) stopId)
    (htoday : c.today = false) : Reached store date stop stopId c.departure.toInt := by
  cases r with
  | departures tz now _ window limit =>
    obtain ⟨hfrom, hlen, h1, h2⟩ := departuresWindow_toInt tz now window limit
    obtain ⟨-, h3, h4⟩ := secsSinceLocalMidnight_toInt now tz
    have hlimit : (departuresWindow tz now window limit).2.2 ≤ 100 := by
      simp only [departuresWindow, MAX_DEPARTURES]
      omega
    have hwindow : c ∈ (StopIndexes.build sort store date).windowCalls stopId (departuresWindow tz now window limit).1
        (departuresWindow tz now window limit).2.1 (departuresWindow tz now window limit).2.2 := hc
    have hlast : lastStart = 86339 := rfl
    unfold secsPerDay at h4
    exact reached_of_mem_windowCalls hk (by omega) (by omega) (by omega) (by omega) hlimit hwindow
  | stopTimes byArrival tz stopIds =>
    rw [BoardRequest.calls, List.mem_filter, htoday] at hc
    cases hc.2

theorem mem_valuesAt_of_mem_calls (hc : c ∈ r.calls idx stopId) : c ∈ Map.valuesAt idx.calls stopId := by
  cases r with
  | departures tz now _ window limit => exact List.mem_of_mem_drop ((List.takeWhile_subset _) (List.mem_of_mem_take hc))
  | stopTimes byArrival tz stopIds => exact (List.mem_filter.mp hc).1

/-- Where the vehicles are of the dates of the trips, rows are of their own runs. -/
theorem OwnRuns.serviceDate (H : OwnRuns store date live stop stopId) (hk : store.Keyed)
    (hc : c ∈ r.calls (StopIndexes.build sort store date) stopId)
    (hd : (StopIndexes.build sort store date).departure c stop = some d) (hv : d.vehicle live = some v)
    {day : NaiveDate} (hday : v.knownDay = some day) :
    (StopIndexes.build sort store date).serviceDate c = some day := by
  have hcall := mem_valuesAt_of_mem_calls hc
  obtain ⟨trip, htrip, shift, hshift, st, hst, hid, -, rfl⟩ := mem_indexed_iff.mp ((mem_indexed hk).mpr ⟨c, hcall, hd⟩)
  obtain ⟨-, -, rt, hrt, hlast⟩ := of_vehicle hv
  have hlast := getByRealtimeTripId_eq_some_iff.mp hlast
  rw [StopIndexes.serviceDate]
  rcases today_of_departure hk hcall hd with ⟨hruns, htoday⟩ | ⟨hruns, hran, htoday⟩
  · rw [if_pos htoday]
    exact H.today trip htrip hruns ⟨st, hst, hid⟩ rt v day hrt hlast hday
  · rw [htoday, if_neg Bool.false_ne_true]
    obtain rfl := Option.some.inj (hshift.symm.trans (shiftOf_yesterday hruns hran))
    refine H.carried trip htrip hruns hran st hst hid ?_ rt v day hrt hlast hday
    show Reached store date stop stopId (Board.departureOf store stop trip (-DAY_SECS) st).scheduledDeparture.toInt
    rw [departure_time hd]
    exact reached_of_mem_calls hk hc htoday

theorem vehicle_departureOf {trip : TripInfo} {shift : Int32} {st : StopTime} {rt : String}
    (hrt : trip.realtimeTripId = some rt) (hlast : live.Last rt v) :
    (Board.departureOf store stop trip shift st).vehicle live = some v := by
  rw [Departure.vehicle, show (Board.departureOf store stop trip shift st).realtimeTripId = some rt from hrt]
  exact getByRealtimeTripId_eq_some_iff.mpr hlast

/-- The stop times have every call of a trip that runs on the date. -/
theorem exists_row_today (sort : CallSort) (hk : store.Keyed) (hs : store.stops.lookup stopId = some stop)
    {trip : TripInfo} (htrip : trip ∈ Map.values store.trips) (hruns : runsToday store date trip = true)
    {st : StopTime} (hst : st ∈ Board.timesOf store trip) (hid : st.stopId = stopId)
    (byArrival : SortBy fun d : Departure => d.scheduledArrival.toInt) (tz : Tz) :
    ∃ c, c.today = true ∧ (c, Board.departureOf store stop trip 0 st) ∈
      (BoardRequest.stopTimes byArrival tz [stopId]).rows (StopIndexes.build sort store date) := by
  obtain ⟨c, hc, hd⟩ : ∃ c ∈ Map.valuesAt (StopIndexes.build sort store date).calls stopId,
      (StopIndexes.build sort store date).departure c stop = some (Board.departureOf store stop trip 0 st) :=
    (mem_indexed hk).mp (mem_indexed_iff.mpr ⟨trip, htrip, 0, shiftOf_today hruns, st, hst, hid, rfl, rfl⟩)
  have htoday : c.today = true := by
    rcases today_of_departure hk hc hd with ⟨-, htoday⟩ | ⟨hnot, -, -⟩
    · exact htoday
    · exact absurd (hruns.symm.trans hnot) (by decide)
  exact ⟨c, htoday, mem_rows.mpr
    ⟨stopId, List.mem_singleton_self _, stop, hs, List.mem_filter.mpr ⟨hc, htoday⟩, hd⟩⟩

/-- Some departures have a call of a trip of the day before that is reached. -/
theorem exists_row_yesterday (hk : store.Keyed) (hs : store.stops.lookup stopId = some stop) {trip : TripInfo}
    (htrip : trip ∈ Map.values store.trips) (hruns : runsToday store date trip = false)
    (hran : ranYesterday store date trip = true) {st : StopTime} (hst : st ∈ Board.timesOf store trip)
    (hid : st.stopId = stopId) (hreached : Reached store date stop stopId (st.departure + -DAY_SECS).toInt) :
    ∃ c sort now, c.today = false ∧ (c, Board.departureOf store stop trip (-DAY_SECS) st) ∈
      (BoardRequest.departures Tz.utc now stopId (some 360) (some 100)).rows (StopIndexes.build sort store date) := by
  have hpast : Board.past (-DAY_SECS) st = false := by
    rw [← Bool.not_eq_true, past_iff]
    have := hreached.1
    omega
  let insertion : CallSort := SortBy.insertion _
  obtain ⟨c, hc, hd⟩ : ∃ c ∈ Map.valuesAt (StopIndexes.build insertion store date).calls stopId,
      (StopIndexes.build insertion store date).departure c stop =
        some (Board.departureOf store stop trip (-DAY_SECS) st) :=
    (mem_indexed hk).mp (mem_indexed_iff.mpr
      ⟨trip, htrip, -DAY_SECS, shiftOf_yesterday hruns hran, st, hst, hid, hpast, rfl⟩)
  have htoday : c.today = false := by
    rcases today_of_departure hk hc hd with ⟨hnot, -⟩ | ⟨-, -, htoday⟩
    · exact absurd (hruns.symm.trans hnot) (by decide)
    · exact htoday
  have htime := departure_time hd
  simp only [Board.departureOf] at htime
  rw [htime] at hreached
  obtain ⟨now, hcall⟩ := mem_calls_of_reached hk hc hreached
  exact ⟨c, SortBy.first _ c, now, htoday, mem_rows.mpr ⟨stopId, List.mem_singleton_self _, stop, hs, hcall, hd⟩⟩

end

/-- Every row of a stop shows a vehicle of its own run, on the boards of a date
whatever is asked for and whenever, exactly if the vehicles under the ids of the
trips that call there are of the days on which these run. -/
theorem board_right_iff (store : GtfsStore) (hk : store.Keyed) (date : NaiveDate) (live : VehicleIndex)
    (stops : Set String) :
    (∀ (sort : CallSort) (gtfs : GtfsService) (r : BoardRequest),
        gtfs.stops = some (StopIndexes.build sort store date) → (∀ stopId ∈ r.stops, stopId ∈ stops) →
          r.Right gtfs (StopIndexes.build sort store date) live) ↔
      ∀ stopId ∈ stops, ∀ stop, store.stops.lookup stopId = some stop → OwnRuns store date live stop stopId := by
  constructor
  · intro h stopId hmem stop hs
    have hstops : ∀ id ∈ [stopId], id ∈ stops := fun id hid => List.mem_singleton.mp hid ▸ hmem
    constructor
    · rintro trip htrip hruns ⟨st, hst, hid⟩ rt v day hrt hlast hday
      obtain ⟨c, htoday, hrow⟩ := exists_row_today (SortBy.insertion _) hk hs htrip hruns hst hid
        (SortBy.insertion _) Tz.utc
      obtain ⟨midnight, hmidnight⟩ := exists_midnight_utc date
      have hright := h _ { stops := some (StopIndexes.build (SortBy.insertion _) store date) }
        (.stopTimes (SortBy.insertion _) Tz.utc [stopId]) rfl hstops
      have hdate := (hright.own c _ hrow v day
        (carries_stopTimes rfl hmidnight hrow (vehicle_departureOf hrt hlast)) hday).2
      rwa [StopIndexes.serviceDate, if_pos htoday] at hdate
    · rintro trip htrip hruns hran st hst hid hreached rt v day hrt hlast hday
      obtain ⟨c, sort, now, htoday, hrow⟩ := exists_row_yesterday hk hs htrip hruns hran hst hid hreached
      have hright := h sort { stops := some (StopIndexes.build sort store date) }
        (.departures Tz.utc now stopId (some 360) (some 100)) rfl hstops
      have hdate := (hright.own c _ hrow v day (carries_departures rfl hrow (vehicle_departureOf hrt hlast)) hday).2
      rwa [StopIndexes.serviceDate, htoday, if_neg Bool.false_ne_true] at hdate
  · intro h sort gtfs r _ hstops
    refine right_of_own fun c d hrow v day hv hday => ?_
    obtain ⟨stopId, hid, stop, hs, hc, hd⟩ := mem_rows.mp hrow
    exact (h stopId (hstops stopId hid) stop hs).serviceDate hk hc hd (vehicle_of_carries hv) hday

theorem ofDate_iff {live : VehicleIndex} {trip : TripInfo} {date : Option NaiveDate} :
    live.OfDate trip date ↔
      ((trip.realtimeTripId.bind live.getByRealtimeTripId).bind LiveTrip.knownDay).all (date = some ·) := by
  simp only [VehicleIndex.OfDate, ← getByRealtimeTripId_eq_some_iff, Option.all_eq_true, Option.bind_eq_some_iff,
    decide_eq_true_eq]
  exact ⟨fun h day ⟨v, ⟨rt, hrt, hv⟩, hday⟩ => h rt v day hrt hv hday, fun h rt v day hrt hv hday =>
    h day ⟨v, ⟨rt, hrt, hv⟩, hday⟩⟩

instance {live : VehicleIndex} {trip : TripInfo} {date : Option NaiveDate} : Decidable (live.OfDate trip date) :=
  decidable_of_iff' _ ofDate_iff

/-- A bus of line 1. -/
def lineOne (number journey day : String) : LiveTrip :=
  { LiveTrip.new { dataowner := "RET", vehicleNumber := number } 0 with
    linePlanningNumber := some "1", journeyNumber := some journey, operatingDay := some day
    lat := .fin 52, lon := .fin 5 }

/-- Two trips of line 1 with a call at one stop: at ten past midnight, and at six. -/
def lineOneStore (nights days : List UInt32) : GtfsStore where
  trips := ((∅ : Map String TripInfo).insert "T8"
    { tripId := "T8", routeId := "R1", headsign := "", blockId := none, shapeId := none, serviceId := "D"
      longName := "", realtimeTripId := some "RET:1:8" }).insert "T7"
    { tripId := "T7", routeId := "R1", headsign := "", blockId := none, shapeId := none, serviceId := "N"
      longName := "", realtimeTripId := some "RET:1:7" }
  stops := AList.insert "ut"
    { stopId := "ut", name := "", lat := .fin 52, lon := .fin 5, code := none, platformCode := none
      parentStation := none, locationType := 0 } ∅
  stopTimes := ((∅ : Map String (List StopTime)).insert "T8"
    [{ stopId := "ut", stopSequence := 1, arrival := 21600, departure := 21600 }]).insert "T7"
    [{ stopId := "ut", stopSequence := 1, arrival := 87000, departure := 87000 }]
  serviceDates := ((∅ : Map String (List UInt32)).insert "D" days).insert "N" nights

theorem lineOneStore_keyed (nights days : List UInt32) : (lineOneStore nights days).Keyed :=
  Map.forall_insert rfl (Map.forall_insert rfl fun _ _ h => by cases h)

/-- The night bus of the 27th, still on the road, and a bus of the 28th. -/
def lineOneLive : VehicleIndex where
  vehicles := [lineOne "1001" "7" "2026-07-27", lineOne "1002" "8" "2026-07-28"]
  positioned t ht := by
    rcases List.mem_cons.mp ht with rfl | ht
    · rfl
    · exact List.mem_singleton.mp ht ▸ rfl
  distinct := by decide

/-- If the one runs in the night of the 27th only and the other on the 28th, the
departures of the 28th from 00:05 on have both, each with its own bus. -/
theorem board_right_lineOne :
    let store := lineOneStore [20260727] [20260728]
    let idx := StopIndexes.build (SortBy.insertion _) store ⟨20662⟩
    let r : BoardRequest := .departures Tz.utc ((20662 * 86400 + 300) * nanos) "ut" (some 360) (some 100)
    (r.rows idx).map (fun row => (row.1.today, (row.2.vehicle lineOneLive).map LiveTrip.id)) =
        [(false, some "RET:1001"), (true, some "RET:1002")] ∧
      r.Right { stops := some idx } idx lineOneLive := by
  intro store idx r
  have hdates : ∀ trip ∈ Map.values store.trips,
      (runsToday store ⟨20662⟩ trip = true → lineOneLive.OfDate trip (some ⟨20662⟩)) ∧
        (ranYesterday store ⟨20662⟩ trip = true → lineOneLive.OfDate trip (NaiveDate.predOpt ⟨20662⟩)) := by
    decide +kernel
  have hright := (board_right_iff store (lineOneStore_keyed _ _) ⟨20662⟩ lineOneLive {"ut"}).mpr fun _ _ _ _ =>
    ⟨fun trip htrip hruns _ => (hdates trip htrip).1 hruns,
      fun trip htrip _ hran _ _ _ _ => (hdates trip htrip).2 hran⟩
  exact ⟨by decide +kernel, hright (SortBy.insertion _) { stops := some idx } r rfl fun stopId hid =>
    List.mem_singleton.mp hid⟩

/-- If the night bus runs on both dates, the stop times of the 28th have the bus of the 27th. -/
theorem board_not_right :
    ¬ ∀ (store : GtfsStore) (date : NaiveDate) (live : VehicleIndex) (sort : CallSort) (gtfs : GtfsService)
      (r : BoardRequest), store.Keyed → gtfs.stops = some (StopIndexes.build sort store date) →
        r.Right gtfs (StopIndexes.build sort store date) live := by
  intro h
  let idx := StopIndexes.build (SortBy.insertion _) (lineOneStore [20260727, 20260728] []) ⟨20662⟩
  let r : BoardRequest := .stopTimes (SortBy.insertion _) Tz.utc ["ut"]
  have hright := h (lineOneStore [20260727, 20260728] []) ⟨20662⟩ lineOneLive (SortBy.insertion _) { stops := some idx } r
    (lineOneStore_keyed _ _) rfl
  have hrow : (r.rows idx).any (fun row => row.1.today && row.2.realtimeTripId = some "RET:1:7") = true := by
    decide +kernel
  obtain ⟨⟨c, d⟩, hmem, hprop⟩ := List.any_eq_true.mp hrow
  rw [Bool.and_eq_true, decide_eq_true_eq] at hprop
  obtain ⟨htoday, hrt⟩ := hprop
  have hvehicle : d.vehicle lineOneLive = some (lineOne "1001" "7" "2026-07-27") := by
    rw [Departure.vehicle, hrt]
    exact getByRealtimeTripId_eq_some_iff.mpr ⟨by decide, [], _, rfl, by decide⟩
  obtain ⟨midnight, hmidnight⟩ := exists_midnight_utc idx.date
  have hday : (lineOne "1001" "7" "2026-07-27").knownDay = some ⟨20661⟩ := by decide +kernel
  obtain ⟨-, hdate⟩ := hright.own c d hmem _ ⟨20661⟩ (carries_stopTimes rfl hmidnight hmem hvehicle) hday
  rw [StopIndexes.serviceDate, if_pos htoday] at hdate
  exact absurd hdate (by decide +kernel)

end OV.Impl
