import Ovlive.Proof.Gtfs.Stops

/-!
# The board lookups as plain scans

`departures` starts at the first call of the window, by binary search, and stops
at the first one after it; `departures_scan` says that this is a plain scan of
the calls of the stop, each with its own trip. `callsOnServiceDate` filters the
same index; `dayList_callsOnServiceDate` says that it has the day's service and
nothing of the day before.
-/

namespace OV.Impl

variable {store : GtfsStore} {stop : StopInfo} {stopId : String} {date : NaiveDate} {idx : StopIndexes}

/-! ## The window -/

/-- With every call of a stop resolved, a lookup is a scan of the departures. -/
theorem departures_of_resolved (hs : idx.store.stops.lookup stopId = some stop) {all : List Departure}
    (hall : (Map.valuesAt idx.calls stopId).map (fun c => idx.departure c stop) = all.map some)
    (fromSecs windowSecs : Int32) (limit : Nat) :
    idx.departures stopId fromSecs windowSecs limit =
      (all.filter fun d => fromSecs.toInt ≤ d.scheduledDeparture.toInt &&
        d.scheduledDeparture.toInt ≤ StopIndexes.saturatingAdd fromSecs windowSecs).take limit := by
  have hwindow := takeWhile_drop_partitionPoint (idx.ascending stopId) fromSecs.toInt
    (StopIndexes.saturatingAdd fromSecs windowSecs)
  have hscan : idx.departures stopId fromSecs windowSecs limit =
      (((Map.valuesAt idx.calls stopId).filter fun c => fromSecs.toInt ≤ c.departure.toInt &&
        c.departure.toInt ≤ StopIndexes.saturatingAdd fromSecs windowSecs).take limit).filterMap
          fun c => idx.departure c stop := by
    simp only [StopIndexes.departures, hs]
    unfold Map.valuesAt at hwindow ⊢
    cases hc : idx.calls.lookup stopId with
    | none => simp
    | some calls =>
      rw [hc, Option.getD_some] at hwindow
      simp only [hwindow, Option.getD_some]
  rw [hscan]
  refine filterMap_take_filter hall (fun c d hd => ?_) limit
  rw [departure_time hd]

/-- The departures of a stop, call by call: in the order of the index, each with the
trip, the route and the realtime id of the trip whose call it is. -/
structure Resolves (store : GtfsStore) (date : NaiveDate) (idx : StopIndexes) (stop : StopInfo) (stopId : String)
    (all : List Departure) : Prop where
  calls : (Map.valuesAt idx.calls stopId).map (fun c => idx.departure c stop) = all.map some
  ascending : all.Pairwise fun a b => a.scheduledDeparture.toInt ≤ b.scheduledDeparture.toInt
  same : all.Perm (indexed store date stop stopId)
  own : ∀ d ∈ all, ∃ trip ∈ Map.values store.trips, ∃ st ∈ Board.timesOf store trip, ∃ shift,
    st.stopId = stopId ∧ Board.shiftOf store (ymdU32 date) (date.predOpt.map ymdU32) trip = some shift ∧
      d = Board.departureOf store stop trip shift st

/-- What is indexed is a call of the trip it carries. -/
theorem own_of_mem_indexed {d : Departure} (h : d ∈ indexed store date stop stopId) :
    ∃ trip ∈ Map.values store.trips, ∃ st ∈ Board.timesOf store trip, ∃ shift,
      st.stopId = stopId ∧ Board.shiftOf store (ymdU32 date) (date.predOpt.map ymdU32) trip = some shift ∧
        d = Board.departureOf store stop trip shift st := by
  obtain ⟨trip, htrip, shift, hshift, st, hst, hstop, -, rfl⟩ := mem_indexed_iff.mp h
  exact ⟨trip, htrip, st, hst, shift, hstop, hshift, rfl⟩

theorem resolves_build (sort : CallSort) (date : NaiveDate) (stop : StopInfo) (stopId : String) (hk : store.Keyed) :
    ∃ all, Resolves store date (StopIndexes.build sort store date) stop stopId all := by
  obtain ⟨hsome, hperm⟩ := departure_build sort date stop stopId hk
  refine ⟨_, ?_, ?_, hperm, fun d hd => own_of_mem_indexed (hperm.mem_iff.mp hd)⟩
  · rw [List.map_filterMap_some_eq_filter_map_isSome, eq_comm, List.filter_eq_self]
    intro o ho
    obtain ⟨c, hc, rfl⟩ := List.mem_map.mp ho
    exact hsome c hc
  · rw [List.pairwise_filterMap]
    refine ((StopIndexes.build sort store date).ascending stopId).imp ?_
    intro c c' h d hd d' hd'
    rw [departure_time hd, departure_time hd']
    exact h

/-- Whatever the order that the sort left equal departures in, every window of a
stop, with any limit, is cut from one list: the departures of the stop's calls in
ascending order, each with its own trip. -/
theorem StopIndexes.departures_scan (sort : CallSort) (store : GtfsStore) (hk : store.Keyed) (date : NaiveDate)
    (stopId : String) (stop : StopInfo) (hs : store.stops.lookup stopId = some stop) :
    ∃ all, Resolves store date (StopIndexes.build sort store date) stop stopId all ∧
      ∀ (fromSecs windowSecs : Int32) (limit : Nat),
        (StopIndexes.build sort store date).departures stopId fromSecs windowSecs limit =
          (all.filter fun d => fromSecs.toInt ≤ d.scheduledDeparture.toInt &&
            d.scheduledDeparture.toInt ≤ saturatingAdd fromSecs windowSecs).take limit := by
  obtain ⟨all, hall⟩ := resolves_build sort date stop stopId hk
  exact ⟨all, hall, departures_of_resolved hs hall.calls⟩

/-- Two stops of a station, with one trip of 26 July that calls past midnight and
three of 27 July. -/
def stationStore : GtfsStore :=
  let trip (tripId serviceId : String) : TripInfo :=
    { tripId, routeId := "RT1", headsign := "Blaak", blockId := none, shapeId := none, serviceId, longName := ""
      realtimeTripId := none }
  let call (stopId : String) (time : Int32) : StopTime := { stopId, stopSequence := 1, arrival := time, departure := time }
  { stops := Map.insertAll StopInfo.stopId id [{ nightStop with stopId := "R2" }, nightStop] ∅
    trips := Map.insertAll TripInfo.tripId id [trip "T1" "S1", trip "T2" "S2", trip "T3" "S2", trip "T4" "S2"] ∅
    stopTimes := Map.insertAll Prod.fst Prod.snd
      [("T1", [call "R1" 90600, call "R2" 91200]), ("T2", [call "R1" 4200, call "R2" 4320]), ("T3", [call "R1" 3300]),
        ("T4", [call "R1" 7200, call "R2" 7500])] ∅
    serviceDates := Map.insertAll Prod.fst Prod.snd [("S1", [20260726]), ("S2", [20260727])] ∅ }

theorem stationStore_keyed : stationStore.Keyed := Map.forall_insertAll (fun _ _ => rfl) fun _ _ h => by cases h

theorem stationStore_stop : stationStore.stops.lookup "R1" = some nightStop := AList.lookup_insert _

/-- From 00:50 for 20 minutes there is a call of the date, and two at 01:10, one of
each day, of which a limit of two takes one. -/
theorem StopIndexes.departures_scan_night :
    let idx := StopIndexes.build (SortBy.insertion _) stationStore july27
    ∃ all, Resolves stationStore july27 idx nightStop "R1" all ∧ all.length = 4 ∧
      ((idx.departures "R1" 3000 1200 3).map fun d => (d.trip.tripId, d.scheduledDeparture)) =
        [("T3", 3300), ("T2", 4200), ("T1", 4200)] ∧
      idx.departures "R1" 3000 1200 2 =
        (all.filter fun d => 3000 ≤ d.scheduledDeparture.toInt && d.scheduledDeparture.toInt ≤ 4200).take 2 := by
  intro idx
  obtain ⟨all, hall, hscan⟩ := StopIndexes.departures_scan (SortBy.insertion _) stationStore stationStore_keyed
    july27 "R1" nightStop stationStore_stop
  refine ⟨all, hall, ?_, by decide +kernel, hscan 3000 1200 2⟩
  rw [hall.same.length_eq]
  decide +kernel

/-! ## The service of a day -/

/-- A call of a trip at the times of its timetable. -/
def dayCall (store : GtfsStore) (stop : StopInfo) (trip : TripInfo) (st : StopTime) : Departure where
  stop := stop
  trip := trip
  route := store.routes.lookup trip.routeId
  realtimeTripId := trip.realtimeTripId
  scheduledArrival := st.arrival
  scheduledDeparture := st.departure
  stopSequence := st.stopSequence

/-- The calls of a trip at a stop. -/
def dayCallsOf (store : GtfsStore) (stop : StopInfo) (stopId : String) (trip : TripInfo) : List Departure :=
  ((Board.timesOf store trip).filter fun st => st.stopId = stopId).map (dayCall store stop trip)

/-- The calls at a stop of the trips that run on a date. -/
def dayCalls (store : GtfsStore) (date : NaiveDate) (stop : StopInfo) (stopId : String) : List Departure :=
  ((Map.values store.trips).filter (runsToday store date)).flatMap (dayCallsOf store stop stopId)

namespace Board

/-- A trip is on today's axis if it runs today. -/
theorem shiftOf_zero_iff {yesterday : Option UInt32} {trip : TripInfo} {shift : Int32}
    (h : shiftOf store (ymdU32 date) yesterday trip = some shift) : shift = 0 ↔ runsToday store date trip = true := by
  unfold shiftOf at h
  unfold runsToday
  split_ifs at h with h1 h2
  · cases h
    exact iff_of_true rfl h1
  · cases h
    exact iff_of_false (by decide) h1

/-- No call of today is too far in the past. -/
theorem past_zero (st : StopTime) : past 0 st = false := rfl

theorem departureOf_zero (store : GtfsStore) (stop : StopInfo) (trip : TripInfo) (st : StopTime) :
    departureOf store stop trip 0 st = dayCall store stop trip st := by
  simp only [departureOf, dayCall, Int32.add_zero]

/-- Of the calls made of a trip's times, today's are all of them or none. -/
theorem filter_today_callOf (shift : Int32) (slot : Nat) (times : List StopTime) :
    ((times.filter fun st => st.stopId = stopId && !past shift st).map (callOf shift slot)).filter Call.today =
      if shift = 0 then (times.filter fun st => st.stopId = stopId).map (callOf shift slot) else [] := by
  split
  · rename_i hzero
    subst hzero
    rw [List.filter_eq_self.mpr]
    · simp [past_zero]
    · intro c hc
      obtain ⟨st, -, rfl⟩ := List.mem_map.mp hc
      rfl
  · rename_i hne
    rw [List.filter_eq_nil_iff]
    intro c hc
    obtain ⟨st, -, rfl⟩ := List.mem_map.mp hc
    simpa [callOf] using hne

/-- What one trip adds to today's calls. -/
theorem todays_addTrip {b : List DayTrip × Map String (List Call)} {trip : TripInfo}
    (hin : ∀ c ∈ Map.valuesAt b.2 stopId, c.trip < b.1.length) (ht : store.trips.lookup trip.tripId = some trip) :
    ((Map.valuesAt (addTrip store (ymdU32 date) (date.predOpt.map ymdU32) b trip).2 stopId).filter Call.today).map
        (resolve store stop (addTrip store (ymdU32 date) (date.predOpt.map ymdU32) b trip).1) =
      ((Map.valuesAt b.2 stopId).filter Call.today).map (resolve store stop b.1) ++
        (([trip].filter (runsToday store date)).flatMap (dayCallsOf store stop stopId)).map some := by
  unfold addTrip
  cases hs : shiftOf store (ymdU32 date) (date.predOpt.map ymdU32) trip with
  | none =>
    have hrun : runsToday store date trip = false := by
      unfold shiftOf at hs
      split_ifs at hs with h
      rwa [Bool.not_eq_true] at h
    simp [hrun]
  | some shift =>
    cases htimes : store.stopTimes.lookup trip.tripId with
    | none =>
      have hnone : dayCallsOf store stop stopId trip = [] := by simp [dayCallsOf, timesOf, htimes]
      cases hrun : runsToday store date trip with
      | false => simp [hrun]
      | true => simp [hrun, hnone]
    | some times =>
      have hold : ∀ c ∈ (Map.valuesAt b.2 stopId).filter Call.today,
          resolve store stop (b.1 ++ [{ tripId := trip.tripId, rtId := trip.realtimeTripId }]) c =
            resolve store stop b.1 c := fun c hc => resolve_append (hin c (List.mem_of_mem_filter hc))
      simp only
      rw [valuesAt_addCalls, List.filter_append, List.map_append, List.map_congr_left hold, filter_today_callOf]
      congr 1
      cases hrun : runsToday store date trip with
      | false =>
        -- the calls of the day before are marked
        have hne : shift ≠ 0 := fun h => by simp [(shiftOf_zero_iff hs).mp h] at hrun
        rw [if_neg hne]
        simp [hrun]
      | true =>
        obtain rfl := (shiftOf_zero_iff hs).mpr hrun
        have hday : ([trip].filter (runsToday store date)).flatMap (dayCallsOf store stop stopId) =
            (times.filter fun st => st.stopId = stopId).map (dayCall store stop trip) := by
          simp [hrun, dayCallsOf, timesOf, htimes]
        rw [if_pos rfl, hday, List.map_map, List.map_map]
        exact List.map_congr_left fun st _ =>
          (resolve_callOf ht b.1 0 st).trans (congrArg some (departureOf_zero store stop trip st))

/-- Of the calls indexed so far, those of today are of the trips that run today. -/
theorem todays_foldl (store : GtfsStore) (date : NaiveDate) (stop : StopInfo) (stopId : String) {ts : List TripInfo}
    (hts : ∀ t ∈ ts, store.trips.lookup t.tripId = some t) :
    ((Map.valuesAt (ts.foldl (addTrip store (ymdU32 date) (date.predOpt.map ymdU32)) ([], ∅)).2 stopId).filter
        Call.today).map
          (resolve store stop (ts.foldl (addTrip store (ymdU32 date) (date.predOpt.map ymdU32)) ([], ∅)).1) =
      ((ts.filter (runsToday store date)).flatMap (dayCallsOf store stop stopId)).map some := by
  induction ts using List.reverseRecOn with
  | nil => simp [Map.valuesAt]
  | append_singleton ts trip ih =>
    have H := indexed_foldl store stop stopId (ymdU32 date) (date.predOpt.map ymdU32) fun u hu =>
      hts u (List.mem_append_left _ hu)
    have ht := hts trip (List.mem_append_right _ (List.mem_singleton_self _))
    have ih := ih fun u hu => hts u (List.mem_append_left _ hu)
    rw [List.foldl_append, List.foldl_cons, List.foldl_nil, List.filter_append, List.flatMap_append, List.map_append,
      ← ih]
    exact todays_addTrip H.inRange ht

end Board

/-- The list of a day: the calls expected, no less and no more often, ascending by
arrival. -/
structure DayList (rows expected : List Departure) : Prop where
  same : rows.Perm expected
  ascending : rows.Pairwise fun a b => a.scheduledArrival.toInt ≤ b.scheduledArrival.toInt

/-- Of the index of a date, the calls of the date are its service at the stop. -/
theorem departure_build_today (sort : CallSort) (date : NaiveDate) (stop : StopInfo) (stopId : String)
    (hk : store.Keyed) :
    (((Map.valuesAt (StopIndexes.build sort store date).calls stopId).filter Call.today).filterMap fun c =>
      (StopIndexes.build sort store date).departure c stop).Perm (dayCalls store date stop stopId) := by
  have htodays := Board.todays_foldl store date stop stopId fun t ht => lookup_of_mem_values hk ht
  set b := (Map.values store.trips).foldl (Board.addTrip store (ymdU32 date) (date.predOpt.map ymdU32)) ([], ∅)
  have hperm : (Map.valuesAt (StopIndexes.build sort store date).calls stopId).Perm (Map.valuesAt b.2 stopId) :=
    perm_valuesAt_sort sort b.2 stopId
  have hlist : ((Map.valuesAt b.2 stopId).filter Call.today).filterMap (Board.resolve store stop b.1) =
      dayCalls store date stop stopId := by
    have h := congrArg (List.filterMap id) htodays
    rw [List.filterMap_map, List.filterMap_map] at h
    simpa [Function.comp_def, dayCalls] using h
  rw [← hlist]
  exact (hperm.filter _).filterMap _

/-- What the day list of a stop has. -/
theorem dayList_callsOnServiceDate (sort : CallSort) (byArrival : SortBy fun d : Departure => d.scheduledArrival.toInt)
    (hk : store.Keyed) (date : NaiveDate) (hs : store.stops.lookup stopId = some stop) :
    DayList ((StopIndexes.build sort store date).callsOnServiceDate byArrival stopId)
      (dayCalls store date stop stopId) := by
  have hday := departure_build_today sort date stop stopId hk
  have hstop : (StopIndexes.build sort store date).store.stops.lookup stopId = some stop := hs
  unfold Map.valuesAt at hday
  simp only [StopIndexes.callsOnServiceDate, hstop]
  cases hc : (StopIndexes.build sort store date).calls.lookup stopId with
  | none =>
    rw [hc] at hday
    exact ⟨hday, .nil⟩
  | some calls =>
    rw [hc, Option.getD_some] at hday
    exact ⟨(byArrival.perm _).trans hday, byArrival.ascending _⟩

end OV.Impl
