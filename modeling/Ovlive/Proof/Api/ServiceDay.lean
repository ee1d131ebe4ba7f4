import Ovlive.Impl.Api.Boards
import Ovlive.Proof.Gtfs.Scan

/-!
# The stop times of a service date

`stopTimesFor` lists the calls of a date at some stops. `callsAmong` are the calls
that the timetable has at these stops on the date; `serviceDay` says that the list
of each stop, and the list of all of them in the order of arrival, has exactly
these.
-/

namespace OV.Impl

variable {store : GtfsStore} {date : NaiveDate}

/-- The calls of the trips that run on a date, each with its trip. -/
def dayTimes (store : GtfsStore) (date : NaiveDate) : List (TripInfo × StopTime) :=
  ((Map.values store.trips).filter (runsToday store date)).flatMap fun trip =>
    (Board.timesOf store trip).map fun st => (trip, st)

/-- A call of a trip, at the stop of the store that it names. -/
def callAt (store : GtfsStore) (call : TripInfo × StopTime) : Option Departure :=
  (store.stops.lookup call.2.stopId).map fun stop => dayCall store stop call.1 call.2

/-- The calls of a date at some stops, at the times of the timetable. -/
def callsAmong (store : GtfsStore) (date : NaiveDate) (stopIds : List String) : List Departure :=
  ((dayTimes store date).filter fun call => call.2.stopId ∈ stopIds).filterMap (callAt store)

/-- The calls at one stop. -/
theorem dayCalls_eq {stop : StopInfo} {stopId : String} (hs : store.stops.lookup stopId = some stop) :
    dayCalls store date stop stopId =
      ((dayTimes store date).filter fun call => call.2.stopId = stopId).filterMap (callAt store) := by
  have htrip : ∀ trip, ((((Board.timesOf store trip).map fun st => (trip, st)).filter fun call =>
      call.2.stopId = stopId).filterMap (callAt store)) = dayCallsOf store stop stopId trip := by
    intro trip
    rw [List.filter_map, List.filterMap_map, dayCallsOf, ← List.filterMap_eq_map]
    refine List.filterMap_congr fun st hst => ?_
    have hstop : st.stopId = stopId := of_decide_eq_true (List.mem_filter.mp hst).2
    simp only [Function.comp_apply, callAt]
    rw [hstop, hs]
    rfl
  rw [dayTimes, List.filter_flatMap, List.filterMap_flatMap, dayCalls]
  exact List.flatMap_congr fun trip _ => (htrip trip).symm

/-- The lists of distinct stops of the store, one after the other, are the calls
at these stops. -/
theorem flatMap_callsOnServiceDate_perm (sort : CallSort)
    (byArrival : SortBy fun d : Departure => d.scheduledArrival.toInt) (hk : store.Keyed) {stopIds : List String}
    (hn : stopIds.Nodup) (hstops : ∀ stopId ∈ stopIds, (store.stops.lookup stopId).isSome) :
    (stopIds.flatMap ((StopIndexes.build sort store date).callsOnServiceDate byArrival)).Perm
      (callsAmong store date stopIds) := by
  have hone : ∀ stopId ∈ stopIds, ((StopIndexes.build sort store date).callsOnServiceDate byArrival stopId).Perm
      (((dayTimes store date).filter fun call => call.2.stopId = stopId).filterMap (callAt store)) := by
    intro stopId hmem
    obtain ⟨stop, hs⟩ := Option.isSome_iff_exists.mp (hstops stopId hmem)
    rw [← dayCalls_eq hs]
    exact (dayList_callsOnServiceDate sort byArrival hk date hs).same
  refine (List.Perm.flatMap_left _ hone).trans ?_
  rw [← List.filterMap_flatMap, callsAmong]
  exact (flatMap_filter_perm hn (dayTimes store date)).filterMap _

/-- The rows of the response are departures in the order of arrival. -/
theorem stopTimesFor_eq {byArrival : SortBy fun d : Departure => d.scheduledArrival.toInt} {tz : Tz} {gtfs : GtfsService}
    {live : VehicleIndex} {stopIds : List String} {idx : StopIndexes} {midnight : Instant} (hidx : gtfs.stops = some idx)
    (hmidnight : localMidnightUtc idx.date tz = some midnight) :
    stopTimesFor byArrival tz gtfs live stopIds =
      .ok ((((stopIds.flatMap (idx.callsOnServiceDate byArrival)).insertionSort fun a b =>
        a.scheduledArrival.toInt ≤ b.scheduledArrival.toInt)).map (stopTimeItem midnight live)) := by
  have hrows : (stopIds.flatMap fun stopId =>
      (idx.callsOnServiceDate byArrival stopId).map fun d => (d.scheduledArrival, stopTimeItem midnight live d)) =
      (stopIds.flatMap (idx.callsOnServiceDate byArrival)).map fun d =>
        (d.scheduledArrival, stopTimeItem midnight live d) := by
    rw [List.map_flatMap]
  have hsort (l : List Departure) :
      ((l.map fun d => (d.scheduledArrival, stopTimeItem midnight live d)).insertionSort fun a b =>
        a.1.toInt ≤ b.1.toInt) =
      (l.insertionSort fun a b => a.scheduledArrival.toInt ≤ b.scheduledArrival.toInt).map fun d =>
        (d.scheduledArrival, stopTimeItem midnight live d) := by
    symm
    apply List.map_insertionSort
    exact fun _ _ _ _ => Iff.rfl
  simp only [stopTimesFor, hidx, hmidnight, hrows, hsort, List.map_map]
  rfl

/-- A day list has the service of the date and nothing else: at one stop, and over
distinct stops in the order of arrival, where the date has a midnight. -/
theorem serviceDay (sort : CallSort) (byArrival : SortBy fun d : Departure => d.scheduledArrival.toInt)
    (store : GtfsStore) (hk : store.Keyed) (date : NaiveDate) :
    (∀ stopId stop, store.stops.lookup stopId = some stop →
      DayList ((StopIndexes.build sort store date).callsOnServiceDate byArrival stopId)
        (dayCalls store date stop stopId)) ∧
    ∀ (tz : Tz) (gtfs : GtfsService) (live : VehicleIndex) (stopIds : List String),
      gtfs.stops = some (StopIndexes.build sort store date) → stopIds.Nodup →
      (∀ stopId ∈ stopIds, (store.stops.lookup stopId).isSome) →
        ∃ rows, DayList rows (callsAmong store date stopIds) ∧
          stopTimesFor byArrival tz gtfs live stopIds =
            match localMidnightUtc date tz with
            | none => .error internalError
            | some midnight => .ok (rows.map (stopTimeItem midnight live)) := by
  constructor
  · intro stopId stop hs
    exact dayList_callsOnServiceDate sort byArrival hk date hs
  · intro tz gtfs live stopIds hidx hn hstops
    refine ⟨_, ⟨(List.perm_insertionSort _ _).trans (flatMap_callsOnServiceDate_perm sort byArrival hk hn hstops),
      (SortBy.insertion fun d : Departure => d.scheduledArrival.toInt).ascending _⟩, ?_⟩
    cases hm : localMidnightUtc date tz with
    | none =>
      have hnone : localMidnightUtc (StopIndexes.build sort store date).date tz = none := hm
      simp only [stopTimesFor, hidx, hnone]
    | some midnight => exact stopTimesFor_eq hidx hm

/-- A live index without vehicles. -/
def nothingLive : VehicleIndex where
  vehicles := []
  positioned _ h := absurd h List.not_mem_nil
  distinct := .nil

/-- The stop times of two stops have the five calls of the date, and of the trip
of the day before, which calls at both past midnight, none. -/
theorem serviceDay_night :
    let idx := StopIndexes.build (SortBy.insertion _) stationStore july27
    DayList (idx.callsOnServiceDate (SortBy.insertion _) "R1") (dayCalls stationStore july27 nightStop "R1") ∧
    (dayCalls stationStore july27 nightStop "R1").length = 3 ∧ (Map.valuesAt idx.calls "R1").length = 4 ∧
    ∃ rows, DayList rows (callsAmong stationStore july27 ["R1", "R2"]) ∧ rows.length = 5 ∧
      stopTimesFor (SortBy.insertion _) Tz.utc { stops := some idx } nothingLive ["R1", "R2"] =
        match localMidnightUtc july27 Tz.utc with
        | none => .error internalError
        | some midnight => .ok (rows.map (stopTimeItem midnight nothingLive)) := by
  intro idx
  obtain ⟨hone, hall⟩ := serviceDay (SortBy.insertion _) (SortBy.insertion _) stationStore stationStore_keyed july27
  obtain ⟨rows, hrows, htimes⟩ := hall Tz.utc { stops := some idx } nothingLive ["R1", "R2"] rfl (by decide)
    (by decide +kernel)
  refine ⟨hone "R1" nightStop stationStore_stop, by decide +kernel, by decide +kernel, rows, hrows, ?_, htimes⟩
  rw [hrows.same.length_eq]
  decide +kernel

end OV.Impl
