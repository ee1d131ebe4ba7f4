import Ovlive.Proof.Api.Axis
import Ovlive.Proof.Gtfs.Stops

/-!
# The window of a departure board

`stop_departures` asks for a window that may reach past midnight, of an index
that has the service of one date and of the day before. `stopDepartures_window`
says what that leaves on the board: every call of the date's service in the
window, whatever its GTFS time, and nothing of a later date's
(`next_day_not_shown`).
-/

namespace OV.Impl

section

variable {store : GtfsStore} {date : NaiveDate} {stop : StopInfo} {stopId : String} {fromSecs windowSecs : Int32}

/-- A departure is a call of a trip on one of the days of a board. -/
inductive CallOn (store : GtfsStore) (date : NaiveDate) (stop : StopInfo) (stopId : String)
    (fromSecs windowSecs : Int32) (trip : TripInfo) (st : StopTime) (d : Departure) : Prop
  | today (runs : runsToday store date trip = true)
      (inWin : inWindow fromSecs windowSecs st.departure.toInt = true)
      (eq : d = Board.departureOf store stop trip 0 st)
  | yesterday (ran : ranYesterday store date trip = true)
      (inWin : inWindow fromSecs windowSecs (st.departure + -DAY_SECS).toInt = true)
      (eq : d = Board.departureOf store stop trip (-DAY_SECS) st)

/-- What is shown of a trip that runs on the date. -/
theorem mem_shown_today {trip : TripInfo} {st : StopTime} (h : runsToday store date trip = true)
    (hst : st ∈ Board.timesOf store trip) (hs : st.stopId = stopId)
    (hw : inWindow fromSecs windowSecs st.departure.toInt = true) :
    Board.departureOf store stop trip 0 st ∈ shown store date stop stopId fromSecs windowSecs trip := by
  rw [shown_today h, runOf]
  refine List.mem_map_of_mem (List.mem_filter.mpr ⟨hst, ?_⟩)
  rw [Bool.and_eq_true, decide_eq_true_eq]
  exact ⟨hs, by rwa [show ((0 : Int32).toInt) = 0 from rfl, add_zero]⟩

/-- What is shown of any trip is a call on the date or on the day before. -/
theorem callOn_of_mem_shown {trip : TripInfo} {d : Departure}
    (h : d ∈ shown store date stop stopId fromSecs windowSecs trip) :
    ∃ st ∈ Board.timesOf store trip, st.stopId = stopId ∧
      CallOn store date stop stopId fromSecs windowSecs trip st d := by
  cases ht : runsToday store date trip with
  | true =>
    rw [shown_today ht, runOf] at h
    obtain ⟨st, hst, rfl⟩ := List.mem_map.mp h
    obtain ⟨hst, hin⟩ := List.mem_filter.mp hst
    rw [Bool.and_eq_true, decide_eq_true_eq] at hin
    refine ⟨st, hst, hin.1, .today ht ?_ rfl⟩
    have hwin := hin.2
    rwa [show ((0 : Int32).toInt) = 0 from rfl, add_zero] at hwin
  | false =>
    cases hy : ranYesterday store date trip with
    | true =>
      rw [shown_yesterday ht hy] at h
      obtain ⟨st, hst, rfl⟩ := List.mem_map.mp h
      obtain ⟨hst, hin⟩ := List.mem_filter.mp hst
      rw [Bool.and_eq_true, Bool.and_eq_true, decide_eq_true_eq] at hin
      exact ⟨st, hst, hin.1.1, .yesterday hy hin.2 rfl⟩
    | false =>
      rw [shown_neither ht hy] at h
      cases h

end

/-- A board shows the service of its date through the whole window, and shows
nothing but that and the day before's. -/
structure ShowsDate (store : GtfsStore) (date : NaiveDate) (stop : StopInfo) (stopId : String)
    (fromSecs windowSecs : Int32) (live : VehicleIndex) (rows : List DepartureJson) : Prop where
  all : ∀ trip ∈ Map.values store.trips, runsToday store date trip = true →
    ∀ st ∈ Board.timesOf store trip, st.stopId = stopId → inWindow fromSecs windowSecs st.departure.toInt = true →
      departureJson live (Board.departureOf store stop trip 0 st) ∈ rows
  only : ∀ row ∈ rows, ∃ trip ∈ Map.values store.trips, ∃ st ∈ Board.timesOf store trip, st.stopId = stopId ∧
    ∃ d, CallOn store date stop stopId fromSecs windowSecs trip st d ∧ row = departureJson live d

theorem clampInt32_toInt (x lo hi : Int32) (h : lo.toInt ≤ hi.toInt) :
    lo.toInt ≤ (clampInt32 x lo hi).toInt ∧ (clampInt32 x lo hi).toInt ≤ hi.toInt := by
  unfold clampInt32
  split_ifs with h1 h2
  · exact ⟨le_rfl, h⟩
  · exact ⟨h, le_rfl⟩
  · rw [Int32.lt_iff_toInt_lt] at h1 h2
    omega

/-- The window starts a minute before now, and is as long after it as the
request asks for: one minute to six hours. -/
theorem departuresWindow_toInt (tz : Tz) (now : Instant) (window : Option Int32) (limit : Option Nat) :
    (departuresWindow tz now window limit).1.toInt = (secsSinceLocalMidnight now tz).toInt - 60 ∧
      (departuresWindow tz now window limit).2.1.toInt =
        (clampInt32 (window.getD DEFAULT_WINDOW_MIN) 1 MAX_WINDOW_MIN).toInt * 60 + 60 ∧
      1 ≤ (clampInt32 (window.getD DEFAULT_WINDOW_MIN) 1 MAX_WINDOW_MIN).toInt ∧
      (clampInt32 (window.getD DEFAULT_WINDOW_MIN) 1 MAX_WINDOW_MIN).toInt ≤ 360 := by
  obtain ⟨-, h0, h1⟩ := secsSinceLocalMidnight_toInt now tz
  obtain ⟨h2, h3⟩ := clampInt32_toInt (window.getD DEFAULT_WINDOW_MIN) 1 MAX_WINDOW_MIN (by decide)
  rw [show MAX_WINDOW_MIN.toInt = 360 from rfl] at h3
  rw [show (1 : Int32).toInt = 1 from rfl] at h2
  have hgrace : DEPARTURE_GRACE_SECS.toInt = 60 := rfl
  have hsixty : (60 : Int32).toInt = 60 := rfl
  unfold secsPerDay at h1
  refine ⟨?_, ?_, h2, h3⟩
  · rw [departuresWindow, ← hgrace, toInt_sub_eq_iff, hgrace, FitsI32]
    omega
  · have hprod : (clampInt32 (window.getD DEFAULT_WINDOW_MIN) 1 MAX_WINDOW_MIN * 60).toInt =
        (clampInt32 (window.getD DEFAULT_WINDOW_MIN) 1 MAX_WINDOW_MIN).toInt * 60 := by
      rw [toInt_mul_eq_iff.mpr (by rw [hsixty, FitsI32]; omega), hsixty]
    rw [departuresWindow, toInt_add_eq_iff.mpr (by rw [hprod, hgrace, FitsI32]; omega), hprod, hgrace]

/-- The rows of `stop_departures`, with a limit that is no less than the calls
indexed in the window, for any window the request may ask for. -/
theorem stopDepartures_window (sort : CallSort) (store : GtfsStore) (hk : store.Keyed) (date : NaiveDate) (tz : Tz)
    (now : Instant) (gtfs : GtfsService) (live : VehicleIndex) (stopId : String) (stop : StopInfo)
    (window : Option Int32) (limit : Option Nat) (board : BoardJson)
    (hidx : gtfs.stops = some (StopIndexes.build sort store date)) (hs : store.stops.lookup stopId = some stop)
    (h : stopDepartures tz now gtfs live stopId window limit = .ok board)
    (hlim : ((indexed store date stop stopId).filter fun d =>
      inWindow (departuresWindow tz now window limit).1 (departuresWindow tz now window limit).2.1
        d.scheduledDeparture.toInt).length ≤ (departuresWindow tz now window limit).2.2) :
    ShowsDate store date stop stopId (departuresWindow tz now window limit).1
      (departuresWindow tz now window limit).2.1 live board.departures := by
  have hstop : (StopIndexes.build sort store date).store.stops.lookup stopId = some stop := hs
  have hrows : board.departures = ((StopIndexes.build sort store date).departures stopId
      (departuresWindow tz now window limit).1 (departuresWindow tz now window limit).2.1
      (departuresWindow tz now window limit).2.2).map (departureJson live) := by
    simp only [stopDepartures, hidx, hstop, Except.ok.injEq] at h
    rw [← h]
  obtain ⟨-, hlen, hmin, -⟩ := departuresWindow_toInt tz now window limit
  have hperm := departures_perm sort date hk hs (by rw [hlen]; omega) hlim
  rw [indexed_inWindow] at hperm
  constructor
  · intro trip ht hruns st hst hid hwin
    rw [hrows]
    exact List.mem_map_of_mem (hperm.mem_iff.mpr
      (List.mem_flatMap.mpr ⟨trip, ht, mem_shown_today hruns hst hid hwin⟩))
  · intro row hrow
    rw [hrows] at hrow
    obtain ⟨d, hd, rfl⟩ := List.mem_map.mp hrow
    obtain ⟨trip, ht, hshown⟩ := List.mem_flatMap.mp (hperm.mem_iff.mp hd)
    obtain ⟨st, hst, hid, hcall⟩ := callOn_of_mem_shown hshown
    exact ⟨trip, ht, st, hst, hid, d, hcall, rfl⟩

/-- At ten to midnight the board of the next two hours has the 25:10 of the date. -/
theorem stopDepartures_window_night :
    let gtfs : GtfsService :=
      { stops := some (StopIndexes.build (SortBy.insertion _) (nightStore [20260727]) july27) }
    let live : VehicleIndex := { vehicles := [], positioned := by simp, distinct := by simp }
    ∃ board, stopDepartures Tz.utc (1785196200 * nanos) gtfs live "R1" (some 120) none = .ok board ∧
      ShowsDate (nightStore [20260727]) july27 nightStop "R1" 85740 7260 live board.departures := by
  intro gtfs live
  have hs : (nightStore [20260727]).stops.lookup "R1" = some nightStop := AList.lookup_insert _
  have hok : (stopDepartures Tz.utc (1785196200 * nanos) gtfs live "R1" (some 120) none).toOption.isSome := by
    decide +kernel
  cases h : stopDepartures Tz.utc (1785196200 * nanos) gtfs live "R1" (some 120) none with
  | error e =>
    rw [h] at hok
    cases hok
  | ok board =>
    exact ⟨board, rfl, stopDepartures_window (SortBy.insertion _) (nightStore [20260727]) (nightStore_keyed _) july27
      Tz.utc (1785196200 * nanos) gtfs live "R1" nightStop (some 120) none board rfl hs h (by decide +kernel)⟩

/-! ## The next day -/

/-- Whether a trip runs on the day after the date. -/
def runsTomorrow (store : GtfsStore) (date : NaiveDate) (trip : TripInfo) : Bool :=
  store.runsOn trip.serviceId (ymdU32 (date.addDays 1))

/-- A store with one trip of 28 July, that calls at ten past midnight. -/
def earlyStore : GtfsStore :=
  { nightStore [20260728] with
    stopTimes := (∅ : Map String (List StopTime)).insert "T1"
      [{ stopId := "R1", stopSequence := 1, arrival := 600, departure := 600 }] }

/-- At ten to midnight of 27 July its call is twenty minutes ahead, and on no
board. -/
theorem next_day_not_shown :
    ¬ ∀ (sort : CallSort) (store : GtfsStore) (date : NaiveDate) (tz : Tz) (now : Instant) (gtfs : GtfsService)
      (live : VehicleIndex) (stopId : String) (window : Option Int32) (limit : Option Nat) (board : BoardJson),
      store.Keyed → serviceDate now tz = date → gtfs.stops = some (StopIndexes.build sort store date) →
      stopDepartures tz now gtfs live stopId window limit = .ok board →
      ((Map.values store.trips).flatMap (Board.timesOf store)).length ≤ (departuresWindow tz now window limit).2.2 →
      ∀ trip ∈ Map.values store.trips, runsTomorrow store date trip = true →
        ∀ st ∈ Board.timesOf store trip, st.stopId = stopId →
          inWindow (departuresWindow tz now window limit).1 (departuresWindow tz now window limit).2.1
            (st.departure.toInt + 86400) = true →
          ∃ row ∈ board.departures, row.tripId = trip.tripId ∧
            row.scheduledDeparture.toInt = st.departure.toInt + 86400 := by
  intro h
  let now : Instant := 1785196200 * nanos
  let gtfs : GtfsService :=
    { store := some earlyStore, stops := some (StopIndexes.build (SortBy.insertion _) earlyStore july27) }
  let live : VehicleIndex := { vehicles := [], positioned := by simp, distinct := by simp }
  have hrows : (stopDepartures Tz.utc now gtfs live "R1" none none).toOption.map (fun b => b.departures.length) =
      some 0 := by decide +kernel
  have htrip : (Map.values earlyStore.trips).any fun trip => runsTomorrow earlyStore july27 trip &&
      (Board.timesOf earlyStore trip).any fun st => st.stopId = "R1" &&
        inWindow (departuresWindow Tz.utc now none none).1 (departuresWindow Tz.utc now none none).2.1
          (st.departure.toInt + 86400) := by decide +kernel
  simp only [List.any_eq_true, Bool.and_eq_true, decide_eq_true_eq] at htrip
  obtain ⟨trip, ht, hruns, st, hst, hid, hwin⟩ := htrip
  cases hboard : stopDepartures Tz.utc now gtfs live "R1" none none with
  | error e =>
    rw [hboard] at hrows
    cases hrows
  | ok board =>
    obtain ⟨row, hrow, -⟩ := h (SortBy.insertion _) earlyStore july27 Tz.utc now gtfs live "R1" none none board
      (nightStore_keyed [20260728]) (by decide +kernel) rfl hboard (by decide +kernel) trip ht hruns st hst hid hwin
    rw [hboard] at hrows
    rw [List.length_eq_zero_iff.mp (Option.some.inj hrows)] at hrow
    cases hrow

end OV.Impl
