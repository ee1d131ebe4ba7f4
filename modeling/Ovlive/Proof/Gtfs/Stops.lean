import Ovlive.Framework.Lists
import Ovlive.Impl.Gtfs.Stops

/-!
# What a departure board lists

`Indexed` says what `build_board` has indexed after each trip, and
`Indexed.addTrip` is its step lemma. `departures_eq` reads a board back: the
departures of the indexed calls in the window. `scheduled` is what a board
should list, both days' service on one axis, and `departures_complete_iff`
says when it does: the index puts a trip on one day only, so a trip that runs
on both must have nothing of yesterday's run left in the window.
-/

namespace OV.Impl

namespace Board

variable (store : GtfsStore) (stop : StopInfo) (stopId : String)

/-- The calls of a trip, in its order. -/
def timesOf (trip : TripInfo) : List StopTime := (store.stopTimes.lookup trip.tripId).getD []

/-- A call of a trip as a departure, on an axis shifted by `shift`. -/
def departureOf (trip : TripInfo) (shift : Int32) (st : StopTime) : Departure where
  stop := stop
  trip := trip
  route := store.routes.lookup trip.routeId
  realtimeTripId := trip.realtimeTripId
  scheduledArrival := st.arrival + shift
  scheduledDeparture := st.departure + shift
  stopSequence := st.stopSequence

/-- What the index keeps of a trip at a stop. -/
def kept (today : UInt32) (yesterday : Option UInt32) (trip : TripInfo) : List Departure :=
  match shiftOf store today yesterday trip with
  | none => []
  | some shift =>
    ((timesOf store trip).filter fun st => st.stopId = stopId && !past shift st).map (departureOf store stop trip shift)

/-- The board after the trips `ts`: its calls at a stop are what is kept of them. -/
structure Indexed (today : UInt32) (yesterday : Option UInt32) (ts : List TripInfo)
    (b : List DayTrip × Map String (List Call)) : Prop where
  inRange : ∀ c ∈ Map.valuesAt b.2 stopId, c.trip < b.1.length
  resolved : (Map.valuesAt b.2 stopId).map (resolve store stop b.1) =
    (ts.flatMap (kept store stop stopId today yesterday)).map some

variable {store stop stopId} {today : UInt32} {yesterday : Option UInt32} {ts : List TripInfo} {trip : TripInfo}
  {b : List DayTrip × Map String (List Call)}

/-- The call that the index makes of a stop time. -/
def callOf (shift : Int32) (slot : Nat) (st : StopTime) : Call where
  trip := slot
  arrival := st.arrival + shift
  departure := st.departure + shift
  stopSequence := st.stopSequence
  today := shift = 0

theorem valuesAt_addCalls (shift : Int32) (slot : Nat) (times : List StopTime) (m : Map String (List Call)) :
    Map.valuesAt (times.foldl (addCall shift slot) m) stopId =
      Map.valuesAt m stopId ++
        (times.filter fun st => st.stopId = stopId && !past shift st).map (callOf shift slot) := by
  rw [← flatMap_ite]
  apply Map.valuesAt_foldl
  intro m st
  unfold addCall
  cases hp : past shift st
  · rw [if_neg (by simp), Map.valuesAt_push]
    by_cases hs : stopId = st.stopId
    · simp [hs, callOf]
    · simp [hs, Ne.symm hs]
  · simp

/-- Slots already taken keep their trips. -/
theorem resolve_append {ds ds' : List DayTrip} {c : Call} (h : c.trip < ds.length) :
    resolve store stop (ds ++ ds') c = resolve store stop ds c := by
  simp only [resolve, List.getElem?_append_left h]

/-- The calls of the trip in the next slot are its own. -/
theorem resolve_callOf (ht : store.trips.lookup trip.tripId = some trip) (ds : List DayTrip) (shift : Int32)
    (st : StopTime) :
    resolve store stop (ds ++ [{ tripId := trip.tripId, rtId := trip.realtimeTripId }]) (callOf shift ds.length st) =
      some (departureOf store stop trip shift st) := by
  simp [resolve, callOf, departureOf, ht]

theorem Indexed.addTrip (H : Indexed store stop stopId today yesterday ts b)
    (ht : store.trips.lookup trip.tripId = some trip) :
    Indexed store stop stopId today yesterday (ts ++ [trip]) (addTrip store today yesterday b trip) := by
  have hkept : (ts ++ [trip]).flatMap (kept store stop stopId today yesterday) =
      ts.flatMap (kept store stop stopId today yesterday) ++ kept store stop stopId today yesterday trip := by
    rw [List.flatMap_append, List.flatMap_singleton]
  unfold Board.addTrip
  cases hs : shiftOf store today yesterday trip with
  | none =>
    refine ⟨H.inRange, ?_⟩
    rw [hkept, H.resolved]
    simp [kept, hs]
  | some shift =>
    cases htimes : store.stopTimes.lookup trip.tripId with
    | none =>
      refine ⟨H.inRange, ?_⟩
      rw [hkept, H.resolved]
      simp [kept, hs, timesOf, htimes]
    | some times =>
      constructor
      · intro c hc
        rw [valuesAt_addCalls, List.mem_append] at hc
        rw [List.length_append, List.length_singleton]
        rcases hc with hc | hc
        · exact Nat.lt_succ_of_lt (H.inRange c hc)
        · obtain ⟨st, -, rfl⟩ := List.mem_map.mp hc
          exact Nat.lt_succ_self _
      · have hold : ∀ c ∈ Map.valuesAt b.2 stopId,
            resolve store stop (b.1 ++ [{ tripId := trip.tripId, rtId := trip.realtimeTripId }]) c =
              resolve store stop b.1 c := fun c hc => resolve_append (H.inRange c hc)
        have hk : kept store stop stopId today yesterday trip =
            (times.filter fun st => st.stopId = stopId && !past shift st).map (departureOf store stop trip shift) := by
          simp only [kept, hs, timesOf, htimes, Option.getD_some]
        rw [valuesAt_addCalls, List.map_append, List.map_congr_left hold, H.resolved, hkept, List.map_append, hk,
          List.map_map, List.map_map]
        congr 1
        exact List.map_congr_left fun st _ => resolve_callOf ht b.1 shift st

/-- The whole board, before its calls are sorted. -/
theorem indexed_foldl (store : GtfsStore) (stop : StopInfo) (stopId : String) (today : UInt32)
    (yesterday : Option UInt32) {ts : List TripInfo} (hts : ∀ t ∈ ts, store.trips.lookup t.tripId = some t) :
    Indexed store stop stopId today yesterday ts (ts.foldl (Board.addTrip store today yesterday) ([], ∅)) := by
  induction ts using List.reverseRecOn with
  | nil =>
    have h : Map.valuesAt (∅ : Map String (List Call)) stopId = [] := by simp [Map.valuesAt]
    constructor
    · intro c hc
      rw [List.foldl_nil, h] at hc
      cases hc
    · rw [List.foldl_nil, h]
      rfl
  | append_singleton ts t ih =>
    rw [List.foldl_append, List.foldl_cons, List.foldl_nil]
    exact (ih fun u hu => hts u (by simp [hu])).addTrip (hts t (by simp))

end Board

/-! ## Reading a board -/

/-- Whether a time, in seconds from today's midnight, is in a window. -/
def inWindow (fromSecs windowSecs : Int32) (x : Int) : Bool :=
  fromSecs.toInt ≤ x && x ≤ fromSecs.toInt + windowSecs.toInt

section

variable {store : GtfsStore} {stop : StopInfo} {stopId : String} {date : NaiveDate} {sort : CallSort}
  {fromSecs windowSecs : Int32} {limit : Nat} {idx : StopIndexes}

/-- Saturation cuts off no `i32`. -/
theorem le_saturatingAdd_iff (x : Int32) (hw : 0 ≤ windowSecs.toInt) :
    x.toInt ≤ StopIndexes.saturatingAdd fromSecs windowSecs ↔ x.toInt ≤ fromSecs.toInt + windowSecs.toInt := by
  have h1 := Int32.toInt_le x
  have h2 := Int32.le_toInt fromSecs
  have h3 : Int32.maxValue.toInt = 2 ^ 31 - 1 := by decide
  have h4 : Int32.minValue.toInt = -2 ^ 31 := by decide
  simp only [StopIndexes.saturatingAdd, h3, h4]
  omega

theorem departures_eq (hs : idx.store.stops.lookup stopId = some stop) (hw : 0 ≤ windowSecs.toInt) :
    idx.departures stopId fromSecs windowSecs limit =
      (((Map.valuesAt idx.calls stopId).filter fun c => inWindow fromSecs windowSecs c.departure.toInt).take
        limit).filterMap fun c => idx.departure c stop := by
  have h := takeWhile_drop_partitionPoint (idx.ascending stopId) fromSecs.toInt
    (StopIndexes.saturatingAdd fromSecs windowSecs)
  simp only [le_saturatingAdd_iff _ hw] at h
  simp only [StopIndexes.departures, hs]
  unfold Map.valuesAt at h ⊢
  cases hc : idx.calls.lookup stopId with
  | none => simp
  | some calls =>
    rw [hc, Option.getD_some] at h
    simp only [le_saturatingAdd_iff _ hw, h, Option.getD_some]
    rfl

/-- A call and its departure are at one time. -/
theorem departure_time {c : Call} {d : Departure} (h : idx.departure c stop = some d) :
    d.scheduledDeparture = c.departure := by
  simp only [StopIndexes.departure, Board.resolve, Option.bind_eq_bind, Option.bind_eq_some_iff, Option.some.injEq] at h
  obtain ⟨day, -, trip, -, rfl⟩ := h
  rfl

/-- The board is in order. -/
theorem departures_ascending (hs : idx.store.stops.lookup stopId = some stop) (hw : 0 ≤ windowSecs.toInt) :
    (idx.departures stopId fromSecs windowSecs limit).Pairwise fun a b =>
      a.scheduledDeparture.toInt ≤ b.scheduledDeparture.toInt := by
  rw [departures_eq hs hw, List.pairwise_filterMap]
  refine ((idx.ascending stopId).sublist ((List.take_sublist _ _).trans List.filter_sublist)).imp ?_
  intro c c' h d hd d' hd'
  rw [departure_time hd, departure_time hd']
  exact h

/-- The trips of a store are under their own ids, as `parse_reader` puts them. -/
def GtfsStore.Keyed (store : GtfsStore) : Prop :=
  ∀ id t, store.trips.lookup id = some t → t.tripId = id

theorem lookup_of_mem_values (hk : store.Keyed) {t : TripInfo} (ht : t ∈ Map.values store.trips) :
    store.trips.lookup t.tripId = some t := by
  obtain ⟨id, h⟩ := Map.mem_values.mp ht
  rwa [hk id t h]

/-- What the index of a date keeps at a stop. -/
def indexed (store : GtfsStore) (date : NaiveDate) (stop : StopInfo) (stopId : String) : List Departure :=
  (Map.values store.trips).flatMap (Board.kept store stop stopId (ymdU32 date) (date.predOpt.map ymdU32))

/-- What is indexed at a stop: the calls there of the trips that run, which are not past. -/
theorem mem_indexed_iff {d : Departure} :
    d ∈ indexed store date stop stopId ↔
      ∃ trip ∈ Map.values store.trips, ∃ shift,
        Board.shiftOf store (ymdU32 date) (date.predOpt.map ymdU32) trip = some shift ∧
          ∃ st ∈ Board.timesOf store trip, st.stopId = stopId ∧ Board.past shift st = false ∧
            d = Board.departureOf store stop trip shift st := by
  rw [indexed, List.mem_flatMap]
  refine exists_congr fun trip => and_congr_right fun _ => ?_
  unfold Board.kept
  cases Board.shiftOf store (ymdU32 date) (date.predOpt.map ymdU32) trip with
  | none => simp
  | some shift =>
    simp only [List.mem_map, List.mem_filter, Bool.and_eq_true, decide_eq_true_eq, Bool.not_eq_true', Option.some.injEq,
      exists_eq_left', and_assoc]
    exact exists_congr fun st => by rw [eq_comm (b := d)]

/-- Sorting the calls of each stop loses none. -/
theorem perm_valuesAt_sort (sort : CallSort) (calls : Map String (List Call)) (stopId : String) :
    (Map.valuesAt (Map.mapValues sort.sort calls) stopId).Perm (Map.valuesAt calls stopId) := by
  simp only [Map.valuesAt, Map.lookup_mapValues]
  cases calls.lookup stopId with
  | none => exact .nil
  | some l => exact sort.perm l

/-- The calls of a built index, in whatever order the sort left equal ones, are
those kept. -/
theorem departure_build (sort : CallSort) (date : NaiveDate) (stop : StopInfo) (stopId : String) (hk : store.Keyed) :
    (∀ c ∈ Map.valuesAt (StopIndexes.build sort store date).calls stopId,
        ((StopIndexes.build sort store date).departure c stop).isSome) ∧
      ((Map.valuesAt (StopIndexes.build sort store date).calls stopId).filterMap fun c =>
        (StopIndexes.build sort store date).departure c stop).Perm (indexed store date stop stopId) := by
  have H := Board.indexed_foldl store stop stopId (ymdU32 date) (date.predOpt.map ymdU32) fun t ht =>
    lookup_of_mem_values hk ht
  set b := (Map.values store.trips).foldl (Board.addTrip store (ymdU32 date) (date.predOpt.map ymdU32)) ([], ∅)
  have hperm : (Map.valuesAt (StopIndexes.build sort store date).calls stopId).Perm (Map.valuesAt b.2 stopId) :=
    perm_valuesAt_sort sort b.2 stopId
  have hdep : (fun c => (StopIndexes.build sort store date).departure c stop) = Board.resolve store stop b.1 := rfl
  constructor
  · intro c hc
    have hm := List.mem_map_of_mem (f := Board.resolve store stop b.1) (hperm.mem_iff.mp hc)
    rw [H.resolved] at hm
    obtain ⟨d, -, hd⟩ := List.mem_map.mp hm
    exact Option.isSome_iff_exists.mpr ⟨d, hd.symm⟩
  · have hlist : (Map.valuesAt b.2 stopId).filterMap (Board.resolve store stop b.1) =
        indexed store date stop stopId := by
      have h := congrArg (List.filterMap id) H.resolved
      rw [List.filterMap_map, List.filterMap_map] at h
      simpa [Function.comp_def, indexed] using h
    rw [hdep, ← hlist]
    exact hperm.filterMap _

/-- So are those of the calls whose time is of some kind, and there are as many. -/
theorem departure_build_filter (sort : CallSort) (date : NaiveDate) (stop : StopInfo) (stopId : String) (hk : store.Keyed)
    (p : Int → Bool) :
    (((Map.valuesAt (StopIndexes.build sort store date).calls stopId).filter fun c => p c.departure.toInt).filterMap
        fun c => (StopIndexes.build sort store date).departure c stop).Perm
      ((indexed store date stop stopId).filter fun d => p d.scheduledDeparture.toInt) ∧
    ((Map.valuesAt (StopIndexes.build sort store date).calls stopId).filter fun c => p c.departure.toInt).length =
      ((indexed store date stop stopId).filter fun d => p d.scheduledDeparture.toInt).length := by
  obtain ⟨hsome, hperm⟩ := departure_build sort date stop stopId hk
  set idx := StopIndexes.build sort store date
  set cs := Map.valuesAt idx.calls stopId
  have hwin : (cs.filter fun c => p c.departure.toInt).filterMap (fun c => idx.departure c stop) =
      (cs.filterMap fun c => idx.departure c stop).filter fun d => p d.scheduledDeparture.toInt := by
    rw [List.filterMap_filter, List.filter_filterMap]
    apply List.filterMap_congr
    intro c _
    cases hd : idx.departure c stop with
    | none => simp
    | some d => simp [Option.filter_some, departure_time hd]
  have hlen : ((cs.filter fun c => p c.departure.toInt).filterMap fun c => idx.departure c stop).length =
      (cs.filter fun c => p c.departure.toInt).length := by
    rw [List.length_filterMap_eq_countP, List.countP_eq_length]
    exact fun c hc => hsome c (List.mem_of_mem_filter hc)
  refine ⟨hwin ▸ hperm.filter _, ?_⟩
  rw [← hlen, hwin]
  exact (hperm.filter _).length_eq

/-- With a limit that cuts off nothing, a board lists what is kept at the stop
and in the window. -/
theorem departures_perm (sort : CallSort) (date : NaiveDate) (hk : store.Keyed)
    (hs : store.stops.lookup stopId = some stop) (hw : 0 ≤ windowSecs.toInt)
    (hlim : ((indexed store date stop stopId).filter fun d =>
      inWindow fromSecs windowSecs d.scheduledDeparture.toInt).length ≤ limit) :
    ((StopIndexes.build sort store date).departures stopId fromSecs windowSecs limit).Perm
      ((indexed store date stop stopId).filter fun d => inWindow fromSecs windowSecs d.scheduledDeparture.toInt) := by
  obtain ⟨hperm, hlen⟩ := departure_build_filter sort date stop stopId hk (inWindow fromSecs windowSecs)
  rw [departures_eq hs hw, List.take_of_length_le (hlen ▸ hlim)]
  exact hperm

end

/-! ## What a board should list -/

section

variable (store : GtfsStore) (date : NaiveDate) (stop : StopInfo) (stopId : String) (fromSecs windowSecs : Int32)

/-- Whether a trip runs on the date, or on the day before. -/
def runsToday (trip : TripInfo) : Bool := store.runsOn trip.serviceId (ymdU32 date)

def ranYesterday (trip : TripInfo) : Bool :=
  (date.predOpt.map ymdU32).any fun y => store.runsOn trip.serviceId y

/-- The calls of one run of a trip at a stop, on an axis shifted by `shift`, that
fall in the window. -/
def runOf (trip : TripInfo) (shift : Int32) : List Departure :=
  ((Board.timesOf store trip).filter fun st =>
    st.stopId = stopId && inWindow fromSecs windowSecs (st.departure.toInt + shift.toInt)).map
      (Board.departureOf store stop trip shift)

/-- Both runs of a trip that a board of the date may show. -/
def runsOf (trip : TripInfo) : List Departure :=
  (if runsToday store date trip then runOf store stop stopId fromSecs windowSecs trip 0 else []) ++
    if ranYesterday store date trip then runOf store stop stopId fromSecs windowSecs trip (-DAY_SECS) else []

/-- What a board of the date should list. -/
def scheduled : List Departure :=
  (Map.values store.trips).flatMap (runsOf store date stop stopId fromSecs windowSecs)

/-- A trip whose run of the day before the index shows as it should: it does not
also run today, or has no call of that run in the window, and no departure so
early that the shift wraps it into the window. -/
structure ShownOnce (trip : TripInfo) : Prop where
  once : runsToday store date trip → ranYesterday store date trip →
    ∀ st ∈ Board.timesOf store trip, st.stopId = stopId → ¬ inWindow fromSecs windowSecs (st.departure.toInt - 86400)
  fits : ¬ runsToday store date trip → ranYesterday store date trip →
    ∀ st ∈ Board.timesOf store trip, st.stopId = stopId → st.departure.toInt < -2 ^ 31 + 86400 →
      ¬ inWindow fromSecs windowSecs (st.departure.toInt - 86400 + 2 ^ 32)

variable {store date stop stopId fromSecs windowSecs} {trip : TripInfo}

theorem toInt_neg_DAY_SECS : (-DAY_SECS : Int32).toInt = -86400 := by decide

/-- A time of the day before, on today's axis. -/
theorem toInt_add_neg_DAY_SECS (x : Int32) :
    (x + -DAY_SECS).toInt = if x.toInt < -2 ^ 31 + 86400 then x.toInt - 86400 + 2 ^ 32 else x.toInt - 86400 := by
  have h1 := Int32.le_toInt x
  have h2 := Int32.toInt_lt x
  rw [Int32.toInt_add, toInt_neg_DAY_SECS, Int.bmod_def]
  split_ifs <;> omega

theorem past_iff (st : StopTime) :
    Board.past (-DAY_SECS) st = true ↔ (st.departure + -DAY_SECS).toInt < -21600 := by
  have h : (-DAY_SECS : Int32) ≠ 0 := by decide
  have h' : (-DAY_SECS / 4 : Int32).toInt = -21600 := by decide
  simp only [Board.past, h, ne_eq, not_false_eq_true, decide_true, Bool.true_and, decide_eq_true_eq,
    Int32.lt_iff_toInt_lt, h']

/-- A departure that the shift wraps is far from past. -/
theorem not_past_of_wraps {st : StopTime} (h : st.departure.toInt < -2 ^ 31 + 86400) :
    Board.past (-DAY_SECS) st = false := by
  have hmin := st.departure.le_toInt
  rw [← Bool.not_eq_true, past_iff, toInt_add_neg_DAY_SECS, if_pos h]
  omega

/-- What the index keeps, in the window, of a trip on a shifted axis. -/
theorem kept_inWindow {today : UInt32} {yesterday : Option UInt32} {shift : Int32}
    (hs : Board.shiftOf store today yesterday trip = some shift) :
    (Board.kept store stop stopId today yesterday trip).filter
      (fun d => inWindow fromSecs windowSecs d.scheduledDeparture.toInt) =
      ((Board.timesOf store trip).filter fun st =>
        st.stopId = stopId && !Board.past shift st && inWindow fromSecs windowSecs (st.departure + shift).toInt).map
        (Board.departureOf store stop trip shift) := by
  simp only [Board.kept, hs, List.filter_map, List.filter_filter]
  congr 1
  apply List.filter_congr
  intro st _
  simp [Board.departureOf, Bool.and_comm]

end

/-! ## Trip by trip -/

section

variable (store : GtfsStore) (date : NaiveDate) (stop : StopInfo) (stopId : String) (fromSecs windowSecs : Int32)

/-- What the index keeps of a trip in the window. -/
def shown (trip : TripInfo) : List Departure :=
  (Board.kept store stop stopId (ymdU32 date) (date.predOpt.map ymdU32) trip).filter fun d =>
    inWindow fromSecs windowSecs d.scheduledDeparture.toInt

variable {store date stop stopId fromSecs windowSecs} {trip : TripInfo}

theorem shiftOf_today (h : runsToday store date trip = true) :
    Board.shiftOf store (ymdU32 date) (date.predOpt.map ymdU32) trip = some 0 := by
  rw [runsToday] at h
  rw [Board.shiftOf, if_pos h]

theorem shiftOf_yesterday (h : runsToday store date trip = false) (h' : ranYesterday store date trip = true) :
    Board.shiftOf store (ymdU32 date) (date.predOpt.map ymdU32) trip = some (-DAY_SECS) := by
  rw [runsToday] at h
  rw [ranYesterday] at h'
  rw [Board.shiftOf, if_neg (by simp [h]), if_pos h']

theorem shiftOf_neither (h : runsToday store date trip = false) (h' : ranYesterday store date trip = false) :
    Board.shiftOf store (ymdU32 date) (date.predOpt.map ymdU32) trip = none := by
  rw [runsToday] at h
  rw [ranYesterday] at h'
  rw [Board.shiftOf, if_neg (by simp [h]), if_neg (by simp [h'])]

/-- The axis that a trip is put on says which day it is shown for. -/
theorem day_of_shiftOf {shift : Int32}
    (h : Board.shiftOf store (ymdU32 date) (date.predOpt.map ymdU32) trip = some shift) :
    runsToday store date trip = true ∧ shift = 0 ∨
      runsToday store date trip = false ∧ ranYesterday store date trip = true ∧ shift = -DAY_SECS := by
  cases ht : runsToday store date trip with
  | true =>
    rw [shiftOf_today ht] at h
    exact .inl ⟨rfl, (Option.some.inj h).symm⟩
  | false =>
    cases hy : ranYesterday store date trip with
    | true =>
      rw [shiftOf_yesterday ht hy] at h
      exact .inr ⟨rfl, rfl, (Option.some.inj h).symm⟩
    | false =>
      rw [shiftOf_neither ht hy] at h
      cases h

/-- A trip that runs today is shown for today only. -/
theorem shown_today (h : runsToday store date trip = true) :
    shown store date stop stopId fromSecs windowSecs trip = runOf store stop stopId fromSecs windowSecs trip 0 := by
  rw [shown, kept_inWindow (shiftOf_today h), runOf]
  congr 1
  apply List.filter_congr
  intro st _
  simp [Board.past]

/-- A trip that only ran the day before is shown by its wrapped times. -/
theorem shown_yesterday (h : runsToday store date trip = false) (h' : ranYesterday store date trip = true) :
    shown store date stop stopId fromSecs windowSecs trip =
      ((Board.timesOf store trip).filter fun st =>
        st.stopId = stopId && !Board.past (-DAY_SECS) st &&
          inWindow fromSecs windowSecs (st.departure + -DAY_SECS).toInt).map
        (Board.departureOf store stop trip (-DAY_SECS)) := by
  rw [shown, kept_inWindow (shiftOf_yesterday h h')]

theorem shown_neither (h : runsToday store date trip = false) (h' : ranYesterday store date trip = false) :
    shown store date stop stopId fromSecs windowSecs trip = [] := by
  simp only [shown, Board.kept, shiftOf_neither h h', List.filter_nil]

/-- The run of the day before has a call in the window exactly where the index
has one that its shift did not wrap. -/
theorem inWindow_shift_iff (hfrom : -21600 ≤ fromSecs.toInt) (st : StopTime) :
    inWindow fromSecs windowSecs (st.departure.toInt + (-DAY_SECS : Int32).toInt) = true ↔
      (Board.past (-DAY_SECS) st = false ∧
        inWindow fromSecs windowSecs (st.departure + -DAY_SECS).toInt = true) ∧
        -2 ^ 31 + 86400 ≤ st.departure.toInt := by
  have h1 := Int32.le_toInt fromSecs
  rw [← Bool.not_eq_true, past_iff, toInt_add_neg_DAY_SECS, toInt_neg_DAY_SECS]
  simp only [inWindow, Bool.and_eq_true, decide_eq_true_eq]
  split_ifs <;> omega

/-- A trip shown once is shown as it runs. -/
theorem ShownOnce.shown_eq (H : ShownOnce store date stopId fromSecs windowSecs trip)
    (hfrom : -21600 ≤ fromSecs.toInt) :
    shown store date stop stopId fromSecs windowSecs trip = runsOf store date stop stopId fromSecs windowSecs trip := by
  cases h : runsToday store date trip <;> cases h' : ranYesterday store date trip
  · rw [shown_neither h h', runsOf, h, h']
    rfl
  · simp only [runsOf, h, h', if_true, Bool.false_eq_true, if_false, List.nil_append]
    rw [shown_yesterday h h', runOf]
    congr 1
    apply List.filter_congr
    intro st hst
    rw [Bool.eq_iff_iff, Bool.and_assoc, Bool.and_eq_true, Bool.and_eq_true (decide _), inWindow_shift_iff hfrom]
    have hfits : st.stopId = stopId → st.departure.toInt < -2 ^ 31 + 86400 →
        ¬ inWindow fromSecs windowSecs (st.departure + -DAY_SECS).toInt = true := by
      intro hs hlt
      rw [toInt_add_neg_DAY_SECS, if_pos hlt]
      exact H.fits (by simp [h]) h' st hst hs hlt
    simp only [Bool.and_eq_true, Bool.not_eq_true', decide_eq_true_eq]
    constructor
    · rintro ⟨hs, hp, hwin⟩
      exact ⟨hs, ⟨hp, hwin⟩, not_lt.mp fun hlt => hfits hs hlt hwin⟩
    · rintro ⟨hs, hp, -⟩
      exact ⟨hs, hp⟩
  · simp only [runsOf, h, h', if_true, Bool.false_eq_true, if_false, List.append_nil]
    exact shown_today h
  · have hnone : runOf store stop stopId fromSecs windowSecs trip (-DAY_SECS) = [] := by
      rw [runOf, List.map_eq_nil_iff, List.filter_eq_nil_iff]
      intro st hst hwin
      rw [Bool.and_eq_true, decide_eq_true_eq, toInt_neg_DAY_SECS] at hwin
      exact H.once h h' st hst hwin.1 hwin.2
    simp only [runsOf, h, h', if_true, hnone, List.append_nil]
    exact shown_today h

/-- A trip of which as many calls are shown as there should be is shown once. -/
theorem ShownOnce.of_length (hfrom : -21600 ≤ fromSecs.toInt)
    (hlen : (shown store date stop stopId fromSecs windowSecs trip).length =
      (runsOf store date stop stopId fromSecs windowSecs trip).length) :
    ShownOnce store date stopId fromSecs windowSecs trip := by
  constructor
  · intro h h' st hst hs hwin
    simp only [shown_today h, runsOf, h, h', if_true, List.length_append] at hlen
    have hnone : runOf store stop stopId fromSecs windowSecs trip (-DAY_SECS) = [] :=
      List.length_eq_zero_iff.mp (by omega)
    rw [runOf, List.map_eq_nil_iff, List.filter_eq_nil_iff] at hnone
    refine hnone st hst ?_
    rw [Bool.and_eq_true, decide_eq_true_eq, toInt_neg_DAY_SECS]
    exact ⟨hs, hwin⟩
  · intro h h' st hst hs hlt hwin
    rw [Bool.not_eq_true] at h
    simp only [shown_yesterday h h', runsOf, runOf, h, h', if_true, Bool.false_eq_true, if_false, List.nil_append,
      List.length_map] at hlen
    -- the wrapped call is one too many
    have hall := of_length_filter_eq (fun a _ ha => by
      rw [Bool.and_eq_true, inWindow_shift_iff hfrom] at ha
      rw [ha.1, ha.2.1.1, ha.2.1.2]
      rfl) hlen st hst
    have hwrap : (st.departure + -DAY_SECS).toInt = st.departure.toInt - 86400 + 2 ^ 32 := by
      rw [toInt_add_neg_DAY_SECS, if_pos hlt]
    have hst' := hall (by rw [hs, not_past_of_wraps hlt, hwrap, hwin]; simp)
    rw [Bool.and_eq_true, inWindow_shift_iff hfrom] at hst'
    obtain ⟨-, -, hge⟩ := hst'
    omega

theorem shown_trip (t : TripInfo) :
    ∀ d ∈ shown store date stop stopId fromSecs windowSecs t, d.trip.tripId = t.tripId := by
  intro d hd
  have hk := List.mem_of_mem_filter hd
  unfold Board.kept at hk
  split at hk
  · cases hk
  · obtain ⟨st, -, rfl⟩ := List.mem_map.mp hk
    rfl

theorem runsOf_trip (t : TripInfo) :
    ∀ d ∈ runsOf store date stop stopId fromSecs windowSecs t, d.trip.tripId = t.tripId := by
  intro d hd
  have hrun : ∀ shift, d ∈ runOf store stop stopId fromSecs windowSecs t shift → d.trip.tripId = t.tripId := by
    intro shift h
    obtain ⟨st, -, rfl⟩ := List.mem_map.mp h
    rfl
  rcases List.mem_append.mp hd with h | h <;> split at h
  · exact hrun _ h
  · cases h
  · exact hrun _ h
  · cases h

theorem indexed_inWindow (store : GtfsStore) (date : NaiveDate) (stop : StopInfo) (stopId : String)
    (fromSecs windowSecs : Int32) :
    (indexed store date stop stopId).filter (fun d => inWindow fromSecs windowSecs d.scheduledDeparture.toInt) =
      (Map.values store.trips).flatMap (shown store date stop stopId fromSecs windowSecs) := by
  rw [indexed, List.filter_flatMap]
  rfl

/-! ## The board -/

/-- A board lists what is expected: the same calls, ascending by departure. -/
structure Lists (board expected : List Departure) : Prop where
  same : board.Perm expected
  ascending : board.Pairwise fun a b => a.scheduledDeparture.toInt ≤ b.scheduledDeparture.toInt

/-- A board of a stop, with any limit that is no less than the calls there are,
lists both days' service exactly when each trip is shown once. -/
theorem StopIndexes.departures_complete_iff (sort : CallSort) (store : GtfsStore) (hk : store.Keyed) (date : NaiveDate)
    (stopId : String) (stop : StopInfo) (hs : store.stops.lookup stopId = some stop) (fromSecs windowSecs : Int32)
    (hfrom : -21600 ≤ fromSecs.toInt) (hw : 0 ≤ windowSecs.toInt) :
    (∀ limit, (scheduled store date stop stopId fromSecs windowSecs).length ≤ limit →
        Lists ((StopIndexes.build sort store date).departures stopId fromSecs windowSecs limit)
          (scheduled store date stop stopId fromSecs windowSecs)) ↔
      ∀ trip ∈ Map.values store.trips, ShownOnce store date stopId fromSecs windowSecs trip := by
  have hshown := indexed_inWindow store date stop stopId fromSecs windowSecs
  constructor
  · intro h trip ht
    have hnodup := Map.nodup_map_values hk
    obtain ⟨limit, hl1, hl2⟩ : ∃ limit, (scheduled store date stop stopId fromSecs windowSecs).length ≤ limit ∧
        ((Map.values store.trips).flatMap (shown store date stop stopId fromSecs windowSecs)).length ≤ limit :=
      ⟨_, le_max_left _ _, le_max_right _ _⟩
    have hperm := departures_perm sort date hk hs hw (hshown ▸ hl2)
    rw [hshown] at hperm
    -- what both lists have of this trip
    have htrip := ((hperm.symm.trans (h limit hl1).same).filter fun d => d.trip.tripId = trip.tripId).length_eq
    rw [scheduled, filter_flatMap_of_key shown_trip hnodup ht, filter_flatMap_of_key runsOf_trip hnodup ht] at htrip
    exact .of_length hfrom htrip
  · intro h limit hl
    have heq : (Map.values store.trips).flatMap (shown store date stop stopId fromSecs windowSecs) =
        scheduled store date stop stopId fromSecs windowSecs :=
      List.flatMap_congr fun trip ht => (h trip ht).shown_eq hfrom
    rw [← heq] at hl
    refine ⟨?_, departures_ascending hs hw⟩
    rw [← heq, ← hshown]
    exact departures_perm sort date hk hs hw (hshown ▸ hl)

def nightStop : StopInfo where
  stopId := "R1"
  name := "Rotterdam Centraal"
  lat := .nan
  lon := .nan
  code := none
  platformCode := none
  parentStation := none
  locationType := 0

/-- A store with one trip, that calls at one stop at 25:10. -/
def nightStore (dates : List UInt32) : GtfsStore where
  stops := (∅ : Map String StopInfo).insert "R1" nightStop
  trips := (∅ : Map String TripInfo).insert "T1"
    { tripId := "T1", routeId := "RT1", headsign := "Blaak", blockId := none, shapeId := none, serviceId := "S1",
      longName := "", realtimeTripId := none }
  stopTimes := (∅ : Map String (List StopTime)).insert "T1"
    [{ stopId := "R1", stopSequence := 1, arrival := 90600, departure := 90600 }]
  serviceDates := (∅ : Map String (List UInt32)).insert "S1" dates

theorem nightStore_trip {dates : List UInt32} {id : String} {t : TripInfo}
    (h : (nightStore dates).trips.lookup id = some t) : id = "T1" ∧ t.tripId = "T1" ∧ t.serviceId = "S1" := by
  exact Map.forall_insert (P := fun id t => id = "T1" ∧ t.tripId = "T1" ∧ t.serviceId = "S1") ⟨rfl, rfl, rfl⟩ nofun id t h

theorem nightStore_keyed (dates : List UInt32) : (nightStore dates).Keyed := by
  intro id t h
  obtain ⟨rfl, ht, -⟩ := nightStore_trip h
  exact ht

/-- The night of 26 July, on the board of 27 July. -/
def july27 : NaiveDate := ⟨20661⟩

/-- With a service of 26 July alone, the 01:10 of the night is on the board. -/
theorem StopIndexes.departures_complete_night :
    Lists ((StopIndexes.build (SortBy.insertion _) (nightStore [20260726]) july27).departures "R1" 3000 1200 10)
      (scheduled (nightStore [20260726]) july27 nightStop "R1" 3000 1200) := by
  have hs : (nightStore [20260726]).stops.lookup "R1" = some nightStop := AList.lookup_insert _
  have hlen : (scheduled (nightStore [20260726]) july27 nightStop "R1" 3000 1200).length = 1 := by decide +kernel
  have h := (StopIndexes.departures_complete_iff (SortBy.insertion _) (nightStore [20260726]) (nightStore_keyed _)
    july27 "R1" nightStop hs 3000 1200 (by decide) (by decide)).mpr ?_
  · exact h 10 (by omega)
  · intro trip ht
    obtain ⟨id, hid⟩ := Map.mem_values.mp ht
    obtain ⟨-, htrip, hservice⟩ := nightStore_trip hid
    constructor
    · intro h
      rw [runsToday, hservice] at h
      exact absurd h (by decide +kernel)
    · intro _ _ st hst _ hlt
      have htimes : Board.timesOf (nightStore [20260726]) trip =
          [{ stopId := "R1", stopSequence := 1, arrival := 90600, departure := 90600 }] := by
        rw [Board.timesOf, htrip, show (nightStore [20260726]).stopTimes.lookup "T1" = some _ from AList.lookup_insert _]
        rfl
      rw [htimes, List.mem_singleton] at hst
      rw [hst] at hlt
      exact absurd hlt (by decide)

/-- With a service of both days it is not: 25:10 of yesterday's run, which the
index leaves out because the trip also runs today. -/
theorem StopIndexes.departures_not_complete :
    ¬ ∀ limit, (scheduled (nightStore [20260726, 20260727]) july27 nightStop "R1" 3000 1200).length ≤ limit →
        Lists
          ((StopIndexes.build (SortBy.insertion _) (nightStore [20260726, 20260727]) july27).departures "R1" 3000 1200
            limit)
          (scheduled (nightStore [20260726, 20260727]) july27 nightStop "R1" 3000 1200) := by
  intro h
  have hlen := (h 1 (by decide +kernel)).same.length_eq
  revert hlen
  decide +kernel

end

end OV.Impl
