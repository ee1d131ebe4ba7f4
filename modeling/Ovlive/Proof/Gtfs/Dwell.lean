import Ovlive.Framework.Least
import Ovlive.Proof.Api.Axis
import Ovlive.Proof.Gtfs.Stops
import Ovlive.Proof.Gtfs.TimeOrder

/-!
# The call that a vehicle without a fix is put at

`nearestCall` measures a call by its two times (`nearestCall_eq`), so inside of a
long stop the call is as far away as the nearer end of it. `Anchored` is what a
position read from the timetable should be, with a call at distance 0 from its
arrival to its departure; `scheduledPosition_anchored_iff` says when it is.
-/

namespace OV.Impl

/-- A time between the arrival and the departure of a call. -/
def StopTime.covers (st : StopTime) (t : Int) : Prop := st.arrival.toInt ≤ t ∧ t ≤ st.departure.toInt

/-- How far a time is from a call. -/
def StopTime.distance (st : StopTime) (t : Int) : Int := max 0 (max (st.arrival.toInt - t) (t - st.departure.toInt))

/-- The position of a call's stop. -/
def GtfsStore.positionOf (s : GtfsStore) (st : StopTime) : Option (Num × Num) :=
  (s.stops.lookup st.stopId).map fun stop => (stop.lat, stop.lon)

/-- Where a vehicle is at a time of its trip: at a call that it is dwelling at,
else at a nearest one, if that is near. -/
structure Anchored (s : GtfsStore) (times : List StopTime) (t : Int) (position : Option (Num × Num)) : Prop where
  dwelling : (∃ st ∈ times, st.covers t) → ∃ st ∈ times, st.covers t ∧ position = s.positionOf st
  between : (∀ st ∈ times, ¬ st.covers t) →
    (∃ st ∈ times, (∀ u ∈ times, st.distance t ≤ u.distance t) ∧ st.distance t ≤ SCHEDULE_ANCHOR_TOLERANCE_SECS ∧
      position = s.positionOf st) ∨
    (∀ st ∈ times, SCHEDULE_ANCHOR_TOLERANCE_SECS < st.distance t) ∧ position = none

/-- Inside of a stop the arrival or the departure is near, and of the calls that
depart when it begins, where that is the nearer end, the first is at the same
position. -/
def DwellShown (s : GtfsStore) (times : List StopTime) (t : Int) : Prop :=
  ∀ st ∈ times, st.arrival.toInt < t → t < st.departure.toInt →
    (t - st.arrival.toInt ≤ SCHEDULE_ANCHOR_TOLERANCE_SECS ∨ st.departure.toInt - t ≤ SCHEDULE_ANCHOR_TOLERANCE_SECS) ∧
      (t - st.arrival.toInt ≤ st.departure.toInt - t →
        ∀ u, times.find? (fun u => u.departure = st.arrival) = some u → s.positionOf u = s.positionOf st)

section

variable {s : GtfsStore} {times : List StopTime} {t : Int} {st : StopTime}

/-- The search keeps the first call of the least residual. -/
theorem nearestCall_eq (times : List StopTime) (t : Int) :
    GtfsStore.nearestCall times t =
      (least (fun st => GtfsStore.residual st t) times).map fun st => (GtfsStore.residual st t, st) := by
  induction times using List.reverseRecOn with
  | nil => rfl
  | append_singleton times st ih =>
    rw [least_snoc, GtfsStore.nearestCall, List.foldl_append, List.foldl_cons, List.foldl_nil, ← GtfsStore.nearestCall, ih]
    cases least (fun st => GtfsStore.residual st t) times with
    | none => rfl
    | some b =>
      simp only [Option.map_some, leastStep]
      split <;> rfl

theorem anchorAt_eq (s : GtfsStore) (times : List StopTime) (t : Int) :
    s.anchorAt times t =
      (least (fun st => GtfsStore.residual st t) times).bind fun st =>
        if SCHEDULE_ANCHOR_TOLERANCE_SECS < GtfsStore.residual st t then none else s.positionOf st := by
  rw [GtfsStore.anchorAt, nearestCall_eq, Option.bind_map]
  rfl

/-- Outside of a stop its residual is how far it is. -/
theorem residual_eq_distance (hst : st.arrival.toInt ≤ st.departure.toInt)
    (h : ¬ (st.arrival.toInt < t ∧ t < st.departure.toInt)) : GtfsStore.residual st t = st.distance t := by
  simp only [GtfsStore.residual, StopTime.distance, abs_eq_max_neg]
  omega

theorem covers_iff_distance (st : StopTime) (t : Int) : st.covers t ↔ st.distance t ≤ 0 := by
  simp only [StopTime.covers, StopTime.distance]
  omega

/-- Where no stop is under way, the first nearest call is a nearest one. -/
theorem anchored_of_not_inside (horder : InTimeOrder times)
    (hout : ∀ st ∈ times, ¬ (st.arrival.toInt < t ∧ t < st.departure.toInt)) :
    Anchored s times t (s.anchorAt times t) := by
  have hres : ∀ st ∈ times, GtfsStore.residual st t = st.distance t := fun st hst =>
    residual_eq_distance (horder.dwell st hst) (hout st hst)
  rw [anchorAt_eq]
  cases hl : least (fun st => GtfsStore.residual st t) times with
  | none =>
    rw [least_eq_none_iff.mp hl]
    refine ⟨fun ⟨st, hst, _⟩ => absurd hst List.not_mem_nil, fun _ => .inr ⟨fun st hst => ?_, rfl⟩⟩
    exact absurd hst List.not_mem_nil
  | some st =>
    have hst := mem_of_least hl
    have hle : ∀ u ∈ times, st.distance t ≤ u.distance t := by
      intro u hu
      rw [← hres st hst, ← hres u hu]
      exact le_of_least hl u hu
    rw [Option.bind_some, hres st hst]
    constructor
    · rintro ⟨u, hu, hcover⟩
      have hzero := (hle u hu).trans ((covers_iff_distance u t).mp hcover)
      refine ⟨st, hst, (covers_iff_distance st t).mpr hzero, if_neg ?_⟩
      unfold SCHEDULE_ANCHOR_TOLERANCE_SECS
      omega
    · intro _
      by_cases hfar : SCHEDULE_ANCHOR_TOLERANCE_SECS < st.distance t
      · exact .inr ⟨fun u hu => hfar.trans_le (hle u hu), if_pos hfar⟩
      · exact .inl ⟨st, hst, hle, not_lt.mp hfar, if_neg hfar⟩

/-- Inside of a stop its residual is that of the nearer end. -/
theorem residual_inside (h1 : st.arrival.toInt < t) (h2 : t < st.departure.toInt) :
    GtfsStore.residual st t = min (t - st.arrival.toInt) (st.departure.toInt - t) := by
  simp only [GtfsStore.residual, abs_eq_max_neg]
  omega

theorem residual_before {u : StopTime} (hu : u.arrival.toInt ≤ u.departure.toInt) (h : u.departure.toInt ≤ t) :
    GtfsStore.residual u t = t - u.departure.toInt := by
  simp only [GtfsStore.residual, abs_eq_max_neg]
  omega

theorem residual_after {u : StopTime} (hu : u.arrival.toInt ≤ u.departure.toInt) (h : t ≤ u.arrival.toInt) :
    GtfsStore.residual u t = u.arrival.toInt - t := by
  simp only [GtfsStore.residual, abs_eq_max_neg]
  omega

/-- A stop under way, among the calls before it and after it. -/
structure Inside (times l₁ l₂ : List StopTime) (st : StopTime) (t : Int) : Prop where
  split : times = l₁ ++ st :: l₂
  order : InTimeOrder times
  arrived : st.arrival.toInt < t
  departs : t < st.departure.toInt

namespace Inside

variable {l₁ l₂ : List StopTime}

theorem before (h : Inside times l₁ l₂ st t) : ∀ u ∈ l₁, u.arrival.toInt ≤ u.departure.toInt ∧
    u.departure.toInt ≤ st.arrival.toInt := by
  obtain ⟨rfl, horder, -, -⟩ := h
  exact fun u hu => ⟨horder.dwell u (List.mem_append_left _ hu), horder.split.1 u hu⟩

theorem after (h : Inside times l₁ l₂ st t) : ∀ u ∈ l₂, u.arrival.toInt ≤ u.departure.toInt ∧
    st.departure.toInt ≤ u.arrival.toInt := by
  obtain ⟨rfl, horder, -, -⟩ := h
  exact fun u hu => ⟨horder.dwell u (List.mem_append_right _ (List.mem_cons_of_mem _ hu)), horder.split.2 u hu⟩

/-- No other call covers the time. -/
theorem eq_of_covers (h : Inside times l₁ l₂ st t) {u : StopTime} (hu : u ∈ times) (hcover : u.covers t) : u = st := by
  have h1 := h.arrived
  have h2 := h.departs
  unfold StopTime.covers at hcover
  rw [h.split] at hu
  rcases List.mem_append.mp hu with hu | hu
  · have := h.before u hu
    omega
  · rcases List.mem_cons.mp hu with rfl | hu
    · rfl
    · have := h.after u hu
      omega

theorem mem (h : Inside times l₁ l₂ st t) : st ∈ times :=
  h.split ▸ List.mem_append_right _ List.mem_cons_self

theorem covers (h : Inside times l₁ l₂ st t) : st.covers t := ⟨h.arrived.le, h.departs.le⟩

/-- So a position is right if it is that of the stop. -/
theorem anchored_iff (h : Inside times l₁ l₂ st t) (position : Option (Num × Num)) :
    Anchored s times t position ↔ position = s.positionOf st := by
  constructor
  · intro ha
    obtain ⟨u, hu, hcover, hpos⟩ := ha.dwelling ⟨st, h.mem, h.covers⟩
    rw [hpos, h.eq_of_covers hu hcover]
  · intro hpos
    exact ⟨fun _ => ⟨st, h.mem, h.covers, hpos⟩, fun hnone => absurd h.covers (hnone st h.mem)⟩

/-- The condition is about this stop. -/
theorem dwellShown_iff (h : Inside times l₁ l₂ st t) :
    DwellShown s times t ↔
      (t - st.arrival.toInt ≤ SCHEDULE_ANCHOR_TOLERANCE_SECS ∨ st.departure.toInt - t ≤ SCHEDULE_ANCHOR_TOLERANCE_SECS) ∧
        (t - st.arrival.toInt ≤ st.departure.toInt - t →
          ∀ u, times.find? (fun u => u.departure = st.arrival) = some u → s.positionOf u = s.positionOf st) := by
  constructor
  · exact fun hshown => hshown st h.mem h.arrived h.departs
  · intro hshown u hu h1 h2
    rw [h.eq_of_covers hu ⟨h1.le, h2.le⟩]
    exact hshown

/-- A call that departs when the stop begins is before it. -/
theorem find_before (h : Inside times l₁ l₂ st t) :
    times.find? (fun u => u.departure = st.arrival) = l₁.find? fun u => u.departure = st.arrival := by
  have hrest : (st :: l₂).find? (fun u => u.departure = st.arrival) = none := by
    have h1 := h.arrived
    have h2 := h.departs
    rw [List.find?_eq_none]
    intro u hu hdep
    have hdep := congrArg Int32.toInt (of_decide_eq_true hdep)
    rcases List.mem_cons.mp hu with rfl | hu
    · omega
    · have := h.after u hu
      omega
  rw [h.split, List.find?_append, hrest, Option.or_none]

/-- No call is nearer, and of those before it only the ones that depart when it
begins are as near. -/
theorem residual_le (h : Inside times l₁ l₂ st t) :
    (∀ u ∈ l₁, GtfsStore.residual st t ≤ GtfsStore.residual u t ∧
      (t - st.arrival.toInt ≤ st.departure.toInt - t → u.departure = st.arrival →
        GtfsStore.residual u t = GtfsStore.residual st t) ∧
      (GtfsStore.residual u t ≤ GtfsStore.residual st t →
        t - st.arrival.toInt ≤ st.departure.toInt - t ∧ u.departure = st.arrival)) ∧
    ∀ u ∈ l₂, GtfsStore.residual st t ≤ GtfsStore.residual u t := by
  have h1 := h.arrived
  have h2 := h.departs
  rw [residual_inside h1 h2]
  constructor
  · intro u hu
    obtain ⟨hdwell, hbefore⟩ := h.before u hu
    rw [residual_before hdwell (hbefore.trans h1.le)]
    refine ⟨by omega, fun htie hdep => ?_, fun hle => ⟨by omega, Int32.toInt_inj.mp (by omega)⟩⟩
    rw [hdep]
    omega
  · intro u hu
    obtain ⟨hdwell, hafter⟩ := h.after u hu
    rw [residual_after hdwell (h2.le.trans hafter)]
    omega

/-- The call that the search stops at: the stop, or the first of the calls that
are as near. -/
def chosen (times : List StopTime) (st : StopTime) (t : Int) : StopTime :=
  if t - st.arrival.toInt ≤ st.departure.toInt - t then (times.find? fun u => u.departure = st.arrival).getD st else st

theorem least_eq (h : Inside times l₁ l₂ st t) :
    least (fun st => GtfsStore.residual st t) times = some (chosen times st t) ∧
      GtfsStore.residual (chosen times st t) t = GtfsStore.residual st t := by
  obtain ⟨hbefore, hafter⟩ := h.residual_le
  unfold chosen
  rw [h.find_before]
  -- nothing before the stop is as near
  have hself (hnone : ∀ u ∈ l₁, ¬ (t - st.arrival.toInt ≤ st.departure.toInt - t ∧ u.departure = st.arrival)) :
      least (fun st => GtfsStore.residual st t) times = some st := by
    refine least_eq_some_iff.mpr ⟨l₁, l₂, h.split, fun u hu => ?_, hafter⟩
    exact not_le.mp fun hle => hnone u hu ((hbefore u hu).2.2 hle)
  split
  · rename_i htie
    cases hfind : l₁.find? fun u => u.departure = st.arrival with
    | none =>
      refine ⟨hself fun u hu hdep => ?_, rfl⟩
      exact absurd (decide_eq_true hdep.2) (List.find?_eq_none.mp hfind u hu)
    | some u =>
      obtain ⟨hdep, as, bs, rfl, has⟩ := List.find?_eq_some_iff_append.mp hfind
      have hu : u ∈ as ++ u :: bs := List.mem_append_right _ List.mem_cons_self
      have heq := (hbefore u hu).2.1 htie (of_decide_eq_true hdep)
      rw [Option.getD_some]
      refine ⟨least_eq_some_iff.mpr ⟨as, bs ++ st :: l₂, by simp [h.split], fun v hv => ?_, fun v hv => ?_⟩, heq⟩
      · have hv' : v ∈ as ++ u :: bs := List.mem_append_left _ hv
        rw [heq]
        refine not_le.mp fun hle => ?_
        have hvdep := decide_eq_true ((hbefore v hv').2.2 hle).2
        exact absurd hvdep (by simpa using has v hv)
      · rw [heq]
        rcases List.mem_append.mp hv with hv | hv
        · exact (hbefore v (List.mem_append_right _ (List.mem_cons_of_mem _ hv))).1
        · rcases List.mem_cons.mp hv with rfl | hv
          · exact le_refl _
          · exact hafter v hv
  · rename_i hnear
    exact ⟨hself fun u _ hdep => hnear hdep.1, rfl⟩

theorem positionOf_chosen_iff :
    s.positionOf (chosen times st t) = s.positionOf st ↔
      (t - st.arrival.toInt ≤ st.departure.toInt - t →
        ∀ u, times.find? (fun u => u.departure = st.arrival) = some u → s.positionOf u = s.positionOf st) := by
  unfold chosen
  split
  · rename_i htie
    cases times.find? (fun u => u.departure = st.arrival) with
    | none => exact iff_of_true rfl fun _ _ hu => by cases hu
    | some u =>
      constructor
      · intro hpos _ v hv
        obtain rfl := Option.some.inj hv
        exact hpos
      · exact fun hall => hall htie u rfl
  · rename_i hnear
    exact iff_of_true rfl fun htie => absurd htie hnear

/-- Inside of a stop the vehicle is put there exactly if the condition holds. -/
theorem anchored_anchorAt_iff (h : Inside times l₁ l₂ st t) (hstop : (s.positionOf st).isSome) :
    Anchored s times t (s.anchorAt times t) ↔ DwellShown s times t := by
  obtain ⟨hleast, hres⟩ := h.least_eq
  rw [h.anchored_iff, h.dwellShown_iff, anchorAt_eq, hleast, Option.bind_some, hres, ← positionOf_chosen_iff,
    residual_inside h.arrived h.departs]
  split
  · rename_i hfar
    obtain ⟨p, hp⟩ := Option.isSome_iff_exists.mp hstop
    rw [hp]
    exact iff_of_false nofun fun hand => by omega
  · rename_i hnear
    exact ⟨fun hpos => ⟨by omega, hpos⟩, fun hand => hand.2⟩

end Inside

theorem anchored_anchorAt_iff (s : GtfsStore) (times : List StopTime) (t : Int) (horder : InTimeOrder times)
    (hstops : ∀ st ∈ times, (s.positionOf st).isSome) :
    Anchored s times t (s.anchorAt times t) ↔ DwellShown s times t := by
  by_cases hin : ∃ st ∈ times, st.arrival.toInt < t ∧ t < st.departure.toInt
  · obtain ⟨st, hst, h1, h2⟩ := hin
    obtain ⟨l₁, l₂, hsplit⟩ := List.append_of_mem hst
    exact Inside.anchored_anchorAt_iff ⟨hsplit, horder, h1, h2⟩ (hstops st hst)
  · simp only [not_exists, not_and] at hin
    refine iff_of_true (anchored_of_not_inside horder fun st hst h => hin st hst h.1 h.2) ?_
    exact fun st hst h1 h2 => absurd h2 (hin st hst h1)

/-- The time of the trip that a vehicle should be at: the seconds of its last
update from a midnight, less its delay where that is known. -/
def anchorTime (trip : LiveTrip) (midnight : Instant) : Int :=
  numSeconds (trip.lastUpdate - midnight) - if trip.delayKnown then trip.delaySeconds else 0

/-- A vehicle on a trip in time order, at stops that are known, is put where it
should be exactly if `DwellShown` holds at its time. -/
theorem scheduledPosition_anchored_iff [Platform] (s : GtfsStore) (trip : LiveTrip) (tid : String) (times : List StopTime)
    (day : NaiveDate) (midnight : Instant) (htrip : trip.matchedTripId = some tid)
    (htimes : s.stopTimes.lookup tid = some times) (hday : trip.operatingDay.bind NaiveDate.parseDashed = some day)
    (hmidnight : localMidnightUtc day Platform.amsterdam = some midnight) (horder : InTimeOrder times)
    (hstops : ∀ st ∈ times, (s.stops.lookup st.stopId).isSome) :
    Anchored s times (anchorTime trip midnight) (s.scheduledPositionOf trip) ↔
      DwellShown s times (anchorTime trip midnight) := by
  have hposition : s.scheduledPositionOf trip = s.anchorAt times (anchorTime trip midnight) := by
    have hnow : (operatingDay trip).bind (fixNow Platform.amsterdam trip.lastUpdate) =
        some (numSeconds (trip.lastUpdate - midnight)) := by
      rw [operatingDay, hday, Option.bind_some, fixNow, hmidnight, Option.map_some]
    rw [scheduledPositionOf_eq, htrip, Option.bind_some, htimes, Option.bind_some, hnow, Option.bind_some, anchorTime]
    split
    · rfl
    · rw [Int.sub_zero]
  rw [hposition]
  refine anchored_anchorAt_iff s times _ horder fun st hst => ?_
  rw [GtfsStore.positionOf, Option.isSome_map]
  exact hstops st hst

/-- The calls of a trip that stops for ten minutes at its second one. -/
def layoverTimes : List StopTime :=
  [{ stopId := "a", stopSequence := 1, arrival := 36000, departure := 36000 },
    { stopId := "b", stopSequence := 2, arrival := 36120, departure := 36720 }]

/-- A store with that trip. -/
def layoverStore : GtfsStore where
  stops := AList.insert "b" { stopId := "b", name := "Slinge", lat := .fin 52, lon := .fin 5, code := none
                              platformCode := none, parentStation := none, locationType := 0 } <|
    AList.insert "a" { stopId := "a", name := "Zuidplein", lat := .fin 51, lon := .fin 4, code := none
                       platformCode := none, parentStation := none, locationType := 0 } ∅
  stopTimes := AList.insert "T" layoverTimes ∅

/-- A vehicle of that trip, at a second of 27 July (UTC). -/
def layoverTrip (second : Int) : LiveTrip :=
  { LiveTrip.new { dataowner := "RET", vehicleNumber := "5342" } ((20661 * secsPerDay + second) * nanos) with
    matchedTripId := some "T", operatingDay := some "2026-07-27" }

theorem layover_order : InTimeOrder layoverTimes where
  dwell := by decide
  next := by decide

theorem layover_stops : ∀ st ∈ layoverTimes, (layoverStore.stops.lookup st.stopId).isSome := by decide

/-- Twenty seconds into the stop. -/
theorem scheduledPosition_anchored_layover :
    Anchored layoverStore layoverTimes (anchorTime (layoverTrip 36140) (20661 * secsPerDay * nanos))
      (@GtfsStore.scheduledPositionOf layoverStore plainPlatform (layoverTrip 36140)) := by
  refine (@scheduledPosition_anchored_iff plainPlatform layoverStore (layoverTrip 36140) "T" layoverTimes july27
    (20661 * secsPerDay * nanos) rfl (AList.lookup_insert _) (by decide +kernel) (by decide +kernel) layover_order
    layover_stops).mpr ?_
  have htime : anchorTime (layoverTrip 36140) (20661 * secsPerDay * nanos) = 36140 := by decide +kernel
  rw [htime]
  intro st hst
  revert st
  decide +kernel

/-- In the middle of it, five minutes from both ends. -/
theorem scheduledPosition_not_anchored :
    ¬ ∀ (_ : Platform) (s : GtfsStore) (trip : LiveTrip) (tid : String) (times : List StopTime) (day : NaiveDate)
      (midnight : Instant), trip.matchedTripId = some tid → s.stopTimes.lookup tid = some times →
      trip.operatingDay.bind NaiveDate.parseDashed = some day → localMidnightUtc day Platform.amsterdam = some midnight →
      InTimeOrder times → (∀ st ∈ times, (s.stops.lookup st.stopId).isSome) →
        Anchored s times (anchorTime trip midnight) (s.scheduledPositionOf trip) := by
  intro h
  have hanchored := h plainPlatform layoverStore (layoverTrip 36420) "T" layoverTimes july27 (20661 * secsPerDay * nanos)
    rfl (AList.lookup_insert _) (by decide +kernel) (by decide +kernel) layover_order layover_stops
  have hnone : @GtfsStore.scheduledPositionOf layoverStore plainPlatform (layoverTrip 36420) = none := by decide +kernel
  have htime : anchorTime (layoverTrip 36420) (20661 * secsPerDay * nanos) = 36420 := by decide +kernel
  rw [hnone, htime] at hanchored
  obtain ⟨st, hst, -, hpos⟩ := hanchored.dwelling ⟨layoverTimes[1], by decide, by decide, by decide⟩
  have hsome : ∀ st ∈ layoverTimes, layoverStore.positionOf st ≠ none := by decide
  exact hsome st hst hpos.symm

end

end OV.Impl
