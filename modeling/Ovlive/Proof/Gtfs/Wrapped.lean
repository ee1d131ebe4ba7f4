import Ovlive.Framework.Wrap
import Ovlive.Proof.Gtfs.Joined
import Ovlive.Proof.Gtfs.Tables

/-!
# Times that wrap

A time is three integers of 32 bits, put together in 32 bits, so it is read as
the seconds it says exactly if these are the value of an `i32`
(`exactTime_iff`). The same holds of the times stored of each row
(`storedExact_iff`), and of the calls that the index of a date makes of them:
those of today are on their axis as they are, and those of the day before are
shifted exactly unless that takes them below the least `i32`
(`shiftedExact_iff`).
-/

namespace OV.Impl

namespace Gtfs

/-- The hours, the minutes and the seconds of a time, 0 where it has no seconds. -/
structure TimeParts (s : String) (h m x : Int) : Prop where
  hours : ((Text.split ':' s.toList)[0]?.bind fun p => Text.parseInt? (Text.trim p)) = some h
  minutes : ((Text.split ':' s.toList)[1]?.bind fun p => Text.parseInt? (Text.trim p)) = some m
  seconds : Text.parseInt? (Text.trim ((Text.split ':' s.toList)[2]?.getD ['0'])) = some x

/-- A time is read as the seconds that its parts say. -/
def ExactTime (s : String) : Prop :=
  ∀ v, parseGtfsTime s = some v → ∃ h m x, TimeParts s h m x ∧ v.toInt = 3600 * h + 60 * m + x

/-- The seconds that the parts of a time say, each an `i32`, are one too. -/
def Fits (s : String) : Prop :=
  ∀ h m x : Int32, TimeParts s h.toInt m.toInt x.toInt → FitsI32 (3600 * h.toInt + 60 * m.toInt + x.toInt)

/-- No operation on the parts of a time wraps. -/
def OverflowFree (s : String) : Prop :=
  ∀ h m x : Int32, TimeParts s h.toInt m.toInt x.toInt →
    (h * 3600).toInt = h.toInt * 3600 ∧ (m * 60).toInt = m.toInt * 60 ∧
      (h * 3600 + m * 60).toInt = (h * 3600).toInt + (m * 60).toInt ∧
      (h * 3600 + m * 60 + x).toInt = (h * 3600 + m * 60).toInt + x.toInt

/-- Nor is any result on the way to the seconds of a time out of range. -/
def FitsThroughout (s : String) : Prop :=
  ∀ h m x : Int32, TimeParts s h.toInt m.toInt x.toInt →
    FitsI32 (h.toInt * 3600) ∧ FitsI32 (m.toInt * 60) ∧ FitsI32 (h.toInt * 3600 + m.toInt * 60) ∧
      FitsI32 (h.toInt * 3600 + m.toInt * 60 + x.toInt)

variable {s : String} {v : Int32}

theorem parseI32?_eq_some {p : List Char} {a : Int32} : Text.parseI32? p = some a ↔ Text.parseInt? p = some a.toInt := by
  rw [Text.parseI32?]
  cases Text.parseInt? p with
  | none => exact iff_of_false nofun nofun
  | some n =>
    have hmin := a.le_toInt
    have hmax := a.toInt_lt
    rw [Option.bind_eq_bind, Option.bind_some]
    constructor
    · intro h
      split at h
      · rename_i hn
        rw [← Option.some.inj h, Int32.toInt_ofInt_of_le hn.1 (by omega)]
      · cases h
    · intro h
      obtain rfl := Option.some.inj h
      rw [if_pos (by omega), Int32.ofInt_toInt]

/-- A time is read from its parts, in 32 bits. -/
theorem parseGtfsTime_eq_some :
    parseGtfsTime s = some v ↔
      ∃ h m x : Int32, TimeParts s h.toInt m.toInt x.toInt ∧ v = h * 3600 + m * 60 + x := by
  simp only [parseGtfsTime, Option.bind_eq_bind, Option.bind_eq_some_iff, parseI32?_eq_some, Option.some.injEq]
  constructor
  · rintro ⟨p, hp, h, hh, q, hq, m, hm, x, hx, rfl⟩
    exact ⟨h, m, x, ⟨by rw [hp, Option.bind_some, hh], by rw [hq, Option.bind_some, hm], hx⟩, rfl⟩
  · rintro ⟨h, m, x, ⟨hh, hm, hx⟩, rfl⟩
    obtain ⟨p, hp, hh⟩ := Option.bind_eq_some_iff.mp hh
    obtain ⟨q, hq, hm⟩ := Option.bind_eq_some_iff.mp hm
    exact ⟨p, hp, h, hh, q, hq, m, hm, x, hx, rfl⟩

theorem TimeParts.unique {h m x h' m' x' : Int} (hp : TimeParts s h m x) (hp' : TimeParts s h' m' x') :
    h = h' ∧ m = m' ∧ x = x' :=
  ⟨Option.some.inj (hp.hours.symm.trans hp'.hours), Option.some.inj (hp.minutes.symm.trans hp'.minutes),
    Option.some.inj (hp.seconds.symm.trans hp'.seconds)⟩

/-- The seconds are read modulo 2³². -/
theorem toInt_seconds (h m x : Int32) :
    (h * 3600 + m * 60 + x).toInt = (3600 * h.toInt + 60 * m.toInt + x.toInt).bmod (2 ^ 32) := by
  have h3600 : (3600 : Int32).toInt = 3600 := rfl
  have h60 : (60 : Int32).toInt = 60 := rfl
  rw [Int32.toInt_add, Int32.toInt_add, Int32.toInt_mul, Int32.toInt_mul, h3600, h60, Int.mul_comm h.toInt,
    Int.mul_comm m.toInt]
  simp only [Int.bmod_add_bmod, Int.add_bmod_bmod]

/-- A time is read exactly if and only if its seconds are an `i32`. -/
theorem exactTime_iff (s : String) : ExactTime s ↔ Fits s := by
  constructor
  · intro hexact h m x hparts
    obtain ⟨h', m', x', hparts', hv⟩ := hexact _ (parseGtfsTime_eq_some.mpr ⟨h, m, x, hparts, rfl⟩)
    obtain ⟨rfl, rfl, rfl⟩ := hparts.unique hparts'
    rwa [toInt_seconds, bmod_eq_self_iff] at hv
  · intro hfits v hv
    obtain ⟨h, m, x, hparts, rfl⟩ := parseGtfsTime_eq_some.mp hv
    refine ⟨_, _, _, hparts, ?_⟩
    rw [toInt_seconds, bmod_eq_self_iff]
    exact hfits h m x hparts

/-- No operation wraps if and only if no result on the way is out of range. -/
theorem overflowFree_iff (s : String) : OverflowFree s ↔ FitsThroughout s := by
  refine forall_congr' fun h => forall_congr' fun m => forall_congr' fun x => forall_congr' fun _ => ?_
  have hhours : (h * 3600).toInt = h.toInt * 3600 ↔ FitsI32 (h.toInt * 3600) := toInt_mul_eq_iff
  have hminutes : (m * 60).toInt = m.toInt * 60 ↔ FitsI32 (m.toInt * 60) := toInt_mul_eq_iff
  rw [hhours, hminutes, toInt_add_eq_iff, toInt_add_eq_iff]
  refine and_congr_right fun hh => and_congr_right fun hm => ?_
  rw [hhours.mpr hh, hminutes.mpr hm]
  refine and_congr_right fun hsum => ?_
  rw [toInt_add_eq_iff.mpr (by rwa [hhours.mpr hh, hminutes.mpr hm]), hhours.mpr hh, hminutes.mpr hm]

/-! ## The times stored -/

/-- A stored time is what its text says, or 0 where the text is no time. -/
def Says (s : String) (v : Int32) : Prop :=
  (∃ h m x, TimeParts s h m x ∧ v.toInt = 3600 * h + 60 * m + x) ∨ parseGtfsTime s = none ∧ v = 0

/-- The calls stored of a trip are those of its rows, at the times that the rows say. -/
def StoredExact (rows : List Row) (store : GtfsStore) : Prop :=
  ∀ tid times, store.stopTimes.lookup tid = some times →
    times.Perm ((rowsFor "trip_id" rows tid).map stopTimeOf) ∧ ∀ row ∈ rowsFor "trip_id" rows tid,
      Says (row.get "arrival_time") (stopTimeOf row).arrival ∧ Says (row.get "departure_time") (stopTimeOf row).departure

/-- The times of the rows that name a trip fit. -/
def RowsFit (rows : List Row) : Prop :=
  ∀ tid, ∀ row ∈ rowsFor "trip_id" rows tid, Fits (row.get "arrival_time") ∧ Fits (row.get "departure_time")

theorem says_iff (s : String) : Says s ((parseGtfsTime s).getD 0) ↔ Fits s := by
  rw [← exactTime_iff, Says, ExactTime]
  cases hv : parseGtfsTime s with
  | none => exact iff_of_true (.inr ⟨rfl, rfl⟩) nofun
  | some v =>
    constructor
    · rintro (h | ⟨h, -⟩) w hw
      · obtain rfl := Option.some.inj hw
        exact h
      · cases h
    · exact fun h => .inl (h v rfl)

/-- The times stored are exact if and only if those of the rows fit. -/
theorem storedExact_iff {zip : List ZipEntry} {store : GtfsStore} (h : parseReader (some zip) = .ok store) :
    StoredExact (rowsOf zip "stop_times.txt") store ↔ RowsFit (rowsOf zip "stop_times.txt") := by
  rw [eq_feedOf h]
  refine forall_congr' fun tid => ?_
  rw [feedOf_stopTimes]
  split
  · rename_i hnil
    rw [hnil]
    exact iff_of_true nofun nofun
  · have hsays (row : Row) : Says (row.get "arrival_time") (stopTimeOf row).arrival ∧
        Says (row.get "departure_time") (stopTimeOf row).departure ↔
          Fits (row.get "arrival_time") ∧ Fits (row.get "departure_time") :=
      and_congr (says_iff _) (says_iff _)
    simp only [Option.some.injEq, forall_eq', hsays]
    exact and_iff_right (List.perm_insertionSort _ _)

end Gtfs

/-! ## The times on the board -/

/-- Every call of the index is a call of its trip, at its time on the axis of the
day that the trip runs on. -/
def ShiftedExact (sort : CallSort) (store : GtfsStore) (date : NaiveDate) : Prop :=
  ∀ stopId stop, ∀ c ∈ Map.valuesAt (StopIndexes.build sort store date).calls stopId,
    ∃ d, (StopIndexes.build sort store date).departure c stop = some d ∧
      ∃ shift, Board.shiftOf store (ymdU32 date) (date.predOpt.map ymdU32) d.trip = some shift ∧
        ∃ st ∈ Board.timesOf store d.trip, c.arrival.toInt = st.arrival.toInt + shift.toInt ∧
          c.departure.toInt = st.departure.toInt + shift.toInt

/-- The calls of a trip of the day before depart no earlier than a day after the
least `i32`, and those that are not past arrive no earlier either. -/
def ShiftsFit (store : GtfsStore) (date : NaiveDate) : Prop :=
  ∀ trip ∈ Map.values store.trips, runsToday store date trip = false → ranYesterday store date trip = true →
    ∀ st ∈ Board.timesOf store trip,
      -2 ^ 31 + 86400 ≤ st.departure.toInt ∧ (64800 ≤ st.departure.toInt → -2 ^ 31 + 86400 ≤ st.arrival.toInt)

section

variable {store : GtfsStore} {date : NaiveDate} {stop : StopInfo} {stopId : String} {trip : TripInfo} {shift : Int32}

/-- A call and its departure are at one time, also of arrival. -/
theorem arrival_time {idx : StopIndexes} {c : Call} {d : Departure} (h : idx.departure c stop = some d) :
    d.scheduledArrival = c.arrival := by
  simp only [StopIndexes.departure, Board.resolve, Option.bind_eq_bind, Option.bind_eq_some_iff, Option.some.injEq] at h
  obtain ⟨day, -, trip, -, rfl⟩ := h
  rfl

/-- The times of the calls that are made of a trip are exact, where the index is. -/
theorem exact_of_shiftedExact {sort : CallSort} (hk : store.Keyed) (h : ShiftedExact sort store date)
    (ht : trip ∈ Map.values store.trips)
    (hs : Board.shiftOf store (ymdU32 date) (date.predOpt.map ymdU32) trip = some shift) {st : StopTime}
    (hst : st ∈ Board.timesOf store trip) (hpast : Board.past shift st = false) :
    (st.arrival + shift).toInt = st.arrival.toInt + shift.toInt ∧
      (st.departure + shift).toInt = st.departure.toInt + shift.toInt := by
  obtain ⟨-, hperm⟩ := departure_build sort date nightStop st.stopId hk
  have hmem := hperm.mem_iff.mpr (mem_indexed_iff.mpr ⟨trip, ht, shift, hs, st, hst, rfl, hpast, rfl⟩)
  obtain ⟨c, hc, hd⟩ := List.mem_filterMap.mp hmem
  obtain ⟨d, hd', shift', hs', u, -, harrival, hdeparture⟩ := h st.stopId nightStop c hc
  obtain rfl := Option.some.inj (hd.symm.trans hd')
  obtain rfl := Option.some.inj (hs.symm.trans hs')
  rw [← arrival_time hd] at harrival
  rw [← departure_time hd] at hdeparture
  exact ⟨toInt_add_of_eq harrival, toInt_add_of_eq hdeparture⟩

/-- The shift of a time is exact if it does not go below the least `i32`. -/
theorem shift_exact_iff (x : Int32) :
    (x + -DAY_SECS).toInt = x.toInt + (-DAY_SECS).toInt ↔ -2 ^ 31 + 86400 ≤ x.toInt := by
  have hmax := x.toInt_lt
  rw [toInt_add_eq_iff, toInt_neg_DAY_SECS, FitsI32]
  omega

/-- A call whose shift is exact is kept if it departs from 18:00 on. -/
theorem not_past_iff {st : StopTime} (h : -2 ^ 31 + 86400 ≤ st.departure.toInt) :
    Board.past (-DAY_SECS) st = false ↔ 64800 ≤ st.departure.toInt := by
  rw [← Bool.not_eq_true, past_iff, (shift_exact_iff _).mpr h, toInt_neg_DAY_SECS]
  omega

/-- The calls of the index are at exact times if and only if the shifts of the
calls of the day before fit. -/
theorem shiftedExact_iff (sort : CallSort) (hk : store.Keyed) (date : NaiveDate) :
    ShiftedExact sort store date ↔ ShiftsFit store date := by
  constructor
  · intro h trip ht htoday hyesterday st hst
    have hs : Board.shiftOf store (ymdU32 date) (date.predOpt.map ymdU32) trip = some (-DAY_SECS) :=
      (if_neg (Bool.eq_false_iff.mp htoday)).trans (if_pos hyesterday)
    have hdeparture : -2 ^ 31 + 86400 ≤ st.departure.toInt := by
      by_contra hlt
      have hpast := not_past_of_wraps (not_le.mp hlt)
      exact hlt ((shift_exact_iff _).mp (exact_of_shiftedExact hk h ht hs hst hpast).2)
    refine ⟨hdeparture, fun hlate => ?_⟩
    have hpast := (not_past_iff hdeparture).mpr hlate
    exact (shift_exact_iff _).mp (exact_of_shiftedExact hk h ht hs hst hpast).1
  · intro h stopId stop c hc
    obtain ⟨hsome, hperm⟩ := departure_build sort date stop stopId hk
    obtain ⟨d, hd⟩ := Option.isSome_iff_exists.mp (hsome c hc)
    have hmem := hperm.mem_iff.mp (List.mem_filterMap.mpr ⟨c, hc, hd⟩)
    obtain ⟨trip, ht, shift, hs, st, hst, -, hpast, rfl⟩ := mem_indexed_iff.mp hmem
    refine ⟨_, hd, shift, hs, st, hst, ?_⟩
    rw [← arrival_time hd, ← departure_time hd]
    show (st.arrival + shift).toInt = _ ∧ (st.departure + shift).toInt = _
    unfold Board.shiftOf at hs
    split_ifs at hs with htoday hyesterday
    · obtain rfl := Option.some.inj hs
      simp
    · obtain rfl := Option.some.inj hs
      obtain ⟨hdeparture, harrival⟩ := h trip ht (Bool.eq_false_iff.mpr htoday) hyesterday st hst
      have hlate := (not_past_iff hdeparture).mp hpast
      exact ⟨(shift_exact_iff _).mpr (harrival hlate), (shift_exact_iff _).mpr hdeparture⟩

end

namespace Gtfs

/-- Every time is read exactly if its seconds are an `i32`, and without any
operation that wraps if all that is computed on the way is; of a parsed feed the
times are stored exactly if those of its rows fit, and put on the board of a date
exactly if the shifts of the day before do. -/
theorem times_exact_iff {zip : List ZipEntry} {store : GtfsStore} (h : parseReader (some zip) = .ok store)
    (sort : CallSort) (date : NaiveDate) :
    (∀ s, (ExactTime s ↔ Fits s) ∧ (OverflowFree s ↔ FitsThroughout s)) ∧
      (StoredExact (rowsOf zip "stop_times.txt") store ↔ RowsFit (rowsOf zip "stop_times.txt")) ∧
        (ShiftedExact sort store date ↔ ShiftsFit store date) := by
  refine ⟨fun s => ⟨exactTime_iff s, overflowFree_iff s⟩, storedExact_iff h, shiftedExact_iff sort ?_ date⟩
  rw [eq_feedOf h]
  exact feedOf_keyed _

/-- A feed with a trip of 26 July that calls at 25:10, and one of 27 July. -/
def twoDays : List ZipEntry :=
  [{ name := "trips.txt", headers := some ["trip_id", "service_id"], rows := [some ["T", "night"], some ["U", "day"]] },
    { name := "calendar_dates.txt", headers := some ["service_id", "date"]
      rows := [some ["night", "20260726"], some ["day", "20260727"]] },
    { name := "stops.txt", headers := some ["stop_id"], rows := [some ["a"]] },
    { name := "stop_times.txt"
      headers := some ["trip_id", "stop_sequence", "stop_id", "arrival_time", "departure_time"]
      rows := [some ["T", "1", "a", "25:10:00", "25:10:30"], some ["U", "1", "a", "06:00:00", "06:01:00"]] }]

/-- On the board of 27 July the night's call is a day earlier. -/
theorem times_exact_twoDays :
    let store := feedOf (rowsOf twoDays)
    ((∀ s, (ExactTime s ↔ Fits s) ∧ (OverflowFree s ↔ FitsThroughout s)) ∧
      (StoredExact (rowsOf twoDays "stop_times.txt") store ↔ RowsFit (rowsOf twoDays "stop_times.txt")) ∧
      (ShiftedExact (SortBy.insertion _) store july27 ↔ ShiftsFit store july27)) ∧
    ShiftedExact (SortBy.insertion _) store july27 ∧
    (Map.valuesAt (StopIndexes.build (SortBy.insertion _) store july27).calls "a").map
      (fun c => (c.today, c.arrival, c.departure)) = [(false, 4200, 4230), (true, 21600, 21660)] := by
  intro store
  have hparse : parseReader (some twoDays) = .ok store := parseReader_of_none (by decide +kernel)
  have h := times_exact_iff hparse (SortBy.insertion _) july27
  exact ⟨h, h.2.2.mpr (by unfold ShiftsFit; decide +kernel), by decide +kernel⟩

/-- The seconds of 600000 hours are more than an `i32` holds, and are read as a
negative time. -/
theorem times_wrap : parseGtfsTime "600000:00:00" = some (-2134967296) ∧ ¬ ExactTime "600000:00:00" := by
  have hread : parseGtfsTime "600000:00:00" = some (-2134967296) := by decide +kernel
  refine ⟨hread, fun h => ?_⟩
  obtain ⟨hours, minutes, seconds, hparts, hv⟩ := h _ hread
  have hsaid : TimeParts "600000:00:00" 600000 0 0 := ⟨by decide +kernel, by decide +kernel, by decide +kernel⟩
  obtain ⟨rfl, rfl, rfl⟩ := hparts.unique hsaid
  exact absurd hv (by decide)

end Gtfs

end OV.Impl
