import Ovlive.Proof.Gtfs.Tables

/-!
# The calls of a trip in time order

A time that is missing in the feed, or cannot be read, is stored as 0, the
midnight of the service date. `InTimeOrder` is what the boards and the schedule
anchor take for granted of a trip; `parse_inTimeOrder_iff` says when a feed whose
given times are in order is parsed to one: where no missing time comes after
midnight or before an earlier one.
-/

namespace OV.Impl

/-- The calls of a trip are in time order. -/
structure InTimeOrder (times : List StopTime) : Prop where
  dwell : ∀ st ∈ times, st.arrival.toInt ≤ st.departure.toInt
  next : times.IsChain fun a b => a.departure.toInt ≤ b.arrival.toInt

namespace InTimeOrder

variable {times : List StopTime}

theorem pairwise (h : InTimeOrder times) : times.Pairwise fun a b => a.departure.toInt ≤ b.arrival.toInt := by
  obtain ⟨hdwell, hnext⟩ := h
  induction times with
  | nil => exact .nil
  | cons a times ih =>
    have htail := ih (fun st hst => hdwell st (List.mem_cons_of_mem _ hst)) hnext.tail
    refine .cons (fun b hb => ?_) htail
    cases times with
    | nil => cases hb
    | cons c times =>
      have hac : a.departure.toInt ≤ c.arrival.toInt := hnext.rel
      rcases List.mem_cons.mp hb with rfl | hb
      · exact hac
      · have hc := hdwell c (List.mem_cons_of_mem _ List.mem_cons_self)
        exact (hac.trans hc).trans ((List.pairwise_cons.mp htail).1 b hb)

/-- The calls before one depart by its arrival, and those after it arrive from
its departure on. -/
theorem split {l₁ l₂ : List StopTime} {st : StopTime} (h : InTimeOrder (l₁ ++ st :: l₂)) :
    (∀ u ∈ l₁, u.departure.toInt ≤ st.arrival.toInt) ∧ ∀ u ∈ l₂, st.departure.toInt ≤ u.arrival.toInt := by
  have hp := List.pairwise_append.mp h.pairwise
  exact ⟨fun u hu => hp.2.2 u hu st List.mem_cons_self, (List.pairwise_cons.mp hp.2.1).1⟩

end InTimeOrder


/-- The calls are in time order if their times are. -/
theorem inTimeOrder_iff (times : List StopTime) :
    InTimeOrder times ↔ (times.flatMap fun st => [st.arrival.toInt, st.departure.toInt]).Pairwise (· ≤ ·) := by
  rw [List.pairwise_flatMap]
  constructor
  · intro h
    refine ⟨fun st hst => by simpa using h.dwell st hst, h.pairwise.imp_of_mem ?_⟩
    intro a b ha hb hab
    have := h.dwell a ha
    have := h.dwell b hb
    simp only [List.mem_cons, List.not_mem_nil, or_false, forall_eq_or_imp, forall_eq]
    omega
  · rintro ⟨hdwell, hnext⟩
    refine ⟨fun st hst => by simpa using hdwell st hst, (hnext.imp fun {a b} hab => ?_).isChain⟩
    exact hab _ (by simp) _ (by simp)

namespace Gtfs

/-! ## The times that a feed gives -/

/-- The sequence number of a row of `stop_times.txt`. -/
def sequenceOf (row : Row) : Nat := (Text.parseU32? (row.get "stop_sequence").toList).getD 0

/-- The rows of a trip, by sequence number. -/
def orderedRows (rows : List Row) (tid : String) : List Row :=
  (rowsFor "trip_id" rows tid).insertionSort fun a b => sequenceOf a ≤ sequenceOf b

/-- The arrival and the departure of a row, where it has them. -/
def timesGiven (row : Row) : List (Option Int32) :=
  [parseGtfsTime (row.get "arrival_time"), parseGtfsTime (row.get "departure_time")]

/-- The times of a trip, missing ones included. -/
def timeline (rows : List Row) (tid : String) : List (Option Int32) := (orderedRows rows tid).flatMap timesGiven

/-- Along each trip, by distinct sequence numbers, the times that are given do not
decrease. -/
structure Timetabled (rows : List Row) : Prop where
  distinct : ∀ tid, ((rowsFor "trip_id" rows tid).map sequenceOf).Nodup
  ascending : ∀ tid, ((timeline rows tid).filterMap id).Pairwise fun a b => a.toInt ≤ b.toInt

/-- The first and the last call of each trip have both of their times. -/
def EndsGiven (rows : List Row) : Prop :=
  ∀ tid row, (orderedRows rows tid).head? = some row ∨ (orderedRows rows tid).getLast? = some row →
    ∀ t ∈ timesGiven row, t.isSome = true

/-- No missing time comes after a time past midnight, or before one that is
earlier. -/
def GapsAtMidnight (times : List (Option Int32)) : Prop :=
  times.Pairwise fun a b =>
    (b = none → ∀ x, a = some x → x.toInt ≤ 0) ∧ (a = none → ∀ y, b = some y → 0 ≤ y.toInt)

/-- Times in order stay so, with 0 for the missing ones, exactly if the gaps are
at midnight. -/
theorem pairwise_getD_iff {times : List (Option Int32)}
    (h : (times.filterMap id).Pairwise fun a b => a.toInt ≤ b.toInt) :
    (times.map fun t => (t.getD 0).toInt).Pairwise (· ≤ ·) ↔ GapsAtMidnight times := by
  rw [List.pairwise_map]
  rw [List.pairwise_filterMap] at h
  constructor
  · intro hle
    refine hle.imp fun {a b} hab => ⟨?_, ?_⟩
    · rintro rfl x rfl
      exact hab
    · rintro rfl y rfl
      exact hab
  · intro hgaps
    refine (h.and hgaps).imp fun {a b} hab => ?_
    obtain ⟨hgiven, hafter, hbefore⟩ := hab
    cases a with
    | none =>
      cases b with
      | none => exact le_refl _
      | some y => exact hbefore rfl y rfl
    | some x =>
      cases b with
      | none => exact hafter rfl x rfl
      | some y => exact hgiven x rfl y rfl

/-- The times stored for a trip. -/
theorem stored_times (rows : List Row) (tid : String) :
    (((rowsFor "trip_id" rows tid).map stopTimeOf).insertionSort fun a b => a.stopSequence ≤ b.stopSequence).flatMap
        (fun st => [st.arrival.toInt, st.departure.toInt]) =
      (timeline rows tid).map fun t => (t.getD 0).toInt := by
  have hsort : ((rowsFor "trip_id" rows tid).map stopTimeOf).insertionSort
      (fun a b => a.stopSequence ≤ b.stopSequence) = (orderedRows rows tid).map stopTimeOf := by
    symm
    apply List.map_insertionSort
    exact fun _ _ _ _ => Iff.rfl
  rw [hsort, timeline, List.map_flatMap, List.flatMap_map]
  rfl

/-- A feed whose given times are in order is parsed to trips in time order exactly
if the times it leaves out are at midnight. -/
theorem parse_inTimeOrder_iff (zip : List ZipEntry) (store : GtfsStore) (h : parseReader (some zip) = .ok store)
    (hrows : Timetabled (rowsOf zip "stop_times.txt")) :
    (∀ tid times, store.stopTimes.lookup tid = some times → InTimeOrder times) ↔
      ∀ tid, GapsAtMidnight (timeline (rowsOf zip "stop_times.txt") tid) := by
  rw [eq_feedOf h]
  refine forall_congr' fun tid => ?_
  rw [← pairwise_getD_iff (hrows.ascending tid), ← stored_times, feedOf_stopTimes]
  split
  · rename_i hnil
    rw [hnil]
    exact iff_of_true (fun _ h => by cases h) .nil
  · constructor
    · exact fun hall => (inTimeOrder_iff _).mp (hall _ rfl)
    · intro hp times ht
      obtain rfl := Option.some.inj ht
      exact (inTimeOrder_iff _).mpr hp

/-- A trip of three calls, the second as given. -/
def threeCalls (arrival departure : String) : List ZipEntry :=
  [{ name := "stop_times.txt"
     headers := some ["trip_id", "stop_sequence", "stop_id", "arrival_time", "departure_time"]
     rows :=
      [some ["T", "3", "c", "08:10:00", "08:10:00"], some ["T", "2", "b", arrival, departure],
        some ["T", "1", "a", "08:00:00", "08:00:00"]] }]

/-- In a file of one trip the others have no rows. -/
theorem rowsFor_of_one {rows : List Row} (h : ∀ row ∈ rows, row.find "trip_id" = some "T") {tid : String} (ht : tid ≠ "T") :
    rowsFor "trip_id" rows tid = [] := by
  rw [rowsFor, List.filter_eq_nil_iff]
  intro row hrow
  rw [h row hrow]
  simpa using Ne.symm ht

theorem timetabled_of_one {rows : List Row} (h : ∀ row ∈ rows, row.find "trip_id" = some "T")
    (hdistinct : ((rowsFor "trip_id" rows "T").map sequenceOf).Nodup)
    (hascending : ((timeline rows "T").filterMap id).Pairwise fun a b => a.toInt ≤ b.toInt) : Timetabled rows := by
  constructor
  · intro tid
    by_cases ht : tid = "T"
    · exact ht ▸ hdistinct
    · rw [rowsFor_of_one h ht]
      exact .nil
  · intro tid
    by_cases ht : tid = "T"
    · exact ht ▸ hascending
    · rw [timeline, orderedRows, rowsFor_of_one h ht]
      exact .nil

/-- With times at every call the trip is in time order. -/
theorem parse_inTimeOrder_given :
    ∃ times, (feedOf (rowsOf (threeCalls "08:05:00" "08:06:00"))).stopTimes.lookup "T" = some times ∧
      InTimeOrder times := by
  have hone : ∀ row ∈ rowsOf (threeCalls "08:05:00" "08:06:00") "stop_times.txt", row.find "trip_id" = some "T" := by
    decide +kernel
  have hparse : parseReader (some (threeCalls "08:05:00" "08:06:00")) =
      .ok (feedOf (rowsOf (threeCalls "08:05:00" "08:06:00"))) := parseReader_of_none (by decide +kernel)
  have hstored : ((feedOf (rowsOf (threeCalls "08:05:00" "08:06:00"))).stopTimes.lookup "T").isSome = true := by
    decide +kernel
  obtain ⟨times, htimes⟩ := Option.isSome_iff_exists.mp hstored
  refine ⟨times, htimes, (parse_inTimeOrder_iff _ _ hparse
    (timetabled_of_one hone (by decide +kernel) (by decide +kernel))).mpr (fun tid => ?_) "T" times htimes⟩
  by_cases ht : tid = "T"
  · subst ht
    have hnone : none ∉ timeline (rowsOf (threeCalls "08:05:00" "08:06:00") "stop_times.txt") "T" := by decide +kernel
    refine List.pairwise_iff_getElem.mpr fun i j hi hj _ => ⟨fun he => ?_, fun he => ?_⟩
    · exact absurd (he ▸ List.getElem_mem hj) hnone
    · exact absurd (he ▸ List.getElem_mem hi) hnone
  · rw [timeline, orderedRows, rowsFor_of_one hone ht]
    exact .nil

/-- Left blank, the second call is stored at midnight. -/
theorem parse_not_inTimeOrder :
    ¬ ∀ (zip : List ZipEntry) (store : GtfsStore), parseReader (some zip) = .ok store →
      Timetabled (rowsOf zip "stop_times.txt") → EndsGiven (rowsOf zip "stop_times.txt") →
        ∀ tid times, store.stopTimes.lookup tid = some times → InTimeOrder times := by
  intro h
  have hone : ∀ row ∈ rowsOf (threeCalls "" "") "stop_times.txt", row.find "trip_id" = some "T" := by decide +kernel
  have hparse : parseReader (some (threeCalls "" "")) = .ok (feedOf (rowsOf (threeCalls "" ""))) :=
    parseReader_of_none (by decide +kernel)
  have hends : EndsGiven (rowsOf (threeCalls "" "") "stop_times.txt") := by
    intro tid row hrow
    by_cases ht : tid = "T"
    · subst ht
      have hhead : ((orderedRows (rowsOf (threeCalls "" "") "stop_times.txt") "T").head?.all fun row =>
          (timesGiven row).all Option.isSome) = true := by decide +kernel
      have hlast : ((orderedRows (rowsOf (threeCalls "" "") "stop_times.txt") "T").getLast?.all fun row =>
          (timesGiven row).all Option.isSome) = true := by decide +kernel
      rcases hrow with hrow | hrow
      · rw [hrow] at hhead
        exact List.all_eq_true.mp hhead
      · rw [hrow] at hlast
        exact List.all_eq_true.mp hlast
    · rw [orderedRows, rowsFor_of_one hone ht] at hrow
      rcases hrow with hrow | hrow <;> cases hrow
  have htrip : (((feedOf (rowsOf (threeCalls "" ""))).stopTimes.lookup "T").any fun times =>
      !decide (times.IsChain fun a b => a.departure.toInt ≤ b.arrival.toInt)) = true := by decide +kernel
  obtain ⟨times, htimes, hnot⟩ := (Option.any_eq_true _ _).mp htrip
  have horder := h _ _ hparse (timetabled_of_one hone (by decide +kernel) (by decide +kernel)) hends "T" times htimes
  rw [decide_eq_true horder.next] at hnot
  cases hnot

end Gtfs

end OV.Impl
