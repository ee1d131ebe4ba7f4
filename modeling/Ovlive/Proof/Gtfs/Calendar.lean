import Ovlive.Framework.Dates
import Ovlive.Proof.Gtfs.Parse

/-!
# The days of a service

`runsOn` searches the dates that the calendar files leave of a service.
`binarySearch_iff` is the search, `mem_dates` what is left of the dates added
and removed, and `mem_foldl_calendarRow`, `mem_foldl_calendarDateRow` what the
rows of the two files add and remove. The dates are searched as numbers:
`ymdU32_inj` tells a date of the years 1 to 9999 from every other of the
calendar. From them `runsOn_iff`: a service runs on the days its rows say.
-/

namespace OV

namespace NaiveDate

/-- A year has 146097 / 400 days, give or take. -/
theorem year_days (d : NaiveDate) :
    146097 * d.year ≤ 400 * (d.days + 719468) + 2000000 ∧
      400 * (d.days + 719468) ≤ 146097 * d.year + 2000000 := by
  obtain ⟨hm, hd⟩ := d.month_day_bounds
  rw [← daysFrom_ymd d]
  have hdoy : (153 * (if 2 < d.month then d.month - 3 else d.month + 9) + 2) / 5 + d.day - 1 ≤ 3300 := by
    split <;> omega
  have hy : d.year - 1 ≤ (if d.month ≤ 2 then d.year - 1 else d.year) ∧
      (if d.month ≤ 2 then d.year - 1 else d.year) ≤ d.year := by
    split <;> omega
  simp only [daysFrom]
  generalize (153 * (if 2 < d.month then d.month - 3 else d.month + 9) + 2) / 5 + d.day - 1 = doy at hdoy ⊢
  generalize (if d.month ≤ 2 then d.year - 1 else d.year) = y at hy ⊢
  obtain ⟨yoe, hyoe⟩ : ∃ yoe : Nat, y % 400 = yoe := ⟨(y % 400).toNat, by omega⟩
  rw [hyoe, Int.toNat_natCast]
  omega

/-- A date of the years 1 to 9999. -/
def FourDigits (d : NaiveDate) : Prop := 1 ≤ d.year ∧ d.year ≤ 9999

instance (d : NaiveDate) : Decidable d.FourDigits := inferInstanceAs (Decidable (_ ∧ _))

/-- What is found by its year, month and day is in the calendar. -/
theorem year_of_fromYmdOpt {y : Int} {m d : Nat} {e : NaiveDate} (h : fromYmdOpt y m d = some e) :
    -262143 ≤ e.year ∧ e.year ≤ 262142 := by
  simp only [fromYmdOpt] at h
  rw [Option.ite_none_right_eq_some, Option.some.injEq] at h
  obtain ⟨⟨hymd, hlo, hhi⟩, rfl⟩ := h
  rw [year, hymd]
  exact ⟨hlo, hhi⟩

theorem year_of_parseCompact {s : String} {e : NaiveDate} (h : parseCompact s = some e) :
    -262143 ≤ e.year ∧ e.year ≤ 262142 := by
  rw [parseCompact, parseWith_eq] at h
  obtain ⟨p, -, hp⟩ := Option.bind_eq_some_iff.mp h
  exact year_of_fromYmdOpt hp

end NaiveDate

namespace Impl

open NaiveDate

theorem toNat_ymdU32 (d : NaiveDate) :
    ((ymdU32 d).toNat : Int) = (10000 * d.year + 100 * d.month + d.day) % 4294967296 := by
  simp only [ymdU32, UInt32.toNat_add, UInt32.toNat_mul, UInt32.ofInt]
  simp
  omega

/-- Wherever in the calendar two dates are, one of the years 1 to 9999 has a
number of its own. -/
theorem ymdU32_inj {d e : NaiveDate} (hd : d.FourDigits) (he : -262143 ≤ e.year ∧ e.year ≤ 262142) :
    ymdU32 d = ymdU32 e ↔ d = e := by
  constructor
  · intro h
    have hnat : ((ymdU32 d).toNat : Int) = (ymdU32 e).toNat := by rw [h]
    rw [toNat_ymdU32, toNat_ymdU32] at hnat
    obtain ⟨hm, hday⟩ := d.month_day_bounds
    obtain ⟨hm', hday'⟩ := e.month_day_bounds
    obtain ⟨h1, h2⟩ := hd
    have hsum : 10000 * d.year + 100 * (d.month : Int) + d.day = 10000 * e.year + 100 * e.month + e.day := by
      rw [Int.emod_eq_of_lt (by omega) (by omega)] at hnat
      omega
    clear hnat
    refine ymd_injective (Prod.ext ?_ (Prod.ext ?_ ?_))
    · show d.year = e.year
      omega
    · show d.month = e.month
      omega
    · show d.day = e.day
      omega
  · rintro rfl
    rfl

/-! ## The search -/

theorem getD_eq (l : List UInt32) {i : Nat} (h : i < l.length) : l.getD i 0 = l[i] := by
  rw [List.getD_eq_getElem?_getD, List.getElem?_eq_getElem h, Option.getD_some]

/-- The loop ends at the entry sought, if there is one: the entries past the
window are too large, and those before it are no larger than its first. -/
theorem binarySearchLoop_iff {l : List UInt32} {x : UInt32} (h : l.Pairwise (· ≤ ·)) (fuel base size : Nat)
    (hfuel : size ≤ fuel) (hsize : 0 < size) (hle : base + size ≤ l.length)
    (hbelow : base = 0 ∨ l.getD base 0 ≤ x) (habove : ∀ i, base + size ≤ i → i < l.length → x < l.getD i 0) :
    l.getD (binarySearchLoop l x fuel base size) 0 = x ↔ x ∈ l := by
  have hmono : ∀ i j, i ≤ j → j < l.length → l.getD i 0 ≤ l.getD j 0 := by
    intro i j hij hj
    rw [getD_eq _ (by omega), getD_eq _ hj]
    rcases Nat.lt_or_eq_of_le hij with hlt | rfl
    · exact List.pairwise_iff_getElem.mp h i j _ hj hlt
    · exact UInt32.le_refl _
  induction fuel generalizing base size with
  | zero => omega
  | succ fuel ih =>
    simp only [binarySearchLoop]
    split
    · rename_i h1
      by_cases hx : x < l.getD (base + size / 2) 0
      · rw [if_pos hx]
        refine ih _ _ (by omega) (by omega) (by omega) hbelow fun i hi hlen => ?_
        exact UInt32.lt_of_lt_of_le hx (hmono _ _ (by omega) hlen)
      · rw [if_neg hx]
        refine ih _ _ (by omega) (by omega) (by omega) (.inr (UInt32.not_lt.mp hx)) fun i hi hlen => ?_
        exact habove i (by omega) hlen
    · obtain rfl : size = 1 := by omega
      rw [getD_eq _ (by omega)]
      constructor
      · rintro rfl
        exact List.getElem_mem _
      · intro hx
        obtain ⟨i, hi, rfl⟩ := List.getElem_of_mem hx
        -- the entry is not past the window, so it is no larger than the first of it
        have hbase : i ≤ base := by
          by_contra hlt
          have hxx := habove i (by omega) hi
          rw [getD_eq _ hi] at hxx
          exact absurd hxx (UInt32.lt_irrefl _)
        rcases hbelow with rfl | hbelow
        · obtain rfl : i = 0 := by omega
          rfl
        · refine UInt32.le_antisymm ?_ ?_
          · rwa [getD_eq _ (by omega)] at hbelow
          · have hib := hmono i base hbase (by omega)
            rwa [getD_eq _ hi, getD_eq _ (by omega)] at hib

/-- On an ascending list the search finds what is there. -/
theorem binarySearch_iff {l : List UInt32} {x : UInt32} (h : l.Pairwise (· ≤ ·)) : binarySearch l x = true ↔ x ∈ l := by
  cases l with
  | nil => simp [binarySearch]
  | cons a l =>
    simp only [binarySearch, List.isEmpty_cons, Bool.not_false, Bool.true_and, beq_iff_eq]
    exact binarySearchLoop_iff h _ _ _ le_rfl (by simp) (by omega) (.inl rfl) (by omega)

namespace Gtfs

/-! ## The rows of the calendar files -/

variable {sid : String} {x : UInt32}

theorem valuesAt_insert (m : Map String (List UInt32)) (k k' : String) (l : List UInt32) :
    Map.valuesAt (m.insert k l) k' = if k' = k then l else Map.valuesAt m k' := by
  simp only [Map.valuesAt]
  split_ifs with h
  · rw [h, AList.lookup_insert, Option.getD_some]
  · rw [AList.lookup_insert_ne h]

theorem mem_insertDate {m : Map String (List UInt32)} {k : String} {date : UInt32} :
    x ∈ Map.valuesAt (insertDate k date m) sid ↔ x ∈ Map.valuesAt m sid ∨ (sid = k ∧ x = date) := by
  rw [insertDate, valuesAt_insert]
  split_ifs with h
  · rw [List.mem_insert_iff, h, or_comm]
    simp
  · simp [h]

/-- The loop of a calendar row inserts the days of the range that its fuel
reaches and the mask allows. -/
theorem mem_maskedDays (mask : List Bool) (last : NaiveDate) (fuel : Nat) (day : NaiveDate) (set : List UInt32) :
    x ∈ maskedDays mask last fuel day set ↔
      x ∈ set ∨ ∃ d : NaiveDate, day.days ≤ d.days ∧ d.days ≤ last.days ∧ d.days < day.days + fuel ∧
        mask.getD d.weekday false = true ∧ x = ymdU32 d := by
  induction fuel generalizing day set with
  | zero =>
    simp only [maskedDays, iff_self_or]
    rintro ⟨d, h1, -, h2, -⟩
    omega
  | succ fuel ih =>
    rw [maskedDays]
    split
    · rename_i hlast
      simp only [iff_self_or]
      rintro ⟨d, h1, h2, -⟩
      omega
    · rename_i hlast
      have hset : x ∈ (if mask.getD day.weekday false then set.insert (ymdU32 day) else set) ↔
          x ∈ set ∨ (mask.getD day.weekday false = true ∧ x = ymdU32 day) := by
        split
        · rename_i hmask
          rw [List.mem_insert_iff, or_comm, and_iff_right hmask]
        · rename_i hmask
          exact (or_iff_left fun h => hmask h.1).symm
      rw [ih, hset, or_assoc]
      refine or_congr_right ⟨?_, ?_⟩
      · rintro (⟨hmask, rfl⟩ | ⟨d, h1, h2, h3, hmask, rfl⟩)
        · exact ⟨day, le_rfl, by omega, by omega, hmask, rfl⟩
        · simp only [addDays] at h1 h3
          exact ⟨d, by omega, h2, by omega, hmask, rfl⟩
      · rintro ⟨d, h1, h2, h3, hmask, rfl⟩
        by_cases hd : d.days = day.days
        · obtain rfl : d = day := by cases d; cases day; exact congrArg NaiveDate.mk hd
          exact .inl ⟨hmask, rfl⟩
        · refine .inr ⟨d, ?_, h2, ?_, hmask, rfl⟩ <;>
          · simp only [addDays]
            omega

/-- The row gives its service a range of days with a mask of weekdays, of
which a date is one. -/
def RunsBetween (row : Row) (sid : String) (d : NaiveDate) : Prop :=
  row.find "service_id" = some sid ∧ ∃ first last, parseGtfsDate (row.get "start_date") = some first ∧
    parseGtfsDate (row.get "end_date") = some last ∧ first.days ≤ d.days ∧ d.days ≤ last.days ∧
    row.get (DAYS.getD d.weekday "") = "1"

/-- The row names a service and a date. -/
def NamesDate (row : Row) (sid : String) (d : NaiveDate) : Prop :=
  row.find "service_id" = some sid ∧ parseGtfsDate (row.get "date") = some d

/-- The row's dates can be read and are at most 731 days apart. -/
def ShortRange (row : Row) : Prop :=
  ∃ first last, parseGtfsDate (row.get "start_date") = some first ∧ parseGtfsDate (row.get "end_date") = some last ∧
    first.FourDigits ∧ last.FourDigits ∧ last.days ≤ first.days + 731

theorem mask_getD (row : Row) (d : NaiveDate) :
    (DAYS.map fun day => decide (row.get day = "1")).getD d.weekday false = true ↔
      row.get (DAYS.getD d.weekday "") = "1" := by
  have h : d.weekday < DAYS.length := by
    show ((d.days + 3) % 7).toNat < 7
    omega
  rw [List.getD_eq_getElem?_getD, List.getD_eq_getElem?_getD, List.getElem?_map, List.getElem?_eq_getElem h]
  simp

theorem calendarRow_removed (s : Services) (row : Row) : (calendarRow s row).removed = s.removed := by
  unfold calendarRow
  split <;> rfl

theorem mem_calendarRow {row : Row} (hrow : ShortRange row) (s : Services) :
    x ∈ Map.valuesAt (calendarRow s row).added sid ↔
      x ∈ Map.valuesAt s.added sid ∨ ∃ d, RunsBetween row sid d ∧ x = ymdU32 d := by
  obtain ⟨first, last, hfirst, hlast, -, -, hle⟩ := hrow
  simp only [calendarRow, RunsBetween, hfirst, hlast, Option.some.injEq]
  cases hid : row.find "service_id" with
  | none => simp
  | some k =>
    simp only [valuesAt_insert]
    split_ifs with hk
    · subst hk
      rw [mem_maskedDays]
      refine or_congr_right (exists_congr fun d => ?_)
      rw [mask_getD]
      constructor
      · rintro ⟨h1, h2, -, hmask, rfl⟩
        exact ⟨⟨rfl, first, last, rfl, rfl, h1, h2, hmask⟩, rfl⟩
      · rintro ⟨⟨-, _, _, rfl, rfl, h1, h2, hmask⟩, rfl⟩
        exact ⟨h1, h2, by omega, hmask, rfl⟩
    · simp [Ne.symm hk]

/-- What the rows of `calendar.txt` add. -/
theorem mem_foldl_calendarRow {rows : List Row} (hrows : ∀ row ∈ rows, ShortRange row) (s : Services) :
    (x ∈ Map.valuesAt (rows.foldl calendarRow s).added sid ↔
      x ∈ Map.valuesAt s.added sid ∨ ∃ row ∈ rows, ∃ d, RunsBetween row sid d ∧ x = ymdU32 d) ∧
    (rows.foldl calendarRow s).removed = s.removed := by
  induction rows generalizing s with
  | nil => simp
  | cons row rows ih =>
    obtain ⟨h1, h2⟩ := ih (fun r hr => hrows r (List.mem_cons_of_mem row hr)) (calendarRow s row)
    rw [List.foldl_cons, h1, h2, mem_calendarRow (hrows row List.mem_cons_self), calendarRow_removed]
    simp [or_assoc]

theorem calendarDateRow_eq (s : Services) (row : Row) :
    (x ∈ Map.valuesAt (calendarDateRow s row).added sid ↔
      x ∈ Map.valuesAt s.added sid ∨
        ∃ d, NamesDate row sid d ∧ row.get "exception_type" ≠ "2" ∧ x = ymdU32 d) ∧
    (x ∈ Map.valuesAt (calendarDateRow s row).removed sid ↔
      x ∈ Map.valuesAt s.removed sid ∨
        ∃ d, NamesDate row sid d ∧ row.get "exception_type" = "2" ∧ x = ymdU32 d) := by
  simp only [calendarDateRow, NamesDate]
  cases hdate : parseGtfsDate (row.get "date") with
  | none => simp
  | some date =>
    cases hid : row.find "service_id" with
    | none => simp
    | some k =>
      simp only [Option.some.injEq]
      have hinsert : ∀ {P : Prop} {m : Map String (List UInt32)}, P → (x ∈ Map.valuesAt (insertDate k (ymdU32 date) m) sid ↔
          x ∈ Map.valuesAt m sid ∨ ∃ d, (k = sid ∧ date = d) ∧ P ∧ x = ymdU32 d) := by
        intro P m hP
        rw [mem_insertDate]
        refine or_congr_right ⟨?_, ?_⟩
        · rintro ⟨rfl, rfl⟩
          exact ⟨date, ⟨rfl, rfl⟩, hP, rfl⟩
        · rintro ⟨d, ⟨rfl, rfl⟩, -, rfl⟩
          exact ⟨rfl, rfl⟩
      split_ifs with h2
      · exact ⟨by simp [h2], hinsert h2⟩
      · exact ⟨hinsert h2, by simp [h2]⟩

/-- What the rows of `calendar_dates.txt` add, and what they remove. -/
theorem mem_foldl_calendarDateRow (rows : List Row) (s : Services) :
    (x ∈ Map.valuesAt (rows.foldl calendarDateRow s).added sid ↔
      x ∈ Map.valuesAt s.added sid ∨
        ∃ row ∈ rows, ∃ d, NamesDate row sid d ∧ row.get "exception_type" ≠ "2" ∧ x = ymdU32 d) ∧
    (x ∈ Map.valuesAt (rows.foldl calendarDateRow s).removed sid ↔
      x ∈ Map.valuesAt s.removed sid ∨
        ∃ row ∈ rows, ∃ d, NamesDate row sid d ∧ row.get "exception_type" = "2" ∧ x = ymdU32 d) := by
  induction rows generalizing s with
  | nil => simp
  | cons row rows ih =>
    obtain ⟨h1, h2⟩ := ih (calendarDateRow s row)
    obtain ⟨g1, g2⟩ := @calendarDateRow_eq sid x s row
    rw [List.foldl_cons, h1, h2, g1, g2]
    simp only [or_assoc, List.mem_cons, exists_eq_or_imp, and_self]

/-! ## The days of a service -/

/-- The dates left of a service, where any are. -/
theorem lookup_dates {s : Services} {l : List UInt32} :
    s.dates.lookup sid = some l ↔
      ∃ ds, s.added.lookup sid = some ds ∧
        l = (ds.filter fun d => d ∉ Map.valuesAt s.removed sid).insertionSort (· ≤ ·) ∧ l ≠ [] := by
  simp only [← Map.mem_entries, Services.dates, List.mem_filter, List.mem_map, Sigma.mk.injEq, heq_eq_eq,
    Bool.not_eq_true', List.isEmpty_eq_false_iff]
  constructor
  · rintro ⟨⟨e, he, rfl, rfl⟩, hne⟩
    exact ⟨e.2, he, rfl, hne⟩
  · rintro ⟨ds, hds, rfl, hne⟩
    exact ⟨⟨_, hds, rfl, rfl⟩, hne⟩

/-- The dates left are in ascending order, for the search. -/
theorem binarySearch_dates (s : Services) :
    (s.dates.lookup sid).any (binarySearch · x) = true ↔
      x ∈ Map.valuesAt s.added sid ∧ x ∉ Map.valuesAt s.removed sid := by
  have htotal : Std.Total fun a b : UInt32 => a ≤ b := ⟨fun a b => UInt32.le_total a b⟩
  have htrans : IsTrans UInt32 fun a b => a ≤ b := ⟨fun _ _ _ => UInt32.le_trans⟩
  rw [Option.any_eq_true]
  constructor
  · rintro ⟨l, hl, hx⟩
    obtain ⟨ds, hds, rfl, -⟩ := lookup_dates.mp hl
    rw [binarySearch_iff (List.pairwise_insertionSort _ _), List.mem_insertionSort, List.mem_filter,
      decide_eq_true_eq] at hx
    rw [Map.valuesAt, hds, Option.getD_some]
    exact hx
  · rintro ⟨hx, hr⟩
    cases hds : s.added.lookup sid with
    | none => simp [Map.valuesAt, hds] at hx
    | some ds =>
      rw [Map.valuesAt, hds, Option.getD_some] at hx
      have hmem : x ∈ (ds.filter fun d => d ∉ Map.valuesAt s.removed sid).insertionSort (· ≤ ·) := by
        rw [List.mem_insertionSort, List.mem_filter, decide_eq_true_eq]
        exact ⟨hx, hr⟩
      exact ⟨_, lookup_dates.mpr ⟨ds, hds, rfl, List.ne_nil_of_mem hmem⟩,
        (binarySearch_iff (List.pairwise_insertionSort _ _)).mpr hmem⟩

theorem find_iff {row : Row} {k v : String} (hv : v ≠ "") : row.find k = some v ↔ row.get k = v := by
  unfold Row.find
  split
  · rename_i h
    rw [String.isEmpty_iff.mp h]
    exact ⟨nofun, fun e => absurd e.symm hv⟩
  · rw [Option.some.injEq]

/-- The days between two dates of the years 1 to 9999 are in the calendar. -/
theorem RunsBetween.year {row : Row} {d : NaiveDate} (h : RunsBetween row sid d) (hrow : ShortRange row) :
    -262143 ≤ d.year ∧ d.year ≤ 262142 := by
  obtain ⟨-, first, last, hf, hl, h1, h2, -⟩ := h
  obtain ⟨_, _, hf', hl', hfour, hfour', -⟩ := hrow
  cases hf.symm.trans hf'
  cases hl.symm.trans hl'
  obtain ⟨hy, hy'⟩ := d.year_days
  obtain ⟨hfy, hfy'⟩ := first.year_days
  obtain ⟨hly, hly'⟩ := last.year_days
  obtain ⟨hf1, -⟩ := hfour
  obtain ⟨-, hl9⟩ := hfour'
  omega

theorem NamesDate.year {row : Row} {d : NaiveDate} (h : NamesDate row sid d) : -262143 ≤ d.year ∧ d.year ≤ 262142 :=
  year_of_parseCompact h.2

/-- Of a feed, a service's dates are those its calendar rows leave. -/
theorem feedOf_runsOn (rows : String → List Row) (date : UInt32) :
    (feedOf rows).runsOn sid date = ((((rows "calendar_dates.txt").foldl calendarDateRow
      ((rows "calendar.txt").foldl calendarRow {})).dates).lookup sid).any (binarySearch · date) := by
  rw [GtfsStore.runsOn]
  exact congrArg (fun m : Map String (List UInt32) => (m.lookup sid).any (binarySearch · date))
    (foldl_frame GtfsStore.serviceDates (fun s row => (congrArg GtfsStore.serviceDates (stopTimeRow_frame s row)).trans rfl) _ _)

/-- A row names a date exactly if it names the date's number. -/
theorem named_iff {sid : String} {d : NaiveDate} {row : Row} (hsid : sid ≠ "") (hd : d.FourDigits) (P : String → Prop) :
    (∃ e, NamesDate row sid e ∧ P (row.get "exception_type") ∧ ymdU32 d = ymdU32 e) ↔
      row.get "service_id" = sid ∧ parseGtfsDate (row.get "date") = some d ∧ P (row.get "exception_type") := by
  constructor
  · rintro ⟨e, he, hp, heq⟩
    obtain rfl := (ymdU32_inj hd he.year).mp heq
    exact ⟨(find_iff hsid).mp he.1, he.2, hp⟩
  · rintro ⟨hid, hdate, hp⟩
    exact ⟨d, ⟨(find_iff hsid).mpr hid, hdate⟩, hp, rfl⟩

end Gtfs

/-- In the feed of an archive whose `calendar.txt` has ranges of at most 731
days, a service runs on the days of its ranges and masks and on those added,
but for those removed. -/
theorem runsOn_iff (zip : List ZipEntry) (store : GtfsStore) (sid : String) (d : NaiveDate)
    (hstore : Gtfs.parseReader (some zip) = .ok store)
    (hrows : ∀ row ∈ Gtfs.rowsOf zip "calendar.txt", Gtfs.ShortRange row) (hsid : sid ≠ "") (hd : d.FourDigits) :
    store.runsOn sid (ymdU32 d) = true ↔
      ((∃ row ∈ Gtfs.rowsOf zip "calendar.txt", row.get "service_id" = sid ∧
          ∃ first last, Gtfs.parseGtfsDate (row.get "start_date") = some first ∧
            Gtfs.parseGtfsDate (row.get "end_date") = some last ∧ first.days ≤ d.days ∧ d.days ≤ last.days ∧
            row.get (Gtfs.DAYS.getD d.weekday "") = "1") ∨
        ∃ row ∈ Gtfs.rowsOf zip "calendar_dates.txt", row.get "service_id" = sid ∧
          Gtfs.parseGtfsDate (row.get "date") = some d ∧ row.get "exception_type" ≠ "2") ∧
      ¬∃ row ∈ Gtfs.rowsOf zip "calendar_dates.txt", row.get "service_id" = sid ∧
        Gtfs.parseGtfsDate (row.get "date") = some d ∧ row.get "exception_type" = "2" := by
  obtain ⟨hranges, hnone⟩ := @Gtfs.mem_foldl_calendarRow sid (ymdU32 d) _ hrows {}
  obtain ⟨hadded, hremoved⟩ := @Gtfs.mem_foldl_calendarDateRow sid (ymdU32 d)
    (Gtfs.rowsOf zip "calendar_dates.txt") ((Gtfs.rowsOf zip "calendar.txt").foldl Gtfs.calendarRow {})
  have hempty : ymdU32 d ∉ Map.valuesAt (∅ : Map String (List UInt32)) sid := by simp [Map.valuesAt]
  rw [hranges, or_iff_right hempty] at hadded
  rw [hnone, or_iff_right hempty] at hremoved
  rw [Gtfs.eq_feedOf hstore, Gtfs.feedOf_runsOn, Gtfs.binarySearch_dates, hadded, hremoved]
  refine and_congr (or_congr ?_ ?_) (not_congr ?_) <;> refine exists_congr fun row => and_congr_right fun hmem => ?_
  · constructor
    · rintro ⟨e, he, heq⟩
      obtain rfl := (ymdU32_inj hd (he.year (hrows row hmem))).mp heq
      exact ⟨(Gtfs.find_iff hsid).mp he.1, he.2⟩
    · rintro ⟨hid, h⟩
      exact ⟨d, ⟨(Gtfs.find_iff hsid).mpr hid, h⟩, rfl⟩
  · exact Gtfs.named_iff hsid hd (· ≠ "2")
  · exact Gtfs.named_iff hsid hd (· = "2")

/-- A feed with a service on Mondays, one of them taken out and a Tuesday put in. -/
def mondayZip : List ZipEntry :=
  [{ name := "calendar.txt"
     headers := some ["service_id", "monday", "tuesday", "wednesday", "thursday", "friday", "saturday", "sunday",
       "start_date", "end_date"]
     rows := [some ["W1", "1", "0", "0", "0", "0", "0", "0", "20260727", "20260810"]] },
    { name := "calendar_dates.txt", headers := some ["service_id", "date", "exception_type"]
      rows := [some ["W1", "20260728", "1"], some ["W1", "20260803", "2"]] }]

theorem mondayZip_store : Gtfs.parseReader (some mondayZip) = .ok (Gtfs.feedOf (Gtfs.rowsOf mondayZip)) := by
  rw [Gtfs.parseReader_eq, show Gtfs.FILES.findSome? (Gtfs.fileError mondayZip) = none by decide +kernel]

theorem mondayZip_shortRange : ∀ row ∈ Gtfs.rowsOf mondayZip "calendar.txt", Gtfs.ShortRange row := by
  intro row hrow
  obtain rfl := List.mem_singleton.mp hrow
  exact ⟨⟨20661⟩, ⟨20675⟩, by decide +kernel, by decide +kernel, by decide +kernel, by decide +kernel, by decide⟩

/-- It runs on the last Monday of the range. -/
theorem runsOn_iff_monday : (Gtfs.feedOf (Gtfs.rowsOf mondayZip)).runsOn "W1" (ymdU32 ⟨20675⟩) = true := by
  refine (runsOn_iff mondayZip _ "W1" ⟨20675⟩ mondayZip_store mondayZip_shortRange (by decide)
    (by decide +kernel)).mpr ⟨.inl ⟨_, List.mem_singleton.mpr rfl, by decide +kernel, ⟨20661⟩, ⟨20675⟩,
      by decide +kernel, by decide +kernel, by decide, by decide, by decide +kernel⟩, ?_⟩
  rintro ⟨row, hrow, -, hdate, -⟩
  rcases List.mem_cons.mp hrow with rfl | hrow
  · exact absurd hdate (by decide +kernel)
  · obtain rfl := List.mem_singleton.mp hrow
    exact absurd hdate (by decide +kernel)

end Impl

end OV
