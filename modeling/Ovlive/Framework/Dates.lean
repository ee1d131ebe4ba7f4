import Ovlive.Framework.Clock

/-!
# Dates, written and read

A date is determined by its year, month and day (`daysFrom_ymd`), and its text
is read back as that year, month and day (`parseDashed_formatDashed`). So two
dates have different texts (`formatDashed_injective`), and a text read as a
date at all is read as the date it was written from (`eq_of_parseDashed`).
-/

namespace OV

namespace NaiveDate

/-! ## Years, months and days -/

/-- The days up to a year, month and day, as `fromYmdOpt` counts them. -/
def daysFrom (y : Int) (m d : Nat) : Int :=
  let y' := if m ≤ 2 then y - 1 else y
  let yoe := (y' % 400).toNat
  let doy := (153 * (if 2 < m then m - 3 else m + 9) + 2) / 5 + d - 1
  let doe := yoe * 365 + yoe / 4 - yoe / 100 + doy
  y' / 400 * 146097 + doe - 719468

/-- A day of an era of 400 years, by its century, its cycle of four years in
that, and its year in that. A leap day ends a year that ends a cycle, and a
cycle that ends a century only at the end of the era. -/
theorem exists_era_split {doe : Nat} (h : doe < 146097) :
    ∃ k u v doy, k ≤ 3 ∧ u ≤ 24 ∧ v ≤ 3 ∧ doy ≤ 365 ∧ doe = 36524 * k + 1461 * u + 365 * v + doy ∧
      (doy = 365 → v = 3 ∧ (u = 24 → k = 3)) := by
  obtain ⟨k, hk, hk0, hk1, hk2⟩ : ∃ k, k ≤ 3 ∧ 36524 * k ≤ doe ∧ doe - 36524 * k ≤ 36524 ∧
      (doe - 36524 * k = 36524 → k = 3) := ⟨min 3 (doe / 36524), by omega⟩
  generalize hr : doe - 36524 * k = r at hk1 hk2
  obtain ⟨u, hu, hu0, hu1, hu2⟩ : ∃ u, u ≤ 24 ∧ 1461 * u ≤ r ∧ r - 1461 * u ≤ 1460 ∧
      (u = 24 → r - 1461 * u = 1460 → r = 36524) := ⟨min 24 (r / 1461), by omega⟩
  generalize hs : r - 1461 * u = s at hu1 hu2
  obtain ⟨v, hv, hv0, hv1, hv2⟩ : ∃ v, v ≤ 3 ∧ 365 * v ≤ s ∧ s - 365 * v ≤ 365 ∧
      (s - 365 * v = 365 → s = 1460 ∧ v = 3) := ⟨min 3 (s / 365), by omega⟩
  exact ⟨k, u, v, s - 365 * v, hk, hu, hv, hv1, by omega, fun hd =>
    ⟨(hv2 hd).2, fun hu24 => hk2 (hu2 hu24 (hv2 hd).1)⟩⟩

/-- Of the leap days before a day of an era, `ymd` takes off those of the
finished cycles, with the exceptions at the centuries. -/
theorem era_year_of {k u v doy a b c t doe : Nat} (hk : k ≤ 3) (hu : u ≤ 24) (hv : v ≤ 3) (hd : doy ≤ 365)
    (h : doe = 36524 * k + 1461 * u + 365 * v + doy) (ha : a = 25 * k + u + t) (hb : b = k + c)
    (ht : t = (24 * k + u + 365 * v + doy) / 1460) (hl : doy = 365 → v = 3) :
    (doe - a + b - c) / 365 = 100 * k + 4 * u + v := by
  have h1 : t ≤ 1 ∧ t ≤ doy ∧ doy - t < 365 := by omega
  have h2 : doe - a + b - c = 365 * (100 * k + 4 * u + v) + (doy - t) := by omega
  rw [h2]
  omega

theorem era_centuries {k u v doy doe : Nat} (hk : k ≤ 3) (hu : u ≤ 24) (hv : v ≤ 3) (hd : doy ≤ 365)
    (h : doe = 36524 * k + 1461 * u + 365 * v + doy) (hl : doy = 365 → v = 3 ∧ (u = 24 → k = 3)) :
    doe / 36524 = k + doe / 146096 := by
  rcases Nat.lt_or_ge (1461 * u + 365 * v + doy) 36524 with hlt | hge
  · have h1 : doe / 36524 = k := by omega
    have h2 : doe / 146096 = 0 := by omega
    omega
  · obtain rfl : k = 3 := by omega
    omega

/-- The year of the era that `ymd` computes for a day is the one it is in. -/
theorem era_year {k u v doy doe : Nat} (hk : k ≤ 3) (hu : u ≤ 24) (hv : v ≤ 3) (hd : doy ≤ 365)
    (h : doe = 36524 * k + 1461 * u + 365 * v + doy) (hl : doy = 365 → v = 3 ∧ (u = 24 → k = 3)) :
    (doe - doe / 1460 + doe / 36524 - doe / 146096) / 365 = 100 * k + 4 * u + v := by
  have ha : doe / 1460 = 25 * k + u + (24 * k + u + 365 * v + doy) / 1460 := by omega
  exact era_year_of hk hu hv hd h ha (era_centuries hk hu hv hd h hl) rfl fun h => (hl h).1

/-- Within an era the computed year is below 400, and starts on the day or
before it, less than 366 days ago. -/
theorem era_bounds {doe yoe : Nat} (hdoe : doe < 146097)
    (hyoe : yoe = (doe - doe / 1460 + doe / 36524 - doe / 146096) / 365) :
    yoe < 400 ∧ yoe * 365 + yoe / 4 - yoe / 100 ≤ doe ∧ doe - (365 * yoe + yoe / 4 - yoe / 100) < 366 := by
  obtain ⟨k, u, v, doy, hk, hu, hv, hd, h, hl⟩ := exists_era_split hdoe
  rw [era_year hk hu hv hd h hl] at hyoe
  have h4 : yoe / 4 = 25 * k + u := by omega
  have h100 : yoe / 100 = k := by omega
  omega

theorem month_bounds {doy mp : Nat} (hdoy : doy < 366) (hmp : mp = (5 * doy + 2) / 153) :
    mp < 12 ∧ (153 * mp + 2) / 5 ≤ doy ∧ doy - (153 * mp + 2) / 5 < 31 := by
  omega

theorem daysFrom_march {era : Int} {yoe mp d : Nat} (hy : yoe < 400) (hm : mp < 12) :
    daysFrom (yoe + era * 400 + if (if mp < 10 then mp + 3 else mp - 9) ≤ 2 then 1 else 0)
        (if mp < 10 then mp + 3 else mp - 9) d =
      era * 146097 + (yoe * 365 + yoe / 4 - yoe / 100 + ((153 * mp + 2) / 5 + d - 1) : Nat) - 719468 := by
  have hdiv : ((yoe : Int) + era * 400) / 400 = era := by omega
  have hmod : (((yoe : Int) + era * 400) % 400).toNat = yoe := by omega
  simp only [daysFrom]
  by_cases h10 : mp < 10
  · have h2 : ¬ mp + 3 ≤ 2 := by omega
    simp only [h10, if_true, h2, if_false, add_zero, hdiv, hmod, not_le.mp h2, Nat.add_sub_cancel]
  · have h2 : mp - 9 ≤ 2 := by omega
    have h9 : mp - 9 + 9 = mp := by omega
    simp only [h10, if_false, h2, if_true, add_sub_cancel_right, hdiv, hmod, not_lt.mpr h2, h9]

/-- The year, month and day of a date lead back to it. -/
theorem daysFrom_ymd (d : NaiveDate) : daysFrom d.year d.month d.day = d.days := by
  simp only [year, month, day, ymd]
  generalize hdoe : ((d.days + 719468) % 146097).toNat = doe
  generalize hyoe : (doe - doe / 1460 + doe / 36524 - doe / 146096) / 365 = yoe
  generalize hdoy : doe - (365 * yoe + yoe / 4 - yoe / 100) = doy
  have hlt : doe < 146097 := by omega
  obtain ⟨hy, hstart, hdoy'⟩ := era_bounds hlt hyoe.symm
  rw [hdoy] at hdoy'
  obtain ⟨hm, hday, -⟩ := month_bounds hdoy' rfl
  rw [daysFrom_march hy hm]
  have hback : yoe * 365 + yoe / 4 - yoe / 100 +
      ((153 * ((5 * doy + 2) / 153) + 2) / 5 + (doy - (153 * ((5 * doy + 2) / 153) + 2) / 5 + 1) - 1) = doe := by
    clear hyoe hdoe
    omega
  rw [hback]
  omega

/-- The month and the day of a date have at most two digits, and are not 0. -/
theorem month_day_bounds (d : NaiveDate) : d.month < 100 ∧ d.day < 100 := by
  simp only [month, day, ymd]
  generalize hdoe : ((d.days + 719468) % 146097).toNat = doe
  generalize hyoe : (doe - doe / 1460 + doe / 36524 - doe / 146096) / 365 = yoe
  generalize hdoy : doe - (365 * yoe + yoe / 4 - yoe / 100) = doy
  have hlt : doe < 146097 := by omega
  obtain ⟨-, -, hdoy'⟩ := era_bounds hlt hyoe.symm
  rw [hdoy] at hdoy'
  obtain ⟨hm, -, hday⟩ := month_bounds hdoy' rfl
  constructor
  · split <;> omega
  · omega

theorem ymd_injective {d e : NaiveDate} (h : d.ymd = e.ymd) : d = e := by
  have hd : d.days = e.days := by
    rw [← daysFrom_ymd d, ← daysFrom_ymd e, year, month, day, year, month, day, h]
  cases d
  cases e
  exact congrArg NaiveDate.mk hd

/-- What has a year, month and day is found by them, unless the calendar ends
before it. -/
theorem fromYmdOpt_ymd (d : NaiveDate) {e : NaiveDate} (h : fromYmdOpt d.year d.month d.day = some e) : e = d := by
  simp only [fromYmdOpt] at h
  rw [Option.ite_none_right_eq_some, Option.some.injEq] at h
  obtain ⟨⟨hymd, -⟩, rfl⟩ := h
  exact ymd_injective hymd

/-! ## Texts -/

theorem isWhite_of_isDigit {c : Char} (h : c.isDigit = true) : Text.isWhite c = false := by
  simp only [Char.isDigit, Bool.and_eq_true, decide_eq_true_eq, ge_iff_le, UInt32.le_iff_toNat_le] at h
  simp only [Text.isWhite, Char.toNat]
  have h0 : (48 : Nat) ≤ c.val.toNat := h.1
  have h9 : c.val.toNat ≤ 57 := h.2
  simp only [Bool.or_eq_false_iff, Bool.and_eq_false_iff, beq_eq_false_iff_ne, decide_eq_false_iff_not]
  omega

theorem trimStart_of_isDigit {ds rest : List Char} (hd : ∀ c ∈ ds, c.isDigit = true) (hne : ds ≠ []) :
    Text.trimStart (ds ++ rest) = ds ++ rest := by
  cases ds with
  | nil => exact absurd rfl hne
  | cons c ds =>
    rw [Text.trimStart, List.cons_append, List.dropWhile_cons_of_neg]
    simp [isWhite_of_isDigit (hd c List.mem_cons_self)]

/-- A number is scanned up to its width, or to what is no digit. -/
theorem scanNumber_append {width : Nat} {ds rest : List Char} (hd : ∀ c ∈ ds, c.isDigit = true) (hne : ds ≠ [])
    (hle : ds.length ≤ width) (hr : ds.length = width ∨ ∀ c ∈ rest.head?, c.isDigit = false) :
    scanNumber width (ds ++ rest) = some (Text.ofDigits ds, rest) := by
  have htail : (rest.take (width - ds.length)).takeWhile Char.isDigit = [] := by
    rcases hr with hr | hr
    · rw [hr, Nat.sub_self, List.take_zero, List.takeWhile_nil]
    · cases rest with
      | nil => rw [List.take_nil, List.takeWhile_nil]
      | cons c rest =>
        cases width - ds.length with
        | zero => rfl
        | succ n => rw [List.take_succ_cons, List.takeWhile_cons_of_neg (by simp [hr c rfl])]
  have hscan : ((ds ++ rest).take width).takeWhile Char.isDigit = ds := by
    rw [List.take_append, List.take_of_length_le hle, List.takeWhile_append_of_pos hd, htail, List.append_nil]
  simp only [scanNumber, trimStart_of_isDigit hd hne, hscan, List.isEmpty_iff, hne, if_false, List.drop_left]

theorem toList_padded (width n : Nat) :
    (padded width n).toList = List.replicate (width - (Nat.toDigits 10 n).length) '0' ++ Nat.toDigits 10 n := by
  simp [padded, ← String.length_toList]

theorem isDigit_of_mem_padded (width n : Nat) {c : Char} (h : c ∈ (padded width n).toList) : c.isDigit = true := by
  rw [toList_padded, List.mem_append] at h
  rcases h with h | h
  · rw [List.eq_of_mem_replicate h]
    rfl
  · exact Nat.isDigit_of_mem_toDigits (by decide) (by decide) h

theorem padded_ne_nil (width n : Nat) : (padded width n).toList ≠ [] := by
  rw [toList_padded]
  exact List.append_ne_nil_of_right_ne_nil _ Nat.toDigits_ne_nil

theorem ofDigits_padded (width n : Nat) : Text.ofDigits (padded width n).toList = n := by
  have h : ∀ ds, Text.ofDigits ds = Nat.ofDigitChars 10 ds 0 := by
    intro ds
    rw [Nat.ofDigitChars_eq_foldl]
    rfl
  rw [h, toList_padded, Nat.ofDigitChars_append, Nat.ofDigitChars_replicate_zero, Nat.mul_zero,
    Nat.ofDigitChars_ten_toDigits]

/-- A number below `10 ^ width` is padded to the width. -/
theorem length_padded {width n : Nat} (h0 : 0 < width) (h : n < 10 ^ width) : (padded width n).toList.length = width := by
  have hle := (Nat.length_toDigits_le_iff (b := 10) (by decide) h0).mpr h
  rw [toList_padded, List.length_append, List.length_replicate]
  omega

theorem scanNumber_padded (width : Nat) {n : Nat} (h0 : 0 < width) (h : n < 10 ^ width) (rest : List Char) :
    scanNumber width ((padded width n).toList ++ rest) = some (n, rest) := by
  have hlen := length_padded h0 h
  rw [scanNumber_append (fun _ => isDigit_of_mem_padded _ _) (padded_ne_nil _ _) hlen.le (.inl hlen), ofDigits_padded]

/-- The year of a date's text. -/
def yearText (y : Int) : String :=
  if 0 ≤ y ∧ y ≤ 9999 then padded 4 y.toNat else (if y < 0 then "-" else "+") ++ padded 4 y.natAbs

theorem scanYear_of_isDigit {c : Char} (hc : c.isDigit = true) (s : List Char) :
    scanYear (c :: s) = (scanNumber 4 (c :: s)).map fun p => ((p.1 : Int), p.2) := by
  have htrim : Text.trimStart (c :: s) = c :: s := by
    rw [Text.trimStart, List.dropWhile_cons_of_neg]
    simp [isWhite_of_isDigit hc]
  unfold scanYear
  rw [htrim]
  split
  · rename_i h
    rw [(List.cons.inj h).1] at hc
    exact absurd hc (by decide)
  · rename_i h
    rw [(List.cons.inj h).1] at hc
    exact absurd hc (by decide)
  · rfl

/-- A sign and any number of digits. -/
theorem scanYear_of_sign {sign : Char} (hs : sign = '-' ∨ sign = '+') {ds rest : List Char}
    (hd : ∀ c ∈ ds, c.isDigit = true) (hne : ds ≠ []) (hr : ∀ c ∈ rest.head?, c.isDigit = false) :
    scanYear (sign :: (ds ++ rest)) =
      some (if sign = '-' then -(Text.ofDigits ds : Int) else Text.ofDigits ds, rest) := by
  have hscan : scanNumber (ds ++ rest).length (ds ++ rest) = some (Text.ofDigits ds, rest) :=
    scanNumber_append hd hne (by simp) (.inr hr)
  have hhead : (ds ++ rest).head?.any Char.isDigit = true := by
    cases ds with
    | nil => exact absurd rfl hne
    | cons c ds => exact hd c List.mem_cons_self
  have htrim : Text.trimStart (sign :: (ds ++ rest)) = sign :: (ds ++ rest) := by
    rw [Text.trimStart, List.dropWhile_cons_of_neg]
    rcases hs with rfl | rfl <;> decide
  unfold scanYear
  rw [htrim]
  rcases hs with rfl | rfl
  · simp only [hhead, if_true, hscan, Option.map_some]
  · simp only [hhead, if_true, hscan, Option.map_some]
    rfl

theorem scanYear_yearText (y : Int) (rest : List Char) (hr : ∀ c ∈ rest.head?, c.isDigit = false) :
    scanYear ((yearText y).toList ++ rest) = some (y, rest) := by
  unfold yearText
  split_ifs with h hneg
  · have hscan := scanNumber_padded 4 (n := y.toNat) (by decide) (by omega) rest
    cases hp : (padded 4 y.toNat).toList with
    | nil => exact absurd hp (padded_ne_nil _ _)
    | cons c ds =>
      have hc : c.isDigit = true := isDigit_of_mem_padded 4 y.toNat (by rw [hp]; exact List.mem_cons_self)
      rw [hp] at hscan
      rw [List.cons_append, scanYear_of_isDigit hc, ← List.cons_append, hscan, Option.map_some,
        Int.toNat_of_nonneg h.1]
  · have hscan := scanYear_of_sign (.inl rfl) (fun _ => isDigit_of_mem_padded _ _) (padded_ne_nil 4 y.natAbs) hr
    have habs : -((y.natAbs : Nat) : Int) = y := by omega
    rw [ofDigits_padded, if_pos rfl, habs] at hscan
    simpa [String.toList_append] using hscan
  · have hscan := scanYear_of_sign (.inr rfl) (fun _ => isDigit_of_mem_padded _ _) (padded_ne_nil 4 y.natAbs) hr
    have habs : ((y.natAbs : Nat) : Int) = y := by omega
    rw [ofDigits_padded, if_neg (by decide), habs] at hscan
    simpa [String.toList_append] using hscan

/-- The year, month and day that `parseWith` reads, whatever date they are. -/
def scanDate (sep : List Char) (s : String) : Option (Int × Nat × Nat) := do
  let (y, r) ← scanYear s.toList
  let (m, r) ← scanNumber 2 (← r.dropPrefix? sep)
  let (d, r) ← scanNumber 2 (← r.dropPrefix? sep)
  if r.isEmpty then some (y, m, d) else none

theorem parseWith_eq (sep : List Char) (s : String) :
    parseWith sep s = (scanDate sep s).bind fun p => fromYmdOpt p.1 p.2.1 p.2.2 := by
  simp only [parseWith, scanDate, Option.bind_eq_bind, Option.bind_assoc]
  congr! 5
  split <;> rfl

/-- The text of a date is read as its year, month and day. -/
theorem scanDate_formatDashed (d : NaiveDate) : scanDate ['-'] d.formatDashed = some d.ymd := by
  obtain ⟨hm, hd⟩ := d.month_day_bounds
  have htext : d.formatDashed.toList = (yearText d.year).toList ++
      '-' :: ((padded 2 d.month).toList ++ '-' :: ((padded 2 d.day).toList ++ [])) := by
    simp [formatDashed, formatWith, yearText, String.toList_append]
  have hyear := scanYear_yearText d.year
    ('-' :: ((padded 2 d.month).toList ++ '-' :: ((padded 2 d.day).toList ++ []))) (by simp)
  have hprefix : ∀ r : List Char, ('-' :: r).dropPrefix? ['-'] = some r := by
    intro r
    cases r <;> simp [List.dropPrefix?]
  have hmonth := scanNumber_padded 2 (by decide) hm ('-' :: ((padded 2 d.day).toList ++ []))
  have hday := scanNumber_padded 2 (by decide) hd []
  simp only [scanDate, htext, hyear, hprefix, hmonth, hday, Option.bind_eq_bind, Option.bind_some, List.isEmpty_nil,
    if_true]
  rfl

theorem parseDashed_formatDashed (d : NaiveDate) : parseDashed d.formatDashed = fromYmdOpt d.year d.month d.day := by
  rw [parseDashed, parseWith_eq, scanDate_formatDashed]
  rfl

/-- What a date's text is read as, if it is a date, is the date. -/
theorem eq_of_parseDashed {d e : NaiveDate} (h : parseDashed d.formatDashed = some e) : e = d :=
  fromYmdOpt_ymd d (parseDashed_formatDashed d ▸ h)

theorem formatDashed_injective {d e : NaiveDate} (h : d.formatDashed = e.formatDashed) : d = e := by
  have hd := scanDate_formatDashed d
  rw [h, scanDate_formatDashed, Option.some.injEq] at hd
  exact (ymd_injective hd).symm

end NaiveDate

end OV
