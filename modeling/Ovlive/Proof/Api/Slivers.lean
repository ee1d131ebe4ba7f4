import Ovlive.Proof.Api.BoxParam
import Ovlive.Proof.Gtfs.Nearest

/-!
# The cells that a stops request reads

The guard of `stops_in_viewport` limits the area of a box, and `in_bbox` reads the
cells between its corners. A box that is accepted has finite corners, so if it
has three rows and three columns or more, both of its sides are longer than a
cell and the area limits how many there are (`cells_of_wide`). A thin box has as
many cells as it is long: the scan is small exactly if the box is no sliver
(`scan_small_iff`), and none on the globe is (`not_sliver_of_globe`).
-/

namespace OV.Impl

open StopGrid

/-- A box one or two cells wide, and thousands of them long. -/
def Sliver (b : BBox) : Prop :=
  let rows := (cell b.maxLat b.maxLon).1 - (cell b.minLat b.minLon).1
  let columns := (cell b.maxLat b.maxLon).2 - (cell b.minLat b.minLon).2
  (columns = 0 ∧ 10000 ≤ rows) ∨ (columns = 1 ∧ 5000 ≤ rows) ∨ (rows = 0 ∧ 10000 ≤ columns) ∨ (rows = 1 ∧ 5000 ≤ columns)

variable {b : BBox} {g : StopGrid} {cosDegrees : Num → Num} {limit : Option Nat} {answer : StopsResponse}

theorem length_rangeInclusive (lo hi : Int) : (rangeInclusive lo hi).length = (hi - lo + 1).toNat := by
  rw [rangeInclusive, List.length_map, List.length_range]

theorem length_cells (b : BBox) :
    (cells b).length = ((cell b.maxLat b.maxLon).1 - (cell b.minLat b.minLon).1 + 1).toNat *
      ((cell b.maxLat b.maxLon).2 - (cell b.minLat b.minLon).2 + 1).toNat := by
  rw [cells, List.length_product, length_rangeInclusive, length_rangeInclusive]

theorem accepted_of_area (cosDegrees : Num → Num) (g : StopGrid) (limit : Option Nat)
    (h : (!(((b.maxLon.sub b.minLon).f64.abs.mul (b.maxLat.sub b.minLat).f64.abs).f64).isFinite ||
      MAX_STOPS_BBOX_AREA.lt ((b.maxLon.sub b.minLon).f64.abs.mul (b.maxLat.sub b.minLat).f64.abs).f64) = false) :
    ∃ answer, stopsInViewport cosDegrees (some g) (some b) limit = .ok answer :=
  ⟨_, if_neg (Bool.eq_false_iff.mp h)⟩

/-- The area of sides that is accepted. -/
def SmallArea (x y : ℚ) : Prop :=
  let area := ((Num.fin x).f64.abs.mul (Num.fin y).f64.abs).f64
  area.isFinite = true ∧ MAX_STOPS_BBOX_AREA.lt area = false

/-- The corners of a box that is accepted are finite, and its area is small. -/
theorem corners_of_accepted (h : stopsInViewport cosDegrees (some g) (some b) limit = .ok answer) :
    ∃ p q r s : ℚ, b.minLon = .fin p ∧ b.minLat = .fin q ∧ b.maxLon = .fin r ∧ b.maxLat = .fin s ∧
      SmallArea (r - p) (s - q) := by
  unfold stopsInViewport at h
  simp only at h
  split at h
  · cases h
  · rename_i harea
    rw [Bool.or_eq_true, not_or, Bool.not_eq_true, Bool.not_eq_eq_eq_not, Bool.not_false, Bool.not_eq_true] at harea
    obtain ⟨hfin, hsmall⟩ := harea
    obtain ⟨hminLat, hmaxLat, hminLon, hmaxLon⟩ := finite_of_area hfin
    obtain ⟨p, q, r, s, hp, hq, hr, hs⟩ := BBox.Finite.exists_fin ⟨hminLon, hminLat, hmaxLon, hmaxLat⟩
    rw [hp, hq, hr, hs, Num.sub_fin, Num.sub_fin] at hfin hsmall
    exact ⟨p, q, r, s, hp, hq, hr, hs, hfin, hsmall⟩

/-- A side that is not rounded to an infinity is no shorter than a number of few digits below it. -/
theorem side_of_isFinite {x : ℚ} {n k : Nat} (hfin : (Num.fin x).f64.abs.isFinite = true) (hn : n < 2 ^ 53)
    (hk : k ≤ 1000) (hx : (n / 2 ^ k : ℚ) ≤ x) : ∃ x' : ℚ, (Num.fin x).f64.abs = .fin x' ∧ (n / 2 ^ k : ℚ) ≤ x' := by
  have hle := Num.f64_mono (a := .fin (n / 2 ^ k)) (b := .fin x) (decide_eq_true hx)
  have hkept : (Num.fin (n / 2 ^ k : ℚ)).f64 = .fin (n / 2 ^ k) := by
    simpa using Num.f64_dyadic (m := (n : Int)) (k := k) (by omega) hk
  obtain ⟨x', hx'⟩ := Num.isFinite_iff.mp (Num.isFinite_of_abs hfin)
  rw [hkept, hx'] at hle
  exact ⟨|x'|, by rw [hx', Num.abs_fin], (of_decide_eq_true hle).trans (le_abs_self x')⟩

/-- What is left of the area after rounding is at least a half of it. -/
theorem SmallArea.mul_le {x y : ℚ} {m n : Nat} (h : SmallArea x y) (hm : m < 2 ^ 53) (hn : n < 2 ^ 53)
    (hx : (m / 2 ^ 4 : ℚ) ≤ x) (hy : (n / 2 ^ 5 : ℚ) ≤ y) : m * n ≤ 1024 := by
  obtain ⟨hfin, hsmall⟩ := h
  obtain ⟨hfinX, hfinY⟩ := Num.isFinite_of_mul (Num.isFinite_of_f64 hfin)
  obtain ⟨x', hx', hlx⟩ := side_of_isFinite hfinX hm (by omega) hx
  obtain ⟨y', hy', hly⟩ := side_of_isFinite hfinY hn (by omega) hy
  rw [hx', hy'] at hsmall
  have htwo : (Num.fin 2).f64 = .fin 2 := by simpa using Num.f64_dyadic (m := 2) (k := 0) (by omega) (by omega)
  have hxy : x' * y' < 2 := by
    by_contra hle
    have hmono := Num.f64_mono (a := .fin 2) (b := .fin (x' * y')) (decide_eq_true (not_lt.mp hle))
    rw [htwo] at hmono
    have hlt : MAX_STOPS_BBOX_AREA.lt (.fin 2) = true := by decide
    rw [Num.mul_fin, Num.lt_of_lt_of_le hlt hmono] at hsmall
    cases hsmall
  have hprod : (m / 2 ^ 4 : ℚ) * (n / 2 ^ 5) < 2 :=
    (mul_le_mul hlx hly (by positivity) (le_trans (by positivity) hlx)).trans_lt hxy
  have hcells : (m * n : ℚ) < 1024 := by linarith
  exact_mod_cast hcells.le

/-- Cells that are apart have coordinates that are, by one cell less and an error. -/
theorem cells_apart {c p q : ℚ} {n : Int} (hc : 0 < c)
    (hn : ((Num.fin q).divBy c).f64.floor.toI32 - ((Num.fin p).divBy c).f64.floor.toI32 = n) (hpos : 0 < n) :
    (n - 1 - 1 / 2 ^ 20) * c < q - p := by
  change (Num.fin (q * c⁻¹)).f64.floor.toI32 - (Num.fin (p * c⁻¹)).f64.floor.toI32 = n at hn
  have hhi := Num.toI32_le (Num.fin (q * c⁻¹)).f64.floor
  have hlo := Num.le_toI32 (Num.fin (p * c⁻¹)).f64.floor
  have hq := Num.lt_of_le_toI32_floor_f64 (q := q * c⁻¹) le_rfl (by omega)
  have hp := Num.lt_of_toI32_floor_f64 (q := p * c⁻¹) (Int.lt_succ _) (by omega)
  have hcast : ((Num.fin (q * c⁻¹)).f64.floor.toI32 : ℚ) - (Num.fin (p * c⁻¹)).f64.floor.toI32 = n := by
    exact_mod_cast hn
  push_cast at hp
  calc (n - 1 - 1 / 2 ^ 20) * c < (q * c⁻¹ - p * c⁻¹) * c := mul_lt_mul_of_pos_right (by linarith) hc
    _ = q - p := by field_simp

/-- Three rows and three columns fit a small area only where there are few of them. -/
theorem cells_of_wide {p q r s : ℚ} {rows columns : Int} (harea : SmallArea (r - p) (s - q))
    (hrows : ((Num.fin s).divBy CELL_LAT).f64.floor.toI32 - ((Num.fin q).divBy CELL_LAT).f64.floor.toI32 = rows)
    (hcolumns : ((Num.fin r).divBy CELL_LON).f64.floor.toI32 - ((Num.fin p).divBy CELL_LON).f64.floor.toI32 = columns)
    (hr : 2 ≤ rows) (hc : 2 ≤ columns) : (rows + 1) * (columns + 1) ≤ 10000 := by
  have hlat := cells_apart (by rw [CELL_LAT_eq]; norm_num) hrows (by omega)
  have hlon := cells_apart (by rw [CELL_LON_eq]; norm_num) hcolumns (by omega)
  have hfewRows : rows < 2 ^ 32 := by
    have := Num.toI32_le ((Num.fin s).divBy CELL_LAT).f64.floor
    have := Num.le_toI32 ((Num.fin q).divBy CELL_LAT).f64.floor
    omega
  have hfewColumns : columns < 2 ^ 32 := by
    have := Num.toI32_le ((Num.fin r).divBy CELL_LON).f64.floor
    have := Num.le_toI32 ((Num.fin p).divBy CELL_LON).f64.floor
    omega
  obtain ⟨n, rfl⟩ : ∃ n : Nat, rows = n + 1 := ⟨(rows - 1).toNat, by omega⟩
  obtain ⟨m, rfl⟩ : ∃ m : Nat, columns = m + 1 := ⟨(columns - 1).toNat, by omega⟩
  have hn : (1 : ℚ) ≤ n := by exact_mod_cast (by omega : 1 ≤ n)
  have hm : (1 : ℚ) ≤ m := by exact_mod_cast (by omega : 1 ≤ m)
  rw [CELL_LAT_eq] at hlat
  rw [CELL_LON_eq] at hlon
  push_cast at hlat hlon
  have hcells : m * n ≤ 1024 := harea.mul_le (by omega) (by omega) (by linarith) (by linarith)
  have hsum : (0 : Int) ≤ ((m : Int) - 1) * (n - 1) := mul_nonneg (by omega) (by omega)
  calc ((n : Int) + 1 + 1) * (m + 1 + 1) = 3 * (m * n : Nat) + 6 - 2 * ((m - 1) * (n - 1)) := by
        push_cast
        ring
    _ ≤ 10000 := by omega

/-- The cells of so many rows and columns, where one of the two is short. -/
theorem cells_of_thin {rows columns : Int} (h : rows < 2 ∨ columns < 2) :
    (rows + 1).toNat * (columns + 1).toNat ≤ 10000 ↔
      ¬((columns = 0 ∧ 10000 ≤ rows) ∨ (columns = 1 ∧ 5000 ≤ rows) ∨ (rows = 0 ∧ 10000 ≤ columns) ∨
        (rows = 1 ∧ 5000 ≤ columns)) := by
  have hshort {n : Int} (hn : n < 2) :
      (n + 1).toNat = 0 ∧ n < 0 ∨ (n + 1).toNat = 1 ∧ n = 0 ∨ (n + 1).toNat = 2 ∧ n = 1 := by
    omega
  rcases h with hrows | hcolumns
  · rcases hshort hrows with ⟨hn, h⟩ | ⟨hn, h⟩ | ⟨hn, h⟩ <;> rw [hn] <;> omega
  · rcases hshort hcolumns with ⟨hn, h⟩ | ⟨hn, h⟩ | ⟨hn, h⟩ <;> rw [hn] <;> omega

/-- A request that is accepted reads at most 10000 cells exactly if its box is no
sliver. -/
theorem scan_small_iff (h : stopsInViewport cosDegrees (some g) (some b) limit = .ok answer) :
    (cells b).length ≤ 10000 ↔ ¬ Sliver b := by
  obtain ⟨p, q, r, s, hp, hq, hr, hs, harea⟩ := corners_of_accepted h
  rw [length_cells, Sliver, hp, hq, hr, hs]
  dsimp only [cell]
  generalize hrows : ((Num.fin s).divBy CELL_LAT).f64.floor.toI32 - ((Num.fin q).divBy CELL_LAT).f64.floor.toI32 = rows
  generalize hcolumns : ((Num.fin r).divBy CELL_LON).f64.floor.toI32 - ((Num.fin p).divBy CELL_LON).f64.floor.toI32 = columns
  by_cases hthin : rows < 2 ∨ columns < 2
  · exact cells_of_thin hthin
  · rw [not_or, not_lt, not_lt] at hthin
    have hcells := cells_of_wide harea hrows hcolumns hthin.1 hthin.2
    refine iff_of_true ?_ (by omega)
    zify
    rw [Int.toNat_of_nonneg (by omega), Int.toNat_of_nonneg (by omega)]
    exact hcells

theorem cells_few {c p q : ℚ} {n m : Int} (hc : 0 < c)
    (hn : ((Num.fin q).divBy c).f64.floor.toI32 - ((Num.fin p).divBy c).f64.floor.toI32 = n) (hm : 0 < m)
    (h : q - p ≤ (m - 1 - 1 / 2 ^ 20) * c) : n < m := by
  by_contra hle
  rw [not_lt] at hle
  have hapart := cells_apart hc hn (by omega)
  have hcast : (m : ℚ) ≤ n := by exact_mod_cast hle
  exact absurd (mul_le_mul_of_nonneg_right (sub_le_sub_right (sub_le_sub_right hcast 1) _) hc.le) (not_le.mpr (hapart.trans_le h))

/-- On the globe no box is a sliver: 180 degrees are 3600 rows, 360 are 4500 columns. -/
theorem not_sliver_of_globe {p q r s : ℚ} (hp : |p| ≤ 180) (hr : |r| ≤ 180) (hq : |q| ≤ 90) (hs : |s| ≤ 90) :
    ¬ Sliver { minLon := .fin p, minLat := .fin q, maxLon := .fin r, maxLat := .fin s } := by
  unfold Sliver cell
  dsimp only
  generalize hrows : ((Num.fin s).divBy CELL_LAT).f64.floor.toI32 - ((Num.fin q).divBy CELL_LAT).f64.floor.toI32 = rows
  generalize hcolumns : ((Num.fin r).divBy CELL_LON).f64.floor.toI32 - ((Num.fin p).divBy CELL_LON).f64.floor.toI32 = columns
  obtain ⟨hp₁, hp₂⟩ := abs_le.mp hp
  obtain ⟨hq₁, hq₂⟩ := abs_le.mp hq
  obtain ⟨hr₁, hr₂⟩ := abs_le.mp hr
  obtain ⟨hs₁, hs₂⟩ := abs_le.mp hs
  have hfew : rows < 5000 := cells_few (by rw [CELL_LAT_eq]; norm_num) hrows (by norm_num) (by rw [CELL_LAT_eq]; linarith)
  have hnarrow : columns < 5000 :=
    cells_few (by rw [CELL_LON_eq]; norm_num) hcolumns (by norm_num) (by rw [CELL_LON_eq]; linarith)
  omega

theorem scan_small_utrecht :
    let b : BBox := { minLon := .fin 5.1, minLat := .fin 52, maxLon := .fin 5.2, maxLat := .fin 52.1 }
    (cells b).length ≤ 10000 ↔ ¬ Sliver b :=
  have ⟨_, h⟩ := accepted_of_area (fun _ => .fin 0.615) { store := {} } none (by decide +kernel)
  scan_small_iff h

/-- From pole to pole, and ten times as far: a line has no area. -/
theorem scan_not_small :
    let b : BBox := { minLon := .fin 5, minLat := .fin (-1000), maxLon := .fin 5, maxLat := .fin 1000 }
    parseBbox "5,-1000,5,1000" = some b ∧
      (∃ answer, stopsInViewport (fun _ => .fin 1) (some { store := {} }) (some b) none = .ok answer) ∧
      ¬ (cells b).length ≤ 10000 := by
  intro b
  refine ⟨by decide +kernel, accepted_of_area _ _ _ (by decide +kernel), ?_⟩
  rw [length_cells]
  decide +kernel

end OV.Impl
