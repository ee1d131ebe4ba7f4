import Ovlive.Framework.Ieee

/-!
# Rounding to nearest

What an operation of a format gives: the number of the format that is nearest to
the exact result, the even one of two (`nearest`), or an infinity where that is
past the largest one (`round`). Rounding keeps the order (`round_mono`), and it
keeps a number that takes no more digits than the format has
(`round_significand`), so that a bound on a rounded result is one on the exact
result wherever the bound itself is a number of the format.
-/

namespace OV.Ieee

/-- The nearest integer, the even one of two. -/
def nearestEven (x : ℚ) : Int :=
  let r := x - ⌊x⌋
  if r < 1 / 2 then ⌊x⌋ else if 1 / 2 < r then ⌊x⌋ + 1 else if ⌊x⌋ % 2 = 0 then ⌊x⌋ else ⌊x⌋ + 1

variable (f : Format)

/-- The nearest number of the format to one that is not negative, if there were no largest one. -/
def nearest (q : ℚ) : ℚ := nearestEven (q / f.ulp (expOf f q)) * f.ulp (expOf f q)

/-- Where the numbers of the format end. -/
def limit : ℚ := 2 ^ ((f.top : Int) - f.bias)

/-- A number that is not negative, rounded. -/
def roundPos (q : ℚ) : Num := if limit f ≤ nearest f q then .posInf else .fin (nearest f q)

/-- A number rounded: the sign is kept. -/
def round (q : ℚ) : Num := if 0 ≤ q then roundPos f q else (roundPos f (-q)).neg

example : round binary64 (1 / 20) = .fin (3602879701896397 / 2 ^ 56) := by decide +kernel

/-! ## Integers -/

theorem floor_le_nearestEven (x : ℚ) : ⌊x⌋ ≤ nearestEven x := by
  simp only [nearestEven]
  split_ifs <;> omega

theorem nearestEven_le (x : ℚ) : nearestEven x ≤ ⌊x⌋ + 1 := by
  simp only [nearestEven]
  split_ifs <;> omega

theorem nearestEven_mono {x y : ℚ} (h : x ≤ y) : nearestEven x ≤ nearestEven y := by
  rcases (Int.floor_le_floor h).lt_or_eq with hlt | heq
  · calc nearestEven x ≤ ⌊x⌋ + 1 := nearestEven_le x
      _ ≤ ⌊y⌋ := hlt
      _ ≤ nearestEven y := floor_le_nearestEven y
  · have hr : x - ⌊y⌋ ≤ y - ⌊y⌋ := sub_le_sub_right h _
    simp only [nearestEven, heq]
    split_ifs <;> first | omega | linarith

@[simp] theorem nearestEven_intCast (n : Int) : nearestEven n = n := by
  simp only [nearestEven, Int.floor_intCast, sub_self]
  exact if_pos (by norm_num)

section

variable {f}

/-! ## Exponents -/

theorem one_le_expOf (q : ℚ) : 1 ≤ expOf f q := by
  rw [expOf]
  omega

theorem expOf_mono {q r : ℚ} (hq : 0 < q) (h : q ≤ r) : expOf f q ≤ expOf f r := by
  have := Int.log_mono_right (b := 2) hq h
  rw [expOf, expOf]
  omega

/-- What is counted in is the weight of the leading bit, over the fraction patterns. -/
theorem scale_mul_ulp (k : Nat) : f.scale * f.ulp k = 2 ^ ((k : Int) - f.bias) := by
  rw [Format.scale, Format.ulp, Nat.cast_pow, Nat.cast_ofNat, ← zpow_natCast, ← zpow_add₀ (by norm_num)]
  congr 1
  ring

/-- The significand of a number is below twice the fraction patterns. -/
theorem le_of_expOf (q : ℚ) : q / f.ulp (expOf f q) ≤ (2 * f.scale : Nat) := by
  rw [div_le_iff₀ (ulp_pos _), Nat.cast_mul, mul_assoc, scale_mul_ulp, Nat.cast_ofNat, ← zpow_one_add₀ (by norm_num)]
  calc q ≤ 2 ^ (Int.log 2 q + 1) := (Int.lt_zpow_succ_log_self (b := 2) (by norm_num) q).le
    _ ≤ 2 ^ (1 + ((expOf f q : Nat) - f.bias)) := zpow_le_zpow_right₀ (by norm_num) (by rw [expOf]; omega)

/-- And at least their number, if it is not subnormal. -/
theorem le_expOf {q : ℚ} (hq : 0 < q) (h : 1 < expOf f q) : (f.scale : ℚ) ≤ q / f.ulp (expOf f q) := by
  rw [le_div_iff₀ (ulp_pos _), scale_mul_ulp]
  calc (2 : ℚ) ^ ((expOf f q : Nat) - f.bias) = 2 ^ Int.log 2 q := by
        congr 1
        rw [expOf] at h ⊢
        omega
    _ ≤ q := Int.zpow_log_le_self (b := 2) (by norm_num) hq

/-! ## The order -/

theorem nearest_zero : nearest f 0 = 0 := by
  have hzero : nearestEven 0 = 0 := by exact_mod_cast nearestEven_intCast 0
  rw [nearest, zero_div, hzero, Int.cast_zero, zero_mul]

theorem nearest_nonneg {q : ℚ} (hq : 0 ≤ q) : 0 ≤ nearest f q := by
  have hfloor : 0 ≤ ⌊q / f.ulp (expOf f q)⌋ := Int.floor_nonneg.mpr (div_nonneg hq (ulp_pos _).le)
  exact mul_nonneg (by exact_mod_cast hfloor.trans (floor_le_nearestEven _)) (ulp_pos _).le

/-- In one binade the significands are in order; between two lies a power of two. -/
theorem nearest_mono {q r : ℚ} (hq : 0 ≤ q) (h : q ≤ r) : nearest f q ≤ nearest f r := by
  rcases hq.eq_or_lt with rfl | hpos
  · rw [nearest_zero]
    exact nearest_nonneg h
  rcases (expOf_mono (f := f) hpos h).eq_or_lt with heq | hlt
  · rw [nearest, nearest, heq]
    have hmono := nearestEven_mono (div_le_div_of_nonneg_right h (ulp_pos (f := f) (expOf f r)).le)
    exact mul_le_mul_of_nonneg_right (by exact_mod_cast hmono) (ulp_pos _).le
  · have hupper : nearestEven (q / f.ulp (expOf f q)) ≤ (2 * f.scale : Nat) := by
      rw [← nearestEven_intCast (2 * f.scale : Nat)]
      exact nearestEven_mono (by exact_mod_cast le_of_expOf q)
    have hlower : (f.scale : Int) ≤ nearestEven (r / f.ulp (expOf f r)) := by
      rw [← nearestEven_intCast f.scale]
      exact nearestEven_mono (by exact_mod_cast le_expOf (hpos.trans_le h) ((one_le_expOf q).trans_lt hlt))
    calc nearest f q ≤ ((2 * f.scale : Nat) : ℚ) * f.ulp (expOf f q) :=
          mul_le_mul_of_nonneg_right (by exact_mod_cast hupper) (ulp_pos _).le
      _ = 2 ^ (1 + ((expOf f q : Nat) - f.bias)) := by
          rw [Nat.cast_mul, mul_assoc, scale_mul_ulp, Nat.cast_ofNat, ← zpow_one_add₀ (by norm_num)]
      _ ≤ 2 ^ ((expOf f r : Nat) - f.bias) := zpow_le_zpow_right₀ (by norm_num) (by omega)
      _ = f.scale * f.ulp (expOf f r) := (scale_mul_ulp _).symm
      _ ≤ nearest f r := mul_le_mul_of_nonneg_right (by exact_mod_cast hlower) (ulp_pos _).le

theorem roundPos_mono {q r : ℚ} (hq : 0 ≤ q) (h : q ≤ r) : (roundPos f q).le (roundPos f r) = true := by
  have hmono := nearest_mono (f := f) hq h
  unfold roundPos
  split
  · rename_i hlimit
    rw [if_pos (hlimit.trans hmono)]
    rfl
  · split
    · rfl
    · exact decide_eq_true hmono

/-- Rounded numbers are not on the other side of zero. -/
theorem zero_le_roundPos {q : ℚ} (hq : 0 ≤ q) : (Num.fin 0).le (roundPos f q) = true := by
  unfold roundPos
  split
  · rfl
  · exact decide_eq_true (nearest_nonneg hq)

/-- Rounding keeps the order. -/
theorem round_mono {q r : ℚ} (h : q ≤ r) : (round f q).le (round f r) = true := by
  unfold round
  by_cases hr : 0 ≤ r
  · rw [if_pos hr]
    by_cases hq : 0 ≤ q
    · rw [if_pos hq]
      exact roundPos_mono hq h
    · rw [if_neg hq]
      have hneg := zero_le_roundPos (f := f) (q := -q) (by linarith)
      rw [← Num.neg_le_neg] at hneg
      exact Num.le_trans (by simpa [Num.neg] using hneg) (zero_le_roundPos hr)
  · rw [if_neg hr, if_neg (by linarith), Num.neg_le_neg]
    exact roundPos_mono (by linarith) (by linarith)

theorem round_ne_nan (q : ℚ) : round f q ≠ .nan := by
  unfold round roundPos
  split_ifs <;> exact Num.noConfusion

/-! ## Numbers that stay as they are -/

/-- A number with few enough digits is counted in less than its last digit. -/
theorem nearest_significand {m : Nat} {e : Int} (hm : m < 2 * f.scale) (he : 1 - f.bias - f.frac ≤ e) :
    nearest f (m * 2 ^ e) = m * 2 ^ e := by
  rcases Nat.eq_zero_or_pos m with rfl | hpos
  · rw [Nat.cast_zero, zero_mul, nearest_zero]
  have hq : (0 : ℚ) < m * 2 ^ e := mul_pos (by exact_mod_cast hpos) (zpow_pos (by norm_num) _)
  have hlt : (m : ℚ) * 2 ^ e < 2 ^ ((f.frac : Int) + 1 + e) := by
    rw [zpow_add₀ (by norm_num)]
    refine mul_lt_mul_of_pos_right ?_ (zpow_pos (by norm_num) _)
    rw [zpow_add_one₀ (by norm_num), zpow_natCast, mul_comm]
    exact_mod_cast hm
  have hlog : Int.log 2 ((m : ℚ) * 2 ^ e) < (f.frac : Int) + 1 + e := by
    rw [← Int.lt_zpow_iff_log_lt (by norm_num) hq]
    exact_mod_cast hlt
  -- The weight that it is counted in divides its own.
  obtain ⟨n, hn⟩ : ∃ n : Nat, e = (expOf f (m * 2 ^ e) : Int) - f.bias - f.frac + n :=
    ⟨(e - ((expOf f (m * 2 ^ e) : Int) - f.bias - f.frac)).toNat, by rw [expOf]; omega⟩
  have hdigits : (m : ℚ) * 2 ^ e = (m * 2 ^ n : Nat) * f.ulp (expOf f (m * 2 ^ e)) := by
    rw [Format.ulp, Nat.cast_mul, Nat.cast_pow, Nat.cast_ofNat, mul_assoc, ← zpow_natCast, ← zpow_add₀ (by norm_num),
      add_comm, ← hn]
  have hdiv : (m : ℚ) * 2 ^ e / f.ulp (expOf f (m * 2 ^ e)) = ((m * 2 ^ n : Nat) : Int) := by
    rw [div_eq_iff (ulp_pos _).ne', Int.cast_natCast]
    exact hdigits
  rw [nearest, hdiv, nearestEven_intCast, Int.cast_natCast]
  exact hdigits.symm

/-- A number that takes no more digits than the format has is not rounded. -/
theorem round_significand {m : Int} {e : Int} (hm : m.natAbs < 2 * f.scale) (he : 1 - f.bias - f.frac ≤ e)
    (hlimit : f.frac + 1 + e ≤ f.top - f.bias) : round f (m * 2 ^ e) = .fin (m * 2 ^ e) := by
  have hpow : (0 : ℚ) < 2 ^ e := zpow_pos (by norm_num) _
  have hpos : roundPos f (m.natAbs * 2 ^ e) = .fin (m.natAbs * 2 ^ e) := by
    have hlt : (m.natAbs : ℚ) * 2 ^ e < limit f := by
      calc (m.natAbs : ℚ) * 2 ^ e < ((2 * f.scale : Nat) : ℚ) * 2 ^ e :=
            mul_lt_mul_of_pos_right (by exact_mod_cast hm) hpow
        _ = 2 ^ ((f.frac : Int) + 1 + e) := by
            rw [zpow_add₀ (by norm_num), zpow_add_one₀ (by norm_num), zpow_natCast, Nat.cast_mul, Format.scale]
            push_cast
            ring
        _ ≤ limit f := zpow_le_zpow_right₀ (by norm_num) hlimit
    rw [roundPos, nearest_significand hm he, if_neg (not_le.mpr hlt)]
  unfold round
  rcases le_or_gt 0 m with h0 | h0
  · have habs : (m : ℚ) = m.natAbs := by rw [← Int.cast_natCast, Int.natAbs_of_nonneg h0]
    rw [if_pos (mul_nonneg (by exact_mod_cast h0) hpow.le), habs, hpos]
  · have habs : (m : ℚ) = -(m.natAbs : ℚ) := by exact_mod_cast (by omega : m = -(m.natAbs : Int))
    have hneg : ¬ (0 : ℚ) ≤ m * 2 ^ e := not_le.mpr (mul_neg_of_neg_of_pos (by exact_mod_cast h0) hpow)
    rw [if_neg hneg, habs, neg_mul, neg_neg, hpos]
    rfl

end

end OV.Ieee

namespace OV.Num

/-- The number of a format that is nearest. -/
def rounded (f : Ieee.Format) : Num → Num
  | fin q => Ieee.round f q
  | a => a

/-- A number as `f32`. -/
def f32 : Num → Num := rounded Ieee.binary32

/-- What an operation on `f64` makes of its exact result. -/
def f64 : Num → Num := rounded Ieee.binary64

theorem f64_ne_nan (q : ℚ) : (fin q).f64 ≠ nan := Ieee.round_ne_nan q

/-- Rounding keeps the order. -/
theorem f64_mono {a b : Num} (h : a.le b = true) : a.f64.le b.f64 = true := by
  cases a with
  | nan => cases h
  | negInf =>
    cases b with
    | nan => cases h
    | negInf | posInf => rfl
    | fin q => exact negInf_le (Ieee.round_ne_nan q)
  | posInf =>
    cases b with
    | nan | negInf | fin q => cases h
    | posInf => rfl
  | fin p =>
    cases b with
    | nan | negInf => cases h
    | posInf => exact le_posInf (Ieee.round_ne_nan p)
    | fin q => exact Ieee.round_mono (of_decide_eq_true h)

/-- A fraction with few binary digits is not rounded. -/
theorem f64_dyadic {m : Int} {k : Nat} (hm : m.natAbs < 2 ^ 53) (hk : k ≤ 1000) : (fin (m / 2 ^ k)).f64 = fin (m / 2 ^ k) := by
  have hscale : 2 * Ieee.binary64.scale = 2 ^ 53 := by decide
  have hbias : Ieee.binary64.bias = 1023 := by decide
  have htop : Ieee.binary64.top = 2047 := by decide
  have hfrac : Ieee.binary64.frac = 52 := rfl
  have hdyadic : (m : ℚ) / 2 ^ k = m * 2 ^ (-(k : Int)) := by rw [zpow_neg, zpow_natCast, div_eq_mul_inv]
  rw [f64, rounded, hdyadic]
  exact Ieee.round_significand (by omega) (by omega) (by omega)

/-- A rounded number that is finite was. -/
theorem isFinite_of_f64 {a : Num} (h : a.f64.isFinite = true) : a.isFinite = true := by
  cases a <;> first | rfl | cases h

/-! ## Rounded down -/

/-- What rounds down to less than an integer is below it. -/
theorem lt_of_toI32_floor_f64 {q : ℚ} {n : Int} (h : (fin q).f64.floor.toI32 < n) (hn : n < 2 ^ 31) : q < n := by
  have hlo := le_toI32 (fin q).f64.floor
  have hkept : (fin (n : ℚ)).f64 = fin n := by simpa using f64_dyadic (m := n) (k := 0) (by omega) (by omega)
  by_contra hle
  have hmono := toI32_floor_mono (f64_mono (a := fin n) (b := fin q) (decide_eq_true (not_lt.mp hle)))
  rw [hkept, toI32_floor_fin, Int.floor_intCast] at hmono
  omega

/-- What rounds down to an integer or more is at most an error below it. -/
theorem lt_of_le_toI32_floor_f64 {q : ℚ} {n : Int} (h : n ≤ (fin q).f64.floor.toI32) (hn : -2 ^ 31 < n) :
    n - 1 / 2 ^ 20 < q := by
  have hhi := toI32_le (fin q).f64.floor
  have hbelow : (n - 1 / 2 ^ 20 : ℚ) = (n * 2 ^ 20 - 1 : Int) / 2 ^ 20 := by
    push_cast
    ring
  have hkept : (fin (n - 1 / 2 ^ 20 : ℚ)).f64 = fin (n - 1 / 2 ^ 20) := by
    rw [hbelow]
    exact f64_dyadic (by omega) (by omega)
  have hfloor : ⌊(n - 1 / 2 ^ 20 : ℚ)⌋ = n - 1 := by
    rw [Int.floor_eq_iff]
    push_cast
    constructor <;> linarith
  by_contra hle
  have hmono := toI32_floor_mono (f64_mono (a := fin q) (b := fin (n - 1 / 2 ^ 20)) (decide_eq_true (not_lt.mp hle)))
  rw [hkept, toI32_floor_fin, hfloor] at hmono
  omega

end OV.Num
