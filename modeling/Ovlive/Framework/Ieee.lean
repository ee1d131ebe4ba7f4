import Mathlib.Data.Int.Log
import Mathlib.Data.Rat.Floor
import Mathlib.Tactic.FieldSimp
import Mathlib.Tactic.Positivity
import Mathlib.Tactic.Ring
import Ovlive.Framework.Num

/-!
# The binary interchange formats

What the bits of an IEEE 754 number say (`value`), and bits for a number
(`bits`), exactly. A number that the format has is read back from its bits
(`value_bits`). The sign of zero is not kept (`Num`), and every NaN is one.

A finite pattern is `k - 1` times `2 ^ frac` and a significand `m`, where `k`
is the biased exponent, or one for a subnormal: with the significand below
`2 ^ frac` it is subnormal, and otherwise its leading bit counts in the
exponent. Both directions are stated over `k` and `m`.
-/

namespace OV.Ieee

/-- The widths of the exponent and of the fraction. -/
structure Format where
  exp : Nat
  frac : Nat
  two_le_exp : 2 ≤ exp
  one_le_frac : 1 ≤ frac

def binary32 : Format := ⟨8, 23, by decide, by decide⟩
def binary64 : Format := ⟨11, 52, by decide, by decide⟩

namespace Format

variable (f : Format)

/-- The number of fraction patterns. -/
def scale : Nat := 2 ^ f.frac

/-- The exponent that says a pattern is not finite. -/
def top : Nat := 2 ^ f.exp - 1

def bias : Int := 2 ^ (f.exp - 1) - 1

/-- The weight of a sign. -/
def sign : Nat := 2 ^ f.exp * f.scale

/-- What a significand counts in, at biased exponent `k`. -/
def ulp (k : Nat) : ℚ := 2 ^ ((k : Int) - f.bias - f.frac)

end Format

variable (f : Format)

/-- What a pattern without its sign says. -/
def magnitude (n : Nat) : Num :=
  let e := n / f.scale
  let m := n % f.scale
  if e = f.top then (if m = 0 then .posInf else .nan)
  else if e = 0 then .fin (m * f.ulp 1)
  else .fin ((m + f.scale : Nat) * f.ulp e)

/-- What a pattern says. -/
def value (n : Nat) : Num :=
  if n / f.sign % 2 = 1 then (magnitude f (n % f.sign)).neg else magnitude f (n % f.sign)

/-- The biased exponent of a positive number. -/
def expOf (q : ℚ) : Nat := (max (Int.log 2 q + f.bias) 1).toNat

/-- The pattern of a number that is not negative. -/
def bitsOf (q : ℚ) : Nat :=
  if q = 0 then 0 else (expOf f q - 1) * f.scale + ⌊q / f.ulp (expOf f q)⌋₊

/-- A pattern of a number. -/
def bits : Num → Nat
  | .nan => f.top * f.scale + 1
  | .posInf => f.top * f.scale
  | .negInf => f.sign + f.top * f.scale
  | .fin q => if 0 ≤ q then bitsOf f q else f.sign + bitsOf f (-q)

/-- The numbers of the format. -/
def Has (x : Num) : Prop := ∃ n, value f n = x

section

variable {f}

theorem scale_pos : 0 < f.scale := Nat.two_pow_pos _

theorem one_lt_scale : 1 < f.scale := Nat.one_lt_two_pow (Nat.ne_of_gt f.one_le_frac)

theorem one_lt_top : 1 < f.top :=
  Nat.lt_sub_of_add_lt (Nat.lt_of_lt_of_le (by decide : 1 + 1 < 2 ^ 2) (Nat.pow_le_pow_right (by decide) f.two_le_exp))

theorem sign_eq : f.sign = (f.top + 1) * f.scale := by
  rw [Format.sign, Format.top, Nat.sub_add_cancel Nat.one_le_two_pow]

theorem sign_pos : 0 < f.sign := Nat.mul_pos (Nat.two_pow_pos _) scale_pos

theorem ulp_pos (k : Nat) : 0 < f.ulp k := zpow_pos (by norm_num) _

/-- A significand is below twice the fraction patterns, and a normal one at least their number. -/
def Significand (f : Format) (k m : Nat) : Prop :=
  1 ≤ k ∧ k < f.top ∧ m < 2 * f.scale ∧ (f.scale ≤ m ∨ k = 1)

/-- The two finite cases of a magnitude in one. -/
theorem magnitude_of_significand {k m : Nat} (h : Significand f k m) :
    magnitude f ((k - 1) * f.scale + m) = .fin (m * f.ulp k) := by
  obtain ⟨hk, htop, hm, hnormal⟩ := h
  have hpos := scale_pos (f := f)
  by_cases hlt : m < f.scale
  · obtain rfl : k = 1 := hnormal.resolve_left (by omega)
    have hdiv : ((1 - 1) * f.scale + m) / f.scale = 0 := by simp [Nat.div_eq_of_lt hlt]
    have hmod : ((1 - 1) * f.scale + m) % f.scale = m := by simp [Nat.mod_eq_of_lt hlt]
    have htop0 : 0 ≠ f.top := by omega
    simp only [magnitude, hdiv, hmod, if_neg htop0, if_true]
  · obtain ⟨r, rfl⟩ : ∃ r, m = r + f.scale := ⟨m - f.scale, by omega⟩
    have hr : r < f.scale := by omega
    have hn : (k - 1) * f.scale + (r + f.scale) = r + f.scale * k := by
      obtain ⟨j, rfl⟩ : ∃ j, k = j + 1 := ⟨k - 1, by omega⟩
      rw [Nat.add_sub_cancel]
      ring
    have hdiv : (r + f.scale * k) / f.scale = k := by
      rw [Nat.add_mul_div_left _ _ hpos, Nat.div_eq_of_lt hr, Nat.zero_add]
    have hmod : (r + f.scale * k) % f.scale = r := by rw [Nat.add_mul_mod_self_left, Nat.mod_eq_of_lt hr]
    have hk0 : k ≠ 0 := by omega
    simp only [hn, magnitude, hdiv, hmod, if_neg htop.ne, if_neg hk0]

/-- A finite magnitude is that of a significand. -/
theorem significand_of_magnitude {n : Nat} {q : ℚ} (h : magnitude f n = .fin q) (hn : n < f.sign) :
    ∃ k m, Significand f k m ∧ q = m * f.ulp k := by
  have hpos := scale_pos (f := f)
  have hmod := Nat.mod_lt n hpos
  have hdiv : n / f.scale < f.top + 1 := by
    rw [Nat.div_lt_iff_lt_mul hpos, ← sign_eq]
    exact hn
  simp only [magnitude] at h
  split at h
  · split at h <;> cases h
  · rename_i htop
    split at h
    · cases h
      exact ⟨1, n % f.scale, ⟨le_rfl, one_lt_top, by omega, .inr rfl⟩, rfl⟩
    · rename_i hzero
      cases h
      have hlt : n / f.scale < f.top := by omega
      exact ⟨n / f.scale, n % f.scale + f.scale, ⟨Nat.pos_of_ne_zero hzero, hlt, by omega, .inl (by omega)⟩, rfl⟩

/-- The biased exponent of a significand's number. -/
theorem expOf_significand {k m : Nat} (h : Significand f k m) (hm : 0 < m) : expOf f (m * f.ulp k) = k := by
  obtain ⟨hk, -, hlt, hnormal⟩ := h
  have hq : 0 < (m : ℚ) * f.ulp k := mul_pos (by exact_mod_cast hm) (ulp_pos k)
  have hscale : (f.scale : ℚ) = 2 ^ (f.frac : Int) := by rw [Format.scale, Nat.cast_pow, zpow_natCast, Nat.cast_ofNat]
  have hupper : (m : ℚ) * f.ulp k < 2 ^ ((k : Int) - f.bias + 1) := by
    have hm' : (m : ℚ) < 2 ^ ((f.frac : Int) + 1) := by
      rw [zpow_add_one₀ (by norm_num), ← hscale, mul_comm]
      exact_mod_cast hlt
    calc (m : ℚ) * f.ulp k < 2 ^ ((f.frac : Int) + 1) * f.ulp k := mul_lt_mul_of_pos_right hm' (ulp_pos k)
      _ = 2 ^ ((k : Int) - f.bias + 1) := by
        rw [Format.ulp, ← zpow_add₀ (by norm_num)]
        congr 1
        ring
  have hlog : Int.log 2 ((m : ℚ) * f.ulp k) < (k : Int) - f.bias + 1 := by
    rw [← Int.lt_zpow_iff_log_lt (by norm_num) hq]
    exact_mod_cast hupper
  rw [expOf]
  rcases hnormal with hle | rfl
  · have hlower : (2 : ℚ) ^ ((k : Int) - f.bias) ≤ m * f.ulp k := by
      calc (2 : ℚ) ^ ((k : Int) - f.bias) = 2 ^ (f.frac : Int) * f.ulp k := by
            rw [Format.ulp, ← zpow_add₀ (by norm_num)]
            congr 1
            ring
        _ ≤ m * f.ulp k := by
            rw [← hscale]
            exact mul_le_mul_of_nonneg_right (by exact_mod_cast hle) (ulp_pos k).le
    have hlog' : (k : Int) - f.bias ≤ Int.log 2 ((m : ℚ) * f.ulp k) := by
      rw [← Int.zpow_le_iff_le_log (by norm_num) hq]
      exact_mod_cast hlower
    omega
  · omega

theorem bitsOf_significand {k m : Nat} (h : Significand f k m) :
    bitsOf f (m * f.ulp k) < f.sign ∧ magnitude f (bitsOf f (m * f.ulp k)) = .fin (m * f.ulp k) := by
  have hpos := scale_pos (f := f)
  rw [bitsOf]
  rcases Nat.eq_zero_or_pos m with rfl | hm
  · rw [Nat.cast_zero, zero_mul, if_pos rfl]
    have hzero := magnitude_of_significand (f := f) (k := 1) (m := 0) ⟨le_rfl, one_lt_top, by omega, .inr rfl⟩
    exact ⟨sign_pos, by simpa using hzero⟩
  · have hq : (m : ℚ) * f.ulp k ≠ 0 := mul_ne_zero (by exact_mod_cast hm.ne') (ulp_pos k).ne'
    rw [if_neg hq, expOf_significand h hm, mul_div_assoc, div_self (ulp_pos k).ne', mul_one, Nat.floor_natCast]
    refine ⟨?_, magnitude_of_significand h⟩
    obtain ⟨hk, htop, hlt, -⟩ := h
    obtain ⟨j, rfl⟩ : ∃ j, k = j + 1 := ⟨k - 1, by omega⟩
    calc (j + 1 - 1) * f.scale + m < (j + 2) * f.scale := by rw [Nat.add_sub_cancel, Nat.add_mul]; omega
      _ ≤ (f.top + 1) * f.scale := Nat.mul_le_mul_right _ (by omega)
      _ = f.sign := sign_eq.symm

theorem magnitude_posInf : magnitude f (f.top * f.scale) = .posInf := by
  simp only [magnitude, Nat.mul_div_cancel _ (scale_pos (f := f)), Nat.mul_mod_left, if_true]

theorem magnitude_nan : magnitude f (f.top * f.scale + 1) = .nan := by
  have hdiv : (f.top * f.scale + 1) / f.scale = f.top := by
    rw [Nat.add_comm, Nat.add_mul_div_right _ _ scale_pos, Nat.div_eq_of_lt one_lt_scale, Nat.zero_add]
  have hmod : (f.top * f.scale + 1) % f.scale = 1 := by
    rw [Nat.add_comm, Nat.add_mul_mod_self_right, Nat.mod_eq_of_lt one_lt_scale]
  simp only [magnitude, hdiv, hmod, if_true, if_neg Nat.one_ne_zero]

theorem top_mul_lt : f.top * f.scale + 1 < f.sign := by
  have := one_lt_scale (f := f)
  rw [sign_eq, Nat.add_mul, Nat.one_mul]
  omega

/-- A pattern with its sign clear. -/
theorem value_of_lt {n : Nat} (h : n < f.sign) : value f n = magnitude f n := by
  rw [value, Nat.div_eq_of_lt h, Nat.mod_eq_of_lt h, if_neg (by decide)]

/-- A pattern with its sign set. -/
theorem value_sign_add {n : Nat} (h : n < f.sign) : value f (f.sign + n) = (magnitude f n).neg := by
  rw [value, Nat.add_div_left _ sign_pos, Nat.div_eq_of_lt h, Nat.add_mod_left, Nat.mod_eq_of_lt h, if_pos rfl]

theorem has_zero : Has f (.fin 0) :=
  ⟨0, by rw [value_of_lt sign_pos, magnitude, Nat.zero_div, Nat.zero_mod, if_neg (by have := one_lt_top (f := f); omega),
    if_pos rfl, Nat.cast_zero, zero_mul]⟩

/-- A finite number of the format is, up to its sign, that of a significand. -/
theorem Has.significand {q : ℚ} (h : Has f (.fin q)) : ∃ k m, Significand f k m ∧ (q = m * f.ulp k ∨ q = -(m * f.ulp k)) := by
  obtain ⟨n, hn⟩ := h
  have hlt := Nat.mod_lt n (sign_pos (f := f))
  rw [value] at hn
  split at hn
  · cases hmag : magnitude f (n % f.sign) <;> rw [hmag] at hn <;> cases hn
    obtain ⟨k, m, hk, hq⟩ := significand_of_magnitude hmag hlt
    exact ⟨k, m, hk, .inr (congrArg _ hq)⟩
  · obtain ⟨k, m, hk, hq⟩ := significand_of_magnitude hn hlt
    exact ⟨k, m, hk, .inl hq⟩

/-- The pattern of a number fits the format, and a number of the format is read back from it. -/
theorem Has.bits {x : Num} (h : Has f x) : bits f x < 2 * f.sign ∧ value f (Ieee.bits f x) = x := by
  have htop := top_mul_lt (f := f)
  cases x with
  | nan => exact ⟨by simp only [Ieee.bits]; omega, by rw [Ieee.bits, value_of_lt htop, magnitude_nan]⟩
  | posInf =>
    have hlt : f.top * f.scale < f.sign := by omega
    exact ⟨by simp only [Ieee.bits]; omega, by rw [Ieee.bits, value_of_lt hlt, magnitude_posInf]⟩
  | negInf =>
    have hlt : f.top * f.scale < f.sign := by omega
    exact ⟨by simp only [Ieee.bits]; omega, by rw [Ieee.bits, value_sign_add hlt, magnitude_posInf]; rfl⟩
  | fin q =>
    obtain ⟨k, m, hk, hq⟩ := h.significand
    obtain ⟨hlt, hmag⟩ := bitsOf_significand hk
    have hnonneg : (0 : ℚ) ≤ m * f.ulp k := mul_nonneg (Nat.cast_nonneg m) (ulp_pos k).le
    rw [Ieee.bits]
    by_cases h0 : 0 ≤ q
    · obtain rfl : q = m * f.ulp k := hq.elim id fun hneg => by linarith
      rw [if_pos h0]
      exact ⟨by omega, by rw [value_of_lt hlt, hmag]⟩
    · obtain rfl : q = -(m * f.ulp k) := hq.resolve_left fun hpos => h0 (hpos ▸ hnonneg)
      rw [if_neg h0, neg_neg]
      exact ⟨by omega, by rw [value_sign_add hlt, hmag]; rfl⟩

example : bits binary64 (.fin (-42)) = 0xC045000000000000 := by decide +kernel

end

end OV.Ieee
