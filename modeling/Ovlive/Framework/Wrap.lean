import Mathlib.Algebra.Order.Ring.Int

/-!
# 32-bit arithmetic

An operation on `Int32` wraps. It is exact if and only if the exact result is
the value of an `Int32` (`toInt_add_eq_iff`, `toInt_sub_eq_iff`,
`toInt_mul_eq_iff`).
-/

namespace OV

/-- The integers that are the value of an `Int32`. -/
def FitsI32 (n : Int) : Prop := -2 ^ 31 ≤ n ∧ n < 2 ^ 31

theorem fitsI32_toInt (x : Int32) : FitsI32 x.toInt := ⟨x.le_toInt, x.toInt_lt⟩

theorem bmod_eq_self_iff {n : Int} : n.bmod (2 ^ 32) = n ↔ FitsI32 n := by
  rw [Int.bmod_eq_iff (by decide), FitsI32]
  constructor
  · rintro ⟨hlo, hhi, -⟩
    exact ⟨hlo, hhi⟩
  · rintro ⟨hlo, hhi⟩
    exact ⟨hlo, hhi, by simp⟩

theorem toInt_add_eq_iff {a b : Int32} : (a + b).toInt = a.toInt + b.toInt ↔ FitsI32 (a.toInt + b.toInt) := by
  rw [Int32.toInt_add, bmod_eq_self_iff]

theorem toInt_sub_eq_iff {a b : Int32} : (a - b).toInt = a.toInt - b.toInt ↔ FitsI32 (a.toInt - b.toInt) := by
  rw [Int32.toInt_sub, bmod_eq_self_iff]

theorem toInt_mul_eq_iff {a b : Int32} : (a * b).toInt = a.toInt * b.toInt ↔ FitsI32 (a.toInt * b.toInt) := by
  rw [Int32.toInt_mul, bmod_eq_self_iff]

/-- A sum that is the exact sum of some value is exact. -/
theorem toInt_add_of_eq {a b c : Int32} (h : (a + c).toInt = b.toInt + c.toInt) :
    (a + c).toInt = a.toInt + c.toInt := by
  have hb : (b + c).toInt = b.toInt + c.toInt := toInt_add_eq_iff.mpr (h ▸ fitsI32_toInt _)
  have hab : a = b := (Int32.add_left_inj c).mp (Int32.toInt_inj.mp (h.trans hb.symm))
  rw [hab, hb]

end OV
