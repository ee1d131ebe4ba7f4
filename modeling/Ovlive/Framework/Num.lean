import Mathlib.Algebra.Order.Ring.Rat
import Mathlib.Algebra.Order.Group.Unbundled.Abs
import Mathlib.Data.Rat.Floor
import Mathlib.Tactic.Linarith

/-!
# Floating-point numbers read exactly

`Num` stands for an `f64`, an `f32` or a JavaScript number: the finite values
are rationals, added and multiplied without error (what a format makes of the
result is `Framework/Rounding`), and the special values follow IEEE 754. In
particular every comparison with NaN is false (`lt`, `le`) and NaN differs from
itself (`ne`). The sign of zero is not kept: nothing here divides by one.
-/

namespace OV

/-- A number of an IEEE format, with exact arithmetic on the finite ones. -/
inductive Num
  | nan
  | negInf
  | posInf
  | fin (q : ℚ)
  deriving DecidableEq

namespace Num

def isFinite : Num → Bool
  | fin _ => true
  | _ => false

/-- IEEE `<`. -/
def lt : Num → Num → Bool
  | nan, _ | _, nan => false
  | fin a, fin b => a < b
  | negInf, negInf | posInf, posInf => false
  | negInf, _ | _, posInf => true
  | _, _ => false

/-- IEEE `<=`. -/
def le : Num → Num → Bool
  | nan, _ | _, nan => false
  | fin a, fin b => a ≤ b
  | negInf, _ | _, posInf => true
  | _, _ => false

/-- IEEE `!=`. -/
def ne (a b : Num) : Bool := a = nan || b = nan || a ≠ b

/-- The smaller of two numbers, the second one unless the first is below it. -/
def min (a b : Num) : Num := if a.lt b then a else b

/-- The larger of two numbers, the second one unless the first is above it. -/
def max (a b : Num) : Num := if b.lt a then a else b

def neg : Num → Num
  | nan => nan
  | negInf => posInf
  | posInf => negInf
  | fin q => fin (-q)

def abs : Num → Num
  | nan => nan
  | negInf | posInf => posInf
  | fin q => fin |q|

def add : Num → Num → Num
  | fin a, fin b => fin (a + b)
  | nan, _ | _, nan => nan
  | negInf, posInf | posInf, negInf => nan
  | negInf, _ | _, negInf => negInf
  | posInf, _ | _, posInf => posInf

def sub (a b : Num) : Num := a.add b.neg

def mul : Num → Num → Num
  | fin a, fin b => fin (a * b)
  | nan, _ | _, nan => nan
  | fin a, b | b, fin a => if a = 0 then nan else if 0 < a then b else b.neg
  | negInf, negInf | posInf, posInf => posInf
  | negInf, posInf | posInf, negInf => negInf

/-- `powi`, for an exponent that is not negative. -/
def powi (a : Num) : Nat → Num
  | 0 => fin 1
  | n + 1 => (a.powi n).mul a

/-- `round`: to the nearest integer, halves away from zero. -/
def round : Num → Num
  | fin q => fin (if 0 ≤ q then ⌊q + 1 / 2⌋ else ⌈q - 1 / 2⌉)
  | a => a

/-- Division by a positive constant. -/
def divBy (a : Num) (q : ℚ) : Num := a.mul (fin q⁻¹)

def floor : Num → Num
  | fin q => fin ⌊q⌋
  | a => a

/-- `as i32`: towards zero, saturating, and NaN is 0. -/
def toI32 : Num → Int
  | nan => 0
  | negInf => -2 ^ 31
  | posInf => 2 ^ 31 - 1
  | fin q => Max.max (-2 ^ 31) (Min.min (2 ^ 31 - 1) (if 0 ≤ q then ⌊q⌋ else ⌈q⌉))

/-- `total_cmp` as an order, for a NaN of positive sign. -/
def totalLe (a b : Num) : Bool := b = nan || a.le b

@[simp] theorem lt_fin (a b : ℚ) : (fin a).lt (fin b) = decide (a < b) := rfl
@[simp] theorem le_fin (a b : ℚ) : (fin a).le (fin b) = decide (a ≤ b) := rfl
@[simp] theorem abs_fin (a : ℚ) : (fin a).abs = fin |a| := rfl
@[simp] theorem add_fin (a b : ℚ) : (fin a).add (fin b) = fin (a + b) := rfl

@[simp] theorem sub_fin (a b : ℚ) : (fin a).sub (fin b) = fin (a - b) :=
  congrArg fin (sub_eq_add_neg a b).symm

@[simp] theorem mul_fin (a b : ℚ) : (fin a).mul (fin b) = fin (a * b) := rfl
@[simp] theorem isFinite_fin (a : ℚ) : (fin a).isFinite = true := rfl

theorem isFinite_iff {a : Num} : a.isFinite = true ↔ ∃ q, a = fin q := by
  cases a <;> simp [isFinite]

/-- `a ≤ b` makes `a` the smaller of the two. -/
theorem min_of_le {a b : Num} (h : a.le b = true) : a.min b = a := by
  cases a <;> cases b <;> simp_all [min, lt, le]
  exact fun h' => le_antisymm h' h

/-- `a ≤ b` makes `b` the larger of the two. -/
theorem max_of_le {a b : Num} (h : a.le b = true) : a.max b = b := by
  cases a <;> cases b <;> simp_all [max, lt, le]

theorem le_trans {a b c : Num} (h : a.le b = true) (h' : b.le c = true) : a.le c = true := by
  cases a <;> cases b <;> cases c <;> simp_all [le]
  exact h.trans h'

theorem lt_of_lt_of_le {a b c : Num} (h : a.lt b = true) (h' : b.le c = true) : a.lt c = true := by
  cases a <;> cases b <;> cases c <;> simp_all [lt, le]
  exact h.trans_le h'

/-- On a number the two comparisons exclude each other. -/
theorem not_lt_of_le {a b : Num} (h : a.le b = true) : b.lt a = false := by
  cases a <;> cases b <;> simp_all [le, lt]

theorem le_of_not_lt {a b : Num} (ha : a ≠ nan) (hb : b ≠ nan) (h : b.lt a = false) : a.le b = true := by
  cases a <;> cases b <;> simp_all [le, lt]

theorem le_of_isFinite {a b : Num} (ha : a.isFinite = true) (hb : b.isFinite = true) (h : b.lt a = false) :
    a.le b = true :=
  le_of_not_lt (fun he => by rw [he] at ha; cases ha) (fun he => by rw [he] at hb; cases hb) h

theorem negInf_le {a : Num} (h : a ≠ nan) : negInf.le a = true := by
  cases a <;> first | rfl | exact absurd rfl h

theorem le_posInf {a : Num} (h : a ≠ nan) : a.le posInf = true := by
  cases a <;> first | rfl | exact absurd rfl h

theorem neg_le_neg {a b : Num} : a.neg.le b.neg = b.le a := by
  cases a <;> cases b <;> simp [neg, le]

theorem totalLe_trans {a b c : Num} (h : a.totalLe b = true) (h' : b.totalLe c = true) : a.totalLe c = true := by
  cases a <;> cases b <;> cases c <;> simp_all [totalLe, le]
  exact h.trans h'

theorem totalLe_total (a b : Num) : a.totalLe b = true ∨ b.totalLe a = true := by
  cases a <;> cases b <;> simp [totalLe, le]
  exact le_total _ _

theorem toI32_le (a : Num) : a.toI32 ≤ 2 ^ 31 - 1 := by
  cases a with
  | nan | negInf | posInf => decide
  | fin q => exact max_le (by decide) (min_le_left _ _)

theorem le_toI32 (a : Num) : -2 ^ 31 ≤ a.toI32 := by
  cases a with
  | nan | negInf | posInf => decide
  | fin q => exact le_max_left _ _

theorem toI32_floor_fin (q : ℚ) : (fin q).floor.toI32 = Max.max (-2 ^ 31) (Min.min (2 ^ 31 - 1) ⌊q⌋) := by
  simp only [floor, toI32, Int.floor_intCast, Int.ceil_intCast, ite_self]

/-- `floor` and `as i32` keep the order. -/
theorem toI32_floor_mono {a b : Num} (h : a.le b = true) : a.floor.toI32 ≤ b.floor.toI32 := by
  cases a with
  | nan => cases h
  | negInf => exact le_toI32 _
  | posInf =>
    cases b with
    | nan | negInf | fin q => cases h
    | posInf => exact le_rfl
  | fin p =>
    cases b with
    | nan | negInf => cases h
    | posInf => exact toI32_le _
    | fin q =>
      rw [toI32_floor_fin, toI32_floor_fin]
      exact max_le_max le_rfl (min_le_min le_rfl (Int.floor_le_floor (of_decide_eq_true h)))

/-- Division by a positive constant keeps the order. -/
theorem divBy_mono {a b : Num} {c : ℚ} (hc : 0 < c) (h : a.le b = true) : (a.divBy c).le (b.divBy c) = true := by
  have hinv : 0 < c⁻¹ := inv_pos.mpr hc
  have hneg : negInf.divBy c = negInf := by simp [divBy, mul, ne_of_gt hinv, hinv]
  have hpos : posInf.divBy c = posInf := by simp [divBy, mul, ne_of_gt hinv, hinv]
  cases a with
  | nan => cases h
  | negInf =>
    rw [hneg]
    cases b with
    | nan => cases h
    | negInf => rw [hneg]; rfl
    | posInf => rw [hpos]; rfl
    | fin q => rfl
  | posInf =>
    cases b with
    | nan | negInf | fin q => cases h
    | posInf => rw [hpos]; rfl
  | fin p =>
    cases b with
    | nan | negInf => cases h
    | posInf => rw [hpos]; rfl
    | fin q => exact decide_eq_true (mul_le_mul_of_nonneg_right (of_decide_eq_true h) hinv.le)

/-! ## Special values -/

/-- Of two numbers in order the difference is positive, or infinite. -/
theorem sub_of_lt {a b : Num} (h : a.lt b = true) :
    b.sub a = .posInf ∨ ∃ p q : ℚ, a = .fin p ∧ b = .fin q ∧ p < q := by
  cases a with
  | nan | posInf => cases b <;> cases h
  | negInf =>
    cases b with
    | nan | negInf => cases h
    | posInf | fin q => exact .inl rfl
  | fin p =>
    cases b with
    | nan | negInf => cases h
    | posInf => exact .inl rfl
    | fin q => exact .inr ⟨p, q, rfl, rfl, of_decide_eq_true h⟩

theorem posInf_mul_fin {q : ℚ} (hq : 0 < q) : posInf.mul (.fin q) = .posInf := by
  simp [mul, hq, ne_of_gt hq]

theorem fin_mul_posInf {q : ℚ} (hq : 0 < q) : (fin q).mul .posInf = .posInf := by
  simp [mul, hq, ne_of_gt hq]

/-- Without NaN, bounds that do not fail are in order. -/
theorem lt_of_not_le {a b : Num} (ha : a ≠ .nan) (hb : b ≠ .nan) (h : b.le a = false) : a.lt b = true := by
  cases a <;> cases b <;> simp_all [le, lt]

theorem not_le_of_lt {a b : Num} (h : a.lt b = true) : b.le a = false := by
  cases a <;> cases b <;> simp_all [le, lt]

@[simp] theorem nan_sub (a : Num) : nan.sub a = .nan := by
  cases a <;> rfl

@[simp] theorem sub_nan (a : Num) : a.sub .nan = .nan := by
  cases a <;> rfl

@[simp] theorem nan_mul (a : Num) : nan.mul a = .nan := by
  cases a <;> rfl

@[simp] theorem mul_nan (a : Num) : a.mul .nan = .nan := by
  cases a <;> rfl

/-- A finite difference has finite sides, and so have a finite product and a finite absolute value. -/
theorem isFinite_of_sub {a b : Num} (h : (a.sub b).isFinite = true) : a.isFinite = true ∧ b.isFinite = true := by
  cases a <;> cases b <;> first | exact ⟨rfl, rfl⟩ | cases h

theorem isFinite_of_abs {a : Num} (h : a.abs.isFinite = true) : a.isFinite = true := by
  cases a <;> first | rfl | cases h

theorem isFinite_of_mul {a b : Num} (h : (a.mul b).isFinite = true) : a.isFinite = true ∧ b.isFinite = true := by
  have hside (c : Num) (q : ℚ) (hc : c = negInf ∨ c = posInf) :
      (if q = 0 then nan else if 0 < q then c else c.neg).isFinite = false := by
    rcases hc with rfl | rfl <;> split_ifs <;> rfl
  cases a with
  | nan => cases h
  | negInf =>
    cases b with
    | nan | negInf | posInf => cases h
    | fin q => exact absurd h (Bool.eq_false_iff.mp (hside _ q (.inl rfl)))
  | posInf =>
    cases b with
    | nan | negInf | posInf => cases h
    | fin q => exact absurd h (Bool.eq_false_iff.mp (hside _ q (.inr rfl)))
  | fin p =>
    cases b with
    | nan => cases h
    | negInf => exact absurd h (Bool.eq_false_iff.mp (hside _ p (.inl rfl)))
    | posInf => exact absurd h (Bool.eq_false_iff.mp (hside _ p (.inr rfl)))
    | fin q => exact ⟨rfl, rfl⟩

end Num

end OV
