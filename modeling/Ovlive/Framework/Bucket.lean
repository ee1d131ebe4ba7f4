import Mathlib.Algebra.Order.Group.Nat
import Mathlib.Data.List.Pairwise
import Mathlib.Tactic.Common

/-!
# Rate limits

A bucket lets a burst through and then one more in each interval (`Bounded`),
also if it is forgotten now and then: between two charges a bucket that is not
recent may be dropped, and the next charge finds a fresh one. `Governor` is a
library of such buckets, by their number a minute, and `gcra` the algorithm
that is known by this name, as one.
-/

namespace OV

/-- What happens to a bucket: a charge, or a sweep that may drop it. -/
inductive Use
  | charge (now : Nat)
  | prune (now : Nat)

def Use.now : Use → Nat
  | charge t | prune t => t

structure Bucket (S : Type) where
  fresh : S
  /-- Whether a charge is let through, and what it leaves. -/
  charge : S → Nat → Bool × S
  recent : S → Nat → Bool

namespace Bucket

variable {S : Type} (b : Bucket S)

def step (s : S) : Use → S
  | .charge t => (b.charge s t).2
  | .prune t => if b.recent s t then s else b.fresh

/-- When a charge was let through. -/
def passed : S → List Use → List Nat
  | _, [] => []
  | s, .charge t :: us => if (b.charge s t).1 then t :: passed (b.step s (.charge t)) us else passed (b.step s (.charge t)) us
  | s, .prune t :: us => passed (b.step s (.prune t)) us

/-- How many charges a bucket lets through from `lo` to `hi`. -/
def count (lo hi : Nat) (ts : List Nat) : Nat := ts.countP fun t => lo ≤ t && t ≤ hi

/-- In any time, a burst and one for each interval of it. -/
def Bounded (burst interval : Nat) : Prop :=
  ∀ us : List Use, (us.map Use.now).Pairwise (· ≤ ·) → ∀ lo hi, lo ≤ hi →
    count lo hi (b.passed b.fresh us) * interval ≤ hi - lo + burst * interval

/-- The generic cell rate algorithm, on the time the next charge is due at. -/
def gcra (burst interval : Nat) : Bucket Nat where
  fresh := 0
  charge due now := if due ≤ now + (burst - 1) * interval then (true, max due now + interval) else (false, due)
  recent due now := now < due

theorem gcra_count {burst interval lo hi : Nat} (hburst : 0 < burst) (h : lo ≤ hi) {us : List Use} {m d : Nat}
    (hus : (us.map Use.now).Pairwise (· ≤ ·)) (hm : ∀ u ∈ us, m ≤ u.now) :
    count lo hi ((gcra burst interval).passed d us) = 0 ∨
      count lo hi ((gcra burst interval).passed d us) * interval + max (max d m) lo ≤ hi + burst * interval := by
  obtain ⟨burst, rfl⟩ : ∃ n, burst = n + 1 := ⟨burst - 1, by omega⟩
  rw [Nat.succ_mul]
  induction us generalizing m d with
  | nil => exact .inl rfl
  | cons u us ih =>
    rw [List.map_cons, List.pairwise_cons] at hus
    have hnow := hm u List.mem_cons_self
    have hlater : ∀ v ∈ us, u.now ≤ v.now := fun v hv => hus.1 _ (List.mem_map_of_mem hv)
    cases u with
    | charge t =>
      simp only [passed, step, gcra, Nat.add_sub_cancel] at ih ⊢
      simp only [Use.now] at hnow hlater
      by_cases hpass : d ≤ t + burst * interval
      · have ih := ih (d := max d t + interval) hus.2 hlater
        simp only [hpass, if_true] at ih ⊢
        generalize passed _ _ us = ts at ih ⊢
        rw [count, List.countP_cons, ← count]
        by_cases hin : lo ≤ t ∧ t ≤ hi
        · simp only [hin, decide_true, Bool.and_self, if_true, Nat.succ_mul]
          right
          rcases ih with ih | ih
          · rw [ih]
            omega
          · omega
        · have hout : (decide (lo ≤ t) && decide (t ≤ hi)) = false := by simpa using hin
          simp only [hout, Bool.false_eq_true, if_false, Nat.add_zero]
          refine ih.imp_right fun ih => ?_
          omega
      · have ih := ih (m := m) (d := d) hus.2 fun v hv => hm v (List.mem_cons_of_mem _ hv)
        simpa only [hpass, if_false, Bool.false_eq_true] using ih
    | prune t =>
      simp only [passed, step, gcra] at ih ⊢
      simp only [Use.now] at hnow hlater
      by_cases hrecent : t < d
      · simpa only [hrecent, decide_true, if_true] using ih (m := m) (d := d) hus.2 fun v hv =>
          hm v (List.mem_cons_of_mem _ hv)
      · have ih := ih (d := 0) hus.2 hlater
        simp only [hrecent, decide_false, Bool.false_eq_true, if_false]
        refine ih.imp_right fun ih => ?_
        omega

theorem bounded_gcra {burst interval : Nat} (hburst : 0 < burst) : (gcra burst interval).Bounded burst interval := by
  intro us hus lo hi h
  rcases @gcra_count burst interval lo hi hburst h us 0 (gcra burst interval).fresh hus fun u _ => Nat.zero_le _ with
    hzero | hle
  · rw [hzero, Nat.zero_mul]
    exact Nat.zero_le _
  · have : lo ≤ max (max (gcra burst interval).fresh 0) lo := le_max_right _ _
    omega

end Bucket

/-- A library of buckets by their number a minute, in nanoseconds. -/
class Governor where
  State : Type
  perMinute : Nat → Bucket State
  bounded {n : Nat} : 0 < n → (perMinute n).Bounded n (60 * 10 ^ 9 / n)

/-- Buckets of the generic cell rate algorithm. -/
@[reducible] def Governor.standard : Governor where
  State := Nat
  perMinute n := Bucket.gcra n (60 * 10 ^ 9 / n)
  bounded := Bucket.bounded_gcra

end OV
