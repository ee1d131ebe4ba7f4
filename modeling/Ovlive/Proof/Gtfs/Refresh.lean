import Ovlive.Framework.Run
import Ovlive.Impl.Server

/-!
# One check a day

When the refresh loop wakes (`wake_none`, `wake_ahead`, `wake_past`,
`wake_late`), and which iterations keep the next check off the day of the last
one (`Spaced`). `RefreshLoop.once_a_day` is the run lemma: while every
iteration is spaced, no two checks are on one calendar day. An iteration that
ends in the last second before the hour is not, for one: the delay is cut to
no second at all.
-/

namespace OV.Impl

variable {hour : Nat} {tz : Tz} {now target c e T : Int}

/-- A day of 24 hours. -/
def oneDay : Int := secsPerDay * nanos

/-- When the clock reads `hour:00` on the day of an instant, if it does so once. -/
def hourOf (hour : Nat) (tz : Tz) (now : Int) : Option Int :=
  if hour < 24 then tz.single ((tz.date now).days * secsPerDay * nanos + hour * 3600 * nanos) else none

/-- The instant at which the loop wakes that goes to sleep at `now`. -/
def wake (hour : Nat) (tz : Tz) (now : Int) : Int := now + secondsUntilNext now hour tz * nanos

/-- Sleeping towards a target ahead ends at most a second before it. -/
theorem sleep_towards (h : now ≤ target) :
    now + max (numSeconds (target - now)) 0 * nanos = target - (target - now) % nanos := by
  have hdiv : numSeconds (target - now) = (target - now) / nanos := Int.tdiv_eq_ediv_of_nonneg (by omega)
  rw [hdiv]
  unfold nanos
  omega

theorem sleep_past (h : target ≤ now) :
    now + max (numSeconds (target - now)) 0 * nanos = now := by
  have hdiv : numSeconds (target - now) ≤ 0 := by
    have h' : target - now = -(now - target) := by omega
    rw [numSeconds, h', Int.neg_tdiv, Int.tdiv_eq_ediv_of_nonneg (by omega)]
    have := Int.ediv_nonneg (a := now - target) (b := nanos) (by omega) (by decide)
    omega
  rw [max_eq_right hdiv]
  omega

theorem secondsUntilNext_eq (now : Int) (hour : Nat) (tz : Tz) :
    secondsUntilNext now hour tz =
      let target := (hourOf hour tz now).getD now
      max (numSeconds ((if target ≤ now then target + oneDay else target) - now)) 0 := rfl

/-- Where the clock of the day skips or repeats the hour, a day later. -/
theorem wake_none (h : hourOf hour tz now = none) : wake hour tz now = now + oneDay := by
  rw [wake, secondsUntilNext_eq, h]
  simp only [Option.getD_none, le_refl, if_true]
  rw [sleep_towards (by unfold oneDay secsPerDay nanos; omega)]
  unfold oneDay secsPerDay nanos
  omega

/-- Towards an hour that is ahead. -/
theorem wake_ahead (h : hourOf hour tz now = some T) (hT : now < T) :
    wake hour tz now = T - (T - now) % nanos := by
  rw [wake, secondsUntilNext_eq, h]
  simp only [Option.getD_some, not_le.mpr hT, if_false]
  exact sleep_towards hT.le

/-- Towards 24 hours after an hour that has passed. -/
theorem wake_past (h : hourOf hour tz now = some T) (hT : T ≤ now) (hlt : now < T + oneDay) :
    wake hour tz now = T + oneDay - (T + oneDay - now) % nanos := by
  rw [wake, secondsUntilNext_eq, h]
  simp only [Option.getD_some, hT, if_true]
  exact sleep_towards hlt.le

/-- At once, if that has passed as well. -/
theorem wake_late (h : hourOf hour tz now = some T) (hT : T + oneDay ≤ now) : wake hour tz now = now := by
  have hle : T ≤ now := by unfold oneDay secsPerDay nanos at hT; omega
  rw [wake, secondsUntilNext_eq, h]
  simp only [Option.getD_some, hle, if_true]
  exact sleep_past hT

/-- The loop never wakes before it goes to sleep. -/
theorem le_wake (hour : Nat) (tz : Tz) (now : Int) : now ≤ wake hour tz now := by
  have h : 0 ≤ secondsUntilNext now hour tz := by
    rw [secondsUntilNext_eq]
    exact le_max_right _ _
  have := Int.mul_nonneg h (show (0 : Int) ≤ nanos by decide)
  unfold wake
  omega

/-- What the clock is set forward by between two instants: a day that has it is
as much shorter than 24 hours. -/
def setForward (tz : Tz) (t u : Int) : Int := (tz.offset u - tz.offset t) * nanos

theorem clock_eq_add (tz : Tz) (t u : Int) : tz.clock u = tz.clock t + (u - t) + setForward tz t u := by
  rw [Tz.clock, Tz.clock, setForward, sub_mul]
  omega

/-- A clock shows a later day once it reads the next midnight. -/
theorem later_iff_clock {d : Int} : d < (tz.date T).days ↔ (d + 1) * oneDay ≤ tz.clock T := by
  rw [Tz.date, Int.lt_iff_add_one_le, Int.le_ediv_iff_mul_le (by decide), oneDay]

/-- The part of a second that a sleep to 24 hours after `T` leaves out. -/
def leftOut (T e : Int) : Int := (T + oneDay - e) % nanos

/-- An iteration whose check started at `c` and that ended at `e`, after which
the day of `c` has no second check. -/
inductive Spaced (hour : Nat) (tz : Tz) (c e : Int) : Prop
  /-- By its end that day was over for good. -/
  | dayOver (h : ∀ u : Int, e ≤ u → (tz.date c).days < (tz.date u).days)
  /-- The hour was on the day of its end and had passed, and the part of a second
  that is left out is no more than the hour, and what the day is short of 24 hours. -/
  | passed (T : Int) (hT : hourOf hour tz e = some T) (hle : T ≤ e) (hlt : e < T + oneDay)
    (h : (tz.date c).days * oneDay + leftOut T e ≤
      (tz.date e).days * oneDay + hour * 3600 * nanos + setForward tz T (T + oneDay - leftOut T e))
  /-- The clock skipped or repeated the hour, and in the next 24 hours it is not set
  back by more than it had passed midnight. -/
  | unclear (hT : hourOf hour tz e = none)
    (h : (tz.date c).days * oneDay ≤ tz.clock e + setForward tz e (e + oneDay))

/-- The clock at the hour. -/
theorem clock_hourOf (h : hourOf hour tz now = some T) :
    tz.clock T = (tz.date now).days * oneDay + hour * 3600 * nanos := by
  unfold hourOf at h
  split_ifs at h
  rw [(tz.single_eq_some_iff.mp h).1, oneDay, mul_assoc]

/-- Where the hour had passed, the condition is that the loop wakes on a later day. -/
theorem passed_iff (hT : hourOf hour tz e = some T) :
    (tz.date c).days * oneDay + leftOut T e ≤
      (tz.date e).days * oneDay + hour * 3600 * nanos + setForward tz T (T + oneDay - leftOut T e) ↔
    (tz.date c).days < (tz.date (T + oneDay - leftOut T e)).days := by
  rw [later_iff_clock, clock_eq_add tz T, clock_hourOf hT, add_mul]
  omega

theorem unclear_iff :
    (tz.date c).days * oneDay ≤ tz.clock e + setForward tz e (e + oneDay) ↔
    (tz.date c).days < (tz.date (e + oneDay)).days := by
  rw [later_iff_clock, clock_eq_add tz e (e + oneDay), add_mul]
  omega

/-- After a spaced iteration the loop wakes on a later day. -/
theorem Spaced.wake (h : Spaced hour tz c e) : (tz.date c).days < (tz.date (wake hour tz e)).days := by
  cases h with
  | dayOver h => exact h _ (le_wake hour tz e)
  | passed T hT hle hlt h =>
    rw [wake_past hT hle hlt]
    exact (passed_iff hT).mp h
  | unclear hT h =>
    rw [wake_none hT]
    exact unclear_iff.mp h

/-- The hour is on the day it is looked up for. -/
theorem date_hourOf (h : hourOf hour tz now = some T) : tz.date T = tz.date now := by
  unfold hourOf at h
  split_ifs at h with hh
  exact tz.date_of_clock (hour * 3600) (tz.single_eq_some_iff.mp h).1 (by omega) (by unfold secsPerDay; omega)

/-- Where the clock is not set back over midnight, no other iteration does. -/
theorem spaced_iff (hce : c ≤ e) (hmono : ∀ u v : Int, c ≤ u → u ≤ v → (tz.date u).days ≤ (tz.date v).days) :
    Spaced hour tz c e ↔ (tz.date c).days < (tz.date (OV.Impl.wake hour tz e)).days := by
  refine ⟨Spaced.wake, fun h => ?_⟩
  have hover : (tz.date c).days < (tz.date e).days → Spaced hour tz c e := fun hlt =>
    .dayOver fun u hu => hlt.trans_le (hmono e u hce hu)
  cases hT : hourOf hour tz e with
  | none =>
    rw [wake_none hT] at h
    exact .unclear hT (unclear_iff.mpr h)
  | some T =>
    by_cases hle : T ≤ e
    · by_cases hlt : e < T + oneDay
      · rw [wake_past hT hle hlt] at h
        exact .passed T hT hle hlt ((passed_iff hT).mpr h)
      · rw [wake_late hT (not_lt.mp hlt)] at h
        exact hover h
    · -- the loop wakes before the hour, which is on the day of `e`
      have hwake : OV.Impl.wake hour tz e ≤ T := by
        rw [wake_ahead hT (not_le.mp hle)]
        have := Int.emod_nonneg (T - e) (show nanos ≠ 0 by decide)
        omega
      have hday := hmono _ T (hce.trans (le_wake hour tz e)) hwake
      rw [date_hourOf hT] at hday
      exact hover (h.trans_le hday)

/-- The iteration before a step, if there was one, was spaced. -/
def RefreshLoop.spaced (hour : Nat) (tz : Tz) (s : RefreshLoop) (_ : Int) : Prop :=
  ∀ c : Int, s.checks.getLast? = some c → Spaced hour tz c s.now

/-- One more check, on a later day than all the others. -/
theorem RefreshLoop.step_ascending {s t : RefreshLoop} {took : Int}
    (hstep : Guarded (RefreshLoop.spaced hour tz) (RefreshLoop.Step hour tz) s took t)
    (h : s.checks.Pairwise fun a b => (tz.date a).days < (tz.date b).days) :
    t.checks.Pairwise fun a b => (tz.date a).days < (tz.date b).days := by
  obtain ⟨hok, -, rfl⟩ := hstep
  show (s.checks ++ [OV.Impl.wake hour tz s.now]).Pairwise _
  rw [List.pairwise_append]
  refine ⟨h, List.pairwise_singleton _ _, ?_⟩
  intro a ha b hb
  obtain rfl := List.mem_singleton.mp hb
  rcases List.eq_nil_or_concat' s.checks with hnil | ⟨l, c, hl⟩
  · rw [hnil] at ha
    cases ha
  · have hlast := (hok c (by rw [hl]; simp)).wake
    rw [hl] at h ha
    rcases List.mem_append.mp ha with ha | ha
    · exact ((List.pairwise_append.mp h).2.2 a ha c (by simp)).trans hlast
    · rwa [List.mem_singleton.mp ha]

/-- In every run of the refresh loop whose iterations are spaced, the checks are
on distinct calendar days. -/
theorem RefreshLoop.once_a_day (hour : Nat) (tz : Tz) (t0 : Instant) (tooks : List Int) (s : RefreshLoop)
    (hrun : Run (Guarded (RefreshLoop.spaced hour tz) (RefreshLoop.Step hour tz)) (RefreshLoop.start t0) tooks s) :
    (s.checks.map tz.date).Nodup := by
  have h := hrun.inv (P := fun s => s.checks.Pairwise fun a b => (tz.date a).days < (tz.date b).days)
    (fun _ _ _ hstep h => RefreshLoop.step_ascending hstep h) List.Pairwise.nil
  rw [List.Nodup, List.pairwise_map]
  exact h.imp fun hab heq => by rw [heq] at hab; omega

/-- Two checks of a minute each in a zone without an offset, at three. -/
theorem RefreshLoop.once_a_day_utc :
    ∃ s : RefreshLoop, s.checks = [10800 * nanos, 97200 * nanos] ∧ (s.checks.map Tz.utc.date).Nodup := by
  let minute := 60 * nanos
  let s1 := (RefreshLoop.start 0).iterate 3 Tz.utc minute
  let s2 := s1.iterate 3 Tz.utc minute
  have h1 : Guarded (RefreshLoop.spaced 3 Tz.utc) (RefreshLoop.Step 3 Tz.utc) (RefreshLoop.start 0) minute s1 :=
    ⟨fun c h => (by cases h), by decide, rfl⟩
  have h2 : Guarded (RefreshLoop.spaced 3 Tz.utc) (RefreshLoop.Step 3 Tz.utc) s1 minute s2 := by
    refine ⟨fun c hc => ?_, by decide, rfl⟩
    obtain rfl : 10800 * nanos = c := by
      have : s1.checks.getLast? = some (10800 * nanos) := by decide +kernel
      rw [this] at hc
      exact Option.some.inj hc
    exact .passed (10800 * nanos) (by decide +kernel) (by decide +kernel) (by decide +kernel) (by decide +kernel)
  exact ⟨s2, by decide +kernel, RefreshLoop.once_a_day 3 Tz.utc 0 [minute, minute] s2 ((Run.nil.snoc h1).snoc h2)⟩

/-- A loop that goes to sleep half a second past a whole one: it wakes half a
second before three, and after a check of a tenth of a second it checks again. -/
theorem RefreshLoop.not_once_a_day :
    ¬ ∀ (hour : Nat) (tz : Tz) (t0 : Instant) (tooks : List Int) (s : RefreshLoop), hour < 24 →
      Run (RefreshLoop.Step hour tz) (RefreshLoop.start t0) tooks s → (s.checks.map tz.date).Nodup := by
  intro h
  let took := nanos / 10
  let s1 := (RefreshLoop.start (nanos / 2)).iterate 3 Tz.utc took
  let s2 := s1.iterate 3 Tz.utc took
  have h1 : RefreshLoop.Step 3 Tz.utc (RefreshLoop.start (nanos / 2)) took s1 := ⟨by decide, rfl⟩
  have h2 : RefreshLoop.Step 3 Tz.utc s1 took s2 := ⟨by decide, rfl⟩
  have hdays := h 3 Tz.utc (nanos / 2) [took, took] s2 (by decide) ((Run.nil.snoc h1).snoc h2)
  exact absurd hdays (by decide +kernel)

end OV.Impl
