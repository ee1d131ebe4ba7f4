import Mathlib.Data.Int.ModEq
import Ovlive.Impl.Client.Trip

/-!
# The countdown to a call

A schedule time comes without its service day, so the countdown is the
difference to the clock, brought within half a day (`etaSeconds_eq`). It is the
true distance, from whichever midnight that is counted, as long as the distance
is less than half a day (`etaSeconds_of_distance`), and then a call has departed
when its time has come (`departed_of_distance`).
-/

namespace OV.Impl.Client

/-- The remainder that is never negative, from the one towards zero. -/
theorem tmod_add_tmod {m : Int} (x : Int) (hm : 0 < m) : (x.tmod m + m).tmod m = x % m := by
  have hlo : -m < x.tmod m := Int.lt_tmod_of_pos x hm
  have hsame : x.tmod m % m = x % m := by rw [Int.tmod_def, Int.sub_mul_emod_self_left]
  rw [Int.tmod_eq_emod_of_nonneg (by omega), Int.add_emod_right, hsame]

variable [Platform]

/-- The clock is a time of the day. -/
theorem secsSinceMidnightNL_bounds (nowMs : Int) :
    0 ≤ secsSinceMidnightNL nowMs ∧ secsSinceMidnightNL nowMs < 86400 :=
  ⟨Int.emod_nonneg _ (by decide), Int.emod_lt_of_pos _ (by decide)⟩

/-- The countdown is the balanced remainder of the difference. -/
theorem etaSeconds_eq (schedule nowMs : Int) :
    etaSeconds schedule nowMs = (schedule - secsSinceMidnightNL nowMs).bmod 86400 := by
  symm
  rw [etaSeconds, tmod_add_tmod _ (by decide), Int.bmod_eq_iff (by decide)]
  omega

/-- A call at a true distance of less than half a day, whichever day its schedule
time is counted from. -/
theorem etaSeconds_of_distance {schedule nowMs d : Int} (day : Int)
    (hd : d = schedule + 86400 * day - secsSinceMidnightNL nowMs) (hlo : -43200 ≤ d) (hhi : d < 43200) :
    etaSeconds schedule nowMs = d := by
  rw [etaSeconds_eq, Int.bmod_eq_iff (by decide)]
  omega

theorem departed_of_distance {s : TripStop} {delay nowMs d : Int} (day : Int)
    (hd : d = s.scheduledDeparture + delay + 86400 * day - secsSinceMidnightNL nowMs) (hlo : -43200 ≤ d)
    (hhi : d < 43200) : departed s delay nowMs = true ↔ d ≤ 0 := by
  rw [departed, etaSeconds_of_distance day hd hlo hhi, decide_eq_true_eq]

/-- The countdown lies within half a day, is right but for whole days, and is
exact for every call less than half a day away, of any service day; for such a
call `departed` says whether its time has come. -/
theorem countdown_exact (nowMs : Int) :
    (∀ schedule, -43200 ≤ etaSeconds schedule nowMs ∧ etaSeconds schedule nowMs < 43200 ∧
      etaSeconds schedule nowMs ≡ schedule - secsSinceMidnightNL nowMs [ZMOD 86400]) ∧
    (∀ schedule day d, d = schedule + 86400 * day - secsSinceMidnightNL nowMs → -43200 ≤ d → d < 43200 →
      etaSeconds schedule nowMs = d) ∧
    ∀ (s : TripStop) delay day d, d = s.scheduledDeparture + delay + 86400 * day - secsSinceMidnightNL nowMs →
      -43200 ≤ d → d < 43200 → (departed s delay nowMs = true ↔ d ≤ 0) := by
  refine ⟨fun schedule => ?_, fun schedule day d hd hlo hhi => etaSeconds_of_distance day hd hlo hhi,
    fun s delay day d hd hlo hhi => departed_of_distance day hd hlo hhi⟩
  rw [etaSeconds_eq]
  refine ⟨Int.le_bmod (by decide), Int.bmod_lt (by decide), ?_⟩
  exact Int.modEq_iff_dvd.mpr Int.dvd_self_sub_bmod

end OV.Impl.Client
