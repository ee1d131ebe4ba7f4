import Ovlive.Framework.Wrap
import Ovlive.Impl.Api.Trips

/-!
# The axis of the schedule

A scheduled time is a number of seconds, and three parts of the program relate
it to an instant: the board by the clock of the zone
(`secsSinceLocalMidnight`), the legacy API by the day's midnight (`absolute`,
`stopTimeItem_scheduledArrival`), and the anchor of a vehicle without a fix by
the seconds since that midnight (`scheduledPositionOf_eq`). `one_axis_iff` says
when the three agree: `clock_eq` relates a reading of the clock to the seconds
since midnight, and they differ by what the offset has changed.
-/

namespace OV.Impl

/-! ## Midnights -/

/-- The clock's reading at midnight of a day. -/
def midnightOf (day : NaiveDate) : Int := day.days * secsPerDay * nanos

/-- Midnight of a day is the last instant at which the clock shows it. -/
theorem localMidnightUtc_eq_some {day : NaiveDate} {tz : Tz} {m : Instant} :
    localMidnightUtc day tz = some m ↔ IsGreatest {u | tz.clock u = midnightOf day} m := by
  have hmax : ∀ m, tz.latest (midnightOf day) = some m ↔ IsGreatest {u | tz.clock u = midnightOf day} m := by
    intro m
    rw [Tz.latest, List.max?_eq_some_iff]
    simp only [Tz.mem_instantsOf]
    rfl
  show (tz.single (midnightOf day)).or (tz.latest (midnightOf day)) = some m ↔ _
  cases h : tz.single (midnightOf day) with
  | none => rw [Option.none_or, hmax]
  | some u =>
    obtain ⟨hu, hall⟩ := tz.single_eq_some_iff.mp h
    rw [Option.some_or, Option.some.injEq]
    constructor
    · rintro rfl
      exact ⟨hu, fun w hw => (hall w hw).le⟩
    · rintro ⟨hm, -⟩
      exact (hall m hm).symm

/-- From a midnight to another reading of the clock, the instants pass as the
clock does, but for the change of the offset. -/
theorem clock_eq {day : NaiveDate} {tz : Tz} {m t : Int} (h : tz.clock m = midnightOf day) :
    t - m = tz.clock t - midnightOf day - (tz.offset t - tz.offset m) * nanos := by
  rw [← h]
  simp only [Tz.clock]
  ring

/-- The whole seconds on the clock since a midnight lead back to the instant, to
the second, exactly if the offset has not changed. -/
theorem rendered_iff {day : NaiveDate} {tz : Tz} {m t : Int} (h : tz.clock m = midnightOf day) :
    m + (tz.clock t - midnightOf day) / nanos * nanos = t - t % nanos ↔ tz.offset m = tz.offset t := by
  have hfrac : t % nanos = (tz.clock t - midnightOf day) % nanos := by
    simp only [Tz.clock, midnightOf]
    unfold secsPerDay nanos
    omega
  have hclock := clock_eq (t := t) h
  rw [hfrac]
  unfold nanos at *
  omega

/-! ## The three readings -/

/-- The shift of a day's calls on the board of a date: today's have none, and
yesterday's are a day back. -/
def boardShift (date day : NaiveDate) : Option Int32 :=
  if day = date then some 0
  else if date.predOpt = some day then some (-DAY_SECS)
  else none

/-- The schedule value that the board of an instant has at that instant, for a
day's calls. -/
def boardNow (tz : Tz) (t : Instant) (shift : Int32) : Int32 := secsSinceLocalMidnight t tz - shift

/-- The value that a fix at an instant is compared with, for a day's calls. -/
def fixNow (tz : Tz) (t : Instant) (day : NaiveDate) : Option Int :=
  (localMidnightUtc day tz).map fun m => numSeconds (t - m)

/-- The station of the call nearest to a value, if it is near enough. -/
def GtfsStore.anchorAt (s : GtfsStore) (times : List StopTime) (target : Int) : Option (Num × Num) :=
  (GtfsStore.nearestCall times target).bind fun best =>
    if SCHEDULE_ANCHOR_TOLERANCE_SECS < best.1 then none
    else (s.stops.lookup best.2.stopId).map fun stop => (stop.lat, stop.lon)

/-- A vehicle without a fix is put at the call of its trip that is nearest, on
the axis of its operating day, to its last update less its delay. -/
theorem scheduledPositionOf_eq [Platform] (s : GtfsStore) (trip : LiveTrip) :
    s.scheduledPositionOf trip =
      (trip.matchedTripId.bind s.stopTimes.lookup).bind fun times =>
        ((operatingDay trip).bind (fixNow Platform.amsterdam trip.lastUpdate)).bind fun now =>
          s.anchorAt times (if trip.delayKnown then now - trip.delaySeconds else now) := by
  simp only [GtfsStore.scheduledPositionOf, operatingDay, fixNow, GtfsStore.anchorAt, Option.bind_eq_bind,
    Option.bind_assoc, Option.bind_map]
  congr 1
  funext tid
  congr 1
  funext times
  congr 1
  funext text
  congr 1
  funext day
  congr 1
  funext midnight
  simp only [Function.comp]
  congr 1
  funext best
  split
  · rfl
  · cases s.stops.lookup best.2.stopId <;> rfl

/-- The instant written in a row of `stop_times_for` is that of its arrival. -/
theorem stopTimeItem_scheduledArrival {day : NaiveDate} {tz : Tz} {m : Instant} (h : localMidnightUtc day tz = some m)
    (live : VehicleIndex) (d : Departure) :
    absolute (some day) d.scheduledArrival tz = some (stopTimeItem m live d).scheduledArrival := by
  simp only [absolute, Option.bind_eq_bind, Option.bind_some, h]
  rfl

/-! ## Where they agree -/

/-- The value that a day's calls have on the board of an instant, rendered and
compared with a fix at that instant: the instant itself, to the second. -/
structure OneAxis (tz : Tz) (t : Instant) (day : NaiveDate) (shift : Int32) : Prop where
  fix : fixNow tz t day = some (boardNow tz t shift).toInt
  rendered : absolute (some day) (boardNow tz t shift) tz = some (t - t % nanos)

/-- The clock shows midnight of the day, and when it last does the offset is
that of the instant. -/
def SameOffset (tz : Tz) (t : Instant) (day : NaiveDate) : Prop :=
  ∃ m, IsGreatest {u | tz.clock u = midnightOf day} m ∧ tz.offset m = tz.offset t

theorem secsSinceLocalMidnight_toInt (t : Instant) (tz : Tz) :
    (secsSinceLocalMidnight t tz).toInt = (tz.clock t - midnightOf (tz.date t)) / nanos ∧
      0 ≤ (secsSinceLocalMidnight t tz).toInt ∧ (secsSinceLocalMidnight t tz).toInt < secsPerDay := by
  have hmod : tz.clock t % (secsPerDay * nanos) = tz.clock t - midnightOf (tz.date t) := by
    simp only [midnightOf, Tz.date]
    unfold secsPerDay nanos
    omega
  have h0 : 0 ≤ tz.clock t % (secsPerDay * nanos) := Int.emod_nonneg _ (by decide)
  have h1 : tz.clock t % (secsPerDay * nanos) < secsPerDay * nanos := Int.emod_lt_of_pos _ (by decide)
  have hsize : ((Int32.size : Nat) : Int) = 4294967296 := rfl
  have hval : (secsSinceLocalMidnight t tz).toInt = tz.clock t % (secsPerDay * nanos) / nanos := by
    rw [secsSinceLocalMidnight, Int32.toInt_ofInt, Int.bmod_eq_of_le]
    all_goals unfold secsPerDay nanos at *; omega
  rw [hval, hmod] at *
  refine ⟨rfl, ?_, ?_⟩
  all_goals unfold secsPerDay nanos at *; omega

/-- The board's value is the whole seconds on the clock since the day's midnight. -/
theorem boardNow_toInt {tz : Tz} {t : Instant} {day : NaiveDate} {shift : Int32}
    (h : boardShift (serviceDate t tz) day = some shift) :
    (boardNow tz t shift).toInt = (tz.clock t - midnightOf day) / nanos ∧ 0 ≤ tz.clock t - midnightOf day := by
  obtain ⟨hsecs, h0, h1⟩ := secsSinceLocalMidnight_toInt t tz
  have hsize : ((Int32.size : Nat) : Int) = 4294967296 := rfl
  have hshift : shift.toInt = (day.days - (tz.date t).days) * secsPerDay ∧
      (shift.toInt = 0 ∨ shift.toInt = -secsPerDay) := by
    unfold boardShift serviceDate at h
    split at h
    · rename_i hday
      cases h
      rw [hday]
      exact ⟨by simp, .inl rfl⟩
    · split at h
      · rename_i hpred
        cases h
        unfold NaiveDate.predOpt at hpred
        split at hpred
        · cases hpred
        · cases hpred
          exact ⟨by rw [show ((-DAY_SECS : Int32).toInt) = -86400 from by decide]; unfold secsPerDay; ring, .inr rfl⟩
      · cases h
  have hval : (boardNow tz t shift).toInt = (secsSinceLocalMidnight t tz).toInt - shift.toInt := by
    rw [boardNow, toInt_sub_eq_iff, FitsI32]
    unfold secsPerDay at *
    omega
  rw [hval, hsecs]
  rw [hsecs] at h0
  obtain ⟨hday, hcases⟩ := hshift
  have hdays : midnightOf (tz.date t) - midnightOf day = -shift.toInt * nanos := by
    rw [hday, midnightOf, midnightOf]
    ring
  generalize midnightOf (tz.date t) = a at *
  generalize midnightOf day = b at *
  generalize shift.toInt = c at *
  unfold secsPerDay nanos at *
  omega

/-- For each day whose calls are on the board of an instant, the board, the
rendered times and the comparison with a fix agree exactly if the clock shows
midnight of that day, with the offset it has at the instant. -/
theorem one_axis_iff (tz : Tz) (t : Instant) (day : NaiveDate) (shift : Int32)
    (h : boardShift (serviceDate t tz) day = some shift) : OneAxis tz t day shift ↔ SameOffset tz t day := by
  obtain ⟨hnow, h0⟩ := boardNow_toInt h
  have hrendered : absolute (some day) (boardNow tz t shift) tz = some (t - t % nanos) ↔ SameOffset tz t day := by
    simp only [absolute, Option.bind_eq_bind, Option.bind_some, Option.bind_eq_some_iff, Option.some.injEq, hnow,
      localMidnightUtc_eq_some, SameOffset]
    refine exists_congr fun m => and_congr_right fun hm => rendered_iff hm.1
  refine ⟨fun hone => hrendered.mp hone.rendered, fun hsame => ⟨?_, hrendered.mpr hsame⟩⟩
  obtain ⟨m, hm, hoff⟩ := hsame
  have hclock := clock_eq (t := t) hm.1
  rw [hoff, sub_self, zero_mul, sub_zero] at hclock
  rw [fixNow, localMidnightUtc_eq_some.mpr hm, Option.map_some, hclock, numSeconds, Int.tdiv_eq_ediv_of_nonneg h0, hnow]

/-- A zone whose summer time starts at one in the morning of 2026-03-29, UTC. -/
def spring : Tz where
  base := 3600
  changes := [(1774746000 * nanos, 7200)]
  ascending := List.pairwise_singleton _ _

/-- At noon of the next day, for that day's calls. -/
theorem one_axis_iff_spring : OneAxis spring (1774864800 * nanos) ⟨20542⟩ 0 :=
  (one_axis_iff spring (1774864800 * nanos) ⟨20542⟩ 0 (by decide +kernel)).mpr
    ⟨1774821600 * nanos, localMidnightUtc_eq_some.mp (by decide +kernel), by decide +kernel⟩

/-- At noon of the day itself eleven hours have passed since midnight. -/
theorem not_one_axis :
    ¬ ∀ (tz : Tz) (t : Instant), fixNow tz t (serviceDate t tz) = some (secsSinceLocalMidnight t tz).toInt := by
  intro h
  exact absurd (h spring (1774778400 * nanos)) (by decide +kernel)

end OV.Impl
