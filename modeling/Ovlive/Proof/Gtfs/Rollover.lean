import Ovlive.Proof.Api.Axis
import Ovlive.Proof.Gtfs.Refresh

/-!
# Today's board

The loop that rebuilds the departure boards wakes a minute past the next
midnight, if the day on which it goes to sleep has 24 hours (`woken_eq`). On a
shorter day it wakes late, and the board of yesterday stays up. `InTime` is the
condition on an iteration, `right_step` its step lemma, and `always_today` says
of every run of such iterations that the board is today's from two minutes past
each midnight the loop has been through.
-/

namespace OV.Impl

/-- A minute. -/
def minute : Int := 60 * nanos

/-- An instant at which the zone's clock shows 00:00. -/
def Midnight (tz : Tz) (m : Int) : Prop := tz.clock m = midnightOf (tz.date m)

namespace StopIndexLoop

variable {sort : CallSort} {tz : Tz} {s t : StopIndexLoop} {took e : Int}

/-- The date of the published board. -/
def published (s : StopIndexLoop) : Option NaiveDate := s.gtfs.stops.map StopIndexes.date

/-- An instant more than two minutes past the last midnight, which came after
the loop was spawned. -/
def Settled (tz : Tz) (since u : Int) : Prop :=
  ∃ m : Int, since < m ∧ Midnight tz m ∧ m + 2 * minute < u ∧ ∀ x : Int, m ≤ x → x ≤ u → tz.date x = tz.date u

/-- Until an iteration ends, the published board is today's. -/
def Right (tz : Tz) (s : StopIndexLoop) (_ : Int) (t : StopIndexLoop) : Prop :=
  ∀ u : Int, s.now ≤ u → u < t.now → Settled tz s.since u → s.published = some (serviceDate u tz)

/-- The midnight from which the loop counts that goes to sleep at `e`: that of the
day, or `e` itself where the clock skips or repeats it. -/
def counted (tz : Tz) (e : Int) : Int := (hourOf 0 tz e).getD e

/-- When it starts to build: a minute past 24 hours later, or past `e` if that is
later still. -/
def buildsAt (tz : Tz) (e : Int) : Int :=
  (if counted tz e + oneDay ≤ e then e else counted tz e + oneDay - (counted tz e + oneDay - e) % nanos) + minute

/-- An iteration that goes to sleep at `e`, after that day's midnight: the next
midnight is 24 hours after it or later, and leaves time to build, and no date
ends during the build. -/
structure InTime (tz : Tz) (e took : Int) : Prop where
  past : counted tz e ≤ e
  long : ∀ m : Int, e < m → Midnight tz m → max (counted tz e + oneDay) e + took ≤ m + minute
  quiet : ∀ u : Int, buildsAt tz e ≤ u → u ≤ buildsAt tz e + took → tz.date u = tz.date (buildsAt tz e)

theorem wake_zero (h : counted tz e ≤ e) : wake 0 tz e + minute = buildsAt tz e := by
  unfold buildsAt counted at *
  cases hT : hourOf 0 tz e with
  | none =>
    rw [Option.getD_none, wake_none hT, if_neg (by unfold oneDay secsPerDay nanos; omega)]
    unfold oneDay secsPerDay nanos
    omega
  | some T =>
    rw [hT, Option.getD_some] at h
    rw [Option.getD_some]
    split
    · rw [wake_late hT ‹_›]
    · rw [wake_past hT h (not_le.mp ‹_›)]

/-- An iteration that is in time builds when it should, for the date of then. -/
theorem iterate_eq (sort : CallSort) (h : InTime tz s.now took) (hs : s.gtfs.store.isSome) :
    (s.iterate sort tz took).now = buildsAt tz s.now + took ∧
      (s.iterate sort tz took).published = some (tz.date (buildsAt tz s.now)) ∧
      (s.iterate sort tz took).gtfs.store = s.gtfs.store ∧ (s.iterate sort tz took).since = s.since := by
  have hwoken : s.now + (secondsUntilNext s.now 0 tz + 60) * nanos = buildsAt tz s.now := by
    rw [← wake_zero h.past, wake, minute]
    ring
  obtain ⟨store, hstore⟩ := Option.isSome_iff_exists.mp hs
  simp only [iterate, hwoken, published, GtfsService.rebuildStopIndexes, hstore]
  exact ⟨trivial, rfl, trivial, trivial⟩

theorem buildsAt_le (tz : Tz) (e : Int) : buildsAt tz e ≤ max (counted tz e + oneDay) e + minute := by
  unfold buildsAt
  split
  · omega
  · have := Int.emod_nonneg (counted tz e + oneDay - e) (show nanos ≠ 0 by decide)
    omega

/-- Between two iterations: there is a feed, and after the first one the board
is that of the current date. -/
structure Current (tz : Tz) (s : StopIndexLoop) : Prop where
  feed : s.gtfs.store.isSome
  today : s.since < s.now → s.published = some (tz.date s.now)

/-- While an iteration lasts that is in time, the board is right, and it leaves
the current one. -/
theorem right_step (hc : s.Current tz) (h : Guarded (fun s took => InTime tz s.now took) (Step sort tz) s took t) :
    Right tz s took t ∧ t.Current tz := by
  obtain ⟨hin, htook, rfl⟩ := h
  obtain ⟨hnow, hpub, hstore, hsince⟩ := iterate_eq sort hin hc.feed
  constructor
  · rintro u hle hlt ⟨m, hm, hmid, hlate, hday⟩
    rcases le_or_gt m s.now with hms | hms
    · -- the midnight came before the iteration, so its board is of that day
      rw [hc.today (hm.trans_le hms), serviceDate, hday s.now hms hle]
    · -- it came after the loop went to sleep, so by now the iteration is over
      have hlong := hin.long m hms hmid
      have hbuild := buildsAt_le tz s.now
      have hend : buildsAt tz s.now + took ≤ m + 2 * minute := by omega
      rw [hnow] at hlt
      exact absurd (hlt.trans_le hend) (not_lt.mpr hlate.le)
  · refine ⟨by rw [hstore]; exact hc.feed, fun _ => ?_⟩
    rw [hpub, hnow, hin.quiet _ (by omega) le_rfl]

/-- In every run of the loop whose iterations are in time, from any instant and
whatever board is published then, the published board is today's at every
instant more than two minutes past a midnight that the loop has been through. -/
theorem always_today (sort : CallSort) (tz : Tz) (gtfs : GtfsService) (t0 : Instant) (tooks : List Int)
    (s : StopIndexLoop) (hfeed : gtfs.store.isSome)
    (hrun : Run (Guarded (fun s took => InTime tz s.now took) (Step sort tz)) (start gtfs t0) tooks s) :
    Run (Ensured (Right tz) (Step sort tz)) (start gtfs t0) tooks s :=
  hrun.ensured (fun _ _ _ hc h => right_step hc h) ⟨hfeed, fun h => absurd h (lt_irrefl _)⟩

/-- A service with an empty feed, and its board of a date. -/
def emptyService (date : NaiveDate) : GtfsService :=
  { store := some {}, stops := some (StopIndexes.build (SortBy.insertion _) {} date) }

theorem utc_clock (x : Int) : Tz.utc.clock x = x := by
  simp [Tz.clock, Tz.offset, Tz.utc]

/-- One iteration in a zone without an offset, spawned at noon, with a build of a second. -/
theorem always_today_utc :
    Run (Ensured (Right Tz.utc) (Step (SortBy.insertion _) Tz.utc)) (start (emptyService ⟨0⟩) (43200 * nanos)) [nanos]
      ((start (emptyService ⟨0⟩) (43200 * nanos)).iterate (SortBy.insertion _) Tz.utc nanos) := by
  refine always_today (SortBy.insertion _) Tz.utc (emptyService ⟨0⟩) (43200 * nanos) [nanos] _ rfl
    (Run.nil.snoc ⟨?_, by decide, rfl⟩)
  have hcounted : counted Tz.utc (43200 * nanos) = 0 := by decide +kernel
  have hbuild : buildsAt Tz.utc (43200 * nanos) = 86460 * nanos := by decide +kernel
  show InTime Tz.utc (43200 * nanos) nanos
  refine ⟨by rw [hcounted]; decide, fun m hm hmid => ?_, fun u h1 h2 => ?_⟩
  · -- midnights are a multiple of 24 hours apart
    simp only [Midnight, midnightOf, Tz.date, utc_clock] at hmid
    rw [hcounted]
    unfold oneDay minute secsPerDay nanos at *
    omega
  · simp only [Tz.date, utc_clock, NaiveDate.mk.injEq]
    rw [hbuild] at *
    unfold secsPerDay nanos at *
    omega

/-! ## A day of 23 hours -/

/-- The offset of a zone changes by an hour at most, each time. -/
def Gentle (tz : Tz) : Prop := tz.offsets.IsChain fun a b => |b - a| ≤ 3600

/-- The day after summer time has started. -/
theorem spring_date {x : Int} (h1 : 1774821600 * nanos ≤ x) (h2 : x < 1774908000 * nanos) : spring.date x = ⟨20542⟩ := by
  have hoff : spring.offset x = 7200 := by
    have hchange : (1774746000 * nanos : Int) ≤ x := by
      unfold nanos at *
      omega
    simp [Tz.offset, spring, hchange]
  rw [Tz.date, Tz.clock, hoff, NaiveDate.mk.injEq]
  unfold secsPerDay nanos at *
  omega

/-- A loop spawned at two past midnight of the day on which summer time starts
wakes an hour and a minute into the next day. -/
theorem not_always_today :
    ¬ ∀ (sort : CallSort) (tz : Tz) (gtfs : GtfsService) (t0 : Instant) (tooks : List Int) (s : StopIndexLoop),
      Gentle tz → gtfs.store.isSome → (∀ took ∈ tooks, took ≤ minute) →
      Run (Step sort tz) (start gtfs t0) tooks s → Run (Ensured (Right tz) (Step sort tz)) (start gtfs t0) tooks s := by
  intro h
  have hgentle : Gentle spring := by simp [Gentle, Tz.offsets, spring]
  have hmid : Midnight spring (1774821600 * nanos) := show spring.clock _ = midnightOf _ by decide +kernel
  have hrun := h (SortBy.insertion _) spring (emptyService ⟨20541⟩) (1774738920 * nanos) [0] _ hgentle rfl
    (by decide) (Run.nil.snoc ⟨le_rfl, rfl⟩)
  rw [← List.nil_append [0]] at hrun
  obtain ⟨s, hnil, -, hright⟩ := hrun.last
  obtain rfl := hnil.eq_of_nil
  -- half past midnight, local time
  have hpub := hright (1774823400 * nanos) (by decide +kernel) (by decide +kernel)
    ⟨1774821600 * nanos, by decide +kernel, hmid, by decide +kernel, fun x h1 h2 => by
      rw [spring_date h1 (by unfold nanos at *; omega), spring_date (by decide) (by decide)]⟩
  rw [serviceDate, spring_date (by decide) (by decide)] at hpub
  exact absurd hpub (by decide +kernel)

end StopIndexLoop

end OV.Impl
