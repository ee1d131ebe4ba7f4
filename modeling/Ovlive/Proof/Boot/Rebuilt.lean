import Ovlive.Framework.Run
import Ovlive.Impl.Server

/-!
# The indexes once all rebuilds are done

A task of one loop can publish after a task of the other that was asked later
and read a newer feed. `agrees_iff` says which steps leave, with no task under
way, the indexes of the loaded feed for the date asked last, `agrees_run_iff`
which runs do, and `agrees_not_kept` is a feed that was swapped in while the
rebuild of midnight was building.
-/

namespace OV.Impl

/-- The date asked last, after an action. -/
def RebuildAction.dateAsked (before : NaiveDate) : RebuildAction → NaiveDate
  | .ask _ date => date
  | _ => before

/-- The loops, and what no part of them keeps: the date that was asked last. -/
structure AskedRebuilds where
  loops : Rebuilds
  lastDate : NaiveDate

namespace AskedRebuilds

variable (sort : CallSort)

/-- The loops as they are spawned, with the indexes of the feed at boot. -/
def start (store : Option GtfsStore) (date : NaiveDate) : AskedRebuilds where
  loops := { gtfs := GtfsService.rebuildStopIndexes sort { store := store } date }
  lastDate := date

/-- One step of the loops, with the date kept. -/
def step (s : AskedRebuilds) (a : RebuildAction) : Option AskedRebuilds :=
  (s.loops.step sort a).map fun loops => { loops := loops, lastDate := a.dateAsked s.lastDate }

def Step (s : AskedRebuilds) (a : RebuildAction) (t : AskedRebuilds) : Prop := s.step sort a = some t

/-- No task is under way, and no swap is still to be followed by one. -/
def Settled (s : AskedRebuilds) : Prop := ∀ loop, s.loops.task loop = .idle

/-- The indexes are those of the loaded feed, for the date asked last. -/
def Agrees (s : AskedRebuilds) : Prop :=
  ∀ store, s.loops.gtfs.store = some store → s.loops.gtfs.stops = some (StopIndexes.build sort store s.lastDate)

/-- What a step should leave if it leaves no task under way. -/
def agrees (_ : AskedRebuilds) (_ : RebuildAction) (t : AskedRebuilds) : Prop := t.Settled → t.Agrees sort

/-- A task publishes what it built from the loaded feed for the date asked
last, or while the other loop has still to publish. -/
def latest (s : AskedRebuilds) (a : RebuildAction) : Prop :=
  match a with
  | .publish loop => ∀ store date, s.loops.task loop = .building store date → s.loops.task loop.other = .idle →
      s.loops.gtfs.store = some store ∧ s.lastDate = date
  | _ => True

/-- A task that builds has read a feed, so one is loaded. -/
def Fed (s : AskedRebuilds) : Prop :=
  ∀ loop store date, s.loops.task loop = .building store date → s.loops.gtfs.store.isSome

end AskedRebuilds

theorem StopIndexes.build_eq_iff {sort : CallSort} {store store' : GtfsStore} {date date' : NaiveDate} :
    StopIndexes.build sort store date = StopIndexes.build sort store' date' ↔ store = store' ∧ date = date' :=
  ⟨fun h => ⟨congrArg StopIndexes.store h, congrArg StopIndexes.date h⟩, fun ⟨hs, hd⟩ => by rw [hs, hd]⟩

section

variable {sort : CallSort} {s t : Rebuilds} {a : RebuildAction} {loop : Loop}

theorem Loop.eq_or_other (loop l : Loop) : l = loop ∨ l = loop.other := by
  cases loop <;> cases l <;> simp [Loop.other]

theorem Loop.other_ne (loop : Loop) : loop.other ≠ loop := by
  cases loop <;> decide

theorem enter_self (s : Rebuilds) (loop : Loop) (r : Rebuild) : (s.enter loop r).task loop = r :=
  Function.update_self _ _ _

theorem enter_other (s : Rebuilds) (loop : Loop) (r : Rebuild) : (s.enter loop r).task loop.other = s.task loop.other :=
  Function.update_of_ne loop.other_ne _ _

/-- Publish what a task has built. -/
def Rebuilds.published (sort : CallSort) (s : Rebuilds) (loop : Loop) (store : GtfsStore) (date : NaiveDate) : Rebuilds :=
  { s with gtfs := { s.gtfs with stops := some (StopIndexes.build sort store date) } }.enter loop .idle

/-- What each step does. -/
theorem rebuild_step_cases (h : s.step sort a = some t) :
    (∃ store, a = .swap store ∧ s.task .refresh = .idle ∧
        t = { s with gtfs := s.gtfs.swap store }.enter .refresh .due) ∨
      (∃ loop date, a = .ask loop date ∧ t = s.enter loop (.asked date)) ∨
      (∃ loop date store, a = .read loop ∧ s.task loop = .asked date ∧ s.gtfs.store = some store ∧
        t = s.enter loop (.building store date)) ∨
      (∃ loop date, a = .read loop ∧ s.task loop = .asked date ∧ s.gtfs.store = none ∧ t = s.enter loop .idle) ∨
      ∃ loop store date, a = .publish loop ∧ s.task loop = .building store date ∧
        t = s.published sort loop store date := by
  cases a with
  | swap store =>
    simp only [Rebuilds.step] at h
    split at h
    · rename_i htask
      exact .inl ⟨store, rfl, htask, (Option.some.inj h).symm⟩
    · cases h
  | ask loop date =>
    refine .inr (.inl ⟨loop, date, rfl, ?_⟩)
    cases loop with
    | refresh =>
      simp only [Rebuilds.step] at h
      split at h
      · exact (Option.some.inj h).symm
      · cases h
    | midnight =>
      simp only [Rebuilds.step] at h
      split at h
      · exact (Option.some.inj h).symm
      · cases h
  | read loop =>
    simp only [Rebuilds.step] at h
    split at h
    · rename_i date htask
      split at h
      · rename_i store hstore
        exact .inr (.inr (.inl ⟨loop, date, store, rfl, htask, hstore, (Option.some.inj h).symm⟩))
      · rename_i hstore
        exact .inr (.inr (.inr (.inl ⟨loop, date, rfl, htask, hstore, (Option.some.inj h).symm⟩)))
    · cases h
  | publish loop =>
    simp only [Rebuilds.step] at h
    split at h
    · rename_i store date htask
      exact .inr (.inr (.inr (.inr ⟨loop, store, date, rfl, htask, (Option.some.inj h).symm⟩)))
    · cases h

theorem step_publish {store : GtfsStore} {date : NaiveDate} (h : s.task loop = .building store date) :
    s.step sort (.publish loop) = some (s.published sort loop store date) := by
  simp only [Rebuilds.step, h]
  rfl

theorem step_read_some {store : GtfsStore} {date : NaiveDate} (h : s.task loop = .asked date)
    (hs : s.gtfs.store = some store) : s.step sort (.read loop) = some (s.enter loop (.building store date)) := by
  simp only [Rebuilds.step, h, hs]

theorem step_read_none {date : NaiveDate} (h : s.task loop = .asked date) (hs : s.gtfs.store = none) :
    s.step sort (.read loop) = some (s.enter loop .idle) := by
  simp only [Rebuilds.step, h, hs]

/-- A task with no step of the other loop in between is `rebuild_stop_indexes`. -/
theorem task_alone {date : NaiveDate} (h : s.task loop = .asked date) :
    ∃ as t, exec (Rebuilds.step sort) s as = some t ∧ t.gtfs = s.gtfs.rebuildStopIndexes sort date ∧
      t.task loop = .idle ∧ t.task loop.other = s.task loop.other := by
  cases hs : s.gtfs.store with
  | none =>
    refine ⟨[.read loop], s.enter loop .idle, ?_, ?_, enter_self _ _ _, enter_other _ _ _⟩
    · simp only [exec, step_read_none h hs, Option.bind_some]
    · simp only [GtfsService.rebuildStopIndexes, hs]
      rfl
  | some store =>
    have hpublish : (s.enter loop (.building store date)).step sort (.publish loop) = _ := step_publish (enter_self _ _ _)
    refine ⟨[.read loop, .publish loop], (s.enter loop (.building store date)).published sort loop store date, ?_, ?_,
      enter_self _ _ _, ?_⟩
    · simp only [exec, step_read_some h hs, hpublish, Option.bind_some]
    · simp only [GtfsService.rebuildStopIndexes, hs, Rebuilds.published, Rebuilds.enter]
    · exact (enter_other _ _ _).trans (enter_other _ _ _)

end

section

variable {sort : CallSort} {s t : AskedRebuilds} {a : RebuildAction} {loop : Loop}

theorem loops_of_step (h : AskedRebuilds.Step sort s a t) :
    s.loops.step sort a = some t.loops ∧
      t.lastDate = a.dateAsked s.lastDate := by
  obtain ⟨loops, hloops, rfl⟩ := Option.map_eq_some_iff.mp h
  exact ⟨hloops, rfl⟩

/-- A loop with a task under way is not settled. -/
theorem not_settled {r : Rebuild} (h : t.loops.task loop = r) (hr : r ≠ .idle) : ¬ t.Settled :=
  fun hs => hr (h.symm.trans (hs loop))

theorem settled_enter_iff {u : Rebuilds} (h : t.loops = u.enter loop .idle) :
    t.Settled ↔ u.task loop.other = .idle := by
  unfold AskedRebuilds.Settled
  rw [h]
  constructor
  · intro hs
    rw [← enter_other u loop .idle]
    exact hs loop.other
  · intro ho l
    rcases loop.eq_or_other l with rfl | rfl
    · exact enter_self _ _ _
    · rwa [enter_other]

theorem fed_enter {u : Rebuilds} {r : Rebuild} (h : s.Fed) (ht : t.loops = u.enter loop r)
    (htask : u.task = s.loops.task) (hstore : s.loops.gtfs.store.isSome → u.gtfs.store.isSome)
    (hr : ∀ store date, r = .building store date → u.gtfs.store.isSome) : t.Fed := by
  intro l store date hl
  rw [ht] at hl ⊢
  rcases loop.eq_or_other l with rfl | rfl
  · exact hr store date ((enter_self _ _ _).symm.trans hl)
  · rw [enter_other, htask] at hl
    exact hstore (h _ store date hl)

/-- Under `Fed`, a step that leaves no task under way leaves the indexes of the
loaded feed for the date asked last exactly if it publishes these. -/
theorem agrees_iff (hfed : s.Fed) (hstep : AskedRebuilds.Step sort s a t) :
    (s.agrees sort a t ↔ s.latest a) ∧ t.Fed := by
  obtain ⟨hloops, hdate⟩ := loops_of_step hstep
  unfold AskedRebuilds.agrees
  rcases rebuild_step_cases hloops with ⟨store, rfl, -, ht⟩ | ⟨loop, date, rfl, ht⟩ |
    ⟨loop, date, store, rfl, -, hstore, ht⟩ | ⟨loop, date, rfl, -, hstore, ht⟩ |
    ⟨loop, store, date, rfl, htask, ht⟩
  · have hdue : t.loops.task .refresh = .due := by rw [ht, enter_self]
    refine ⟨iff_of_true (fun hs => absurd hs (not_settled hdue (by simp))) trivial, ?_⟩
    exact fed_enter hfed ht rfl (fun _ => rfl) (by rintro _ _ ⟨⟩)
  · have hasked : t.loops.task loop = .asked date := by rw [ht, enter_self]
    refine ⟨iff_of_true (fun hs => absurd hs (not_settled hasked (by simp))) trivial, ?_⟩
    exact fed_enter hfed ht rfl id (by rintro _ _ ⟨⟩)
  · have hbuilding : t.loops.task loop = .building store date := by rw [ht, enter_self]
    refine ⟨iff_of_true (fun hs => absurd hs (not_settled hbuilding (by simp))) trivial, ?_⟩
    exact fed_enter hfed ht rfl id fun _ _ _ => by rw [hstore]; rfl
  · have hnone : t.loops.gtfs.store = none := by
      rw [ht]
      exact hstore
    refine ⟨iff_of_true (fun _ store h => ?_) trivial, fed_enter hfed ht rfl id (by rintro _ _ ⟨⟩)⟩
    rw [hnone] at h
    cases h
  · obtain ⟨loaded, hloaded⟩ := Option.isSome_iff_exists.mp (hfed loop store date htask)
    refine ⟨?_, fed_enter hfed ht rfl id (by rintro _ _ ⟨⟩)⟩
    have hgtfs : t.loops.gtfs = { s.loops.gtfs with stops := some (StopIndexes.build sort store date) } := by
      rw [ht]
      rfl
    rw [settled_enter_iff ht]
    simp only [AskedRebuilds.Agrees, AskedRebuilds.latest, RebuildAction.dateAsked, hgtfs, hdate, htask, hloaded, Option.some.injEq, forall_eq',
      Rebuild.building.injEq, and_imp, StopIndexes.build_eq_iff]
    constructor
    · rintro h _ _ rfl rfl ho
      exact ⟨(h ho).1.symm, (h ho).2.symm⟩
    · intro h ho
      exact ⟨(h store date rfl rfl ho).1.symm, (h store date rfl rfl ho).2.symm⟩

theorem agrees_start (sort : CallSort) (store : Option GtfsStore) (date : NaiveDate) :
    (AskedRebuilds.start sort store date).Agrees sort := by
  intro loaded h
  cases store with
  | none => cases h
  | some store =>
    cases h
    rfl

/-- At boot the indexes are those of the loaded feed. From then on they are,
for the date asked last, whenever the loops come to rest exactly if, whenever
they do, the last task publishes these. -/
theorem agrees_run_iff (sort : CallSort) (store : Option GtfsStore) (date : NaiveDate) (as : List RebuildAction)
    (t : AskedRebuilds) :
    (AskedRebuilds.start sort store date).Agrees sort ∧
      (Run (Ensured (AskedRebuilds.agrees sort) (AskedRebuilds.Step sort)) (AskedRebuilds.start sort store date) as t ↔
        Run (Guarded AskedRebuilds.latest (AskedRebuilds.Step sort)) (AskedRebuilds.start sort store date) as t) := by
  refine ⟨agrees_start sort store date, Run.ensured_iff (P := AskedRebuilds.Fed) (fun s a t hfed hstep => ?_) ?_⟩
  · obtain ⟨hiff, hkeep⟩ := agrees_iff hfed hstep
    exact ⟨hiff, fun _ => hkeep⟩
  · intro loop store date h
    simp only [AskedRebuilds.start] at h
    cases h

/-- The rebuild of midnight reads the feed; a new one is swapped in and its
indexes are published; and then midnight's are. -/
def overtaken : List RebuildAction :=
  [.ask .midnight ⟨20662⟩, .read .midnight, .swap { feedVersion := "2" }, .ask .refresh ⟨20662⟩, .read .refresh,
    .publish .refresh, .publish .midnight]

/-- The loops are at rest with the new feed, and the indexes of the old one. -/
theorem agrees_not_kept :
    ¬ ∀ (sort : CallSort) (store : Option GtfsStore) (date : NaiveDate) (as : List RebuildAction) (t : AskedRebuilds),
      Run (AskedRebuilds.Step sort) (AskedRebuilds.start sort store date) as t → t.Settled → t.Agrees sort := by
  intro h
  let sort : CallSort := SortBy.insertion _
  let boot := AskedRebuilds.start sort (some { feedVersion := "1" }) ⟨20661⟩
  let rest := (exec (AskedRebuilds.step sort) boot overtaken).getD boot
  have hexec : exec (AskedRebuilds.step sort) boot overtaken = some rest := rfl
  have hsettled : rest.Settled := fun loop => by cases loop <;> rfl
  have hagrees := h sort _ _ _ rest (Run.of_exec hexec) hsettled { feedVersion := "2" } rfl
  have hold : rest.loops.gtfs.stops = some (StopIndexes.build sort { feedVersion := "1" } ⟨20662⟩) := rfl
  obtain ⟨hsame, -⟩ := StopIndexes.build_eq_iff.mp (Option.some.inj (hold.symm.trans hagrees))
  exact absurd (congrArg GtfsStore.feedVersion hsame) (by decide)

end

end OV.Impl
