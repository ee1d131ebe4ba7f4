import Ovlive.Proof.Core.Live

/-!
# How a trip ends

An END is about the vehicle, not about a journey: `ends_of_run` says that it
removes the vehicle's trip whatever journey it names, and that in every run a
trip is gone after a step only if the step is such an END or a sweep that finds
it stale. So an END that arrives late ends the next journey (`late_end`).
-/

namespace OV.Impl

namespace LiveState

variable [Platform] {en : Enricher}

/-- If a step takes a trip away, it is an END of its vehicle, or a sweep after
the trip's window. -/
def TakenBy (s : LiveState) (a : LiveAction) (t : LiveState) : Prop :=
  ∀ v trip, s.trips.lookup v = some trip → t.trips.lookup v = none →
    (∃ e, a = .event e ∧ e.kind = .end_ ∧ e.key.id = v) ∨
      ∃ now, a = .prune now ∧ trip.lastUpdate < now - s.staleAfter

theorem takenBy_act (s : LiveState) (a : LiveAction) : TakenBy s a (s.act en a) := by
  intro v trip hv hnone
  cases a with
  | event e =>
    have hnone : (s.apply e en).1.trips.lookup v = none := hnone
    rw [lookup_apply] at hnone
    split at hnone
    · rename_i he
      refine .inl ⟨e, rfl, ?_, he.symm⟩
      by_contra hk
      by_cases hi : e.kind = .init
      · rw [eventTrip_init hi] at hnone
        cases hnone
      · rw [eventTrip_update hi hk] at hnone
        cases hnone
    · exact absurd (hv.symm.trans hnone) nofun
  | prune now =>
    have hnone : (s.pruneStale now).1.trips.lookup v = none := hnone
    rw [lookup_pruneStale, hv, Option.filter_eq_none_iff] at hnone
    exact .inr ⟨now, rfl, not_le.mp fun h => hnone trip rfl (decide_eq_true h)⟩
  | delays d => exact absurd (hv.symm.trans hnone) nofun

/-- An END removes the trip of its vehicle, whatever journey it is of, and no
other; and in a run only such an END or a sweep takes a trip away. -/
theorem ends_of_run (en : Enricher) (secs : Int) (as : List LiveAction) (live : LiveState)
    (hrun : Run (Step en) (LiveState.new secs) as live) :
    (∀ e : PosEvent, e.kind = .end_ → ∀ v,
      (live.act en (.event e)).trips.lookup v = if v = e.key.id then none else live.trips.lookup v) ∧
    Run (Ensured TakenBy (Step en)) (LiveState.new secs) as live := by
  refine ⟨fun e he v => ?_, ?_⟩
  · have h := lookup_apply live e en v
    rw [eventTrip_end he] at h
    exact h
  · induction hrun with
    | nil => exact .nil
    | snoc _ hlast ih => exact ih.snoc ⟨hlast, hlast ▸ takenBy_act _ _⟩

/-- A message of vehicle 1 about a journey. -/
def ofJourney (kind : MessageKind) (journey : String) : PosEvent where
  key := { dataowner := "RET", vehicleNumber := "1001" }
  kind := kind
  journeyNumber := some journey
  timestamp := 0

omit [Platform] in
/-- The END of journey 2 ends it. -/
theorem ends_of_run_journey :
    let _ := plainPlatform
    ((((LiveState.new 240).act NoEnricher (.event (ofJourney .init "2"))).act NoEnricher
      (.event (ofJourney .end_ "2"))).trips.lookup "RET:1001") = none := by
  intro _
  have h := (ends_of_run NoEnricher 240 _ _ (Run.nil.snoc (a := .event (ofJourney .init "2")) rfl)).1
    (ofJourney .end_ "2") rfl "RET:1001"
  rwa [if_pos (by decide +kernel)] at h

omit [Platform] in
/-- Journey 2 follows journey 1 without an END; the END of journey 1, which
arrives late, removes it. -/
theorem late_end :
    let _ := plainPlatform
    ¬ ∀ (en : Enricher) (secs : Int) (as : List LiveAction) (live : LiveState),
      Run (Step en) (LiveState.new secs) as live →
      ∀ (e : PosEvent) (trip : LiveTrip) (j k : String), live.trips.lookup e.key.id = some trip →
        trip.journeyNumber = some k → e.kind = .end_ → e.journeyNumber = some j → j ≠ k →
        (live.act en (.event e)).trips.lookup e.key.id = some trip := by
  intro _ h
  have hrun : Run (Step NoEnricher) (LiveState.new 240)
      [.event (ofJourney .init "1"), .event (ofJourney .onRoute "2")]
      (((LiveState.new 240).act NoEnricher (.event (ofJourney .init "1"))).act NoEnricher
        (.event (ofJourney .onRoute "2"))) := (Run.nil.snoc rfl).snoc rfl
  have he : ((((LiveState.new 240).act NoEnricher (.event (ofJourney .init "1"))).act NoEnricher
      (.event (ofJourney .onRoute "2"))).trips.lookup "RET:1001").map LiveTrip.journeyNumber = some (some "2") := by
    decide +kernel
  obtain ⟨trip, ht, hj⟩ := Option.map_eq_some_iff.mp he
  have hkept := h NoEnricher 240 _ _ hrun (ofJourney .end_ "1") trip "1" "2" ht hj rfl rfl (by decide)
  have hgone := (lookup_apply (((LiveState.new 240).act NoEnricher (.event (ofJourney .init "1"))).act NoEnricher
    (.event (ofJourney .onRoute "2"))) (ofJourney .end_ "1") NoEnricher "RET:1001")
  rw [if_pos (by decide +kernel), eventTrip_end rfl] at hgone
  exact absurd (hgone.symm.trans hkept) nofun

end LiveState

end OV.Impl
