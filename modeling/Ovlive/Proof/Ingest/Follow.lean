import Ovlive.Proof.Gtfs.Resolve

/-!
# Live trips after a feed swap

A trip is matched when it has no match, and never again: `follows_iff` says
which events leave a vehicle's match the one the loaded feed gives, and
`follows_run_iff` which runs do after a swap. `follows_not_kept` is a bus whose
journey got another trip id in the new feed.
-/

namespace OV.Impl

variable [Platform]

/-- A trip is matched to nothing, or to what the loaded feed matches it to. -/
def Follows (g : GtfsService) (t : LiveTrip) : Prop :=
  ∀ tid, t.matchedTripId = some tid → (g.store.bind fun store => store.matchOf t) = some tid

namespace Server

/-- What an event should leave: the vehicle's trip follows the loaded feed. -/
def followsFeed (_ : Server) (a : ServerAction) (t : Server) : Prop :=
  match a with
  | .position e => ∀ trip, t.trip e.key.id = some trip → Follows t.gtfs trip
  | _ => True

/-- An event that ends the trip, that starts one or finds one without a match,
or that finds one which the loaded feed still matches to the same trip id, as
the event and the delay curve report it. -/
def rematches (s : Server) (a : ServerAction) : Prop :=
  match a with
  | .position e =>
    e.kind ≠ .end_ → ∀ tid, (baseTrip (s.trip e.key.id) e).matchedTripId = some tid →
      (s.gtfs.store.bind fun store =>
        store.matchOf (reported s.live.trainDelays (s.trip e.key.id) e)) = some tid
  | _ => True

end Server

variable {g : GtfsService} {delays : Option TrainDelays} {o : Option LiveTrip} {e : PosEvent} {t u : LiveTrip}

/-- The match that enriching leaves, and that the feed gives what it leaves. -/
theorem enrich_matched (g : GtfsService) (t : LiveTrip) :
    (g.enricher.enrich t).matchedTripId = t.matchedTripId.or (g.store.bind fun store => store.matchOf t) ∧
      (g.store.bind fun store => store.matchOf (g.enricher.enrich t)) = g.store.bind fun store => store.matchOf t := by
  unfold GtfsService.enricher
  cases g.store with
  | none => exact ⟨(Option.or_none).symm, rfl⟩
  | some store => exact ⟨store.enrichTrip_matchedTripId t, store.matchOf_enrichTrip t⟩

/-- A position does not change what a feed matches a trip to. -/
theorem follows_moved (h : Moved t u) : Follows g u ↔ Follows g t := by
  have hmatched : u.matchedTripId = t.matchedTripId := by rw [h]
  have hof : ∀ store : GtfsStore, store.matchOf u = store.matchOf t := by
    intro store
    rw [h]
    exact GtfsStore.matchOf_congr rfl rfl rfl rfl rfl
  simp only [Follows, hmatched, hof]

/-- An event leaves a trip that follows the feed exactly if it was not matched,
or to what the feed gives what is reported. -/
theorem follows_eventTrip_iff (h : LiveState.eventTrip delays g.enricher e o = some t) :
    Follows g t ↔ ∀ tid, (baseTrip o e).matchedTripId = some tid →
      (g.store.bind fun store => store.matchOf (reported delays o e)) = some tid := by
  have hk := (eventTrip_eq_some h).1
  rw [eventTrip_reported hk, Option.some.injEq] at h
  subst h
  rw [follows_moved (moved_anchorToSchedule _ _ _)]
  obtain ⟨hmatched, hof⟩ := enrich_matched g (reported delays o e)
  rw [reported_matchedTripId] at hmatched
  cases hb : (baseTrip o e).matchedTripId with
  | none =>
    rw [hb, Option.none_or] at hmatched
    refine iff_of_true ?_ fun tid htid => (by cases htid)
    split
    · intro tid htid
      rw [hof, ← hmatched, htid]
    · intro tid htid
      rw [reported_matchedTripId, hb] at htid
      cases htid
  | some tid =>
    rw [hb, Option.some_or] at hmatched
    split
    · simp only [Follows, hmatched, hof]
    · simp only [Follows, reported_matchedTripId, hb]

theorem follows_iff {s t : Server} {a : ServerAction} (h : Server.Step s a t) :
    s.followsFeed a t ↔ s.rematches a := by
  obtain rfl := h
  cases a with
  | position e =>
    simp only [Server.followsFeed, Server.rematches, trip_act_self]
    constructor
    · intro h hk
      exact (follows_eventTrip_iff (eventTrip_reported hk)).mp (h _ (eventTrip_reported hk))
    · intro h trip htrip
      exact (follows_eventTrip_iff htrip).mpr (h (eventTrip_eq_some htrip).1)
  | sweep now => exact Iff.rfl
  | rit u now => exact Iff.rfl
  | upkeep cutoff => exact Iff.rfl
  | restore snap => exact Iff.rfl
  | swap store => exact Iff.rfl

/-- After a feed was swapped in, whatever the server was before it, the events
of a run, with feeds swapped in between them, all leave a vehicle that follows
the feed loaded exactly if each of them meets the condition. -/
theorem follows_run_iff (s : Server) (store : GtfsStore) (as : List ServerAction) (t : Server) :
    Run (Ensured Server.followsFeed Server.Step) (s.act (.swap store)) as t ↔
      Run (Guarded Server.rematches Server.Step) (s.act (.swap store)) as t :=
  Run.ensured_iff (P := fun _ => True) (fun _ _ _ _ hr => ⟨follows_iff hr, fun _ => trivial⟩) trivial

/-- A journey under two trip ids, in the old feed and in the new one. -/
def renumbered (tid : String) : GtfsStore where
  tripByKey := AList.insert "RET:1:7" tid ∅

/-- A bus on that journey. -/
def onJourney (ts : Instant) : PosEvent where
  key := { dataowner := "RET", vehicleNumber := "1001" }
  kind := .onRoute
  linePlanningNumber := some "1"
  journeyNumber := some "7"
  timestamp := ts

omit [Platform] in
/-- After the swap the bus keeps the trip id of the replaced feed. -/
theorem follows_not_kept :
    let _ := plainPlatform
    ¬ ∀ (s : Server) (store : GtfsStore) (as : List ServerAction) (t : Server),
      Run Server.Step (s.act (.swap store)) as t →
        Run (Ensured Server.followsFeed Server.Step) (s.act (.swap store)) as t := by
  intro _ h
  let before : Server := (Server.start 240 none { store := some (renumbered "old") }).act (.position (onJourney 0))
  let after := (before.act (.swap (renumbered "new"))).act (.position (onJourney 1))
  have hrun : Run Server.Step (before.act (.swap (renumbered "new"))) ([] ++ [.position (onJourney 1)]) after :=
    Run.nil.snoc rfl
  obtain ⟨u, -, -, hfollows⟩ := (h before (renumbered "new") _ after hrun).last
  have hany : (after.trip "RET:1001").any (fun trip =>
      trip.matchedTripId = some "old" && (renumbered "new").matchOf trip = some "new") = true := by decide +kernel
  obtain ⟨trip, htrip, hprop⟩ := (Option.any_eq_true _ _).mp hany
  rw [Bool.and_eq_true, decide_eq_true_eq, decide_eq_true_eq] at hprop
  obtain ⟨hmatched, hnew⟩ := hprop
  have hof : (renumbered "new").matchOf trip = some "old" := hfollows trip htrip "old" hmatched
  rw [hnew] at hof
  exact absurd hof (by decide)

end OV.Impl
