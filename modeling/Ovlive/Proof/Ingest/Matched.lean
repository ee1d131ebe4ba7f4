import Ovlive.Proof.Gtfs.Resolve
import Ovlive.Proof.Ingest.Punctual

/-!
# Matched trips and operating days

A train is matched once, on the day known for it or on a guessed one, with the
day before to fall back on; its operating day can be told later.
`runsOnDay_iff` says which events leave a train whose matched trip runs on its
operating day, `runsOnDay_run_iff` in which runs every train of every state is
such a train, and `runsOnDay_not_kept` is one that was matched to yesterday's
trip although its day was known.
-/

namespace OV.Impl

/-- The trip a train is matched to runs on its operating day, if that is a date. -/
def MatchedOnDay (store : GtfsStore) (t : LiveTrip) : Prop :=
  t.key.dataowner = TRAIN_DATAOWNER → ∀ tid, t.matchedTripId = some tid →
    ∀ day, t.operatingDay.bind NaiveDate.parseDashed = some day → store.tripRunsOn tid (dateKey day) = true

namespace Server

/-- Every train's matched trip runs on its operating day. -/
def RunsOnDay (store : GtfsStore) (s : Server) : Prop :=
  ∀ v trip, s.trip v = some trip → MatchedOnDay store trip

/-- The steps of the server but the swap of a feed. -/
def FeedStep [Platform] (s : Server) (a : ServerAction) (t : Server) : Prop :=
  Step s a t ∧ ∀ store, a ≠ .swap store

/-- The operating day that the curve, the event or the trip says, in this order. -/
def dayTold (s : Server) (e : PosEvent) : Option NaiveDate :=
  (((consulted s.live.trainDelays (s.trip e.key.id) e).bind TrainDelay.operatingDay).or
    (e.operatingDay.or (baseTrip (s.trip e.key.id) e).operatingDay)).bind NaiveDate.parseDashed

/-- For a train whose day is told: the trip it is matched to runs on that day
too; or, if it is to be matched, a candidate for its number runs on the day, or
none does the day before. -/
def agreesOnDay (store : GtfsStore) (s : Server) (a : ServerAction) : Prop :=
  match a with
  | .position e =>
    let base := baseTrip (s.trip e.key.id) e
    e.kind ≠ .end_ → base.key.dataowner = TRAIN_DATAOWNER → ∀ day, s.dayTold e = some day →
      (∀ tid, base.matchedTripId = some tid → store.tripRunsOn tid (dateKey day) = true) ∧
        (base.matchedTripId = none → enriched (s.trip e.key.id) e = true → ∀ number candidates,
          e.journeyNumber.or base.journeyNumber = some number → store.trainTrips.lookup number = some candidates →
            (∃ c ∈ candidates, store.tripRunsOn c.tripId (dateKey day) = true) ∨
              ∀ yesterday, day.predOpt = some yesterday →
                ∀ c ∈ candidates, store.tripRunsOn c.tripId (dateKey yesterday) = false)
  | _ => True

end Server

section

variable {store : GtfsStore}

/-- A train is matched off its day exactly when no candidate runs on it and one
does the day before. -/
theorem resolve_on_day_iff {number : String} {candidates : List TrainTrip} {day : NaiveDate}
    (hc : store.trainTrips.lookup number = some candidates) :
    (∀ m, store.resolveTrainTrip number day = some m → store.tripRunsOn m.1.tripId (dateKey day) = true) ↔
      (∃ c ∈ candidates, store.tripRunsOn c.tripId (dateKey day) = true) ∨
        ∀ yesterday, day.predOpt = some yesterday →
          ∀ c ∈ candidates, store.tripRunsOn c.tripId (dateKey yesterday) = false := by
  simp only [GtfsStore.resolveTrainTrip, hc, Option.bind_eq_bind, Option.bind_some]
  cases htoday : store.trainTripOn candidates day with
  | some m =>
    obtain ⟨c, d⟩ := m
    obtain ⟨rfl, hfind⟩ := (store.trainTripOn_eq_some).mp htoday
    have hruns := List.find?_some (p := fun c : TrainTrip => store.tripRunsOn c.tripId (dateKey d)) hfind
    simp only [Option.some.injEq, forall_eq']
    exact iff_of_true hruns (.inl ⟨c, List.mem_of_find?_eq_some hfind, hruns⟩)
  | none =>
    have hnone : ∀ c ∈ candidates, store.tripRunsOn c.tripId (dateKey day) = false := by
      simpa [GtfsStore.trainTripOn, List.find?_eq_none] using htoday
    have hno : ¬ ∃ c ∈ candidates, store.tripRunsOn c.tripId (dateKey day) = true := by
      rintro ⟨c, hmem, hruns⟩
      rw [hnone c hmem] at hruns
      cases hruns
    simp only [hno, false_or, Option.bind_eq_some_iff]
    constructor
    · intro h yesterday hy c hmem
      by_contra hruns
      rw [Bool.not_eq_false] at hruns
      cases hfind : candidates.find? fun c => store.tripRunsOn c.tripId (dateKey yesterday) with
      | none => exact List.find?_eq_none.mp hfind c hmem hruns
      | some c' =>
        have hoff := h (c', yesterday) ⟨yesterday, hy, (store.trainTripOn_eq_some).mpr ⟨rfl, hfind⟩⟩
        rw [hnone c' (List.mem_of_find?_eq_some hfind)] at hoff
        cases hoff
    · rintro h ⟨c, d⟩ ⟨yesterday, hy, hm⟩
      obtain ⟨rfl, hfind⟩ := (store.trainTripOn_eq_some).mp hm
      have hruns := List.find?_some (p := fun c : TrainTrip => store.tripRunsOn c.tripId (dateKey d)) hfind
      rw [h d hy c (List.mem_of_find?_eq_some hfind)] at hruns
      cases hruns

variable [Platform] {t u : LiveTrip}

omit [Platform] in
theorem matchedOnDay_moved (h : Moved t u) : MatchedOnDay store u ↔ MatchedOnDay store t := by
  rw [h]
  exact Iff.rfl

/-- A train that has its match keeps it, and its day. -/
theorem matchedOnDay_enrich_of_matched {tid : String} (hm : t.matchedTripId = some tid) :
    MatchedOnDay store (store.enrichTrip t) ↔ MatchedOnDay store t := by
  have hday := store.enrichTrip_operatingDay t
  simp only [GtfsStore.foundDay, hm, Option.isNone_some, Bool.false_eq_true, false_and, if_false, Option.or_none] at hday
  have hmatched := store.enrichTrip_matchedTripId t
  rw [hm, Option.some_or] at hmatched
  simp only [MatchedOnDay, (GtfsStore.enrichTrip_frame t).2.1, hday, hmatched, hm]

/-- A train that is matched runs on its day if its day is not told, and
otherwise exactly if it does not fall back on the day before. -/
theorem matchedOnDay_enrich_iff (htrain : t.key.dataowner = TRAIN_DATAOWNER) (hm : t.matchedTripId = none) :
    MatchedOnDay store (store.enrichTrip t) ↔
      ∀ day, t.operatingDay.bind NaiveDate.parseDashed = some day → ∀ number, t.journeyNumber = some number →
        ∀ m, store.resolveTrainTrip number day = some m → store.tripRunsOn m.1.tripId (dateKey day) = true := by
  have hday := store.enrichTrip_operatingDay t
  have hmatched := store.enrichTrip_matchedTripId t
  simp only [GtfsStore.foundDay, hm, htrain, Option.isNone_none, and_self, if_true] at hday
  simp only [hm, Option.none_or, GtfsStore.matchOf, htrain, if_true] at hmatched
  simp only [MatchedOnDay, (GtfsStore.enrichTrip_frame t).2.1, htrain, forall_true_left, hday, hmatched]
  cases hd : t.operatingDay with
  | none =>
    simp only [Option.none_or, Option.bind_none, reduceCtorEq, false_imp_iff, implies_true, iff_true]
    intro tid htid day hparse
    obtain ⟨⟨c, found⟩, hfound, rfl⟩ := Option.map_eq_some_iff.mp htid
    rw [hfound, Option.map_some, Option.bind_some] at hparse
    rw [NaiveDate.eq_of_parseDashed hparse]
    obtain ⟨number, -, hres⟩ := Option.bind_eq_some_iff.mp hfound
    exact store.runs_of_resolveTrainTrip hres
  | some text =>
    simp only [Option.some_or, Option.bind_some]
    constructor
    · intro h day hparse number hnumber m hres
      refine h m.1.tripId ?_ day hparse
      have hdate : GtfsStore.trainDate t = day := by simp [GtfsStore.trainDate, hd, hparse]
      rw [GtfsStore.trainMatch, hnumber, Option.bind_some, hdate, hres]
      rfl
    · intro h tid htid day hparse
      obtain ⟨m, hfound, rfl⟩ := Option.map_eq_some_iff.mp htid
      obtain ⟨number, hnumber, hres⟩ := Option.bind_eq_some_iff.mp hfound
      have hdate : GtfsStore.trainDate t = day := by simp [GtfsStore.trainDate, hd, hparse]
      rw [hdate] at hres
      exact h day hparse number hnumber m hres

variable {s s' : Server} {e : PosEvent}

/-- What a message leaves is matched on its day exactly if what it reports and
the match, if it asks for one, agree. -/
theorem matchedOnDay_event_iff (hstore : s.gtfs.store = some store) (hk : e.kind ≠ .end_) {trip : LiveTrip}
    (htrip : (s.act (.position e)).trip e.key.id = some trip) :
    MatchedOnDay store trip ↔ s.agreesOnDay store (.position e) := by
  rw [trip_act_self, eventTrip_reported hk, Option.some.injEq] at htrip
  have hkey := reported_key s.live.trainDelays (s.trip e.key.id) e
  have hday : (reported s.live.trainDelays (s.trip e.key.id) e).operatingDay.bind NaiveDate.parseDashed = s.dayTold e := by
    rw [reported_operatingDay]
    rfl
  have henrich : s.gtfs.enricher.enrich = store.enrichTrip := by
    rw [GtfsService.enricher, hstore]
    rfl
  rw [← htrip, matchedOnDay_moved (moved_anchorToSchedule _ _ _), henrich]
  simp only [Server.agreesOnDay, hk, ne_eq, not_false_eq_true, forall_true_left]
  cases hm : (baseTrip (s.trip e.key.id) e).matchedTripId with
  | some tid =>
    have hif : MatchedOnDay store (if enriched (s.trip e.key.id) e then
          store.enrichTrip (reported s.live.trainDelays (s.trip e.key.id) e)
        else reported s.live.trainDelays (s.trip e.key.id) e) ↔
        MatchedOnDay store (reported s.live.trainDelays (s.trip e.key.id) e) := by
      split
      · exact matchedOnDay_enrich_of_matched (reported_matchedTripId.trans hm)
      · exact Iff.rfl
    rw [hif]
    simp only [MatchedOnDay, hkey, reported_matchedTripId, hm, hday, reduceCtorEq, false_imp_iff, and_true]
    exact ⟨fun h htrain day hd tid' htid => h htrain tid' htid day hd, fun h htrain tid' htid day hd => h htrain day hd tid' htid⟩
  | none =>
    simp only [reduceCtorEq, false_imp_iff, implies_true, true_and, forall_true_left]
    by_cases htrain : (baseTrip (s.trip e.key.id) e).key.dataowner = TRAIN_DATAOWNER
    · by_cases hasked : enriched (s.trip e.key.id) e = true
      · simp only [hasked, if_true, htrain, forall_true_left]
        rw [matchedOnDay_enrich_iff (by rw [hkey]; exact htrain) (reported_matchedTripId.trans hm), hday,
          reported_journeyNumber]
        constructor
        · intro h day hd number candidates hnumber hc
          exact (resolve_on_day_iff hc).mp (h day hd number hnumber)
        · intro h day hd number hnumber m hres
          have hsome : ∃ candidates, store.trainTrips.lookup number = some candidates := by
            simp only [GtfsStore.resolveTrainTrip, Option.bind_eq_bind, Option.bind_eq_some_iff] at hres
            exact ⟨_, hres.choose_spec.1⟩
          obtain ⟨candidates, hc⟩ := hsome
          exact (resolve_on_day_iff hc).mpr (h day hd number candidates hnumber hc) m hres
      · simp only [hasked, if_false, Bool.false_eq_true, false_imp_iff, implies_true, iff_true]
        intro _ tid htid
        rw [reported_matchedTripId, hm] at htid
        cases htid
    · simp only [htrain, false_imp_iff, iff_true]
      intro htrain'
      refine absurd ?_ htrain
      rw [← hkey]
      split at htrain'
      · rwa [(GtfsStore.enrichTrip_frame _).2.1] at htrain'
      · exact htrain'

/-- With every train matched on its day before it, a step leaves every train
matched on its day exactly if the event agrees. -/
theorem runsOnDay_iff (hstore : s.gtfs.store = some store) (h : s.RunsOnDay store) {a : ServerAction}
    (hstep : s.FeedStep a s') : s'.RunsOnDay store ↔ s.agreesOnDay store a := by
  obtain ⟨rfl, -⟩ := hstep
  -- A vehicle that the action is no message of keeps its trip or loses it.
  have hother : ∀ v, ¬ a.isMessageOf v → ∀ trip, (s.act a).trip v = some trip → MatchedOnDay store trip := by
    intro v hv trip htrip
    rcases trip_act_other s hv with hsame | hgone
    · exact h v trip (hsame ▸ htrip)
    · rw [hgone] at htrip
      cases htrip
  cases a with
  | position e =>
    constructor
    · intro hruns
      by_cases hk : e.kind = .end_
      · exact fun hne => absurd hk hne
      · have htrip := trip_act_self s e
        rw [eventTrip_reported hk] at htrip
        exact (matchedOnDay_event_iff hstore hk htrip).mp (hruns _ _ htrip)
    · intro hagrees v trip htrip
      by_cases hv : e.key.id = v
      · subst hv
        have hk := (eventTrip_eq_some ((trip_act_self s e).symm.trans htrip)).1
        exact (matchedOnDay_event_iff hstore hk htrip).mpr hagrees
      · exact hother v hv trip htrip
  | sweep now => exact iff_of_true (fun v => hother v id) trivial
  | rit u now => exact iff_of_true (fun v => hother v id) trivial
  | upkeep cutoff => exact iff_of_true (fun v => hother v id) trivial
  | restore snap => exact iff_of_true (fun v => hother v id) trivial
  | swap store => exact iff_of_true (fun v => hother v id) trivial

theorem act_gtfs (s : Server) {a : ServerAction} (h : ∀ store, a ≠ .swap store) : (s.act a).gtfs = s.gtfs := by
  cases a with
  | swap store => exact absurd rfl (h store)
  | _ => rfl

/-- A started server has no trips. From then on, on one feed, every train of
every state a run reaches is matched to a trip that runs on its operating day
exactly if each event of the run agrees. -/
theorem runsOnDay_run_iff (store : GtfsStore) (staleAfterSecs : Int) (delays : Option TrainDelays)
    (as : List ServerAction) (t : Server) :
    (Server.start staleAfterSecs delays { store := some store }).RunsOnDay store ∧
      (Run (Ensured (fun _ _ t => t.RunsOnDay store) Server.FeedStep)
          (Server.start staleAfterSecs delays { store := some store }) as t ↔
        Run (Guarded (Server.agreesOnDay store) Server.FeedStep)
          (Server.start staleAfterSecs delays { store := some store }) as t) := by
  have hstart : (Server.start staleAfterSecs delays { store := some store }).RunsOnDay store := by
    intro v trip htrip
    cases htrip
  refine ⟨hstart, Run.ensured_iff (P := fun s => s.gtfs.store = some store ∧ s.RunsOnDay store) ?_ ⟨rfl, hstart⟩⟩
  rintro s a t ⟨hstore, hruns⟩ hstep
  have hiff := runsOnDay_iff hstore hruns hstep
  refine ⟨hiff, fun hok => ⟨?_, hiff.mpr hok⟩⟩
  rw [← hstep.1, act_gtfs s hstep.2, hstore]

/-- A feed in which train 3548 runs on the 27th only. -/
def runsOn27th : GtfsStore where
  trips := AList.insert "T-27"
    { tripId := "T-27", routeId := "R1", headsign := "", blockId := none, shapeId := none, serviceId := "S-27"
      longName := "", realtimeTripId := none } ∅
  serviceDates := AList.insert "S-27" [20260727] ∅
  trainTrips := AList.insert "3548" [{ tripId := "T-27", lineCode := "IC" }] ∅

/-- A revision of the run of the 28th, and a position of the train. -/
def replacement : List ServerAction :=
  [.rit { number := "3548", operatingDay := some "2026-07-28", lineCode := some "IC", points := [] } 0,
    .position (train3548 (1785236640 * nanos))]

omit [Platform] in
/-- The train of the 28th is matched to the trip of the 27th. -/
theorem runsOnDay_not_kept :
    let _ := plainPlatform
    ¬ ∀ (store : GtfsStore) (staleAfterSecs : Int) (delays : Option TrainDelays) (as : List ServerAction) (t : Server),
      Run Server.FeedStep (Server.start staleAfterSecs delays { store := some store }) as t → t.RunsOnDay store := by
  intro _ h
  let after := replacement.foldl Server.act (Server.start 240 (some {}) { store := some runsOn27th })
  have hrun : Run Server.FeedStep (Server.start 240 (some {}) { store := some runsOn27th }) replacement after :=
    (Run.nil.snoc ⟨rfl, fun store hswap => by cases hswap⟩).snoc ⟨rfl, fun store hswap => by cases hswap⟩
  have hany : (after.trip "IFF:3548").any (fun trip =>
      trip.key.dataowner = TRAIN_DATAOWNER && trip.matchedTripId = some "T-27" &&
        trip.operatingDay.bind NaiveDate.parseDashed = some ⟨20662⟩) = true := by decide +kernel
  obtain ⟨trip, htrip, hprop⟩ := (Option.any_eq_true _ _).mp hany
  simp only [Bool.and_eq_true, decide_eq_true_eq] at hprop
  obtain ⟨⟨htrain, hmatched⟩, hday⟩ := hprop
  have hruns : runsOn27th.tripRunsOn "T-27" (dateKey ⟨20662⟩) = true :=
    h runsOn27th 240 (some {}) _ after hrun "IFF:3548" trip htrip htrain "T-27" hmatched ⟨20662⟩ hday
  have hnot : runsOn27th.tripRunsOn "T-27" (dateKey ⟨20662⟩) = false := by decide +kernel
  rw [hnot] at hruns
  cases hruns

end

end OV.Impl
