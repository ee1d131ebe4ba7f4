import Ovlive.Proof.Gtfs.Match
import Ovlive.Proof.Gtfs.Resolve

/-!
# Enrichment is not missed

An event asks the schedule only about a trip without a public line number. Of
the things that fill it in, all come with a match (`LineFromMatch`), so a trip
that has the number has its match too, and `matched_of_event`: what an event
leaves is matched whenever the schedule has a match for it.
-/

namespace OV.Impl

/-- A public line number comes with a match. -/
def LineFromMatch (t : LiveTrip) : Prop := t.linePublicNumber.isSome → t.matchedTripId.isSome

namespace GtfsStore

variable [Platform] {s : GtfsStore} {t : LiveTrip}

/-- Without a match there is nothing to fill in. -/
theorem enrichTrip_of_none (h : t.matchedTripId = none) (hm : s.matchOf t = none) : s.enrichTrip t = t := by
  have hsame : { t with matchedTripId := none } = t := by rw [← h]
  have htrip : s.matchTrip t = t := by
    unfold matchTrip
    simp only [h, Option.isSome_none, Bool.false_eq_true, if_false]
    split_ifs with htrain
    · rw [matchOf, if_pos htrain, Option.map_eq_none_iff] at hm
      rw [matchTrainTrip_eq, hm]
      exact hsame
    · rw [matchOf, if_neg htrain] at hm
      rw [hm]
      exact hsame
  simp only [enrichTrip, htrip, h, Option.bind_none]

theorem lineFromMatch_enrichTrip (h : LineFromMatch t) : LineFromMatch (s.enrichTrip t) := by
  intro hline
  rw [enrichTrip_matchedTripId]
  cases hm : t.matchedTripId with
  | some tid => rfl
  | none =>
    rw [Option.none_or]
    by_contra hnone
    rw [Option.not_isSome_iff_eq_none] at hnone
    rw [enrichTrip_of_none hm hnone] at hline
    have hsome := h hline
    rw [hm] at hsome
    cases hsome

variable {delays : Option TrainDelays} {o : Option LiveTrip} {e : PosEvent}

omit [Platform] in
theorem lineFromMatch_moved {u : LiveTrip} (h : Moved t u) (ht : LineFromMatch t) : LineFromMatch u := by
  rw [h]
  exact ht

theorem lineFromMatch_reported (h : ∀ t, o = some t → LineFromMatch t) : LineFromMatch (reported delays o e) := by
  intro hline
  rw [reported_linePublicNumber] at hline
  rw [reported_matchedTripId]
  cases o with
  | none =>
    rw [show baseTrip none e = { LiveTrip.new e.key e.timestamp with hasInit := (baseTrip none e).hasInit } by
      simp only [baseTrip]; split <;> rfl] at hline
    cases hline
  | some t =>
    by_cases hs : startsTrip (some t) e
    · rw [baseTrip, if_pos hs] at hline
      cases hline
    · rw [baseTrip, if_neg hs] at hline ⊢
      exact h t rfl hline

/-- What an event leaves has its match, if the schedule has one for it. -/
theorem eventTrip_matched (h : ∀ t, o = some t → LineFromMatch t)
    (ht : LiveState.eventTrip delays s.enricher e o = some t) :
    LineFromMatch t ∧ t.lastUpdate = e.timestamp ∧ ((s.matchOf t).isSome → t.matchedTripId.isSome) := by
  have hline : LineFromMatch (reported delays o e) := lineFromMatch_reported h
  obtain ⟨-, rfl⟩ := eventTrip_of_some ht
  have hmoved := moved_anchorToSchedule (askedTrip delays s.enricher o e) e s.enricher
  have hmatch : s.matchOf (anchorToSchedule (askedTrip delays s.enricher o e) e s.enricher) =
      s.matchOf (askedTrip delays s.enricher o e) := by
    rw [hmoved]
    exact matchOf_congr rfl rfl rfl rfl rfl
  have htrip : (anchorToSchedule (askedTrip delays s.enricher o e) e s.enricher).matchedTripId =
      (askedTrip delays s.enricher o e).matchedTripId := by rw [hmoved]
  have hlast : (anchorToSchedule (askedTrip delays s.enricher o e) e s.enricher).lastUpdate =
      (askedTrip delays s.enricher o e).lastUpdate := by rw [hmoved]
  rw [hmatch, htrip, hlast]
  have hasked : askedTrip delays s.enricher o e =
      if e.kind = .init || (reported delays o e).linePublicNumber.isNone then s.enrichTrip (reported delays o e)
      else reported delays o e := rfl
  suffices hgoal : LineFromMatch (askedTrip delays s.enricher o e) ∧
      (askedTrip delays s.enricher o e).lastUpdate = e.timestamp ∧
      ((s.matchOf (askedTrip delays s.enricher o e)).isSome → (askedTrip delays s.enricher o e).matchedTripId.isSome) from
    ⟨lineFromMatch_moved hmoved hgoal.1, hgoal.2⟩
  rw [hasked]
  split
  · refine ⟨lineFromMatch_enrichTrip hline, ?_, fun hm => ?_⟩
    · rw [scheduled_enrichTrip]
      exact reported_lastUpdate
    · rw [matchOf_enrichTrip] at hm
      rw [enrichTrip_matchedTripId, Option.isSome_or, hm, Bool.or_true]
  · -- the gate is shut only for a trip with a line number, which has its match
    rename_i hgate
    refine ⟨hline, reported_lastUpdate, fun _ => hline ?_⟩
    cases hl : (reported delays o e).linePublicNumber with
    | none => exact absurd (by simp [hl]) hgate
    | some line => rfl

/-- After every event of a run that does not end it, a trip is matched if the
schedule has a match for what is known of it: by its key, or for a train by its
number on its day. -/
theorem matched_of_event (s : GtfsStore) (live₀ live : LiveState) (as : List LiveAction) (e : PosEvent)
    (h0 : live₀.trips = ∅) (hrun : Run (LiveState.Step s.enricher) live₀ as live) (he : e.kind ≠ .end_) :
    ∃ t, (live.act s.enricher (.event e)).trips.lookup e.key.id = some t ∧
      (t.key.dataowner ≠ TRAIN_DATAOWNER → ∀ line journey, t.linePlanningNumber = some line →
        t.journeyNumber = some journey →
        (s.tripByKey.lookup (realtimeTripId t.key.dataowner line journey)).isSome → t.matchedTripId.isSome) ∧
      (t.key.dataowner = TRAIN_DATAOWNER → ∀ number, t.journeyNumber = some number →
        (s.resolveTrainTrip number
          ((t.operatingDay.bind NaiveDate.parseDashed).getD (Platform.amsterdam.date e.timestamp))).isSome →
        t.matchedTripId.isSome) := by
  have hinv : ∀ id t, live.trips.lookup id = some t → LineFromMatch t := by
    refine LiveState.trips_inv (fun ev _ delays o t ho ht => (eventTrip_matched ho ht).1) hrun fun id t ht => ?_
    rw [h0, AList.lookup_empty] at ht
    cases ht
  have hlookup : (live.act s.enricher (.event e)).trips.lookup e.key.id =
      LiveState.eventTrip live.trainDelays s.enricher e (live.trips.lookup e.key.id) := lookup_act_event rfl
  obtain ⟨t, ht⟩ : ∃ t, LiveState.eventTrip live.trainDelays s.enricher e (live.trips.lookup e.key.id) = some t :=
    ⟨_, eventTrip_eq he⟩
  obtain ⟨-, hlast, hmatched⟩ := eventTrip_matched (fun t ht => hinv _ t ht) ht
  refine ⟨t, hlookup.trans ht, ?_, ?_⟩
  · intro howner line journey hline hjourney hkey
    refine hmatched ?_
    rw [matchOf, if_neg howner]
    simp only [matchTripId, hline, hjourney, Option.bind_eq_bind, Option.bind_some]
    exact hkey
  · intro howner number hnumber hres
    refine hmatched ?_
    rw [matchOf, if_pos howner, Option.isSome_map, trainMatch, hnumber, Option.bind_some, trainDate, hlast]
    exact hres

/-- A message of vehicle 1, with the line or the journey it carries. -/
def told (line journey : Option String) : PosEvent where
  key := { dataowner := "RET", vehicleNumber := "1" }
  kind := .onRoute
  linePlanningNumber := line
  journeyNumber := journey
  timestamp := 0

omit [Platform] in
/-- A line first, and the journey with the next message: it is matched then. -/
theorem matched_of_event_journey :
    let _ := plainPlatform
    ((((LiveState.new 600).act lineOne.enricher (.event (told (some "1") none))).act lineOne.enricher
      (.event (told none (some "7")))).trips.lookup "RET:1").any (fun t => t.matchedTripId.isSome) = true := by
  intro _
  obtain ⟨t, ht, hbus, -⟩ := matched_of_event lineOne (LiveState.new 600) _ _ (told none (some "7")) rfl
    (Run.nil.snoc (a := .event (told (some "1") none)) rfl) (by decide)
  have he : ((((LiveState.new 600).act lineOne.enricher (.event (told (some "1") none))).act lineOne.enricher
      (.event (told none (some "7")))).trips.lookup "RET:1").map
        (fun t => (t.key.dataowner, t.linePlanningNumber, t.journeyNumber)) = some ("RET", some "1", some "7") := by
    decide +kernel
  rw [show (((LiveState.new 600).act lineOne.enricher (.event (told (some "1") none))).act lineOne.enricher
    (.event (told none (some "7")))).trips.lookup "RET:1" = some t from ht] at he ⊢
  simp only [Option.map_some, Option.some.injEq, Prod.mk.injEq] at he
  obtain ⟨ho, hl, hj⟩ := he
  exact hbus (by rw [ho]; decide) "1" "7" hl hj (by rw [ho]; decide +kernel)

end GtfsStore

end OV.Impl
