import Ovlive.Impl.Gtfs.Model
import Ovlive.Proof.Core.Live

/-!
# Schedule matches

A vehicle that is not a train is matched by its line and journey
(`GtfsStore.matchTripId`), once; `Coherent` says that the match is still the
one its line and journey give, and that the texts and colours are those of the
matched trip. An INIT, an END and a new journey start over, but an event that
changes the line alone does not: `coherent_updateTrip_iff` says when one event
keeps a trip coherent, `coherent_run_iff` which runs keep all trips coherent,
and `coherent_not_kept` is a run that does not.
-/

namespace OV.Impl

/-- What a match shows of the timetable. -/
structure Face where
  destination : Option String := none
  linePublicNumber : Option String := none
  lineColor : Option String := none
  lineTextColor : Option String := none
  deriving DecidableEq

def LiveTrip.face (t : LiveTrip) : Face where
  destination := t.destination
  linePublicNumber := t.linePublicNumber
  lineColor := t.lineColor
  lineTextColor := t.lineTextColor

namespace GtfsStore

variable (s : GtfsStore)

/-- What the timetable shows of one of its trips. -/
def faceOf (info : TripInfo) : Face :=
  match s.routes.lookup info.routeId with
  | none => { destination := nonEmpty info.headsign }
  | some r =>
    { destination := nonEmpty info.headsign
      linePublicNumber := nonEmpty r.shortName
      lineColor := r.color
      lineTextColor := r.textColor }

/-- What a match shows: the trip matched, if the timetable has it. -/
def matchedFace (tid : Option String) : Face :=
  match tid.bind s.trips.lookup with
  | some info => s.faceOf info
  | none => {}

/-- The match of a trip is the one its key gives, and it shows that match. -/
structure Coherent (t : LiveTrip) : Prop where
  key : ∀ tid, t.matchedTripId = some tid → s.matchTripId t = some tid
  face : t.face = s.matchedFace t.matchedTripId

/-! ## Enriching -/

variable {s} {t : LiveTrip}

theorem fillTrip_face (info : TripInfo) (h : t.face = {} ∨ t.face = s.faceOf info) :
    (s.fillTrip info t).face = s.faceOf info := by
  simp only [LiveTrip.face, Face.mk.injEq] at h
  simp only [fillTrip, faceOf] at h ⊢
  cases hr : s.routes.lookup info.routeId with
  | none =>
    simp only [hr, Face.mk.injEq] at h
    rcases h with ⟨h1, h2, h3, h4⟩ | ⟨h1, h2, h3, h4⟩ <;> simp [LiveTrip.face, h1, h2, h3, h4]
  | some r =>
    simp only [hr, Face.mk.injEq] at h
    rcases h with ⟨h1, h2, h3, h4⟩ | ⟨h1, h2, h3, h4⟩ <;> simp [LiveTrip.face, fillRoute, h1, h2, h3, h4]

variable [Platform]

/-- A first match is the one the key gives; a match is kept. -/
theorem enrichTrip_matched (h : t.key.dataowner ≠ TRAIN_DATAOWNER) :
    (s.enrichTrip t).matchedTripId = t.matchedTripId.or (s.matchTripId t) := by
  have hm : (s.matchTrip t).matchedTripId = t.matchedTripId.or (s.matchTripId t) := by
    unfold matchTrip
    cases hm : t.matchedTripId <;> simp [h, hm]
  rw [← hm]
  simp only [enrichTrip]
  cases (s.matchTrip t).matchedTripId.bind s.trips.lookup with
  | none => rfl
  | some info => exact (fillTrip_frame info _).2.2.1

theorem enrichTrip_face (h : t.key.dataowner ≠ TRAIN_DATAOWNER) (hf : t.face = s.matchedFace t.matchedTripId) :
    (s.enrichTrip t).face = s.matchedFace (s.enrichTrip t).matchedTripId := by
  rw [enrichTrip_matched h]
  have hm : (s.matchTrip t).face = t.face ∧ (s.matchTrip t).matchedTripId = t.matchedTripId.or (s.matchTripId t) := by
    unfold matchTrip
    cases hm : t.matchedTripId <;> simp [h, hm, LiveTrip.face]
  simp only [enrichTrip, hm.2, matchedFace]
  cases hi : (t.matchedTripId.or (s.matchTripId t)).bind s.trips.lookup with
  | none =>
    -- nothing is matched before or after, or the timetable has no such trip
    rw [hm.1, hf, matchedFace]
    cases ht : t.matchedTripId with
    | none => rfl
    | some tid =>
      rw [ht] at hi
      rw [show (some tid).bind s.trips.lookup = none from hi]
  | some info =>
    refine fillTrip_face info ?_
    rw [hm.1, hf, matchedFace]
    cases ht : t.matchedTripId with
    | none => exact .inl rfl
    | some tid =>
      rw [ht] at hi
      rw [show (some tid).bind s.trips.lookup = some info from hi]
      exact .inr rfl

omit [Platform] in
/-- Enriching keeps the fields the match is looked up by. -/
theorem matchTripId_congr {u : LiveTrip} (h1 : u.key.dataowner = t.key.dataowner)
    (h2 : u.linePlanningNumber = t.linePlanningNumber) (h3 : u.journeyNumber = t.journeyNumber) :
    s.matchTripId u = s.matchTripId t := by
  unfold matchTripId
  rw [h1, h2, h3]

theorem matchTripId_enrichTrip (h : t.key.dataowner ≠ TRAIN_DATAOWNER) :
    s.matchTripId (s.enrichTrip t) = s.matchTripId t := by
  obtain ⟨_, h2, h3⟩ := enrichTrip_frame (s := s) t
  refine matchTripId_congr (by rw [h2]) ?_ ?_
  · exact congrArg Reading.linePlanningNumber (h3 h)
  · exact congrArg Reading.journeyNumber (h3 h)

/-- Enriching makes a trip coherent whose face is its match's, unless the match
it had is no longer the one its key gives. -/
theorem coherent_enrichTrip_iff (h : t.key.dataowner ≠ TRAIN_DATAOWNER) (hf : t.face = s.matchedFace t.matchedTripId) :
    s.Coherent (s.enrichTrip t) ↔ ∀ tid, t.matchedTripId = some tid → s.matchTripId t = some tid := by
  constructor
  · intro hc tid ht
    rw [← matchTripId_enrichTrip h]
    refine hc.key tid ?_
    rw [enrichTrip_matched h, ht]
    rfl
  · intro hk
    refine ⟨fun tid ht => ?_, enrichTrip_face h hf⟩
    rw [matchTripId_enrichTrip h]
    rw [enrichTrip_matched h] at ht
    cases hm : t.matchedTripId with
    | none => rwa [hm] at ht
    | some tid' => rw [hm] at ht; exact hk tid (hm.trans ht)

/-! ## One event -/

variable {ev : PosEvent}

/-- The fields a match is about, after an event but before enriching. -/
theorem applyFields_markStop (t : LiveTrip) (ev : PosEvent) :
    (applyFields (markStop t ev) ev).key = t.key ∧ (applyFields (markStop t ev) ev).face = t.face ∧
      (applyFields (markStop t ev) ev).matchedTripId = t.matchedTripId ∧
      (applyFields (markStop t ev) ev).linePlanningNumber = ev.linePlanningNumber.or t.linePlanningNumber ∧
      (applyFields (markStop t ev) ev).journeyNumber = ev.journeyNumber.or t.journeyNumber := by
  have h : (applyFix (markStop t ev) ev).key = t.key ∧ (applyFix (markStop t ev) ev).face = t.face ∧
      (applyFix (markStop t ev) ev).matchedTripId = t.matchedTripId ∧
      (applyFix (markStop t ev) ev).linePlanningNumber = t.linePlanningNumber ∧
      (applyFix (markStop t ev) ev).journeyNumber = t.journeyNumber := by
    rw [moved_applyFix, markStop_eq]
    exact ⟨rfl, rfl, rfl, rfl, rfl⟩
  obtain ⟨h1, h2, h3, h4, h5⟩ := h
  refine ⟨h1, h2, h3, ?_, ?_⟩
  · simp only [applyFields, h4]
  · simp only [applyFields, h5]

/-- Anchoring moves a trip only. -/
theorem coherent_anchorToSchedule (t : LiveTrip) (ev : PosEvent) (en : Enricher) :
    s.Coherent (anchorToSchedule t ev en) ↔ s.Coherent t := by
  have h : s.matchTripId (anchorToSchedule t ev en) = s.matchTripId t ∧
      (anchorToSchedule t ev en).matchedTripId = t.matchedTripId ∧ (anchorToSchedule t ev en).face = t.face := by
    rw [moved_anchorToSchedule]
    exact ⟨rfl, rfl, rfl⟩
  constructor
  · rintro ⟨h1, h2⟩
    exact ⟨fun tid ht => h.1 ▸ h1 tid (h.2.1.trans ht), by rw [← h.2.1, ← h.2.2, h2]⟩
  · rintro ⟨h1, h2⟩
    exact ⟨fun tid ht => h.1.trans (h1 tid (h.2.1.symm.trans ht)), by rw [h.2.1, h.2.2, h2]⟩

omit [Platform] in
theorem coherent_new (key : VehicleKey) (ts : Instant) : s.Coherent (LiveTrip.new key ts) := ⟨nofun, rfl⟩

/-- An INIT starts a coherent trip. -/
theorem coherent_initTrip (delays : Option TrainDelays) (h : ev.key.dataowner ≠ TRAIN_DATAOWNER) :
    s.Coherent (LiveState.initTrip delays ev s.enricher) := by
  have hm := moved_applyFix { LiveTrip.new ev.key ev.timestamp with hasInit := true } ev
  have h2 := congrArg LiveTrip.face hm
  have h3 := congrArg LiveTrip.matchedTripId hm
  unfold LiveState.initTrip
  simp only
  rw [coherent_anchorToSchedule, applyTrainDelay_of_ne (by rw [applyFields_key]; exact h)]
  refine (coherent_enrichTrip_iff (by rw [applyFields_key]; exact h) ?_).mpr fun tid ht => ?_
  · exact h2.trans (congrArg s.matchedFace h3.symm)
  · exact nomatch h3.symm.trans ht

/-- The line an event carries, if any, is still the matched trip's: the
timetable has the match under the vehicle's key with that line. -/
def KeepsLine (s : GtfsStore) (entry : LiveTrip) (ev : PosEvent) : Prop :=
  newJourney entry ev = false → ∀ tid line journey, entry.matchedTripId = some tid →
    entry.journeyNumber = some journey → ev.linePlanningNumber = some line →
      s.tripByKey.lookup (realtimeTripId entry.key.dataowner line journey) = some tid

/-- The match of a trip whose line and journey an event may replace. -/
theorem keepsKey_iff (hc : s.Coherent t) (hn : newJourney t ev = false) :
    (∀ tid, t.matchedTripId = some tid → s.matchTripId (applyFields (markStop t ev) ev) = some tid) ↔
      s.KeepsLine t ev := by
  obtain ⟨hkey, _, _, hline, hjourney⟩ := applyFields_markStop t ev
  have hsame : ∀ journey, t.journeyNumber = some journey →
      (applyFields (markStop t ev) ev).journeyNumber = some journey := by
    intro journey hj
    rw [hjourney, hj]
    cases he : ev.journeyNumber with
    | none => rfl
    | some j =>
      simp only [newJourney, he, hj] at hn
      simpa using hn
  constructor
  · intro h _ tid line journey ht hj hl
    have hm := h tid ht
    rw [matchTripId, hline, hsame journey hj, hl, hkey] at hm
    exact hm
  · intro h tid ht
    -- a coherent match has a line and a journey
    have hm := hc.key tid ht
    simp only [matchTripId, Option.bind_eq_bind, Option.bind_eq_some_iff] at hm
    obtain ⟨line, hl, journey, hj, hm⟩ := hm
    rw [matchTripId, hline, hsame journey hj, hkey, hl]
    cases he : ev.linePlanningNumber with
    | none => exact hm
    | some line' => exact h hn tid line' journey ht hj he

theorem initTrip_key (delays : Option TrainDelays) (ev : PosEvent) (en : Enricher) :
    (LiveState.initTrip delays ev en).key = ev.key := by
  simp only [LiveState.initTrip, anchorToSchedule_key, en.enrich_key, applyTrainDelay_key, applyFields_key]
  rfl

theorem updateTrip_key (delays : Option TrainDelays) (t : LiveTrip) (ev : PosEvent) (en : Enricher) :
    (LiveState.updateTrip delays t ev en).key = if newJourney t ev then ev.key else t.key := by
  simp only [LiveState.updateTrip, anchorToSchedule_key, apply_ite LiveTrip.key, en.enrich_key, ite_self,
    applyTrainDelay_key, applyFields_key, markStop_key]
  rfl

/-- An event that is no INIT and no END leaves a coherent trip coherent exactly
when it keeps the line. -/
theorem coherent_updateTrip_iff {delays : Option TrainDelays}
    (hr : (LiveState.updateTrip delays t ev s.enricher).key.dataowner ≠ TRAIN_DATAOWNER)
    (hc : t.key.dataowner ≠ TRAIN_DATAOWNER → s.Coherent t) :
    s.Coherent (LiveState.updateTrip delays t ev s.enricher) ↔ s.KeepsLine t ev := by
  -- the entry, after a rollover if there is one
  have key : ∀ u : LiveTrip, s.Coherent u → u.key.dataowner ≠ TRAIN_DATAOWNER →
      (s.Coherent (anchorToSchedule
          (if (applyTrainDelay delays (applyFields (markStop u ev) ev)).linePublicNumber.isNone then
            s.enricher.enrich (applyTrainDelay delays (applyFields (markStop u ev) ev))
          else applyTrainDelay delays (applyFields (markStop u ev) ev)) ev s.enricher) ↔
        ∀ tid, u.matchedTripId = some tid → s.matchTripId (applyFields (markStop u ev) ev) = some tid) := by
    intro u hu ho
    obtain ⟨hkey, hface, hmatched, _, _⟩ := applyFields_markStop u ev
    rw [coherent_anchorToSchedule, applyTrainDelay_of_ne (by rw [hkey]; exact ho)]
    have hf : (applyFields (markStop u ev) ev).face =
        s.matchedFace (applyFields (markStop u ev) ev).matchedTripId := by rw [hface, hmatched, hu.face]
    simp only [← hmatched]
    split_ifs with hl
    · exact coherent_enrichTrip_iff (by rw [hkey]; exact ho) hf
    · exact ⟨fun hco tid ht => hco.key tid ht, fun hk => ⟨hk, hf⟩⟩
  rw [updateTrip_key] at hr
  unfold LiveState.updateTrip
  simp only
  cases hn : newJourney t ev with
  | true =>
    rw [hn] at hr
    rw [if_pos rfl, key _ (coherent_new _ _) hr]
    exact iff_of_true (fun _ ht => nomatch ht) fun hn' => nomatch hn.symm.trans hn'
  | false =>
    rw [hn] at hr
    rw [if_neg Bool.false_ne_true, key t (hc hr) hr]
    exact keepsKey_iff (hc hr) hn

/-! ## Runs -/

/-- Every trip that is no train's is coherent. -/
def AllCoherent (s : GtfsStore) (live : LiveState) : Prop :=
  ∀ id t, live.trips.lookup id = some t → t.key.dataowner ≠ TRAIN_DATAOWNER → s.Coherent t

/-- An action keeps the lines of the matched trips: an event that is no INIT
and no END, for a vehicle with a trip that is no train's, keeps its line. -/
def KeepsLines (s : GtfsStore) (live : LiveState) : LiveAction → Prop
  | .event ev => ev.kind ≠ .init → ev.kind ≠ .end_ → ∀ t, live.trips.lookup ev.key.id = some t →
    t.key.dataowner ≠ TRAIN_DATAOWNER → s.KeepsLine t ev
  | _ => True

omit [Platform] in
/-- A new journey starts over, whatever its line. -/
theorem keepsLine_of_rollover (hn : newJourney t ev = true) : s.KeepsLine t ev :=
  fun hn' => nomatch hn.symm.trans hn'

/-- An event makes one trip: all trips are coherent after it exactly when that
one is. -/
theorem allCoherent_event_iff {live : LiveState} (h : s.AllCoherent live) (ev : PosEvent) :
    s.AllCoherent (live.act s.enricher (.event ev)) ↔
      ∀ t, LiveState.eventTrip live.trainDelays s.enricher ev (live.trips.lookup ev.key.id) = some t →
        t.key.dataowner ≠ TRAIN_DATAOWNER → s.Coherent t := by
  have hl : ∀ k, (live.act s.enricher (.event ev)).trips.lookup k =
      if k = ev.key.id then LiveState.eventTrip live.trainDelays s.enricher ev (live.trips.lookup k)
      else live.trips.lookup k := LiveState.lookup_apply live ev s.enricher
  constructor
  · intro hc t ht
    exact hc ev.key.id t (by rw [hl, if_pos rfl, ht])
  · intro hc id t ht
    rw [hl] at ht
    split_ifs at ht with hk
    · rw [hk] at ht
      exact hc t ht
    · exact h id t ht

/-- What an update leaves is coherent, if it is no train's, exactly when the
line of a trip that was no train's is kept. -/
theorem coherent_update_iff {delays : Option TrainDelays} (h : t.key.dataowner ≠ TRAIN_DATAOWNER → s.Coherent t) :
    ((LiveState.updateTrip delays t ev s.enricher).key.dataowner ≠ TRAIN_DATAOWNER →
        s.Coherent (LiveState.updateTrip delays t ev s.enricher)) ↔
      (t.key.dataowner ≠ TRAIN_DATAOWNER → s.KeepsLine t ev) := by
  cases hn : newJourney t ev with
  | true =>
    have hk : s.KeepsLine t ev := keepsLine_of_rollover hn
    exact iff_of_true (fun hr => (coherent_updateTrip_iff hr h).mpr hk) fun _ => hk
  | false =>
    have hk : (LiveState.updateTrip delays t ev s.enricher).key = t.key := by
      rw [updateTrip_key, hn]
      rfl
    rw [← hk]
    exact forall_congr' fun hr => coherent_updateTrip_iff hr h

theorem allCoherent_act_iff {live : LiveState} {a : LiveAction} (h : s.AllCoherent live) :
    s.AllCoherent (live.act s.enricher a) ↔ s.KeepsLines live a := by
  cases a with
  | delays d => exact iff_of_true h trivial
  | prune now =>
    refine iff_of_true (fun id t ht => h id t ?_) trivial
    have ht : (live.pruneStale now).1.trips.lookup id = some t := ht
    rw [LiveState.lookup_pruneStale, Option.filter_eq_some_iff] at ht
    exact ht.1
  | event ev =>
    rw [allCoherent_event_iff h]
    by_cases hi : ev.kind = .init
    · refine iff_of_true (fun t ht ho => ?_) fun h => absurd hi h
      rw [LiveState.eventTrip_init hi] at ht
      cases ht
      rw [initTrip_key] at ho
      exact coherent_initTrip _ ho
    by_cases he : ev.kind = .end_
    · refine iff_of_true (fun t ht => ?_) fun _ h => absurd he h
      rw [LiveState.eventTrip_end he] at ht
      cases ht
    rw [LiveState.eventTrip_update hi he]
    simp only [Option.some.injEq, forall_eq']
    cases ht : live.trips.lookup ev.key.id with
    | none =>
      -- a first message, its INIT missed: there is no match to keep
      refine iff_of_true (fun ho => ?_) fun _ _ t ht' => nomatch ht.symm.trans ht'
      exact (coherent_updateTrip_iff ho fun _ => coherent_new _ _).mpr fun _ _ _ _ hm => nomatch hm
    | some t =>
      rw [Option.getD_some, coherent_update_iff (h _ t ht)]
      refine ⟨fun hk _ _ u hu ho => ?_, fun hk ho => hk hi he t ht ho⟩
      obtain rfl : t = u := Option.some.inj (ht.symm.trans hu)
      exact hk ho

/-- The trips of a run are coherent in every state it reaches exactly when
every event of it keeps the line of a matched trip. -/
theorem coherent_run_iff {staleAfterSecs : Int} {as : List LiveAction} {live : LiveState}
    (h : Run (LiveState.Step s.enricher) (LiveState.new staleAfterSecs) as live) :
    (∀ bs u, bs <+: as → Run (LiveState.Step s.enricher) (LiveState.new staleAfterSecs) bs u → s.AllCoherent u) ↔
      Run (Guarded s.KeepsLines (LiveState.Step s.enricher)) (LiveState.new staleAfterSecs) as live := by
  have hnew : s.AllCoherent (LiveState.new staleAfterSecs) := fun id t ht => by simp [LiveState.new] at ht
  have hkeep : ∀ {bs u}, Run (Guarded s.KeepsLines (LiveState.Step s.enricher)) (LiveState.new staleAfterSecs) bs u →
      s.AllCoherent u := fun hg => hg.inv (fun t a v hstep ht => hstep.2 ▸ (allCoherent_act_iff ht).mpr hstep.1) hnew
  constructor
  · intro hall
    induction h with
    | nil => exact .nil
    | @snoc as t a u hrun hstep ih =>
      have ht := hall as t (List.prefix_append _ _) hrun
      have hu := hall (as ++ [a]) u (List.prefix_refl _) (hrun.snoc hstep)
      refine (ih fun bs v hbs => hall bs v (hbs.trans (List.prefix_append _ _))).snoc ⟨?_, hstep⟩
      exact (allCoherent_act_iff ht).mp (hstep.symm ▸ hu)
  · rintro hg bs u ⟨cs, rfl⟩ hu
    obtain ⟨v, hv, -⟩ := hg.of_append
    obtain rfl := Run.functional (R := LiveState.Step s.enricher) (fun _ _ _ _ => LiveState.functional) hv.of_guarded hu
    exact hkeep hv

end GtfsStore

/-! ## A change of line -/

namespace GtfsStore

/-- A timetable with one trip, of line 1 and journey 7. -/
def lineOne : GtfsStore where
  routes := AList.singleton "R1"
    { routeId := "R1", agencyId := none, shortName := "1", longName := "", vehicleType := .bus, color := some "ff0000"
      textColor := none }
  trips := AList.singleton "T1"
    { tripId := "T1", routeId := "R1", headsign := "Centraal", blockId := none, shapeId := none, serviceId := "S"
      longName := "", realtimeTripId := some "RET:1:7" }
  tripByKey := AList.singleton "RET:1:7" "T1"

/-- Vehicle 1 on journey 7 of a line. -/
def onLine (kind : MessageKind) (line : String) : LiveAction :=
  .event { key := { dataowner := "RET", vehicleNumber := "1" }, kind := kind, linePlanningNumber := some line
           journeyNumber := some "7", timestamp := 0 }

/-- A run of one line is coherent. -/
theorem coherent_run_iff_line :
    ∃ live, Run (@LiveState.Step plainPlatform (@enricher lineOne plainPlatform)) (LiveState.new 600)
        [onLine .init "1", onLine .onRoute "1"] live ∧ lineOne.AllCoherent live := by
  let := plainPlatform
  have hrun : Run (Guarded lineOne.KeepsLines (LiveState.Step lineOne.enricher)) (LiveState.new 600)
      [onLine .init "1", onLine .onRoute "1"] _ :=
    (Run.nil.snoc ⟨fun h => absurd rfl h, rfl⟩).snoc ⟨fun _ _ t ht _ _ tid line journey h1 h2 h3 => ?_, rfl⟩
  · exact ⟨_, hrun.of_guarded, (coherent_run_iff hrun.of_guarded).mpr hrun _ _ (List.prefix_refl _) hrun.of_guarded⟩
  · have he : (((LiveState.new 600).act lineOne.enricher (onLine .init "1")).trips.lookup "RET:1").map
        (fun t => (t.key.dataowner, t.matchedTripId, t.journeyNumber)) = some ("RET", some "T1", some "7") := by
      decide +kernel
    rw [show ((LiveState.new 600).act lineOne.enricher (onLine .init "1")).trips.lookup "RET:1" = some t from ht] at he
    simp only [Option.map_some, Option.some.injEq, Prod.mk.injEq, h1, h2] at he
    obtain ⟨ho, rfl, rfl⟩ := he
    cases h3
    rw [ho]
    decide +kernel

/-- Journey 7 of line 1, and without an END journey 7 of line 2: the trip of
line 1 stays matched. -/
theorem coherent_not_kept :
    ¬∀ (s : GtfsStore) as live, Run (@LiveState.Step plainPlatform (@enricher s plainPlatform)) (LiveState.new 600) as live →
      ∀ id t, live.trips.lookup id = some t → t.key.dataowner ≠ TRAIN_DATAOWNER →
        ∀ tid, t.matchedTripId = some tid → s.matchTripId t = some tid := by
  let := plainPlatform
  intro h
  have hrun : Run (LiveState.Step lineOne.enricher) (LiveState.new 600) [onLine .init "1", onLine .onRoute "2"]
      (((LiveState.new 600).act lineOne.enricher (onLine .init "1")).act lineOne.enricher (onLine .onRoute "2")) :=
    (Run.nil.snoc rfl).snoc rfl
  have he : ((((LiveState.new 600).act lineOne.enricher (onLine .init "1")).act lineOne.enricher
      (onLine .onRoute "2")).trips.lookup "RET:1").map
        (fun t => (t.key.dataowner, t.matchedTripId, lineOne.matchTripId t)) = some ("RET", some "T1", none) := by
    decide +kernel
  obtain ⟨t, ht, hf⟩ := Option.map_eq_some_iff.mp he
  simp only [Prod.mk.injEq] at hf
  have hm := h lineOne _ _ hrun "RET:1" t ht (by rw [hf.1]; decide) "T1" hf.2.1
  rw [hf.2.2] at hm
  cases hm

end GtfsStore

end OV.Impl
