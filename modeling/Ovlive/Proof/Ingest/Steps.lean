import Ovlive.Impl.Ingest
import Ovlive.Proof.Core.History

/-!
# The server, vehicle by vehicle

What one action of the server does to the trip of one vehicle
(`trip_act_position`, `trip_act_sweep`, `trip_act_other`), and what a position
event leaves of it: `reported` is the trip with what the event and the delay
curve say, before the schedule is asked, and `scheduled_enrich` says that the
schedule adds only what schedules know.
-/

namespace OV.Impl

/-- `u` is `t` but for what a schedule fills in. -/
abbrev Scheduled (t u : LiveTrip) : Prop :=
  u = { t with
    matchedTripId := u.matchedTripId, linePlanningNumber := u.linePlanningNumber
    linePublicNumber := u.linePublicNumber, operatingDay := u.operatingDay, destination := u.destination
    blockCode := u.blockCode, vehicleType := u.vehicleType, operatorName := u.operatorName
    agencyId := u.agencyId, lineColor := u.lineColor, lineTextColor := u.lineTextColor }

section

variable [Platform]

theorem scheduled_matchTrip (s : GtfsStore) (t : LiveTrip) : Scheduled t (s.matchTrip t) := by
  unfold GtfsStore.matchTrip
  split_ifs
  · rfl
  · simp only [GtfsStore.matchTrainTrip]
    split <;> rfl
  · rfl

omit [Platform] in
/-- A matched trip fills in the texts only: not the match, nor the line and day
it was made by. -/
theorem fillTrip_eq (s : GtfsStore) (info : TripInfo) (t : LiveTrip) :
    s.fillTrip info t = { t with
      linePublicNumber := (s.fillTrip info t).linePublicNumber, destination := (s.fillTrip info t).destination
      blockCode := (s.fillTrip info t).blockCode, vehicleType := (s.fillTrip info t).vehicleType
      operatorName := (s.fillTrip info t).operatorName, agencyId := (s.fillTrip info t).agencyId
      lineColor := (s.fillTrip info t).lineColor, lineTextColor := (s.fillTrip info t).lineTextColor } := by
  simp only [GtfsStore.fillTrip]
  cases s.routes.lookup info.routeId <;> rfl

theorem scheduled_enrichTrip (s : GtfsStore) (t : LiveTrip) : Scheduled t (s.enrichTrip t) := by
  simp only [GtfsStore.enrichTrip]
  cases (s.matchTrip t).matchedTripId.bind s.trips.lookup with
  | none => exact scheduled_matchTrip s t
  | some info =>
    show Scheduled t (s.fillTrip info (s.matchTrip t))
    rw [Scheduled, fillTrip_eq]
    rw [scheduled_matchTrip]

theorem scheduled_enrich (g : GtfsService) (t : LiveTrip) : Scheduled t (g.enricher.enrich t) := by
  unfold GtfsService.enricher
  cases g.store with
  | none => rfl
  | some s => exact scheduled_enrichTrip s t

/-! ## What an event leaves -/

/-- The trip with what an event and the delay curve report, before the schedule
is asked. -/
def reported (delays : Option TrainDelays) (o : Option LiveTrip) (e : PosEvent) : LiveTrip :=
  applyTrainDelay delays (applyFields (markStop (baseTrip o e) e) e)

/-- Whether an event asks the schedule to match and fill in the trip. -/
def enriched (o : Option LiveTrip) (e : PosEvent) : Bool := e.kind = .init || (baseTrip o e).linePublicNumber.isNone

variable {delays : Option TrainDelays} {o : Option LiveTrip} {e : PosEvent} {g : GtfsService}

omit [Platform] in
/-- A delay curve sets the delay, the day and the line only. -/
theorem applyTrainDelay_eq (delays : Option TrainDelays) (t : LiveTrip) :
    applyTrainDelay delays t = { t with
      delaySeconds := (applyTrainDelay delays t).delaySeconds, delayKnown := (applyTrainDelay delays t).delayKnown
      operatingDay := (applyTrainDelay delays t).operatingDay
      linePlanningNumber := (applyTrainDelay delays t).linePlanningNumber } := by
  unfold applyTrainDelay
  split <;> rfl

theorem reported_key (delays : Option TrainDelays) (o : Option LiveTrip) (e : PosEvent) :
    (reported delays o e).key = (baseTrip o e).key := by
  rw [reported, applyTrainDelay_key, applyFields_key, markStop_key]

theorem reported_lastUpdate : (reported delays o e).lastUpdate = e.timestamp := by
  rw [reported, applyTrainDelay_eq]
  rfl

theorem reported_journeyNumber : (reported delays o e).journeyNumber = e.journeyNumber.or (baseTrip o e).journeyNumber := by
  rw [reported, applyTrainDelay_eq, applyFields, moved_applyFix, markStop_eq]

theorem reported_linePublicNumber (delays : Option TrainDelays) : (reported delays o e).linePublicNumber = (baseTrip o e).linePublicNumber := by
  rw [reported, applyTrainDelay_eq, applyFields, moved_applyFix, markStop_eq]

theorem reported_matchedTripId : (reported delays o e).matchedTripId = (baseTrip o e).matchedTripId := by
  rw [reported, applyTrainDelay_eq, applyFields, moved_applyFix, markStop_eq]

/-- The curve consulted for an event: the one kept for the number of the train
whose trip it is applied to. -/
def consulted (delays : Option TrainDelays) (o : Option LiveTrip) (e : PosEvent) : Option TrainDelay :=
  if (baseTrip o e).key.dataowner = TRAIN_DATAOWNER then
    (e.journeyNumber.or (baseTrip o e).journeyNumber).bind fun number => delays.bind fun d => d.get number
  else none

theorem curveOf_applyFields :
    curveOf delays (applyFields (markStop (baseTrip o e) e) e) = consulted delays o e := by
  have hjourney : (applyFields (markStop (baseTrip o e) e) e).journeyNumber =
      e.journeyNumber.or (baseTrip o e).journeyNumber := by
    rw [applyFields, moved_applyFix, markStop_eq]
  have hkey : (applyFields (markStop (baseTrip o e) e) e).key = (baseTrip o e).key := by
    rw [applyFields_key, markStop_key]
  simp only [curveOf, consulted, hkey, hjourney]
  by_cases h : (baseTrip o e).key.dataowner = TRAIN_DATAOWNER
  · simp only [h, if_true]
    cases delays <;> cases e.journeyNumber.or (baseTrip o e).journeyNumber <;> rfl
  · simp only [h, if_false]
    rfl

/-- The delay reported: the curve's, or else the event's or the trip's. -/
theorem reported_delay (delays : Option TrainDelays) (o : Option LiveTrip) (e : PosEvent) :
    let told := (consulted delays o e).bind fun c => c.at e.timestamp
    (reported delays o e).delaySeconds = told.getD (e.punctuality.getD (baseTrip o e).delaySeconds) ∧
      (reported delays o e).delayKnown = (told.isSome || (e.punctuality.isSome || (baseTrip o e).delayKnown)) := by
  simp only [reported, applyTrainDelay, curveOf_applyFields]
  cases consulted delays o e with
  | none =>
    rw [applyFields, moved_applyFix, markStop_eq]
    exact ⟨rfl, rfl⟩
  | some c =>
    have hlast : (applyFields (markStop (baseTrip o e) e) e).lastUpdate = e.timestamp := rfl
    simp only [hlast, Option.bind_some]
    rw [applyFields, moved_applyFix, markStop_eq]
    exact ⟨rfl, rfl⟩

/-- The operating day reported: the curve's, or else the event's or the trip's. -/
theorem reported_operatingDay (delays : Option TrainDelays) (o : Option LiveTrip) (e : PosEvent) :
    (reported delays o e).operatingDay =
      ((consulted delays o e).bind TrainDelay.operatingDay).or (e.operatingDay.or (baseTrip o e).operatingDay) := by
  simp only [reported, applyTrainDelay, curveOf_applyFields]
  cases consulted delays o e with
  | none => rw [applyFields, moved_applyFix, markStop_eq, Option.bind_none, Option.none_or]
  | some c =>
    rw [applyFields, moved_applyFix, markStop_eq]
    rfl

/-- A message that does not end the trip leaves what it and the curve report,
matched if the schedule is asked, and perhaps placed by it. -/
theorem eventTrip_reported (h : e.kind ≠ .end_) :
    LiveState.eventTrip delays g.enricher e o = some (anchorToSchedule
      (if enriched o e then g.enricher.enrich (reported delays o e) else reported delays o e) e g.enricher) := by
  rw [eventTrip_eq h, askedTrip]
  simp only [enriched, ← reported_linePublicNumber delays]
  rfl

/-- What an event leaves is what was reported but for the schedule's fields and
the position. -/
theorem eventTrip_eq_some {t : LiveTrip} (ht : LiveState.eventTrip delays g.enricher e o = some t) :
    e.kind ≠ .end_ ∧ ∃ u, Scheduled (reported delays o e) u ∧ Moved u t := by
  have h := (eventTrip_of_some ht).1
  rw [eventTrip_reported h, Option.some.injEq] at ht
  subst ht
  refine ⟨h, _, ?_, moved_anchorToSchedule _ _ _⟩
  split
  · exact scheduled_enrich g _
  · rfl

/-! ## One action, one vehicle -/

variable {s t : Server} {a : ServerAction} {v : String}

/-- Whether an action is a message of a vehicle. -/
def ServerAction.isMessageOf (v : String) : ServerAction → Prop
  | .position ev => ev.key.id = v
  | _ => False

theorem trip_act_position (s : Server) (ev : PosEvent) (v : String) :
    (s.act (.position ev)).trip v =
      if v = ev.key.id then LiveState.eventTrip s.live.trainDelays s.gtfs.enricher ev (s.trip v) else s.trip v :=
  LiveState.lookup_apply s.live ev s.gtfs.enricher v

theorem trip_act_self (s : Server) (ev : PosEvent) :
    (s.act (.position ev)).trip ev.key.id =
      LiveState.eventTrip s.live.trainDelays s.gtfs.enricher ev (s.trip ev.key.id) := by
  rw [trip_act_position, if_pos rfl]

theorem trip_act_sweep (s : Server) (now : Instant) (v : String) :
    (s.act (.sweep now)).trip v = (s.trip v).filter fun t => now - s.live.staleAfter ≤ t.lastUpdate :=
  LiveState.lookup_pruneStale s.live now v

/-- What is no message of a vehicle keeps its trip, or sweeps it. -/
theorem trip_act_other (s : Server) (h : ¬ a.isMessageOf v) :
    (s.act a).trip v = s.trip v ∨ (s.act a).trip v = none := by
  cases a with
  | position ev =>
    rw [trip_act_position, if_neg (fun hv => h hv.symm)]
    exact .inl rfl
  | sweep now =>
    rw [trip_act_sweep]
    cases s.trip v with
    | none => exact .inl rfl
    | some t =>
      rw [Option.filter_some]
      split
      · exact .inl rfl
      · exact .inr rfl
  | rit u now => exact .inl rfl
  | upkeep cutoff => exact .inl rfl
  | restore snap => exact .inl rfl
  | swap store => exact .inl rfl

theorem act_staleAfter (s : Server) (a : ServerAction) : (s.act a).live.staleAfter = s.live.staleAfter := by
  cases a with
  | position ev => exact (LiveState.apply_staleAfter s.live ev _).1
  | _ => rfl

end

end OV.Impl
