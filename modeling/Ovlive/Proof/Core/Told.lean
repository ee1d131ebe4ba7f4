import Ovlive.Framework.Latest
import Ovlive.Proof.Core.Live

/-!
# What a log of events tells

The declarative reading of a trip's log of events: `Told` says which report
each field of the trip has, and `place` where the log puts the vehicle. The
step lemmas are `Told.apply` (one more event has its fields applied) and
`anchorToSchedule_place` (and the schedule may then place it).
-/

namespace OV.Impl

/-! ## The fields -/

/-- The messages that say whether the vehicle is at a stop. -/
def stopMessage (kind : MessageKind) : Bool :=
  kind = .arrival || kind = .onStop || kind = .departure || kind = .onRoute

/-- Those that say it is. -/
def stands (kind : MessageKind) : Bool := kind = .arrival || kind = .onStop

/-- The latest message about a stop. -/
def lastStop (es : List PosEvent) : Option PosEvent := latest (fun e => if stopMessage e.kind then some e else none) es

/-- A trip's fields are what the events since its start report; `init` tells
whether it started with an INIT. -/
structure Told (init : Bool) (es : List PosEvent) (r : Reading) : Prop where
  hasInit : r.hasInit = init
  journeyNumber : r.journeyNumber = latest PosEvent.journeyNumber es
  linePlanningNumber : r.linePlanningNumber = latest PosEvent.linePlanningNumber es
  operatingDay : r.operatingDay = latest PosEvent.operatingDay es
  delaySeconds : r.delaySeconds = (latest PosEvent.punctuality es).getD 0
  delayKnown : r.delayKnown = (latest PosEvent.punctuality es).isSome
  lastKind : r.lastKind = es.getLast?.map PosEvent.kind
  lastUpdate : ∀ e, es.getLast? = some e → r.lastUpdate = e.timestamp
  atStop : r.atStop = (lastStop es).any fun e => stands e.kind
  currentStopId : r.currentStopId = if r.atStop then (lastStop es).bind PosEvent.userStopCode else none

theorem told_new (key : VehicleKey) (ts : Instant) (init : Bool) :
    Told init [] ({ LiveTrip.new key ts with hasInit := init } : LiveTrip).reading := by
  refine ⟨rfl, rfl, rfl, rfl, rfl, rfl, rfl, ?_, rfl, rfl⟩
  intro e h
  cases h

section

variable [Platform] {init : Bool} {es : List PosEvent} {t : LiveTrip} {e : PosEvent}

/-- What a fix leaves alone: everything but the position. -/
theorem applyFix_reading (t : LiveTrip) (ev : PosEvent) :
    (applyFix t ev).reading =
      { t.reading with
        lat := ((fixFrom ev).getD (t.lat, t.lon)).1
        lon := ((fixFrom ev).getD (t.lat, t.lon)).2
        schedulePositioned := t.schedulePositioned && (fixFrom ev).isNone } := by
  unfold applyFix
  cases fixFrom ev <;> simp [LiveTrip.reading, setPosition]

theorem applyFields_reading (t : LiveTrip) (ev : PosEvent) :
    (applyFields t ev).reading =
      { t.reading with
        lat := ((fixFrom ev).getD (t.lat, t.lon)).1
        lon := ((fixFrom ev).getD (t.lat, t.lon)).2
        schedulePositioned := t.schedulePositioned && (fixFrom ev).isNone
        delaySeconds := ev.punctuality.getD t.delaySeconds
        delayKnown := ev.punctuality.isSome || t.delayKnown
        lastKind := some ev.kind
        linePlanningNumber := ev.linePlanningNumber.or t.linePlanningNumber
        journeyNumber := ev.journeyNumber.or t.journeyNumber
        operatingDay := ev.operatingDay.or t.operatingDay
        lastUpdate := ev.timestamp } := by
  have h := applyFix_reading t ev
  simp only [LiveTrip.reading, Reading.mk.injEq] at h
  obtain ⟨h1, h2, h3, h4, h5, h6, h7, h8, h9, h10, h11, h12, h13⟩ := h
  simp only [LiveTrip.reading, applyFields, h1, h2, h3, h4, h5, h6, h9, h10, h11, h12, h13]

/-- Anchoring changes the position only. -/
theorem anchorToSchedule_reading (t : LiveTrip) (ev : PosEvent) (en : Enricher) :
    (anchorToSchedule t ev en).reading =
      { t.reading with
        lat := (anchorToSchedule t ev en).lat
        lon := (anchorToSchedule t ev en).lon
        schedulePositioned := (anchorToSchedule t ev en).schedulePositioned } :=
  congrArg LiveTrip.reading (moved_anchorToSchedule t ev en)

omit [Platform] in
/-- The place is no part of what `Told` is about. -/
theorem Told.move {r : Reading} (h : Told init es r) (lat lon : Num) (b : Bool) :
    Told init es { r with lat := lat, lon := lon, schedulePositioned := b } :=
  ⟨h.hasInit, h.journeyNumber, h.linePlanningNumber, h.operatingDay, h.delaySeconds, h.delayKnown, h.lastKind,
    h.lastUpdate, h.atStop, h.currentStopId⟩

/-- One more event, and each field is still its latest report. -/
theorem Told.apply (h : Told init es t.reading) (e : PosEvent) :
    Told init (es ++ [e]) (applyFields (markStop t e) e).reading := by
  have hmark : markStop t e =
      { t with
        atStop := if stopMessage e.kind then stands e.kind else t.atStop
        currentStopId := if stopMessage e.kind then (if stands e.kind then e.userStopCode else none)
          else t.currentStopId } := by
    unfold markStop
    cases hk : e.kind <;> simp [stopMessage, stands]
  have hlast : lastStop (es ++ [e]) = if stopMessage e.kind then some e else lastStop es := by
    rw [lastStop, latest_snoc]
    split <;> rfl
  obtain ⟨h1, h2, h3, h4, h5, h6, h7, h8, h9, h10⟩ := h
  simp only [LiveTrip.reading] at h1 h2 h3 h4 h5 h6 h9 h10
  rw [applyFields_reading, hmark]
  refine ⟨h1, ?_, ?_, ?_, ?_, ?_, ?_, ?_, ?_, ?_⟩
  · simp only [latest_snoc, h2]
  · simp only [latest_snoc, h3]
  · simp only [latest_snoc, h4]
  · simp only [latest_snoc, h5]
    cases e.punctuality <;> rfl
  · simp only [latest_snoc, h6]
    cases e.punctuality <;> rfl
  · simp
  · intro u hu
    rw [List.getLast?_append, List.getLast?_singleton] at hu
    cases hu
    rfl
  · simp only [LiveTrip.reading, hlast, h9]
    split <;> rfl
  · simp only [LiveTrip.reading, hlast, h10]
    split_ifs <;> first | rfl | simp_all

end

/-! ## The place -/

/-- Whether a position can be shown. -/
def real (p : Num × Num) : Bool := p.1.isFinite && p.2.isFinite

section

variable [Platform] (en : Enricher)

/-- The entries of a log from its latest fix on. -/
def sinceFix (log : List (PosEvent × LiveTrip)) : List (PosEvent × LiveTrip) :=
  log.foldl (fun acc x => if (fixFrom x.1).isSome then [x] else acc ++ [x]) []

/-- The station the enricher names at a message that asserts one. -/
def station (x : PosEvent × LiveTrip) : Option (Num × Num) :=
  if stationEvent x.1.kind then en.scheduledPosition x.2 else none

/-- The latest fix of a log. -/
def lastFix (log : List (PosEvent × LiveTrip)) : Option (Num × Num) := latest (fun x => fixFrom x.1) log

/-- A place, and whether it is only the schedule's: the fix if it can be shown,
or else the anchor, if there is one. -/
def placeAt (fix anchor : Option (Num × Num)) : (Num × Num) × Bool :=
  match fix.filter real, anchor with
  | some p, _ => (p, false)
  | none, some q => (q, true)
  | none, none => (fix.getD (.nan, .nan), false)

/-- Where a log of events, each with the trip the enricher was asked to place,
puts the vehicle: at its latest fix; without one to show, at the station named last. -/
def place (log : List (PosEvent × LiveTrip)) : (Num × Num) × Bool :=
  placeAt (lastFix log) (latest (station en) (sinceFix log))

variable {en}

omit [Platform] in
theorem sinceFix_snoc (log : List (PosEvent × LiveTrip)) (x : PosEvent × LiveTrip) :
    sinceFix (log ++ [x]) = if (fixFrom x.1).isSome then [x] else sinceFix log ++ [x] := by
  simp only [sinceFix, List.foldl_append, List.foldl_cons, List.foldl_nil]

omit [Platform] in
/-- A further anchor replaces a place that is no fix to show. -/
theorem placeAt_or (fix anchor q : Option (Num × Num)) :
    placeAt fix (q.or anchor) =
      if real (placeAt fix anchor).1 && !(placeAt fix anchor).2 then placeAt fix anchor
      else match q with
        | some q => (q, true)
        | none => placeAt fix anchor := by
  cases fix with
  | none => cases q <;> cases anchor <;> simp [placeAt, real, Num.isFinite]
  | some p => cases hp : real p <;> cases q <;> cases anchor <;> simp [placeAt, Option.filter_some, hp]

omit [Platform] in
/-- What one more event does to the place: its fix moves the vehicle, and its
station does where the place is no fix to be shown at. -/
theorem place_snoc (log : List (PosEvent × LiveTrip)) (x : PosEvent × LiveTrip) :
    place en (log ++ [x]) =
      let p := match fixFrom x.1 with
        | some p => (p, false)
        | none => place en log
      if real p.1 && !p.2 then p
      else match station en x with
        | some q => (q, true)
        | none => p := by
  have hfix : lastFix (log ++ [x]) = (fixFrom x.1).or (lastFix log) := latest_snoc _ _ _
  cases hf : fixFrom x.1 with
  | some p =>
    have hs : latest (station en) [x] = (station en x).or none := latest_snoc _ [] x
    have hp : placeAt (some p) none = (p, false) := by
      cases hp : real p <;> simp [placeAt, Option.filter_some, hp]
    rw [place, hfix, hf, sinceFix_snoc, hf, Option.isSome_some, if_pos rfl, hs, Option.some_or, placeAt_or, hp]
  | none =>
    rw [place, hfix, hf, sinceFix_snoc, hf, if_neg (by simp), latest_snoc, Option.none_or, placeAt_or]
    rfl

/-- Anchoring a trip that a fix has moved puts it where the log does. -/
theorem anchorToSchedule_place {log : List (PosEvent × LiveTrip)} {t u : LiveTrip} {e : PosEvent}
    (h : ((t.lat, t.lon), t.schedulePositioned) = place en log)
    (hu : u.reading = (applyFields (markStop t e) e).reading) :
    (((anchorToSchedule u e en).lat, (anchorToSchedule u e en).lon), (anchorToSchedule u e en).schedulePositioned) =
      place en (log ++ [(e, u)]) := by
  have hpos : ((u.lat, u.lon), u.schedulePositioned) =
      match fixFrom e with
      | some p => (p, false)
      | none => place en log := by
    have hm : (markStop t e).lat = t.lat ∧ (markStop t e).lon = t.lon ∧
        (markStop t e).schedulePositioned = t.schedulePositioned := by
      rw [markStop_eq]
      exact ⟨rfl, rfl, rfl⟩
    rw [applyFields_reading] at hu
    simp only [LiveTrip.reading, Reading.mk.injEq, hm] at hu
    rw [hu.2.2.2.2.2.2.2.2.2.2.1, hu.2.2.2.2.2.2.2.2.2.2.2.1, hu.2.2.2.2.2.2.2.2.2.2.2.2, ← h]
    cases fixFrom e <;> simp
  rw [place_snoc, ← hpos]
  have hreal : real (u.lat, u.lon) = u.hasPosition := rfl
  simp only [hreal, station, anchorToSchedule]
  cases stationEvent e.kind
  · simp
  · cases hb : u.hasPosition && !u.schedulePositioned
    · cases hq : en.scheduledPosition u <;> simp [setPosition]
    · simp

end

end OV.Impl
