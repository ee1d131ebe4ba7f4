import Ovlive.Proof.Ingest.Steps

/-!
# The punctuality of trains

A position event takes the delay that the curve kept for the train says at its
time. Where no curve says one, the trip keeps the delay it had:
`reads_reported_iff` says which events leave the punctuality that the curves
tell, `punctual_run_iff` which runs do, and `punctual_not_kept` is a train whose
curve was pruned while its delay is still shown.
-/

namespace OV.Impl

/-- A trip shows the delay told, and no delay as known if none is. -/
def Reads (told : Option Int) (t : LiveTrip) : Prop :=
  match told with
  | some d => t.delayKnown = true ∧ t.delaySeconds = d
  | none => t.delayKnown = false

namespace Server

/-- The delay that the curve kept for a train number says at an instant. -/
def delayAt (s : Server) (number : String) (ts : Instant) : Option Int := (s.curve number).bind fun c => c.at ts

/-- An event with a train number that is applied to a train's trip. -/
def TrainEvent (s : Server) (e : PosEvent) (number : String) : Prop :=
  e.kind ≠ .end_ ∧ e.journeyNumber = some number ∧ (baseTrip (s.trip e.key.id) e).key.dataowner = TRAIN_DATAOWNER

/-- What an event of a train should leave: the punctuality the curves tell. -/
def punctual [Platform] (s : Server) (a : ServerAction) (t : Server) : Prop :=
  match a with
  | .position e =>
    ∀ number, s.TrainEvent e number → ∃ trip, t.trip e.key.id = some trip ∧ Reads (s.delayAt number e.timestamp) trip
  | _ => True

/-- An event of a train for which a curve says a delay, or which brings none
itself and starts a trip or finds one whose delay is not known. -/
def tells (s : Server) (a : ServerAction) : Prop :=
  match a with
  | .position e =>
    ∀ number, s.TrainEvent e number →
      (s.delayAt number e.timestamp).isSome ∨
        e.punctuality = none ∧ (baseTrip (s.trip e.key.id) e).delayKnown = false
  | _ => True

end Server

variable [Platform] {s t : Server} {e : PosEvent} {number : String}

omit [Platform] in
theorem consulted_of_trainEvent (h : s.TrainEvent e number) :
    consulted s.live.trainDelays (s.trip e.key.id) e = s.curve number := by
  obtain ⟨-, hnumber, htrain⟩ := h
  rw [consulted, if_pos htrain, hnumber]
  rfl

theorem reads_reported_iff (h : s.TrainEvent e number) :
    Reads (s.delayAt number e.timestamp) (reported s.live.trainDelays (s.trip e.key.id) e) ↔
      (s.delayAt number e.timestamp).isSome ∨
        e.punctuality = none ∧ (baseTrip (s.trip e.key.id) e).delayKnown = false := by
  obtain ⟨hsecs, hknown⟩ := reported_delay s.live.trainDelays (s.trip e.key.id) e
  rw [consulted_of_trainEvent h] at hsecs hknown
  change _ = (s.delayAt number e.timestamp).getD _ at hsecs
  change _ = ((s.delayAt number e.timestamp).isSome || _) at hknown
  cases hd : s.delayAt number e.timestamp with
  | some d => simp [Reads, hsecs, hknown, hd]
  | none => simp [Reads, hknown, hd]

/-- An event of a train leaves the punctuality that the curves tell exactly if
it meets the condition. -/
theorem punctual_iff {a : ServerAction} (h : Server.Step s a t) : s.punctual a t ↔ s.tells a := by
  obtain rfl := h
  cases a with
  | position e =>
    simp only [Server.punctual, Server.tells, trip_act_self]
    refine forall₂_congr fun number htrain => ?_
    rw [← reads_reported_iff htrain, eventTrip_reported htrain.1]
    obtain ⟨-, u, hu, hm⟩ : _ ∧ ∃ u, Scheduled (reported s.live.trainDelays (s.trip e.key.id) e) u ∧ Moved u _ :=
      eventTrip_eq_some (g := s.gtfs) (eventTrip_reported htrain.1)
    simp only [Option.some.injEq, exists_eq_left']
    rw [hm, hu]
    rfl
  | sweep now => exact Iff.rfl
  | rit u now => exact Iff.rfl
  | upkeep cutoff => exact Iff.rfl
  | restore snap => exact Iff.rfl
  | swap store => exact Iff.rfl

/-- From any state of the server, the events of a run, with revisions, prunes
and restores of the curves in between, all leave the punctuality that the
curves tell exactly if each of them meets the condition. -/
theorem punctual_run_iff (s : Server) (as : List ServerAction) (t : Server) :
    Run (Ensured Server.punctual Server.Step) s as t ↔ Run (Guarded Server.tells Server.Step) s as t :=
  Run.ensured_iff (P := fun _ => True) (fun _ _ _ _ hr => ⟨punctual_iff hr, fun _ => trivial⟩) trivial

/-- A position of train 3548. -/
def train3548 (ts : Instant) : PosEvent where
  key := { dataowner := TRAIN_DATAOWNER, vehicleNumber := "3548" }
  kind := .onRoute
  journeyNumber := some "3548"
  vehicleType := some .train
  timestamp := ts

/-- A revision that has the train two minutes late, a position, and the prune
of the curve. -/
def prunedCurve : List ServerAction :=
  [.rit
      { number := "3548", operatingDay := none, lineCode := some "IC"
        points := [{ at_ := 300 * nanos, delaySeconds := 120 }] } 0,
    .position (train3548 0),
    .upkeep 1]

omit [Platform] in
/-- The next position still shows the two minutes. -/
theorem punctual_not_kept :
    let _ := plainPlatform
    ¬ ∀ (delays : TrainDelays) (as : List ServerAction) (t : Server),
      Run Server.Step (Server.start 240 (some delays) {}) as t →
        Run (Ensured Server.punctual Server.Step) (Server.start 240 (some delays) {}) as t := by
  intro _ h
  let before := prunedCurve.foldl Server.act (Server.start 240 (some {}) {})
  have hrun : Run Server.Step (Server.start 240 (some {}) {}) prunedCurve before :=
    ((Run.nil.snoc rfl).snoc rfl).snoc rfl
  obtain ⟨u, hu, -, hpunctual⟩ := (h {} _ _ (hrun.snoc (a := .position (train3548 1)) rfl)).last
  obtain rfl : before = u := hrun.functional (fun _ _ _ _ h h' => h.symm.trans h') (hu.mono fun _ _ _ hr => hr.1)
  have hnumber : before.TrainEvent (train3548 1) "3548" := ⟨by decide, rfl, by decide +kernel⟩
  obtain ⟨trip, htrip, hreads⟩ := hpunctual "3548" hnumber
  have hnone : before.delayAt "3548" 1 = none := by decide +kernel
  have hknown : ((before.act (.position (train3548 1))).trip "IFF:3548").all LiveTrip.delayKnown = true := by
    decide +kernel
  have hid : (train3548 1).key.id = "IFF:3548" := by decide
  rw [hid] at htrip
  rw [htrip] at hknown
  have htold : Reads none trip := hnone ▸ hreads
  exact absurd (htold.symm.trans hknown) (by decide)

end OV.Impl
