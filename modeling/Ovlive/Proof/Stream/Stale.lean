import Ovlive.Framework.Run
import Ovlive.Impl.Stream
import Ovlive.Proof.Stream.Converge

/-!
# What a silent tick leaves unsaid

`changed` compares position, delay, stop state and speed; a MOVE carries more.
`Wire` has, for each vehicle, the fields of its last ENTER or MOVE as they are
on the wire, `Wire.rel_tick` is what a tick keeps of them, and `fields_eq_iff`
which fields `changed` does not compare. `Wire.fresh_iff`: a vehicle's fields
on the wire are those of the index, tick by tick, exactly if these three are
what was sent whenever the vehicle has not changed otherwise.
-/

namespace OV.Impl

open Client

/-! ## The fields that are no geometry -/

structure WireFields where
  delaySeconds : Int
  delayKnown : Bool
  atStop : Bool
  currentStopId : String
  schedulePositioned : Bool
  speedKnown : Bool
  /-- In whole km/h. -/
  speed : Num
  deriving DecidableEq

def VehicleMove.fields (m : VehicleMove) : WireFields where
  delaySeconds := m.delaySeconds
  delayKnown := m.delayKnown
  atStop := m.atStop
  currentStopId := m.currentStopId
  schedulePositioned := m.schedulePositioned
  speedKnown := m.speedKnown
  speed := m.speedKmh.round

def VehicleState.fields (s : VehicleState) : WireFields where
  delaySeconds := s.delaySeconds
  delayKnown := s.delayKnown
  atStop := s.atStop
  currentStopId := s.currentStopId
  schedulePositioned := s.schedulePositioned
  speedKnown := s.speedKnown
  speed := s.speedKmh.round

/-- The values of a trip. -/
def LiveTrip.fields (t : LiveTrip) : WireFields where
  delaySeconds := t.delaySeconds
  delayKnown := t.delayKnown
  atStop := t.atStop
  currentStopId := t.currentStopId.getD ""
  schedulePositioned := t.schedulePositioned
  speedKnown := t.speedKmh.isSome
  speed := (t.speedKmh.getD (.fin 0)).round

/-- The fields that `changed` does not compare. -/
structure Unsaid (f : WireFields) (t : LiveTrip) : Prop where
  delayKnown : f.delayKnown = t.delayKnown
  currentStopId : f.currentStopId = t.currentStopId.getD ""
  schedulePositioned : f.schedulePositioned = t.schedulePositioned

theorem optNe_eq_false {a b : Option Num} (h : optNe a b = false) : a = b := by
  cases a <;> cases b <;> simp_all [optNe, Num.ne]

/-- A trip that has not changed has the fields of the one sent, but for those
that are not compared. -/
theorem fields_eq_iff {t₀ t : LiveTrip} (h : changed (sentOf t₀) (sentOf t) = false) :
    t₀.fields = t.fields ↔ Unsaid t₀.fields t := by
  simp only [changed, Bool.or_eq_false_iff, decide_eq_false_iff_not, not_not] at h
  obtain ⟨⟨⟨-, hdelay⟩, hstop⟩, hspeed⟩ := h
  have hround := optNe_eq_false hspeed
  simp only [sentOf] at hdelay hstop hround
  constructor
  · intro he
    exact ⟨congrArg WireFields.delayKnown he, congrArg WireFields.currentStopId he,
      congrArg WireFields.schedulePositioned he⟩
  · rintro ⟨hknown, hcode, hflag⟩
    have hspeed : t₀.speedKmh.isSome = t.speedKmh.isSome ∧
        (t₀.speedKmh.getD (.fin 0)).round = (t.speedKmh.getD (.fin 0)).round := by
      cases h0 : t₀.speedKmh <;> cases h1 : t.speedKmh <;> simp_all
    simp only [LiveTrip.fields] at hknown hcode hflag
    simp only [LiveTrip.fields, hdelay, hknown, hstop, hcode, hflag, hspeed.1, hspeed.2]

/-! ## The wire -/

/-- A session, and for each vehicle the fields of its last ENTER or MOVE. -/
structure Wire where
  session : Session
  sent : Map String WireFields := ∅

/-- What an update says of the fields: an ENTER has them, a MOVE replaces those
of a vehicle that is there, and a snapshot starts over. -/
def Update.hear (u : Update) (m : Map String WireFields) : Map String WireFields :=
  Map.eraseAll u.left (Map.adjustAll VehicleMove.id (fun v _ => v.fields) u.moved
    (Map.insertAll VehicleState.id VehicleState.fields u.entered (if u.isSnapshot then ∅ else m)))

namespace Wire

variable [Platform] {s t : Wire} {a : SessionAction} {sub : Subscription}

def step (s : Wire) (a : SessionAction) : Wire where
  session := s.session.step a
  sent :=
    match s.session.frame a with
    | some u => u.hear s.sent
    | none => s.sent

def Step (s : Wire) (a : SessionAction) (t : Wire) : Prop := s.step a = t

/-- The fields last sent of every vehicle of the subscription are those of the
index. -/
def Fresh (s : Wire) : Prop :=
  ∀ sub, s.session.sub = some sub → ∀ k, (sub.sent.lookup k).isSome →
    ∃ t, s.session.live.buildIndex.get k = some t ∧ s.sent.lookup k = some t.fields

/-- At a tick a vehicle that was sent before, is still wanted and has not
changed has the fields last sent that `changed` does not compare. -/
def Ok (s : Wire) (a : SessionAction) : Prop :=
  ∀ sub, a = .tick → s.session.sub = some sub → ∀ k v t f, sub.sent.lookup k = some v →
    sub.wants s.session.live.buildIndex k = some t → changed v (sentOf t) = false → s.sent.lookup k = some f →
      Unsaid f t

/-- The fields and the values last sent are those of one trip. -/
def told (f : WireFields) (v : Sent) : Prop := ∃ t : LiveTrip, f = t.fields ∧ v = sentOf t

/-- The wire mirrors what a subscription has sent, unless it starts over. -/
def Mirrors (s : Wire) : Prop :=
  ∀ sub, s.session.sub = some sub → ∀ k,
    Option.Rel told ((VehicleStore.base sub.forceSnapshot s.sent).lookup k) (sub.sent.lookup k)

/-! ## A tick -/

omit [Platform] in
/-- Every change of a tick reaches the fields, whatever was there. -/
theorem hear_report (sub : Subscription) (idx : VehicleIndex) (m : Map String WireFields) (k : String) :
    ((sub.report idx).hear m).lookup k =
      (Mirror.change sentOf kept LiveTrip.fields (fun t _ => t.fields) (sub.sent.lookup k) (sub.wants idx k)).apply
        ((VehicleStore.base sub.forceSnapshot m).lookup k) := by
  rw [← (sub.frame idx).lookup_apply fun k t h => (Subscription.wants_eq_some.mp h).2]
  simp only [Update.hear, Subscription.report, Map.insertAll_map, Map.adjustAll_map]
  rfl

/-- What is on the wire after a tick, silent or not. -/
theorem sent_tick (hsub : s.session.sub = some sub) :
    (s.step .tick).sent = (sub.report s.session.live.buildIndex).hear s.sent := by
  rw [step, Session.frame_tick hsub]
  cases hu : (sub.buildUpdate s.session.live.buildIndex).2 with
  | none =>
    rw [Subscription.buildUpdate_silent hu]
    rfl
  | some u => rw [Subscription.buildUpdate_frame hu]

theorem sub_tick (hsub : s.session.sub = some sub) :
    (s.step .tick).session.sub = some (sub.buildUpdate s.session.live.buildIndex).1 := by
  rw [step, Session.step_tick hsub]

/-- Without a subscription a tick does nothing. -/
theorem step_tick_none (hsub : s.session.sub = none) : s.step .tick = s := by
  rw [step, Session.frame_tick_none hsub, Session.step_tick_none hsub]

theorem rel_tick (h : s.Mirrors) (hsub : s.session.sub = some sub) (k : String) :
    Option.Rel told ((s.step .tick).sent.lookup k)
      ((sub.buildUpdate s.session.live.buildIndex).1.sent.lookup k) := by
  rw [sent_tick hsub, hear_report, Subscription.buildUpdate_sent]
  exact Mirror.change_apply (fun t => ⟨t, rfl, rfl⟩) (fun t _ => ⟨t, rfl, rfl⟩) (h sub hsub k) _

theorem Mirrors.step (h : s.Mirrors) (a : SessionAction) : (s.step a).Mirrors := by
  intro sub' hsub' k
  cases a with
  | live a enricher => exact h sub' hsub' k
  | message m =>
    show Option.Rel told ((VehicleStore.base sub'.forceSnapshot s.sent).lookup k) (sub'.sent.lookup k)
    rcases applyClientMsg_cases hsub' with ⟨hsent, hforce⟩ | ⟨old, hold, hsent, hforce⟩
    · rw [hsent, hforce]
      exact .none
    · rw [hsent, hforce]
      exact h old hold k
  | tick =>
    cases hsub : s.session.sub with
    | none =>
      rw [step_tick_none hsub] at hsub' ⊢
      exact h sub' hsub' k
    | some sub =>
      rw [sub_tick hsub, Option.some.injEq] at hsub'
      subst hsub'
      exact rel_tick h hsub k

omit [Platform] in
/-- A vehicle that was sent is on the wire, and no snapshot is due. -/
theorem Mirrors.told_of_sent (h : s.Mirrors) (hsub : s.session.sub = some sub) {k : String} {v : Sent}
    (hv : sub.sent.lookup k = some v) : sub.forceSnapshot = false ∧ ∃ f, s.sent.lookup k = some f ∧ told f v := by
  have hrel := h sub hsub k
  rw [hv] at hrel
  cases hf : sub.forceSnapshot with
  | true =>
    rw [hf] at hrel
    cases hrel
  | false =>
    rw [hf] at hrel
    show false = false ∧ ∃ f, (VehicleStore.base false s.sent).lookup k = some f ∧ told f v
    cases ho : (VehicleStore.base false s.sent).lookup k with
    | none =>
      rw [ho] at hrel
      cases hrel
    | some f =>
      rw [ho] at hrel
      cases hrel with
      | some htold => exact ⟨rfl, f, rfl, htold⟩

/-! ## What is left unsaid -/

/-- What a tick leaves on the wire of a vehicle it visits is the index's, unless
the vehicle is taken for unchanged and is not. -/
theorem fields_tick_iff (h : s.Mirrors) (hsub : s.session.sub = some sub) {k : String} {t : LiveTrip}
    (ht : sub.wants s.session.live.buildIndex k = some t) :
    (s.step .tick).sent.lookup k = some t.fields ↔
      ∀ v f, sub.sent.lookup k = some v → changed v (sentOf t) = false → s.sent.lookup k = some f → Unsaid f t := by
  rw [sent_tick hsub, hear_report, ht]
  cases hv : sub.sent.lookup k with
  | none => simp [Mirror.change]
  | some v =>
    obtain ⟨hforce, f, hf, t₀, rfl, rfl⟩ := h.told_of_sent hsub hv
    rw [hforce]
    show (Mirror.Change.apply _ (s.sent.lookup k)) = some t.fields ↔ _
    rw [hf]
    cases hc : changed (sentOf t₀) (sentOf t) with
    | true => simp [Mirror.change, kept, hc]
    | false => simp [Mirror.change, kept, hc, fields_eq_iff hc]

/-- A tick leaves what is on the wire fresh exactly if nothing is left unsaid. -/
theorem fresh_tick_iff (h : s.Mirrors) : (s.step .tick).Fresh ↔ s.Ok .tick := by
  constructor
  · intro hq sub _ hsub k v t f hv ht hc hf
    refine (fields_tick_iff h hsub ht).mp ?_ v f hv hc hf
    have hp : ((sub.buildUpdate s.session.live.buildIndex).1.sent.lookup k).isSome := by
      rw [Subscription.buildUpdate_sent, Mirror.isSome_sync, ht]
      rfl
    obtain ⟨t', ht', hs'⟩ := hq _ (sub_tick hsub) k hp
    obtain rfl : t' = t := Option.some.inj (ht'.symm.trans (Subscription.get_of_wants ht))
    exact hs'
  · intro hok sub' hsub' k hp
    cases hsub : s.session.sub with
    | none =>
      rw [step_tick_none hsub, hsub] at hsub'
      cases hsub'
    | some sub =>
      rw [sub_tick hsub, Option.some.injEq] at hsub'
      subst hsub'
      rw [Subscription.buildUpdate_sent, Mirror.isSome_sync] at hp
      obtain ⟨t, ht⟩ := Option.isSome_iff_exists.mp hp
      exact ⟨t, Subscription.get_of_wants ht,
        (fields_tick_iff h hsub ht).mpr fun v f hv hc hf => hok sub rfl hsub k v t f hv ht hc hf⟩

omit [Platform] in
theorem mirrors_start (live : LiveState) : Mirrors ⟨⟨live, none⟩, ∅⟩ := fun _ h => nomatch h

/-- In a run the fields on the wire are fresh after every tick exactly if at
every tick the vehicles taken for unchanged are so in all of them. -/
theorem fresh_iff (live : LiveState) (as : List SessionAction) (t : Wire) :
    Run (Ensured (fun _ a t => a = .tick → t.Fresh) Step) ⟨⟨live, none⟩, ∅⟩ as t ↔
      Run (Guarded Ok Step) ⟨⟨live, none⟩, ∅⟩ as t := by
  refine Run.ensured_iff (P := Mirrors) (fun s a t hm hstep => ?_) (mirrors_start live)
  cases hstep
  refine ⟨?_, fun _ => hm.step a⟩
  cases a with
  | tick =>
    rw [← fresh_tick_iff hm]
    exact ⟨fun h => h rfl, fun h _ => h⟩
  | live a enricher => exact iff_of_true (fun h => nomatch h) (fun _ h => nomatch h)
  | message m => exact iff_of_true (fun h => nomatch h) (fun _ h => nomatch h)

/-! ## A delay of zero -/

/-- Bus 1 appears, and without having moved departs on time. -/
def onTimeActs : List SessionAction :=
  [.message ⟨some (.subscribe (viewportMsg square []))⟩,
   .live (.event
      { key := { dataowner := "RET", vehicleNumber := "1" }, kind := .init, journeyNumber := some "7"
        vehicleType := some .bus, lat := some (.fin 52), lon := some (.fin 5), timestamp := 0 }) NoEnricher,
   .tick,
   .live (.event
      { key := { dataowner := "RET", vehicleNumber := "1" }, kind := .departure, journeyNumber := some "7"
        punctuality := some 0, timestamp := nanos }) NoEnricher]

omit [Platform] in
/-- That its delay is known by now is not sent. -/
theorem not_fresh :
    let _ := plainPlatform
    ¬ ∀ (live : LiveState) (as : List SessionAction) (t : Wire), Run Step ⟨⟨live, none⟩, ∅⟩ as t →
      Run (Ensured (fun _ a t => a = .tick → t.Fresh) Step) ⟨⟨live, none⟩, ∅⟩ as t := by
  intro _ h
  let before : Wire := onTimeActs.foldl step ⟨⟨LiveState.new 600, none⟩, ∅⟩
  have hrun : Run Step ⟨⟨LiveState.new 600, none⟩, ∅⟩ (onTimeActs ++ [.tick]) (before.step .tick) :=
    (Run.foldl step _ onTimeActs).snoc rfl
  obtain ⟨s, -, -, hfresh⟩ := (h _ _ _ hrun).last
  have hpresent : ((before.step .tick).session.sub.any fun sub => (sub.sent.lookup "RET:1").isSome) = true := by
    decide +kernel
  obtain ⟨sub, hsub, hk⟩ := (Option.any_eq_true _ _).mp hpresent
  obtain ⟨trip, htrip, hsent⟩ := hfresh rfl sub hsub "RET:1" hk
  have hstale : ((before.step .tick).session.live.buildIndex.get "RET:1").all (fun trip =>
      trip.delayKnown && ((before.step .tick).sent.lookup "RET:1").all fun f => !f.delayKnown) = true := by
    decide +kernel
  rw [htrip, hsent] at hstale
  simp [LiveTrip.fields] at hstale

end Wire

end OV.Impl
