import Ovlive.Impl.Realtime.Ns
import Ovlive.Proof.Ingest.Steps

/-!
# The heading of a standing train

The decoder gives the event of a part that stands still no course, so that the
heading of the train stands (`Ns.Standing`). What the trip is left with is read
off the event's fix alone (`bearing_standing`): the bearing of the last two
fixes, unless they are close. So the heading is kept exactly where the fix is
close to the last one, or leads the same way (`SteadyFix`).
-/

namespace OV.Impl

/-- An event of an NS payload, of a part that measured no speed or a speed of zero. -/
def Ns.Standing [Feed] (e : PosEvent) : Prop :=
  ∃ xml now maxAge number p, e ∈ parseNsTreinposities xml now maxAge ∧ e = eventFor number p now ∧
    (p.speed = none ∨ p.speed = some (.fin 0))

theorem Ns.Standing.event [Feed] {e : PosEvent} (h : Standing e) : e.kind = .onRoute ∧ e.bearing = none := by
  obtain ⟨_, _, _, number, p, -, rfl, hspeed⟩ := h
  refine ⟨rfl, ?_⟩
  have hstill : (Num.fin 0).lt (p.speed.getD (.fin 0)) = false := by
    rcases hspeed with h | h <;> rw [h] <;> rfl
  simp only [eventFor, hstill]
  cases p.course <;> rfl

section

variable [Platform] {t u : LiveTrip} {e : PosEvent} {delays : Option TrainDelays} {g : GtfsService}

/-- A fix leaves the heading alone: it is close to the position of the trip, or
the bearing of the two is the heading. -/
def SteadyFix (t : LiveTrip) (e : PosEvent) : Prop :=
  ∀ lat lon, fixFrom e = some (lat, lon) →
    barelyMoved t lat lon = true ∨ Platform.bearing t.lat t.lon lat lon = t.bearing

/-- The bearing an event without a course leaves is that of its fix. -/
theorem bearing_standing (hkind : e.kind = .onRoute) (hcourse : e.bearing = none)
    (hu : LiveState.eventTrip delays g.enricher e (some t) = some u) :
    u.bearing = (applyFix (baseTrip (some t) e) e).bearing := by
  have hne : e.kind ≠ .end_ := by rw [hkind]; decide
  have hanchor (x : LiveTrip) : anchorToSchedule x e g.enricher = x := by
    unfold anchorToSchedule
    rw [hkind]
    rfl
  have hreported : (reported delays (some t) e).bearing = (applyFix (baseTrip (some t) e) e).bearing := by
    rw [reported, applyTrainDelay_eq, applyFields, hcourse, markStop, hkind]
    simp only [applyFix, Option.getD_none]
    cases fixFrom e <;> rfl
  rw [eventTrip_reported hne, hanchor, Option.some.injEq] at hu
  rw [← hreported, ← hu]
  split
  · rw [scheduled_enrich g (reported delays (some t) e)]
  · rfl

theorem bearing_applyFix (t : LiveTrip) (e : PosEvent) (hpos : t.hasPosition = true) :
    (applyFix t e).bearing = t.bearing ↔ SteadyFix t e := by
  unfold applyFix SteadyFix
  cases hfix : fixFrom e with
  | none => exact ⟨fun _ _ _ h => (nomatch h), fun _ => rfl⟩
  | some fix =>
    obtain ⟨lat, lon⟩ := fix
    have hsteady : (∀ lat' lon', some (lat, lon) = some (lat', lon') →
        barelyMoved t lat' lon' = true ∨ Platform.bearing t.lat t.lon lat' lon' = t.bearing) ↔
          barelyMoved t lat lon = true ∨ Platform.bearing t.lat t.lon lat lon = t.bearing := by
      refine ⟨fun h => h lat lon rfl, fun h lat' lon' heq => ?_⟩
      cases heq
      exact h
    rw [hsteady]
    simp only [setPosition, hpos, Bool.true_and]
    cases barelyMoved t lat lon with
    | true => exact ⟨fun _ => .inl rfl, fun _ => rfl⟩
    | false =>
      rw [Bool.not_false, if_pos rfl]
      exact ⟨.inr, fun h => h.resolve_left (by decide)⟩

/-- A trip that the event starts anew has no bearing yet. -/
theorem bearing_new (h : startsTrip (some t) e = true) : (applyFix (baseTrip (some t) e) e).bearing = .nan := by
  rw [baseTrip, if_pos h, applyFix]
  cases fixFrom e <;> rfl

/-- A standing train keeps its heading exactly if the event goes on with its
trip and its fix is steady. -/
theorem heading_iff (hkind : e.kind = .onRoute) (hcourse : e.bearing = none) (hpos : t.hasPosition = true)
    (hbearing : t.bearing ≠ .nan) (hu : LiveState.eventTrip delays g.enricher e (some t) = some u) :
    u.bearing = t.bearing ↔ newJourney t e = false ∧ SteadyFix t e := by
  have hstarts : startsTrip (some t) e = newJourney t e := by
    unfold startsTrip
    rw [hkind]
    rfl
  rw [bearing_standing hkind hcourse hu, ← hstarts]
  cases hs : startsTrip (some t) e with
  | true =>
    rw [bearing_new hs]
    exact ⟨fun h => absurd h.symm hbearing, fun h => (nomatch h.1)⟩
  | false =>
    have hbase : baseTrip (some t) e = t := by simp [baseTrip, hs]
    rw [hbase, bearing_applyFix t e hpos]
    exact ⟨fun h => ⟨rfl, h⟩, And.right⟩

/-! ## Over a run -/

variable [Feed]

/-- If the action is the event of a standing train that has a position and a
bearing, it keeps the bearing. -/
def KeepsHeading (s : Server) (a : ServerAction) (s' : Server) : Prop :=
  ∀ e t, a = .position e → Ns.Standing e → s.trip e.key.id = some t → t.hasPosition = true → t.bearing ≠ .nan →
    ∃ u, s'.trip e.key.id = some u ∧ u.bearing = t.bearing

/-- The event of a standing train goes on with its trip, and its fix is steady. -/
def StandsStill (s : Server) (a : ServerAction) : Prop :=
  ∀ e t, a = .position e → Ns.Standing e → s.trip e.key.id = some t → t.hasPosition = true → t.bearing ≠ .nan →
    newJourney t e = false ∧ SteadyFix t e

theorem keepsHeading_iff {s s' : Server} {a : ServerAction} (h : Server.Step s a s') :
    KeepsHeading s a s' ↔ StandsStill s a := by
  refine forall₅_congr fun e t ha he ht => forall₂_congr fun hpos hbearing => ?_
  obtain ⟨hkind, hcourse⟩ := he.event
  have hend : e.kind ≠ .end_ := by rw [hkind]; decide
  subst h ha
  rw [trip_act_self, ht]
  obtain ⟨u, hu⟩ : ∃ u, LiveState.eventTrip s.live.trainDelays s.gtfs.enricher e (some t) = some u :=
    ⟨_, eventTrip_reported hend⟩
  simp only [hu, Option.some.injEq, exists_eq_left']
  exact heading_iff hkind hcourse hpos hbearing hu

/-- In every step of a run standing trains keep their heading, exactly if every
event of one in it stands still. -/
theorem heading_kept_iff (s : Server) (as : List ServerAction) (s' : Server) :
    Run (Ensured KeepsHeading Server.Step) s as s' ↔ Run (Guarded StandsStill Server.Step) s as s' :=
  Run.ensured_iff (P := fun _ => True) (fun _ _ _ _ h => ⟨keepsHeading_iff h, fun _ => trivial⟩) trivial

/-- A unit of train 6642, eastbound. -/
def eastbound (lat speed : ℚ) : Ns.Part where
  lat := some (Num.fin lat).f64
  lon := some (Num.fin 5.1).f64
  speed := some (.fin speed)
  course := some (.fin 93)
  timestamp := some 0

/-- The train standing, a few metres north of where it was. -/
def jitterXml : String :=
  "<TreinLocation><TreinNummer>6642</TreinNummer><TreinMaterieelDelen>" ++
    "<GpsDatumTijd>1970-01-01T00:00:00Z</GpsDatumTijd><Longitude>5.1</Longitude><Latitude>52.0901</Latitude>" ++
    "<Snelheid>0.0</Snelheid><Richting>93.00</Richting></TreinMaterieelDelen></TreinLocation>"

@[reducible] def jitterFeed : Feed where
  read xml :=
    let leaf (name val : String) : List XmlEvent := [.start name [], .text (some val), .end_ name]
    if xml = jitterXml then
      [.start "TreinLocation" []] ++ leaf "TreinNummer" "6642" ++ [.start "TreinMaterieelDelen" []] ++
        leaf "GpsDatumTijd" "1970-01-01T00:00:00Z" ++ leaf "Longitude" "5.1" ++ leaf "Latitude" "52.0901" ++
        leaf "Snelheid" "0.0" ++ leaf "Richting" "93.00" ++ [.end_ "TreinMaterieelDelen", .end_ "TreinLocation"]
    else []
  parseFromRfc3339 t := if t = "1970-01-01T00:00:00Z" then some 0 else none

/-- A platform that knows the bearing due north. -/
@[reducible] def northPlatform : Platform :=
  { plainPlatform with bearing := fun lat₁ lon₁ lat₂ lon₂ => if lon₁ = lon₂ ∧ lat₁.lt lat₂ then .fin 0 else .nan }

deriving instance DecidableEq for PosEvent

omit [Platform] [Feed] in
/-- At 80 km/h on a course of 93 degrees, and then standing: it points north. -/
theorem heading_jitters :
    let _ := northPlatform
    let _ := jitterFeed
    ¬ ∀ (as : List ServerAction) (s s' : Server) (a : ServerAction),
      Run Server.Step (Server.start 240 none {}) as s → Server.Step s a s' → KeepsHeading s a s' := by
  intro _ _ h
  let moving := Ns.eventFor "6642" (eastbound 52.09 80) 0
  let standing := Ns.eventFor "6642" (eastbound 52.0901 0) 0
  have hparse : standing ∈ parseNsTreinposities jitterXml 0 (120 * nanos) := by decide +kernel
  have hstanding : Ns.Standing standing := ⟨_, _, _, _, _, hparse, rfl, .inr rfl⟩
  let s := (Server.start 240 none {}).act (.position moving)
  have hbefore : (s.trip "IFF:6642").any fun t => t.hasPosition && t.bearing = .fin 93 := by decide +kernel
  have hafter : ((s.act (.position standing)).trip "IFF:6642").any fun t => t.bearing = .fin 0 := by decide +kernel
  obtain ⟨t, ht, hkept⟩ := (Option.any_eq_true _ _).mp hbefore
  obtain ⟨u, hu, hturned⟩ := (Option.any_eq_true _ _).mp hafter
  obtain ⟨hpos, hcourse⟩ := Bool.and_eq_true_iff.mp hkept
  have hb : t.bearing = .fin 93 := of_decide_eq_true hcourse
  obtain ⟨v, hv, hsame⟩ := h [.position moving] s _ _ (Run.nil.snoc rfl) rfl standing t rfl hstanding ht hpos
    (by rw [hb]; decide)
  have huv : u = v := Option.some.inj (hu.symm.trans hv)
  rw [← huv, of_decide_eq_true hturned, hb] at hsame
  exact absurd hsame (by decide)

end

end OV.Impl
