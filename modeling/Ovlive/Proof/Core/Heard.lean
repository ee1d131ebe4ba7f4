import Ovlive.Impl.Gtfs.Service
import Ovlive.Proof.Core.History

/-!
# What a trip owes to its latest messages

Two promises of the live state, over runs in which every step has its own
timetable (`Asked`), trains included (`ScheduleEnricher`):

* `Followed.fix_outranks_iff`: a vehicle that had a real fix stays at its
  latest one, exactly as long as no later message starts a trip without one;
* `Logged.prune_exact_iff`: a sweep takes exactly the vehicles that have been
  silent, exactly as long as no message of a trip is older than the one before.

`eventTrip_own` says what a message leaves of position and last update,
`fixed_anchorToSchedule` that the schedule neither gives nor takes a real fix.
-/

namespace OV.Impl

/-! ## Enrichers that leave a trip's own fields alone -/

/-- An enricher that fills schedule-derived fields only, for trains too: of
what a trip has from its own messages it may replace the line code and the
operating day. -/
structure ScheduleEnricher extends Enricher where
  enrich_own : ∀ t, (enrich t).reading =
    { t.reading with
      linePlanningNumber := (enrich t).linePlanningNumber
      operatingDay := (enrich t).operatingDay }

/-- The server without a timetable. -/
def NoEnricher.schedule : ScheduleEnricher where
  toEnricher := NoEnricher
  enrich_own _ := rfl

namespace GtfsStore

variable [Platform] (s : GtfsStore)

theorem matchTrip_own (t : LiveTrip) :
    (s.matchTrip t).reading =
      { t.reading with
        linePlanningNumber := (s.matchTrip t).linePlanningNumber
        operatingDay := (s.matchTrip t).operatingDay } := by
  unfold matchTrip
  split_ifs
  · rfl
  · simp only [matchTrainTrip]
    split <;> rfl
  · rfl

theorem enrichTrip_own (t : LiveTrip) :
    (s.enrichTrip t).reading =
      { t.reading with
        linePlanningNumber := (s.enrichTrip t).linePlanningNumber
        operatingDay := (s.enrichTrip t).operatingDay } := by
  have hmatch := s.matchTrip_own t
  simp only [enrichTrip]
  cases (s.matchTrip t).matchedTripId.bind s.trips.lookup with
  | none => exact hmatch
  | some i =>
    have hfill := (fillTrip_frame (s := s) i (s.matchTrip t)).2.2.2
    have hline : (s.fillTrip i (s.matchTrip t)).linePlanningNumber = (s.matchTrip t).linePlanningNumber :=
      congrArg Reading.linePlanningNumber hfill
    have hday : (s.fillTrip i (s.matchTrip t)).operatingDay = (s.matchTrip t).operatingDay :=
      congrArg Reading.operatingDay hfill
    show (s.fillTrip i (s.matchTrip t)).reading = _
    rw [hfill, hline, hday]
    exact hmatch

/-- The enricher of a store is one. -/
def schedule : ScheduleEnricher where
  toEnricher := s.enricher
  enrich_own := s.enrichTrip_own

end GtfsStore

/-- So is the service, with a feed or without. -/
def GtfsService.schedule [Platform] (service : GtfsService) : ScheduleEnricher :=
  match service.store with
  | some store => store.schedule
  | none => NoEnricher.schedule

theorem GtfsService.schedule_toEnricher [Platform] (service : GtfsService) :
    service.schedule.toEnricher = service.enricher := by
  unfold schedule enricher
  cases service.store <;> rfl

/-! ## What a message leaves -/

section

variable [Platform] {delays : Option TrainDelays} {en : ScheduleEnricher} {o : Option LiveTrip} {e : PosEvent}
  {t : LiveTrip}

omit [Platform] in
/-- Delay curves set a train's punctuality, operating day and line code only. -/
theorem applyTrainDelay_own (delays : Option TrainDelays) (t : LiveTrip) :
    (applyTrainDelay delays t).lat = t.lat ∧ (applyTrainDelay delays t).lon = t.lon ∧
      (applyTrainDelay delays t).schedulePositioned = t.schedulePositioned ∧
      (applyTrainDelay delays t).lastUpdate = t.lastUpdate := by
  unfold applyTrainDelay
  split <;> exact ⟨rfl, rfl, rfl, rfl⟩

omit [Platform] in
theorem ScheduleEnricher.enrich_frame (en : ScheduleEnricher) (t : LiveTrip) :
    (en.enrich t).lat = t.lat ∧ (en.enrich t).lon = t.lon ∧
      (en.enrich t).schedulePositioned = t.schedulePositioned ∧ (en.enrich t).lastUpdate = t.lastUpdate := by
  have h := en.enrich_own t
  exact ⟨congrArg Reading.lat h, congrArg Reading.lon h, congrArg Reading.schedulePositioned h,
    congrArg Reading.lastUpdate h⟩

/-- The trip the enricher is asked about is where the message's fix puts it, or
else where it was, and its last update is the message. -/
theorem askedTrip_own (delays : Option TrainDelays) (en : ScheduleEnricher) (o : Option LiveTrip) (e : PosEvent) :
    ((askedTrip delays en.toEnricher o e).lat, (askedTrip delays en.toEnricher o e).lon) =
        (fixFrom e).getD ((baseTrip o e).lat, (baseTrip o e).lon) ∧
      (askedTrip delays en.toEnricher o e).schedulePositioned =
        ((baseTrip o e).schedulePositioned && (fixFrom e).isNone) ∧
      (askedTrip delays en.toEnricher o e).lastUpdate = e.timestamp := by
  have hread := applyFields_reading (markStop (baseTrip o e) e) e
  have hmark := markStop_eq (baseTrip o e) e
  obtain ⟨d1, d2, d3, d4⟩ := applyTrainDelay_own delays (applyFields (markStop (baseTrip o e) e) e)
  obtain ⟨n1, n2, n3, n4⟩ :=
    en.enrich_frame (applyTrainDelay delays (applyFields (markStop (baseTrip o e) e) e))
  have hlat : (applyFields (markStop (baseTrip o e) e) e).lat =
      ((fixFrom e).getD ((baseTrip o e).lat, (baseTrip o e).lon)).1 := by
    have h := congrArg Reading.lat hread
    rw [hmark] at h ⊢
    exact h
  have hlon : (applyFields (markStop (baseTrip o e) e) e).lon =
      ((fixFrom e).getD ((baseTrip o e).lat, (baseTrip o e).lon)).2 := by
    have h := congrArg Reading.lon hread
    rw [hmark] at h ⊢
    exact h
  have hflag : (applyFields (markStop (baseTrip o e) e) e).schedulePositioned =
      ((baseTrip o e).schedulePositioned && (fixFrom e).isNone) := by
    have h := congrArg Reading.schedulePositioned hread
    rw [hmark] at h ⊢
    exact h
  have hlast : (applyFields (markStop (baseTrip o e) e) e).lastUpdate = e.timestamp := congrArg Reading.lastUpdate hread
  simp only [askedTrip]
  split
  · exact ⟨Prod.ext (by rw [n1, d1, hlat]) (by rw [n2, d2, hlon]), by rw [n3, d3, hflag], by rw [n4, d4, hlast]⟩
  · exact ⟨Prod.ext (by rw [d1, hlat]) (by rw [d2, hlon]), by rw [d3, hflag], by rw [d4, hlast]⟩

/-- Whether a trip is at a fix, not at a station the schedule names. -/
def LiveTrip.fixed (t : LiveTrip) : Bool := t.hasPosition && !t.schedulePositioned

/-- The schedule moves no trip that is at a fix, and puts none at one. -/
theorem fixed_anchorToSchedule (t : LiveTrip) (ev : PosEvent) (en : Enricher) :
    (anchorToSchedule t ev en).fixed = t.fixed ∧ (t.fixed = true → anchorToSchedule t ev en = t) := by
  unfold anchorToSchedule
  split
  · exact ⟨rfl, fun _ => rfl⟩
  · rename_i h
    rw [Bool.not_eq_true, Bool.or_eq_false_iff] at h
    have hf : t.fixed = false := h.2
    split
    · exact ⟨by rw [hf]; simp [LiveTrip.fixed], by simp [hf]⟩
    · exact ⟨rfl, fun _ => rfl⟩

/-- A message leaves its vehicle at a fix exactly if it carries one to show, or
carries none and its trip was at one. -/
theorem eventTrip_fixed (h : LiveState.eventTrip delays en.toEnricher e o = some t) :
    t.fixed = (real ((fixFrom e).getD ((baseTrip o e).lat, (baseTrip o e).lon)) &&
        !((baseTrip o e).schedulePositioned && (fixFrom e).isNone)) ∧
      (t.fixed = true → (t.lat, t.lon) = (fixFrom e).getD ((baseTrip o e).lat, (baseTrip o e).lon)) := by
  obtain ⟨-, rfl⟩ := eventTrip_of_some h
  obtain ⟨hpos, hflag, -⟩ := askedTrip_own delays en o e
  obtain ⟨hfixed, hstay⟩ := fixed_anchorToSchedule (askedTrip delays en.toEnricher o e) e en.toEnricher
  refine ⟨?_, fun h => ?_⟩
  · rw [hfixed, ← hpos, ← hflag]
    rfl
  · rw [hfixed] at h
    rw [hstay h, hpos]

theorem eventTrip_lastUpdate (h : LiveState.eventTrip delays en.toEnricher e o = some t) :
    t.lastUpdate = e.timestamp := by
  obtain ⟨-, rfl⟩ := eventTrip_of_some h
  rw [moved_anchorToSchedule]
  exact (askedTrip_own delays en o e).2.2

end

/-! ## A real fix outranks the schedule -/

/-- What happens to the live state, with the timetable it happens under. -/
abbrev Asked := LiveAction × ScheduleEnricher

/-- The fix an event carries, if it can be shown. -/
def realFix (e : PosEvent) : Option (Num × Num) := (fixFrom e).filter real

/-- The live state, and the latest real fix of one vehicle since it has a trip. -/
structure Followed where
  state : LiveState
  fix : Option (Num × Num)

namespace Followed

variable [Platform] {v : String} {s t : Followed} {x : Asked} {e : PosEvent} {u : LiveTrip}

/-- The latest real fix after an action, by the one before. -/
def noted (v : String) (fix : Option (Num × Num)) : LiveAction → Option (Num × Num)
  | .event e => if e.key.id = v then (realFix e).or fix else fix
  | _ => fix

def step (v : String) (s : Followed) (x : Asked) : Followed where
  state := s.state.act x.2.toEnricher x.1
  fix := if ((s.state.act x.2.toEnricher x.1).trips.lookup v).isSome then noted v s.fix x.1 else none

def Step (v : String) (s : Followed) (x : Asked) (t : Followed) : Prop := s.step v x = t

/-- A vehicle that had a real fix is at its latest one, and not where the
schedule says. -/
def Kept (v : String) (s : Followed) : Prop :=
  ∀ p, s.fix = some p → ∃ t, s.state.trips.lookup v = some t ∧ (t.lat, t.lon) = p ∧ t.schedulePositioned = false

/-- A message of a vehicle that had a real fix carries another one, or carries
none and goes on with the trip. -/
def Ok (v : String) (s : Followed) (x : Asked) : Prop :=
  ∀ e, x.1 = .event e → e.key.id = v → e.kind ≠ .end_ → s.fix.isSome →
    (realFix e).isSome ∨ fixFrom e = none ∧ startsTrip (s.state.trips.lookup v) e = false

/-- What a run keeps: the vehicle is kept where it should be, and the fix
remembered is one that can be shown. -/
structure Good (v : String) (s : Followed) : Prop where
  kept : s.Kept v
  shown : ∀ p, s.fix = some p → real p = true

omit [Platform] in
theorem realFix_of_some {p : Num × Num} (h : realFix e = some p) : fixFrom e = some p ∧ real p = true :=
  Option.filter_eq_some_iff.mp h

omit [Platform] in
theorem noted_other {fix : Option (Num × Num)} {a : LiveAction} (h : messages v [a] = []) : noted v fix a = fix := by
  unfold noted
  split
  · rw [if_neg (id_ne_of_messages h)]
  · rfl

omit [Platform] in
theorem noted_shown {fix : Option (Num × Num)} {a : LiveAction} (h : ∀ p, fix = some p → real p = true) :
    ∀ p, noted v fix a = some p → real p = true := by
  intro p hp
  unfold noted at hp
  split at hp
  · split at hp
    · rw [Option.or_eq_some_iff] at hp
      rcases hp with hp | ⟨-, hp⟩
      · exact (realFix_of_some hp).2
      · exact h p hp
    · exact h p hp
  · exact h p hp

/-- Only its own messages change a vehicle's trip, unless a sweep takes it. -/
theorem kept_other (h : messages v [x.1] = []) (hk : s.Kept v) : (s.step v x).Kept v := by
  intro p hp
  simp only [step, noted_other h] at hp
  split at hp
  · rename_i hsome
    obtain ⟨t, ht, hpos, hflag⟩ := hk p hp
    obtain ⟨u, hu⟩ := Option.isSome_iff_exists.mp hsome
    -- the sweep left a trip, so it left the one there was
    have hold := hu
    rw [lookup_act_other h, Option.filter_eq_some_iff, ht, Option.some.injEq] at hold
    rw [← hold.1] at hu
    exact ⟨t, hu, hpos, hflag⟩
  · cases hp

theorem step_fix_event (h : e.key.id = v) (en : ScheduleEnricher)
    (ht : LiveState.eventTrip s.state.trainDelays en.toEnricher e (s.state.trips.lookup v) = some u) :
    (s.step v (.event e, en)).state.trips.lookup v = some u ∧
      (s.step v (.event e, en)).fix = (realFix e).or s.fix := by
  have hlook : (s.state.act en.toEnricher (.event e)).trips.lookup v = _ := lookup_act_event h
  rw [ht] at hlook
  refine ⟨hlook, ?_⟩
  simp only [step, hlook, noted, h, if_true, Option.isSome_some]

/-- A message that carries no real fix leaves the vehicle at the one it had
exactly if it carries none at all and goes on with the trip. -/
theorem kept_fixless {t₀ : LiveTrip} {p : Num × Num} {en : ScheduleEnricher} {delays : Option TrainDelays}
    (ht : LiveState.eventTrip delays en.toEnricher e (some t₀) = some u) (hp : real p = true)
    (h0 : (t₀.lat, t₀.lon) = p) (hflag : t₀.schedulePositioned = false) (hreal : realFix e = none) :
    ((u.lat, u.lon) = p ∧ u.schedulePositioned = false) ↔ fixFrom e = none ∧ startsTrip (some t₀) e = false := by
  obtain ⟨hfixed, hpos⟩ := eventTrip_fixed ht
  constructor
  · rintro ⟨rfl, hsp⟩
    have hf : u.fixed = true := by
      rw [LiveTrip.fixed, hsp]
      exact Bool.and_eq_true_iff.mpr ⟨hp, rfl⟩
    rw [hf] at hfixed
    obtain ⟨hr, -⟩ := Bool.and_eq_true_iff.mp hfixed.symm
    cases hq : fixFrom e with
    | some q =>
      rw [hq, Option.getD_some] at hr
      rw [realFix, hq, Option.filter_some, if_pos hr] at hreal
      cases hreal
    | none =>
      refine ⟨rfl, ?_⟩
      by_contra hs
      rw [hq, Option.getD_none, baseTrip, if_pos (by simpa using hs)] at hr
      cases hr
  · rintro ⟨hq, hs⟩
    have hb : baseTrip (some t₀) e = t₀ := by simp [baseTrip, hs]
    rw [hb, hq, Option.getD_none, h0, hp, hflag] at hfixed
    rw [hb, hq, Option.getD_none, h0] at hpos
    refine ⟨hpos hfixed, ?_⟩
    have hf : u.fixed = true := hfixed
    rw [LiveTrip.fixed, Bool.and_eq_true_iff] at hf
    simpa using hf.2

/-- A message of the vehicle itself keeps it at its latest real fix exactly if
the message is one of the right kind. -/
theorem kept_event (h : e.key.id = v) (en : ScheduleEnricher) (hg : s.Good v) :
    (s.step v (.event e, en)).Kept v ↔ s.Ok v (.event e, en) := by
  by_cases hend : e.kind = .end_
  · have hlook : (s.state.act en.toEnricher (.event e)).trips.lookup v = _ := lookup_act_event h
    rw [LiveState.eventTrip_end hend] at hlook
    refine ⟨fun _ b hb _ hne => ?_, fun _ p hp => ?_⟩
    · cases hb
      exact absurd hend hne
    · rw [step, hlook] at hp
      cases hp
  obtain ⟨u, ht⟩ : ∃ u, LiveState.eventTrip s.state.trainDelays en.toEnricher e (s.state.trips.lookup v) = some u :=
    ⟨_, eventTrip_eq hend⟩
  obtain ⟨hlook, hfix⟩ := step_fix_event h en ht
  have hkept : (s.step v (.event e, en)).Kept v ↔
      ∀ p, (realFix e).or s.fix = some p → (u.lat, u.lon) = p ∧ u.schedulePositioned = false := by
    simp only [Kept, hfix, hlook, Option.some.injEq, exists_eq_left']
  have hok : s.Ok v (.event e, en) ↔
      (s.fix.isSome → (realFix e).isSome ∨ fixFrom e = none ∧ startsTrip (s.state.trips.lookup v) e = false) :=
    ⟨fun H => H e rfl h hend, fun H b hb _ _ => by cases hb; exact H⟩
  rw [hkept, hok]
  cases hr : realFix e with
  | some q =>
    obtain ⟨hq, hreal⟩ := realFix_of_some hr
    obtain ⟨hfixed, hpos⟩ := eventTrip_fixed ht
    have hf : u.fixed = true := by
      rw [hfixed, hq, Option.getD_some, hreal]
      simp
    refine ⟨fun _ _ => .inl rfl, fun _ p hp => ?_⟩
    cases hp
    rw [hpos hf, hq]
    exact ⟨rfl, by simpa [LiveTrip.fixed] using (Bool.and_eq_true_iff.mp hf).2⟩
  | none =>
    cases hp : s.fix with
    | none => simp
    | some p =>
      obtain ⟨t₀, ht0, h0, hflag⟩ := hg.kept p hp
      rw [ht0] at ht ⊢
      simpa using kept_fixless ht (hg.shown p hp) h0 hflag hr

/-- A step keeps a vehicle at its latest real fix exactly if it meets the condition. -/
theorem kept_step_iff (hg : s.Good v) (h : Step v s x t) : (t.Kept v ↔ s.Ok v x) ∧ (s.Ok v x → t.Good v) := by
  subst h
  have hiff : (s.step v x).Kept v ↔ s.Ok v x := by
    by_cases hx : messages v [x.1] = []
    · refine ⟨fun _ e he hv _ => ?_, fun _ => kept_other hx hg.kept⟩
      rw [he] at hx
      exact absurd hv (id_ne_of_messages hx)
    · obtain ⟨e, he, hv⟩ := exists_event_of_messages hx
      obtain ⟨a, en⟩ := x
      cases he
      exact kept_event hv en hg
  refine ⟨hiff, fun hok => ⟨hiff.mpr hok, fun p hp => ?_⟩⟩
  simp only [step] at hp
  split at hp
  · exact noted_shown hg.shown p hp
  · cases hp

/-- From any live state, in every state of a run a vehicle that had a real fix
since it has a trip is at its latest one and not where the schedule says,
exactly if each message of it that comes after a real fix carries one, or
carries no position at all and goes on with the trip. -/
theorem fix_outranks_iff (v : String) (s : LiveState) (xs : List Asked) (t : Followed) :
    Run (Ensured (fun _ _ t => t.Kept v) (Step v)) ⟨s, none⟩ xs t ↔
      Run (Guarded (Ok v) (Step v)) ⟨s, none⟩ xs t :=
  Run.ensured_iff (P := Good v) (fun _ _ _ hg h => kept_step_iff hg h)
    ⟨fun _ hp => (nomatch hp), fun _ hp => (nomatch hp)⟩

/-- A timetable that has every vehicle at one station. -/
def stationAt (lat lon : Num) : ScheduleEnricher where
  toEnricher := { NoEnricher with scheduledPosition := fun _ => some (lat, lon) }
  enrich_own _ := rfl

/-- A metro with a fix, whose next trip starts underground. -/
def surfaced : List Asked :=
  let metro : VehicleKey := { dataowner := "RET", vehicleNumber := "1001" }
  [(.event { key := metro, kind := .onRoute, lat := some (.fin 52), lon := some (.fin 4), timestamp := 0 },
      stationAt (.fin 51) (.fin 4)),
    (.event { key := metro, kind := .init, timestamp := 1 }, stationAt (.fin 51) (.fin 4))]

omit [Platform] in
theorem fix_not_for_good :
    let _ := plainPlatform
    ¬ ∀ (v : String) (stale : Int) (xs : List Asked) (t : Followed),
      Run (Step v) ⟨LiveState.new stale, none⟩ xs t → t.Kept v := by
  intro _ h
  obtain ⟨t, ht, -, hflag⟩ := h "RET:1001" 600 surfaced _ (Run.foldl (step "RET:1001") _ surfaced)
    (.fin 52, .fin 4) (by decide +kernel)
  have hany : ((surfaced.foldl (step "RET:1001") ⟨LiveState.new 600, none⟩).state.trips.lookup "RET:1001").any
      LiveTrip.schedulePositioned := by decide +kernel
  rw [ht, Option.any_some, hflag] at hany
  cases hany

end Followed

/-! ## A sweep takes the silent vehicles -/

/-- The live state, and by vehicle its messages since its trip started. -/
structure Logged where
  state : LiveState
  heard : String → List PosEvent

namespace Logged

variable [Platform] {v : String} {s t : Logged} {x : Asked} {e : PosEvent} {u : LiveTrip}

/-- A vehicle's messages after an action, by those before. -/
def noted (s : Logged) (v : String) : LiveAction → List PosEvent
  | .event e =>
    if e.key.id = v then (if startsTrip (s.state.trips.lookup v) e then [e] else s.heard v ++ [e]) else s.heard v
  | _ => s.heard v

def step (s : Logged) (x : Asked) : Logged where
  state := s.state.act x.2.toEnricher x.1
  heard v := if ((s.state.act x.2.toEnricher x.1).trips.lookup v).isSome then s.noted v x.1 else []

def Step (s : Logged) (x : Asked) (t : Logged) : Prop := s.step x = t

/-- A sweep removes exactly the vehicles all of whose messages since their
trip's start are too old, lists each of them once, and leaves the others alone. -/
structure Sweeps (s : Logged) (now : Instant) : Prop where
  listed : ∀ v, v ∈ (s.state.pruneStale now).2 ↔
    (s.state.trips.lookup v).isSome ∧ ∀ e ∈ s.heard v, e.timestamp < now - s.state.staleAfter
  nodup : (s.state.pruneStale now).2.Nodup
  removed : ∀ v ∈ (s.state.pruneStale now).2, (s.state.pruneStale now).1.trips.lookup v = none
  others : ∀ v, v ∉ (s.state.pruneStale now).2 →
    (s.state.pruneStale now).1.trips.lookup v = s.state.trips.lookup v

/-- A message that goes on with a trip is no older than the one before. -/
def Ok (s : Logged) (x : Asked) : Prop :=
  ∀ e u, x.1 = .event e → e.kind ≠ .end_ → s.state.trips.lookup e.key.id = some u → startsTrip (some u) e = false →
    u.lastUpdate ≤ e.timestamp

/-- The times of the messages of a vehicle. -/
def times (s : Logged) (v : String) : Set Instant := {i | ∃ e ∈ s.heard v, e.timestamp = i}

/-- Each trip's last update is the latest of its messages. -/
def Current (s : Logged) : Prop := ∀ v u, s.state.trips.lookup v = some u → IsGreatest (s.times v) u.lastUpdate

omit [Platform] in
/-- What a sweep lists: the vehicles last updated before the cutoff. -/
theorem mem_pruneStale (s : LiveState) (now : Instant) (v : String) :
    v ∈ (s.pruneStale now).2 ↔ ∃ u, s.trips.lookup v = some u ∧ u.lastUpdate < now - s.staleAfter := by
  simp only [LiveState.pruneStale, ← AList.mem_keys, ← AList.lookup_isSome, Map.lookup_retain]
  cases s.trips.lookup v with
  | none => simp
  | some u =>
    simp [Option.filter_some, lt_sub_iff_add_lt]

omit [Platform] in
/-- Whatever the messages, a sweep removes what it lists and nothing else. -/
theorem pruneStale_frame (s : LiveState) (now : Instant) :
    (s.pruneStale now).2.Nodup ∧ (∀ v ∈ (s.pruneStale now).2, (s.pruneStale now).1.trips.lookup v = none) ∧
      ∀ v, v ∉ (s.pruneStale now).2 → (s.pruneStale now).1.trips.lookup v = s.trips.lookup v := by
  refine ⟨AList.keys_nodup _, fun v hv => ?_, fun v hv => ?_⟩
  · obtain ⟨u, hu, hold⟩ := (mem_pruneStale s now v).mp hv
    rw [LiveState.lookup_pruneStale, hu, Option.filter_some, if_neg (by rw [decide_eq_true_eq]; exact not_le.mpr hold)]
  · rw [LiveState.lookup_pruneStale]
    cases hu : s.trips.lookup v with
    | none => rfl
    | some u =>
      have hnew : now - s.staleAfter ≤ u.lastUpdate := by
        by_contra h
        exact hv ((mem_pruneStale s now v).mpr ⟨u, hu, not_le.mp h⟩)
      rw [Option.filter_some, if_pos (decide_eq_true hnew)]

omit [Platform] in
/-- Where a trip's last update is one of its messages, sweeps are exact at every
instant exactly if it is the latest. -/
theorem sweeps_iff (hlast : ∀ v u, s.state.trips.lookup v = some u → u.lastUpdate ∈ s.times v) :
    (∀ now, s.Sweeps now) ↔ s.Current := by
  constructor
  · intro h v u hu
    refine ⟨hlast v u hu, ?_⟩
    rintro i ⟨e, he, rfl⟩
    by_contra hlt
    rw [not_le] at hlt
    -- the sweep whose cutoff is that message would take the vehicle
    have hmem : v ∈ (s.state.pruneStale (e.timestamp + s.state.staleAfter)).2 :=
      (mem_pruneStale _ _ v).mpr ⟨u, hu, by rwa [add_sub_cancel_right]⟩
    have hold := (((h (e.timestamp + s.state.staleAfter)).listed v).mp hmem).2 e he
    rw [add_sub_cancel_right] at hold
    exact lt_irrefl _ hold
  · intro h now
    obtain ⟨h1, h2, h3⟩ := pruneStale_frame s.state now
    refine ⟨fun v => ?_, h1, h2, h3⟩
    rw [mem_pruneStale]
    constructor
    · rintro ⟨u, hu, hold⟩
      refine ⟨by rw [hu]; rfl, fun e he => ?_⟩
      have hle : e.timestamp ≤ u.lastUpdate := (h v u hu).2 ⟨e, he, rfl⟩
      exact hle.trans_lt hold
    · rintro ⟨hsome, hold⟩
      obtain ⟨u, hu⟩ := Option.isSome_iff_exists.mp hsome
      obtain ⟨e, he, hlast⟩ := (h v u hu).1
      exact ⟨u, hu, hlast ▸ hold e he⟩

omit [Platform] in
/-- What is no message of a vehicle leaves its trip and its messages, or sweeps it. -/
theorem noted_other {a : LiveAction} (h : messages v [a] = []) : s.noted v a = s.heard v := by
  unfold noted
  split
  · rw [if_neg (id_ne_of_messages h)]
  · rfl

theorem times_other (h : messages v [x.1] = []) (hu : (s.step x).state.trips.lookup v = some u) :
    s.state.trips.lookup v = some u ∧ (s.step x).times v = s.times v := by
  have hold := hu
  rw [step, lookup_act_other h, Option.filter_eq_some_iff] at hold
  refine ⟨hold.1, ?_⟩
  have hheard : (s.step x).heard v = s.heard v := by
    simp only [step] at hu ⊢
    rw [hu, Option.isSome_some, if_pos rfl, noted_other h]
  rw [times, hheard]
  rfl

/-- A message is the last update of the trip it leaves, and the last of its messages. -/
theorem times_event {en : ScheduleEnricher} (hu : (s.step (.event e, en)).state.trips.lookup e.key.id = some u) :
    u.lastUpdate = e.timestamp ∧ e.kind ≠ .end_ ∧
      (s.step (.event e, en)).times e.key.id =
        if startsTrip (s.state.trips.lookup e.key.id) e then {e.timestamp}
        else insert e.timestamp (s.times e.key.id) := by
  have htrip := hu
  simp only [step] at htrip
  rw [lookup_act_event rfl] at htrip
  refine ⟨eventTrip_lastUpdate htrip, (lookup_act_key rfl hu).1, ?_⟩
  have hheard : (s.step (.event e, en)).heard e.key.id =
      if startsTrip (s.state.trips.lookup e.key.id) e then [e] else s.heard e.key.id ++ [e] := by
    simp only [step] at hu ⊢
    rw [hu, Option.isSome_some, if_pos rfl, noted, if_pos rfl]
  rw [times, hheard]
  split
  · ext i
    simp [eq_comm]
  · ext i
    simp [times, or_comm, eq_comm]

/-- After a step, too, each trip's last update is one of its messages. -/
theorem last_mem_times (hc : s.Current) (hu : (s.step x).state.trips.lookup v = some u) :
    u.lastUpdate ∈ (s.step x).times v := by
  by_cases hx : messages v [x.1] = []
  · obtain ⟨hold, htimes⟩ := times_other hx hu
    rw [htimes]
    exact (hc v u hold).1
  · obtain ⟨a, en⟩ := x
    obtain ⟨e, rfl, rfl⟩ := exists_event_of_messages hx
    obtain ⟨h1, -, h3⟩ := times_event hu
    rw [h1, h3]
    split
    · rfl
    · exact Set.mem_insert _ _

theorem ok_of_current (hc : s.Current) (h : (s.step x).Current) : s.Ok x := by
  intro e u he hk hu hs
  obtain ⟨a, en⟩ := x
  obtain rfl : a = .event e := he
  have hw : (s.step (.event e, en)).state.trips.lookup e.key.id =
      some (anchorToSchedule (askedTrip s.state.trainDelays en.toEnricher (s.state.trips.lookup e.key.id) e) e
        en.toEnricher) := by
    simp only [step]
    rw [lookup_act_event rfl, eventTrip_eq hk]
  obtain ⟨h1, -, h3⟩ := times_event hw
  rw [hu, hs, if_neg (by decide)] at h3
  have hgreat := (h _ _ hw).2
  rw [h3, h1] at hgreat
  exact hgreat (Set.mem_insert_of_mem _ (hc _ u hu).1)

theorem current_of_ok (hc : s.Current) (hok : s.Ok x) : (s.step x).Current := by
  intro v w hw
  refine ⟨last_mem_times hc hw, ?_⟩
  by_cases hx : messages v [x.1] = []
  · obtain ⟨hold, htimes⟩ := times_other hx hw
    rw [htimes]
    exact (hc v w hold).2
  obtain ⟨a, en⟩ := x
  obtain ⟨e, rfl, rfl⟩ := exists_event_of_messages hx
  obtain ⟨h1, hk, h3⟩ := times_event hw
  rw [h1, h3]
  split
  · rintro i rfl
    exact le_rfl
  · -- the message goes on with a trip, and is no older than its latest
    rename_i hs
    obtain ⟨u, hu⟩ : ∃ u, s.state.trips.lookup e.key.id = some u := by
      by_contra hnone
      rw [not_exists, ← Option.eq_none_iff_forall_ne_some] at hnone
      exact hs (by simp [startsTrip, hk, hnone])
    rw [hu, Bool.not_eq_true] at hs
    have hle : u.lastUpdate ≤ e.timestamp := hok e u rfl hk hu hs
    rintro i (rfl | hi)
    · exact le_rfl
    · exact ((hc _ u hu).2 hi).trans hle

/-- A step leaves sweeps exact exactly if it meets the condition. -/
theorem sweeps_step_iff (hc : s.Current) (h : Step s x t) :
    ((∀ now, t.Sweeps now) ↔ s.Ok x) ∧ (s.Ok x → t.Current) := by
  subst h
  exact ⟨(sweeps_iff fun _ _ hu => last_mem_times hc hu).trans ⟨ok_of_current hc, current_of_ok hc⟩, current_of_ok hc⟩

/-- In every state of a run sweeps are exact at every instant, exactly if no
message that goes on with a trip is older than the one before. -/
theorem prune_exact_iff (stale : Int) (xs : List Asked) (t : Logged) :
    Run (Ensured (fun _ _ t => ∀ now, t.Sweeps now) Step) ⟨LiveState.new stale, fun _ => []⟩ xs t ↔
      Run (Guarded Ok Step) ⟨LiveState.new stale, fun _ => []⟩ xs t := by
  refine Run.ensured_iff (P := Current) (fun _ _ _ hc h => sweeps_step_iff hc h) ?_
  intro v u hu
  rw [show (LiveState.new stale).trips.lookup v = none from AList.lookup_empty v] at hu
  cases hu

/-- A bus whose message of five minutes ago arrives after that of just now. -/
def delayed : List Asked :=
  let bus : VehicleKey := { dataowner := "RET", vehicleNumber := "1001" }
  [(.event { key := bus, kind := .init, timestamp := 300 * nanos }, NoEnricher.schedule),
    (.event { key := bus, kind := .onRoute, timestamp := 0 }, NoEnricher.schedule)]

omit [Platform] in
theorem prune_not_exact :
    let _ := plainPlatform
    ¬ ∀ (stale : Int) (xs : List Asked) (t : Logged),
      Run Step ⟨LiveState.new stale, fun _ => []⟩ xs t → ∀ now, t.Sweeps now := by
  intro _ h
  have hs := h 240 delayed _ (Run.foldl step _ delayed) (301 * nanos)
  have hmem : "RET:1001" ∈ ((delayed.foldl step ⟨LiveState.new 240, fun _ => []⟩).state.pruneStale (301 * nanos)).2 := by
    decide +kernel
  have hold := ((hs.listed "RET:1001").mp hmem).2
  exact absurd hold (by decide +kernel)

end Logged

end OV.Impl
