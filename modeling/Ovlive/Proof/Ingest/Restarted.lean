import Ovlive.Impl.Restart
import Ovlive.Proof.Ingest.Steps

/-!
# What a restart keeps

After any number of restarts the live trips are what the messages that were
kept make of those on disk at first: the messages since the last restart,
before them those up to the save it came after, and so on, each with the
delay curves and the timetable it was applied with (`restarted_of_run`). The
delay curves are what the revisions kept by their own saves make of them. So a
trip that ended does not come back once it was saved that it ended
(`ended_after_save`).
-/

namespace OV.Impl

/-! ## Saving and loading -/

theorem LiveState.load_spec (s : LiveState) (trips : List LiveTrip) :
    (s.load trips).trips = Map.insertAll LiveTrip.id (fun t => t) trips s.trips ∧
      (s.load trips).staleAfter = s.staleAfter ∧ (s.load trips).trainDelays = s.trainDelays := by
  induction trips generalizing s with
  | nil => exact ⟨rfl, rfl, rfl⟩
  | cons t trips ih => exact ih (s.put t)

/-- The trips that are saved are those that are loaded. -/
theorem LiveState.lookup_allTrips (s : LiveState) (v : String) :
    (Map.insertAll LiveTrip.id (fun t => t) s.allTrips ∅).lookup v = s.trips.lookup v := by
  cases h : s.trips.lookup v with
  | some t =>
    have hid : t.id = v := s.own v t h
    have hmem : t ∈ s.allTrips := Map.mem_values.mpr ⟨v, h⟩
    rw [← hid]
    exact Map.lookup_insertAll_of_mem s.nodup_ids hmem
  | none =>
    rw [Map.lookup_insertAll_of_notMem, AList.lookup_empty]
    intro hmem
    obtain ⟨t, ht, rfl⟩ := List.mem_map.mp hmem
    obtain ⟨k, hk⟩ := Map.mem_values.mp ht
    rw [s.own k t hk, hk] at h
    cases h

namespace SnapFiles

/-- The trip of a vehicle on disk. -/
def trip (files : SnapFiles) (v : String) : Option LiveTrip :=
  (Map.insertAll LiveTrip.id (fun t => t) (files.trips.loaded.getD []) ∅).lookup v

/-- The delay curve of a train on disk, where they are restored. -/
def curve (files : SnapFiles) (cfg : RestartConfig) (number : String) : Option TrainDelay :=
  if cfg.curves then files.curves.loaded.bind fun snap => snap.entries.lookup number else none

variable {files : SnapFiles} {cfg : RestartConfig} {gtfs : GtfsService} {pruned swept : Instant}

theorem trip_boot (v : String) :
    (files.boot cfg gtfs pruned swept).trip v =
      (files.trip v).filter fun t => swept - cfg.staleTripSecs * nanos ≤ t.lastUpdate := by
  simp only [boot, Server.trip, live, trip]
  cases files.trips.loaded with
  | none => rfl
  | some trips =>
    simp only [Option.getD_some]
    obtain ⟨htrips, hstale, -⟩ := LiveState.load_spec ((LiveState.new cfg.staleTripSecs).withTrainDelays
      (files.trainDelays cfg pruned)) trips
    rw [LiveState.lookup_pruneStale, htrips, hstale]
    rfl

theorem live_trainDelays (delays : TrainDelays) (now : Instant) :
    (files.live cfg delays now).trainDelays = some delays := by
  simp only [live]
  cases files.trips.loaded with
  | none => rfl
  | some trips => exact (LiveState.load_spec _ trips).2.2

theorem curve_boot (number : String) :
    (files.boot cfg gtfs pruned swept).curve number =
      (files.curve cfg number).filter fun c => pruned - cfg.trainDelayPruneSecs * nanos ≤ c.updatedAt := by
  rw [boot, Server.curve, live_trainDelays, Option.bind_some, trainDelays, curve]
  split
  · cases files.curves.loaded with
    | none => rfl
    | some snap =>
      simp only [TrainDelays.get, TrainDelays.prune, TrainDelays.restore, Map.lookup_retain,
        Map.lookup_insertAll_entries, AList.lookup_empty, Option.or_none]
      rfl
  · rfl

end SnapFiles

/-! ## The journals -/

/-- What changes the trips. -/
inductive TripOp
  | event (ev : PosEvent) (delays : Option TrainDelays) (enricher : Enricher)
  | sweep (cutoff : Instant)

/-- What changes the delay curves. -/
inductive CurveOp
  | revise (u : TrainUpdate) (now : Instant)
  | prune (cutoff : Instant)

def CurveOp.act (curves : String → Option TrainDelay) : CurveOp → String → Option TrainDelay
  | .revise u now => fun n => if n = u.number then (({} : TrainDelays).apply u now).get n else curves n
  | .prune cutoff => fun n => (curves n).filter fun c => cutoff ≤ c.updatedAt

/-- The delay curves across restarts, at a time of a boot. -/
def durableCurves (cfg : RestartConfig) : Durable (String → Option TrainDelay) CurveOp Instant where
  act := CurveOp.act
  atBoot pruned := [.prune (pruned - cfg.trainDelayPruneSecs * nanos)]

section

variable [Platform]

def TripOp.act (trips : String → Option LiveTrip) : TripOp → String → Option LiveTrip
  | .event ev delays enricher => fun v =>
    if v = ev.key.id then LiveState.eventTrip delays enricher ev (trips v) else trips v
  | .sweep cutoff => fun v => (trips v).filter fun t => cutoff ≤ t.lastUpdate

/-- The trips across restarts. -/
def durableTrips (cfg : RestartConfig) : Durable (String → Option LiveTrip) TripOp Instant where
  act := TripOp.act
  atBoot swept := [.sweep (swept - cfg.staleTripSecs * nanos)]

namespace Machine

/-- What an action is to the trips. -/
def Did.ofTrips (d : Did) : Option (DurableOp TripOp Instant) :=
  match d.act with
  | .act (.position ev) => some (.act (.event ev d.saw.live.trainDelays d.saw.gtfs.enricher))
  | .act (.sweep now) => some (.act (.sweep (now - d.saw.live.staleAfter)))
  | .saveTrips none => some .save
  | .restart _ _ swept => some (.boot swept)
  | _ => none

/-- What an action is to the delay curves. -/
def Did.ofCurves (d : Did) : Option (DurableOp CurveOp Instant) :=
  match d.act with
  | .act (.rit u now) => if d.saw.live.trainDelays.isSome then some (.act (.revise u now)) else none
  | .act (.upkeep cutoff) => some (.act (.prune cutoff))
  | .saveCurves none => some .save
  | .restart _ pruned _ => some (.boot pruned)
  | _ => none

variable {cfg : RestartConfig} {files : SnapFiles} {m n : Machine} {ds : List Did} {d : Did}

/-- The trips of the server, and those on disk. -/
def trips (m : Machine) : OnDisk (String → Option LiveTrip) := ⟨m.server.trip, m.files.trip⟩

def curves (cfg : RestartConfig) (m : Machine) : OnDisk (String → Option TrainDelay) :=
  ⟨m.server.curve, m.files.curve cfg⟩

theorem curve_act_upkeep (s : Server) (cutoff : Instant) (n : String) :
    (s.act (.upkeep cutoff)).curve n = (s.curve n).filter fun c => cutoff ≤ c.updatedAt := by
  simp only [Server.act, Server.revise, Server.curve]
  cases s.live.trainDelays with
  | none => rfl
  | some delays => exact Map.lookup_retain _ _ _

theorem curve_act_rit (s : Server) (u : TrainUpdate) (now : Instant) (hs : s.live.trainDelays.isSome = true)
    (n : String) :
    (s.act (.rit u now)).curve n = if n = u.number then (({} : TrainDelays).apply u now).get n else s.curve n := by
  obtain ⟨delays, hdelays⟩ := Option.isSome_iff_exists.mp hs
  simp only [Server.act, Server.revise, Server.curve, hdelays, Option.map_some, Option.bind_some, TrainDelays.get,
    TrainDelays.apply]
  split
  · rename_i hn
    rw [hn, AList.lookup_insert, AList.lookup_insert]
  · rename_i hn
    exact AList.lookup_insert_ne hn

theorem saveCurves_spec {fault : Option String} (h : m.step cfg (.saveCurves fault) = some n) :
    cfg.curves = true ∧ ∃ delays, m.server.live.trainDelays = some delays ∧
      n = { m with files := { m.files with curves := (m.files.curves.save fault delays.snapshot).1 } } := by
  obtain ⟨_, hcurves, h⟩ := Option.bind_eq_some_iff.mp h
  obtain ⟨delays, hdelays, h⟩ := Option.bind_eq_some_iff.mp h
  cases h
  refine ⟨?_, delays, hdelays, rfl⟩
  by_contra hno
  simp [guard, hno] at hcurves

theorem own_trips (h : Step cfg m d n) : Own (durableTrips cfg).Step m.trips d.ofTrips n.trips := by
  obtain ⟨a, saw⟩ := d
  obtain ⟨rfl, h⟩ := h
  cases a with
  | act a =>
    simp only [step] at h
    split at h
    · cases h
      cases a with
      | position ev => exact congrArg₂ OnDisk.mk (funext fun v => (trip_act_position m.server ev v).symm) rfl
      | sweep now => exact congrArg₂ OnDisk.mk (funext fun v => (trip_act_sweep m.server now v).symm) rfl
      | _ => rfl
    · cases h
  | saveTrips fault =>
    cases h
    cases fault with
    | some e => rfl
    | none => exact congrArg (OnDisk.mk m.server.trip) (funext fun v => (LiveState.lookup_allTrips m.server.live v).symm)
  | saveCurves fault =>
    obtain ⟨-, delays, -, rfl⟩ := saveCurves_spec h
    rfl
  | restart gtfs pruned swept =>
    cases h
    exact congrArg₂ OnDisk.mk (funext fun v => (SnapFiles.trip_boot v).symm) rfl

theorem own_curves (h : Step cfg m d n) : Own (durableCurves cfg).Step (m.curves cfg) d.ofCurves (n.curves cfg) := by
  obtain ⟨a, saw⟩ := d
  obtain ⟨rfl, h⟩ := h
  cases a with
  | act a =>
    simp only [step] at h
    split at h
    · rename_i hruns
      cases h
      cases a with
      | position ev =>
        refine congrArg₂ OnDisk.mk (funext fun n => ?_) rfl
        show ((m.server.live.apply ev m.server.gtfs.enricher).1.trainDelays.bind fun d => d.get n) = m.server.curve n
        rw [(LiveState.apply_staleAfter _ _ _).2]
        rfl
      | rit u now =>
        simp only [Did.ofCurves]
        split
        · rename_i hs
          exact congrArg₂ OnDisk.mk (funext fun n => (curve_act_rit m.server u now hs n).symm) rfl
        · rename_i hs
          refine congrArg₂ OnDisk.mk (funext fun n => ?_) rfl
          have hnone : m.server.live.trainDelays = none := by simpa using hs
          simp only [Server.act, Server.revise, Server.curve, hnone]
          rfl
      | upkeep cutoff => exact congrArg₂ OnDisk.mk (funext fun n => (curve_act_upkeep m.server cutoff n).symm) rfl
      | restore snap => cases hruns
      | _ => rfl
    · cases h
  | saveTrips fault =>
    cases h
    cases fault <;> rfl
  | saveCurves fault =>
    obtain ⟨hcurves, delays, hdelays, rfl⟩ := saveCurves_spec h
    cases fault with
    | some e => rfl
    | none =>
      refine congrArg (OnDisk.mk m.server.curve) (funext fun n => ?_)
      show m.server.curve n = SnapFiles.curve { m.files with curves := .holds delays.snapshot } cfg n
      rw [Server.curve, hdelays, SnapFiles.curve, if_pos hcurves]
      rfl
  | restart gtfs pruned swept =>
    cases h
    exact congrArg₂ OnDisk.mk (funext fun v => (SnapFiles.curve_boot v).symm) rfl

/-- After any restarts, at any times, the trips and the delay curves of the
server are what the journals make of the files at first: the messages that were
kept, and the sweeps of the boots among them. -/
theorem restarted_of_run {gtfs : GtfsService} {pruned swept : Instant}
    (h : Run (Step cfg) (start cfg files gtfs pruned swept) ds m) :
    (durableTrips cfg).Journaled files.trip
        ((durableTrips cfg).journal ⟨(durableTrips cfg).atBoot swept, []⟩ (ds.filterMap Did.ofTrips)) m.trips ∧
      (durableCurves cfg).Journaled (files.curve cfg)
        ((durableCurves cfg).journal ⟨(durableCurves cfg).atBoot pruned, []⟩ (ds.filterMap Did.ofCurves))
        (m.curves cfg) := by
  have htrips : (start cfg files gtfs pruned swept).server.trip =
      ((durableTrips cfg).atBoot swept).foldl (durableTrips cfg).act files.trip :=
    funext fun v => SnapFiles.trip_boot v
  have hcurves : (start cfg files gtfs pruned swept).server.curve =
      ((durableCurves cfg).atBoot pruned).foldl (durableCurves cfg).act (files.curve cfg) :=
    funext fun n => SnapFiles.curve_boot n
  exact ⟨Durable.journaled (h.project trips _ fun _ _ _ hd => own_trips hd) ⟨htrips, rfl⟩,
    Durable.journaled (h.project (curves cfg) _ fun _ _ _ hd => own_curves hd) ⟨hcurves, rfl⟩⟩

/-- Curves are kept for a day, trips for four minutes. -/
def dayConfig : RestartConfig where
  staleTripSecs := 240
  trainDelayPruneSecs := 86400
  zmqNsEnabled := true
  zmqNsRitEnabled := true

/-- A message of a bus. -/
def busSays (kind : MessageKind) : PosEvent where
  key := { dataowner := "RET", vehicleNumber := "1001" }
  kind := kind
  timestamp := 0

omit [Platform] in
/-- A bus is saved and ends its trip, which a restart a minute later brings back. -/
theorem restarted_of_run_bus :
    let _ := plainPlatform
    ∃ (ds : List Did) (m : Machine), Run (Step dayConfig) (start dayConfig {} {} 0 0) ds m ∧
      (m.server.trip "RET:1001").isSome = true ∧
      (durableTrips dayConfig).Journaled (SnapFiles.trip {})
        ((durableTrips dayConfig).journal ⟨(durableTrips dayConfig).atBoot 0, []⟩ (ds.filterMap Did.ofTrips)) m.trips ∧
      (durableCurves dayConfig).Journaled (SnapFiles.curve {} dayConfig)
        ((durableCurves dayConfig).journal ⟨(durableCurves dayConfig).atBoot 0, []⟩ (ds.filterMap Did.ofCurves))
        (m.curves dayConfig) := by
  intro _
  let s₀ := SnapFiles.boot {} dayConfig {} 0 0
  let s₁ := s₀.act (.position (busSays .init))
  let files : SnapFiles := { trips := .holds s₁.live.allTrips }
  let s₂ := s₁.act (.position (busSays .end_))
  let s₃ := files.boot dayConfig {} (60 * nanos) (60 * nanos)
  have h₁ : Step dayConfig ⟨{}, s₀⟩ ⟨.act (.position (busSays .init)), s₀⟩ ⟨{}, s₁⟩ := ⟨rfl, rfl⟩
  have h₂ : Step dayConfig ⟨{}, s₁⟩ ⟨.saveTrips none, s₁⟩ ⟨files, s₁⟩ := ⟨rfl, rfl⟩
  have h₃ : Step dayConfig ⟨files, s₁⟩ ⟨.act (.position (busSays .end_)), s₁⟩ ⟨files, s₂⟩ := ⟨rfl, rfl⟩
  have h₄ : Step dayConfig ⟨files, s₂⟩ ⟨.restart {} (60 * nanos) (60 * nanos), s₂⟩ ⟨files, s₃⟩ := ⟨rfl, rfl⟩
  have h : Run (Step dayConfig) (start dayConfig {} {} 0 0) _ _ := (((Run.nil.snoc h₁).snoc h₂).snoc h₃).snoc h₄
  exact ⟨_, _, h, by decide +kernel, restarted_of_run h⟩

/-! ## Trips that ended -/

/-- Whether an action is a message of a vehicle. -/
def Did.isMessageOf (v : String) (d : Did) : Prop :=
  match d.act with
  | .act a => a.isMessageOf v
  | _ => False

def Did.isRestart (d : Did) : Prop :=
  match d.act with
  | .restart .. => True
  | _ => False

/-- A vehicle without a trip gets one by a message, or from the disk. -/
theorem trip_none_step (h : Step cfg m d n) {v : String} (hv : ¬ d.isMessageOf v)
    (hdisk : d.isRestart → m.files.trip v = none) (hm : m.server.trip v = none) : n.server.trip v = none := by
  obtain ⟨a, saw⟩ := d
  obtain ⟨rfl, h⟩ := h
  cases a with
  | act a =>
    simp only [step] at h
    split at h
    · cases h
      rcases trip_act_other (a := a) (v := v) m.server hv with hsame | hnone
      · exact hsame.trans hm
      · exact hnone
    · cases h
  | saveTrips fault =>
    cases h
    exact hm
  | saveCurves fault =>
    obtain ⟨-, delays, -, rfl⟩ := saveCurves_spec h
    exact hm
  | restart gtfs pruned swept =>
    cases h
    have hfiles : m.files.trip v = none := hdisk trivial
    rw [SnapFiles.trip_boot, hfiles, Option.filter_none]

/-- What is saved of a vehicle without a trip is no trip. -/
theorem disk_none_step (h : Step cfg m d n) {v : String} (hm : m.server.trip v = none) (hdisk : m.files.trip v = none) :
    n.files.trip v = none := by
  obtain ⟨a, saw⟩ := d
  obtain ⟨rfl, h⟩ := h
  cases a with
  | act a =>
    simp only [step] at h
    split at h
    · cases h
      exact hdisk
    · cases h
  | saveTrips fault =>
    cases h
    cases fault with
    | some e => exact hdisk
    | none => exact (LiveState.lookup_allTrips m.server.live v).trans hm
  | saveCurves fault =>
    obtain ⟨-, delays, -, rfl⟩ := saveCurves_spec h
    exact hdisk
  | restart gtfs pruned swept =>
    cases h
    exact hdisk

/-- A trip that ended does not come back, by whatever restarts, once the trips
were saved in the process that heard its end, unless the vehicle sends a message. -/
theorem ended_after_save {ev : PosEvent} {as bs : List Did} {saw saw' : Server} (hend : ev.kind = .end_)
    (h : Run (Step cfg) m (⟨.act (.position ev), saw⟩ :: as ++ ⟨.saveTrips none, saw'⟩ :: bs) n)
    (has : ∀ d ∈ as, ¬ d.isMessageOf ev.key.id ∧ ¬ d.isRestart) (hbs : ∀ d ∈ bs, ¬ d.isMessageOf ev.key.id) :
    n.server.trip ev.key.id = none := by
  obtain ⟨u, hu, hsaved⟩ := h.of_append
  obtain ⟨s, hs, has'⟩ := hu.first
  obtain ⟨w, hw, hbs'⟩ := hsaved.first
  have hended : s.server.trip ev.key.id = none := by
    obtain ⟨-, hs⟩ := hs
    cases hs
    rw [trip_act_self, LiveState.eventTrip_end hend]
  have hsilent : u.server.trip ev.key.id = none := by
    have hguarded : Run (Guarded (fun _ d => ¬ d.isMessageOf ev.key.id ∧ ¬ d.isRestart) (Step cfg)) s as u :=
      has'.guarded fun d hd _ => has d hd
    refine Run.inv (P := fun m => m.server.trip ev.key.id = none) hguarded (fun s d t hd hs => ?_) hended
    exact trip_none_step hd.2 hd.1.1 (fun hr => absurd hr hd.1.2) hs
  have hgone : w.server.trip ev.key.id = none ∧ w.files.trip ev.key.id = none := by
    obtain ⟨-, hw⟩ := hw
    cases hw
    exact ⟨hsilent, (LiveState.lookup_allTrips u.server.live ev.key.id).trans hsilent⟩
  have hguarded : Run (Guarded (fun _ d => ¬ d.isMessageOf ev.key.id) (Step cfg)) w bs n :=
    hbs'.guarded fun d hd _ => hbs d hd
  refine (Run.inv (P := fun m => m.server.trip ev.key.id = none ∧ m.files.trip ev.key.id = none) hguarded
    (fun s d t hd hs => ?_) hgone).1
  exact ⟨trip_none_step hd.2 hd.1 (fun _ => hs.2) hs.1, disk_none_step hd.2 hs.1 hs.2⟩

omit [Platform] in
/-- The bus ends its trip, is saved again, and stays away. -/
theorem ended_after_save_bus :
    let _ := plainPlatform
    ∃ (m n : Machine) (ds : List Did), Run (Step dayConfig) m ds n ∧ (m.server.trip "RET:1001").isSome = true ∧
      (m.files.trip "RET:1001").isSome = true ∧ n.server.trip "RET:1001" = none := by
  intro _
  let s₀ := (SnapFiles.boot {} dayConfig {} 0 0).act (.position (busSays .init))
  let files : SnapFiles := { trips := .holds s₀.live.allTrips }
  let s₁ := s₀.act (.position (busSays .end_))
  let files' : SnapFiles := { trips := .holds s₁.live.allTrips }
  let s₂ := files'.boot dayConfig {} (60 * nanos) (60 * nanos)
  have h₁ : Step dayConfig ⟨files, s₀⟩ ⟨.act (.position (busSays .end_)), s₀⟩ ⟨files, s₁⟩ := ⟨rfl, rfl⟩
  have h₂ : Step dayConfig ⟨files, s₁⟩ ⟨.saveTrips none, s₁⟩ ⟨files', s₁⟩ := ⟨rfl, rfl⟩
  have h₃ : Step dayConfig ⟨files', s₁⟩ ⟨.restart {} (60 * nanos) (60 * nanos), s₁⟩ ⟨files', s₂⟩ := ⟨rfl, rfl⟩
  have h : Run (Step dayConfig) ⟨files, s₀⟩ ([⟨.act (.position (busSays .end_)), s₀⟩] ++ ⟨.saveTrips none, s₁⟩ ::
      [⟨.restart {} (60 * nanos) (60 * nanos), s₁⟩]) ⟨files', s₂⟩ := ((Run.nil.snoc h₁).snoc h₂).snoc h₃
  refine ⟨_, _, _, h, by decide +kernel, by decide +kernel, ?_⟩
  have hid : "RET:1001" = (busSays .end_).key.id := by decide +kernel
  rw [hid]
  refine ended_after_save rfl h (fun d hd => absurd hd List.not_mem_nil) fun d hd => ?_
  rw [List.mem_singleton.mp hd]
  exact fun hno => hno

end Machine

end

end OV.Impl
