import Ovlive.Impl.Realtime.NsRit
import Ovlive.Proof.Gtfs.Resolve
import Ovlive.Proof.Ingest.Punctual

/-!
# Revisions of another day's run

The delay curves are kept by train number, so the revision of tomorrow's run
takes the place of today's. A `Ledger` keeps beside the server what the server
does not: the latest revision of each day's run, and the day a revision told a
vehicle's trip. `keepsDay_iff` says which events leave a train on the day it
was told, with the delay of that day's latest revision; `keepsDay_run_iff`
which runs do, under the invariant `Ledger.Sound`; and `keepsDay_not_kept` is a
train that tomorrow's revision moved to tomorrow.
-/

namespace OV.Impl

/-- The server, and what no part of it keeps: the latest revision of a train
number's run on a day, and the day that a revision told a vehicle's trip. -/
structure Ledger where
  server : Server
  revision : String → String → Option TrainDelay
  told : String → Option String

namespace Ledger

/-- A server without live trips, and the curves it starts with. -/
def start (staleAfterSecs : Int) (delays : TrainDelays) (gtfs : GtfsService) : Ledger where
  server := Server.start staleAfterSecs (some delays) gtfs
  revision number day := (delays.get number).filter fun c => c.operatingDay = some day
  told _ := none

/-- The latest revision of a day's run, after an action. -/
def revise (a : ServerAction) (number day : String) (c : Option TrainDelay) : Option TrainDelay :=
  match a with
  | .rit u now =>
    if u.number = number ∧ u.operatingDay = some day then (TrainDelays.apply {} u now).get number else c
  | .upkeep cutoff => c.filter fun c => cutoff ≤ c.updatedAt
  | .restore snap => ((snap.entries.lookup number).filter fun c => c.operatingDay = some day).or c
  | _ => c

/-- The curve the server consults for an event. -/
def consulted (l : Ledger) (e : PosEvent) : Option TrainDelay :=
  OV.Impl.consulted l.server.live.trainDelays (l.server.trip e.key.id) e

/-- The day a vehicle's trip was told before an event, if the event goes on with the trip. -/
def toldBefore (l : Ledger) (e : PosEvent) : Option String :=
  if startsTrip (l.server.trip e.key.id) e then none else l.told e.key.id

variable [Platform]

/-- The day a revision told a vehicle's trip, after an action. -/
def tell (l : Ledger) (a : ServerAction) (v : String) : Option String :=
  match a with
  | .position e =>
    if e.key.id = v then
      if e.kind = .end_ then none
      else (l.toldBefore e).or ((l.consulted e).bind TrainDelay.operatingDay)
    else l.told v
  | .sweep now => if ((l.server.act (.sweep now)).trip v).isSome then l.told v else none
  | _ => l.told v

def act (l : Ledger) (a : ServerAction) : Ledger where
  server := l.server.act a
  revision number day := revise a number day (l.revision number day)
  told := l.tell a

/-- The steps of the server, with the ledger kept. -/
def Step (l : Ledger) (a : ServerAction) (m : Ledger) : Prop := l.act a = m

/-- What an event should leave of a trip that was told its day: the day, and
the delay of that day's latest revision, if it says one. -/
def keepsDay (_ : Ledger) (a : ServerAction) (m : Ledger) : Prop :=
  match a with
  | .position e =>
    ∀ day, m.told e.key.id = some day → ∃ trip, m.server.trip e.key.id = some trip ∧
      trip.operatingDay = some day ∧
        ∀ number d, trip.journeyNumber = some number →
          ((m.revision number day).bind fun c => c.at e.timestamp) = some d → Reads (some d) trip
  | _ => True

omit [Platform] in
/-- The delay an event shows: that of the curve consulted, its own, or the trip's. -/
def shown (l : Ledger) (e : PosEvent) : Option Int :=
  let base := baseTrip (l.server.trip e.key.id) e
  ((l.consulted e).bind fun c => c.at e.timestamp).or
    (e.punctuality.or (if base.delayKnown then some base.delaySeconds else none))

omit [Platform] in
/-- An event that finds the revision of a day kept for its train; or, if the
curve kept is of no day or gone, that names no other day itself and shows what
delay there still is from a revision of the day. -/
def findsDay (l : Ledger) (e : PosEvent) (day : String) : Prop :=
  (l.consulted e).bind TrainDelay.operatingDay = some day ∨
    (l.consulted e).bind TrainDelay.operatingDay = none ∧ (∀ d, e.operatingDay = some d → d = day) ∧
      ∀ number d, e.journeyNumber.or (baseTrip (l.server.trip e.key.id) e).journeyNumber = some number →
        ((l.revision number day).bind fun c => c.at e.timestamp) = some d → l.shown e = some d

omit [Platform] in
/-- An event that goes on with a trip that was told its day finds that day. -/
def sameDay (l : Ledger) (a : ServerAction) : Prop :=
  match a with
  | .position e => e.kind ≠ .end_ → ∀ day, l.toldBefore e = some day → l.findsDay e day
  | _ => True

omit [Platform] in
/-- A curve kept is the latest revision of its day, and a trip that was told its
day has it. -/
structure Sound (l : Ledger) : Prop where
  latest : ∀ number c day, l.server.curve number = some c → c.operatingDay = some day → l.revision number day = some c
  days : ∀ v day, l.told v = some day → ∃ trip, l.server.trip v = some trip ∧ trip.operatingDay = some day

end Ledger

/-! ## The latest revisions -/

theorem get_apply (s : TrainDelays) (u : TrainUpdate) (now : Instant) (number : String) :
    (s.apply u now).get number = if number = u.number then (TrainDelays.apply {} u now).get number else s.get number := by
  simp only [TrainDelays.get, TrainDelays.apply]
  split_ifs with h
  · rw [h, AList.lookup_insert, AList.lookup_insert]
  · exact AList.lookup_insert_ne h

theorem get_prune (s : TrainDelays) (cutoff : Instant) (number : String) :
    (s.prune cutoff).get number = (s.get number).filter fun c => cutoff ≤ c.updatedAt :=
  Map.lookup_retain _ _ _

theorem get_restore (s : TrainDelays) (snap : TrainDelaySnapshot) (number : String) :
    (s.restore snap).get number = (snap.entries.lookup number).or (s.get number) :=
  Map.lookup_insertAll_entries _ _ _

theorem operatingDay_of_get_apply {u : TrainUpdate} {now : Instant} {c : TrainDelay}
    (h : (TrainDelays.apply {} u now).get u.number = some c) : c.operatingDay = u.operatingDay := by
  simp only [TrainDelays.get, TrainDelays.apply, AList.lookup_insert, Option.some.injEq] at h
  rw [← h]

section

variable [Platform] {l m : Ledger} {e : PosEvent} {a : ServerAction}

/-- After any action, a curve kept is the latest revision of its day. -/
theorem latest_act (h : l.Sound) {number day : String} {c : TrainDelay} (hc : (l.server.act a).curve number = some c)
    (hday : c.operatingDay = some day) : Ledger.revise a number day (l.revision number day) = some c := by
  have hkept := fun hc => h.latest number c day hc hday
  cases a with
  | position e =>
    have hsame : (l.server.act (.position e)).curve number = l.server.curve number := by
      simp only [Server.curve, Server.act, (LiveState.apply_staleAfter l.server.live e _).2]
    exact hkept (hsame ▸ hc)
  | sweep now => exact hkept hc
  | rit u now =>
    obtain ⟨d, hd, hget⟩ := Option.bind_eq_some_iff.mp hc
    obtain ⟨d0, hd0, rfl⟩ := Option.map_eq_some_iff.mp hd
    rw [get_apply] at hget
    simp only [Ledger.revise]
    by_cases hn : number = u.number
    · subst hn
      rw [if_pos rfl] at hget
      rw [if_pos ⟨rfl, (operatingDay_of_get_apply hget).symm.trans hday⟩, hget]
    · rw [if_neg hn] at hget
      rw [if_neg fun hand => hn hand.1.symm]
      exact hkept (Option.bind_eq_some_iff.mpr ⟨d0, hd0, hget⟩)
  | upkeep cutoff =>
    obtain ⟨d, hd, hget⟩ := Option.bind_eq_some_iff.mp hc
    obtain ⟨d0, hd0, rfl⟩ := Option.map_eq_some_iff.mp hd
    rw [get_prune, Option.filter_eq_some_iff] at hget
    simp only [Ledger.revise]
    rw [hkept (Option.bind_eq_some_iff.mpr ⟨d0, hd0, hget.1⟩), Option.filter_eq_some_iff]
    exact ⟨rfl, hget.2⟩
  | restore snap =>
    obtain ⟨d, hd, hget⟩ := Option.bind_eq_some_iff.mp hc
    obtain ⟨d0, hd0, rfl⟩ := Option.map_eq_some_iff.mp hd
    rw [get_restore] at hget
    simp only [Ledger.revise]
    cases hsnap : snap.entries.lookup number with
    | none =>
      rw [hsnap, Option.none_or] at hget
      exact hkept (Option.bind_eq_some_iff.mpr ⟨d0, hd0, hget⟩)
    | some c' =>
      rw [hsnap, Option.some_or, Option.some.injEq] at hget
      subst hget
      simp [hday]
  | swap store => exact hkept hc

/-! ## What an event leaves -/

/-- An event leaves the journey, the delay and the day that were reported. -/
theorem event_leaves (s : Server) (hk : e.kind ≠ .end_) :
    ∃ t, (s.act (.position e)).trip e.key.id = some t ∧
      t.journeyNumber = e.journeyNumber.or (baseTrip (s.trip e.key.id) e).journeyNumber ∧
      (∀ told, Reads told t ↔ Reads told (reported s.live.trainDelays (s.trip e.key.id) e)) ∧
      ∀ day, (reported s.live.trainDelays (s.trip e.key.id) e).operatingDay = some day → t.operatingDay = some day := by
  rw [trip_act_self, eventTrip_reported hk]
  refine ⟨_, rfl, ?_, ?_, ?_⟩
  · rw [moved_anchorToSchedule]
    split
    · rw [scheduled_enrich]
      exact reported_journeyNumber
    · exact reported_journeyNumber
  · intro told
    rw [moved_anchorToSchedule]
    split
    · rw [scheduled_enrich]
      exact Iff.rfl
    · exact Iff.rfl
  · intro day hday
    rw [moved_anchorToSchedule]
    split
    · exact enrich_operatingDay s.gtfs hday
    · exact hday

theorem reads_reported_iff_shown (l : Ledger) (e : PosEvent) (d : Int) :
    Reads (some d) (reported l.server.live.trainDelays (l.server.trip e.key.id) e) ↔ l.shown e = some d := by
  obtain ⟨hsecs, hknown⟩ := reported_delay l.server.live.trainDelays (l.server.trip e.key.id) e
  simp only [Reads, hsecs, hknown, Ledger.shown, Ledger.consulted]
  cases (consulted l.server.live.trainDelays (l.server.trip e.key.id) e).bind fun c => c.at e.timestamp with
  | some d' => simp
  | none =>
    cases e.punctuality with
    | some p => simp
    | none => simp

omit [Platform] in
/-- The curve consulted is one that is kept for the number of the trip. -/
theorem curve_of_consulted {c : TrainDelay} (h : l.consulted e = some c) :
    ∃ number, e.journeyNumber.or (baseTrip (l.server.trip e.key.id) e).journeyNumber = some number ∧
      l.server.curve number = some c := by
  simp only [Ledger.consulted, consulted] at h
  split at h
  · obtain ⟨number, hnumber, hc⟩ := Option.bind_eq_some_iff.mp h
    exact ⟨number, hnumber, hc⟩
  · cases h

omit [Platform] in
/-- An event that finds the revision of a day shows that day's delay. -/
theorem shown_of_found (h : l.Sound) {day : String} (hday : (l.consulted e).bind TrainDelay.operatingDay = some day)
    {number : String} (hnumber : e.journeyNumber.or (baseTrip (l.server.trip e.key.id) e).journeyNumber = some number)
    {d : Int} (hd : ((l.revision number day).bind fun c => c.at e.timestamp) = some d) : l.shown e = some d := by
  obtain ⟨c, hc, hcd⟩ := Option.bind_eq_some_iff.mp hday
  obtain ⟨number', hnumber', hcurve⟩ := curve_of_consulted hc
  obtain rfl : number = number' := Option.some.inj (hnumber.symm.trans hnumber')
  rw [h.latest number c day hcurve hcd] at hd
  simp only [Ledger.shown, hc]
  rw [hd, Option.some_or]

omit [Platform] in
/-- The trip that an event goes on with has the day it was told. -/
theorem baseTrip_operatingDay (h : l.Sound) {day : String} (htold : l.toldBefore e = some day) :
    (baseTrip (l.server.trip e.key.id) e).operatingDay = some day := by
  unfold Ledger.toldBefore at htold
  split at htold
  · cases htold
  · rename_i hs
    obtain ⟨trip, htrip, hday⟩ := h.days _ _ htold
    rw [baseTrip, if_neg hs, htrip]
    exact hday

/-- An event that goes on with a trip told its day leaves the day and its delay
exactly if it finds that day. -/
theorem leavesDay_iff (h : l.Sound) (hk : e.kind ≠ .end_) {day : String} (htold : l.toldBefore e = some day) :
    (∃ trip, (l.server.act (.position e)).trip e.key.id = some trip ∧ trip.operatingDay = some day ∧
        ∀ number d, trip.journeyNumber = some number →
          ((l.revision number day).bind fun c => c.at e.timestamp) = some d → Reads (some d) trip) ↔
      l.findsDay e day := by
  obtain ⟨trip, htrip, hjourney, hreads, hday⟩ := event_leaves l.server hk
  have hreported := reported_operatingDay l.server.live.trainDelays (l.server.trip e.key.id) e
  rw [baseTrip_operatingDay h htold] at hreported
  change _ = ((l.consulted e).bind TrainDelay.operatingDay).or _ at hreported
  have hkept : trip.operatingDay = ((l.consulted e).bind TrainDelay.operatingDay).or (e.operatingDay.or (some day)) := by
    rw [← hreported]
    cases hr : (reported l.server.live.trainDelays (l.server.trip e.key.id) e).operatingDay with
    | some d => exact hday d hr
    | none =>
      rw [hr] at hreported
      simp at hreported
  simp only [htrip, Option.some.injEq, exists_eq_left', hjourney, hreads, reads_reported_iff_shown, hkept,
    Ledger.findsDay]
  cases hc : (l.consulted e).bind TrainDelay.operatingDay with
  | some d =>
    simp only [Option.some_or, Option.some.injEq, reduceCtorEq, false_and, or_false]
    refine ⟨fun hboth => hboth.1, fun hd => ⟨hd, fun number d' hnumber hd' => ?_⟩⟩
    exact shown_of_found h (hc.trans (congrArg some hd)) hnumber hd'
  | none =>
    simp only [Option.none_or, reduceCtorEq, true_and, false_or]
    refine and_congr_left' ?_
    cases e.operatingDay with
    | none => simp
    | some d => simp

/-- An event that tells a trip its day leaves the day and its delay. -/
theorem leavesDay_of_told (h : l.Sound) (hk : e.kind ≠ .end_) {day : String}
    (hday : (l.consulted e).bind TrainDelay.operatingDay = some day) :
    ∃ trip, (l.server.act (.position e)).trip e.key.id = some trip ∧ trip.operatingDay = some day ∧
      ∀ number d, trip.journeyNumber = some number →
        ((l.revision number day).bind fun c => c.at e.timestamp) = some d → Reads (some d) trip := by
  obtain ⟨trip, htrip, hjourney, hreads, hkept⟩ := event_leaves l.server hk
  refine ⟨trip, htrip, hkept day ?_, fun number d hnumber hd => ?_⟩
  · have hreported := reported_operatingDay l.server.live.trainDelays (l.server.trip e.key.id) e
    change _ = ((l.consulted e).bind TrainDelay.operatingDay).or _ at hreported
    rw [hreported, hday, Option.some_or]
  · rw [hreads, reads_reported_iff_shown]
    exact shown_of_found h hday (hjourney ▸ hnumber) hd

/-! ## Runs -/

theorem keepsDay_iff (h : l.Sound) (hstep : Ledger.Step l a m) : l.keepsDay a m ↔ l.sameDay a := by
  obtain rfl := hstep
  cases a with
  | position e =>
    simp only [Ledger.keepsDay, Ledger.sameDay, Ledger.act, Ledger.tell, Ledger.revise, if_true]
    by_cases hk : e.kind = .end_
    · simp [hk]
    simp only [hk, if_false]
    cases htold : l.toldBefore e with
    | none =>
      simp only [Option.none_or, reduceCtorEq, false_imp_iff, implies_true, iff_true]
      exact fun day hday => leavesDay_of_told h hk hday
    | some day =>
      simp only [Option.some_or, Option.some.injEq, forall_eq']
      exact (leavesDay_iff h hk htold).trans ⟨fun hfinds _ => hfinds, fun hfinds => hfinds hk⟩
  | sweep now => exact Iff.rfl
  | rit u now => exact Iff.rfl
  | upkeep cutoff => exact Iff.rfl
  | restore snap => exact Iff.rfl
  | swap store => exact Iff.rfl

/-- An action that leaves what it should keeps the ledger sound. -/
theorem sound_act (h : l.Sound) (hkeeps : l.keepsDay a (l.act a)) : (l.act a).Sound := by
  refine ⟨fun number c day hc hday => latest_act h hc hday, ?_⟩
  intro v day htold
  cases a with
  | position e =>
    simp only [Ledger.act, Ledger.tell] at htold ⊢
    by_cases hv : e.key.id = v
    · subst hv
      obtain ⟨trip, htrip, hday, -⟩ := hkeeps day (by simpa [Ledger.act, Ledger.tell] using htold)
      exact ⟨trip, htrip, hday⟩
    · rw [if_neg hv] at htold
      rw [trip_act_position, if_neg (Ne.symm hv)]
      exact h.days v day htold
  | sweep now =>
    simp only [Ledger.act, Ledger.tell] at htold ⊢
    split at htold
    · rename_i hsome
      obtain ⟨trip, htrip, hday⟩ := h.days v day htold
      rcases trip_act_other (v := v) (a := .sweep now) l.server id with hu | hu
      · exact ⟨trip, hu.trans htrip, hday⟩
      · rw [hu] at hsome
        cases hsome
    · cases htold
  | rit u now => exact h.days v day htold
  | upkeep cutoff => exact h.days v day htold
  | restore snap => exact h.days v day htold
  | swap store => exact h.days v day htold

omit [Platform] in
theorem sound_start (staleAfterSecs : Int) (delays : TrainDelays) (gtfs : GtfsService) :
    (Ledger.start staleAfterSecs delays gtfs).Sound := by
  refine ⟨fun number c day hc hday => ?_, fun v day htold => (by cases htold)⟩
  have hget : delays.get number = some c := hc
  simp [Ledger.start, hget, hday]

/-- Whatever curves the server starts with, the events of a run, with revisions
of any day, prunes and restores in between, all leave a train on the day it was
told and with that day's delay exactly if each of them meets the condition. -/
theorem keepsDay_run_iff (staleAfterSecs : Int) (delays : TrainDelays) (gtfs : GtfsService)
    (as : List ServerAction) (m : Ledger) :
    Run (Ensured Ledger.keepsDay Ledger.Step) (Ledger.start staleAfterSecs delays gtfs) as m ↔
      Run (Guarded Ledger.sameDay Ledger.Step) (Ledger.start staleAfterSecs delays gtfs) as m := by
  refine Run.ensured_iff (P := Ledger.Sound) ?_ (sound_start staleAfterSecs delays gtfs)
  intro l a m hsound hstep
  have hiff := keepsDay_iff hsound hstep
  refine ⟨hiff, fun hok => ?_⟩
  obtain rfl := hstep
  exact sound_act hsound (hiff.mpr hok)

/-- A revision of the run of train 3548 on a day, two minutes late at its first station. -/
def ritXml (day : String) : String :=
  "<RitInfo><TreinNummer>3548</TreinNummer><TreinDatum>" ++ day ++ "</TreinDatum><LogischeRitDeelStation>" ++
    "<VertrekTijd InfoStatus=\"Gepland\">" ++ day ++ "T11:03:00Z</VertrekTijd>" ++
    "<VertrekTijd InfoStatus=\"Actueel\">" ++ day ++ "T11:05:00Z</VertrekTijd></LogischeRitDeelStation></RitInfo>"

/-- What the reader yields for it. -/
def ritEvents (day : String) : List XmlEvent :=
  [.start "RitInfo" [],
    .start "TreinNummer" [], .text (some "3548"), .end_ "TreinNummer",
    .start "TreinDatum" [], .text (some day), .end_ "TreinDatum",
    .start "LogischeRitDeelStation" [],
    .start "VertrekTijd" [("InfoStatus", "Gepland")], .text (some (day ++ "T11:03:00Z")), .end_ "VertrekTijd",
    .start "VertrekTijd" [("InfoStatus", "Actueel")], .text (some (day ++ "T11:05:00Z")), .end_ "VertrekTijd",
    .end_ "LogischeRitDeelStation", .end_ "RitInfo"]

/-- The packages, on the revisions of two days. -/
@[reducible] def ritFeed : Feed where
  read xml :=
    if xml = ritXml "2026-07-28" then ritEvents "2026-07-28"
    else if xml = ritXml "2026-07-29" then ritEvents "2026-07-29"
    else []
  parseFromRfc3339 t :=
    if t = "2026-07-28T11:03:00Z" then some (1785236580 * nanos)
    else if t = "2026-07-28T11:05:00Z" then some (1785236700 * nanos)
    else if t = "2026-07-29T11:03:00Z" then some (1785322980 * nanos)
    else if t = "2026-07-29T11:05:00Z" then some (1785323100 * nanos)
    else none

/-- A revision of today's run, a position of the train, and, an hour on, a
revision of tomorrow's. -/
def tomorrowRevised [Feed] : List ServerAction :=
  ((parseNsRit (ritXml "2026-07-28")).map fun u => .rit u (1785236400 * nanos)).toList ++
    [.position (train3548 (1785236640 * nanos))] ++
    ((parseNsRit (ritXml "2026-07-29")).map fun u => .rit u (1785240000 * nanos)).toList

omit [Platform] in
/-- The next position has the train on tomorrow's run. -/
theorem keepsDay_not_kept :
    let _ := plainPlatform
    ¬ ∀ (staleAfterSecs : Int) (delays : TrainDelays) (gtfs : GtfsService) (as : List ServerAction) (m : Ledger),
      Run Ledger.Step (Ledger.start staleAfterSecs delays gtfs) as m →
        Run (Ensured Ledger.keepsDay Ledger.Step) (Ledger.start staleAfterSecs delays gtfs) as m := by
  intro _ h
  let _ := ritFeed
  let before := tomorrowRevised.foldl Ledger.act (Ledger.start 240 {} {})
  let next := train3548 (1785240060 * nanos)
  have hrun : Run Ledger.Step (Ledger.start 240 {} {}) tomorrowRevised before := Run.foldl Ledger.act _ _
  obtain ⟨l, hl, -, hkeeps⟩ := (h 240 {} {} _ _ (hrun.snoc (a := .position next) rfl)).last
  obtain rfl : before = l := hrun.functional (fun _ _ _ _ h h' => h.symm.trans h') (hl.mono fun _ _ _ hr => hr.1)
  have htold : (before.act (.position next)).told next.key.id = some "2026-07-28" := by decide +kernel
  obtain ⟨trip, htrip, hday, -⟩ := hkeeps "2026-07-28" htold
  have hmoved : ((before.act (.position next)).server.trip next.key.id).all
      (fun trip => trip.operatingDay = some "2026-07-29") = true := by decide +kernel
  rw [htrip, Option.all_some, decide_eq_true_eq, hday] at hmoved
  exact absurd hmoved (by decide)

end

end OV.Impl
