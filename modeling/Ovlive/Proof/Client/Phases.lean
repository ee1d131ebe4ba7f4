import Ovlive.Impl.Stream
import Ovlive.Proof.Client.Timers

/-!
# The phases of a client

A connection as a machine of three phases (`Phase`): suspended, on a socket
whose `close` event is still to come, or waiting to reconnect. `Phase.next` is
its step function; a socket opens on `resume` from suspended and when the timer
of a waiting client fires, and nowhere else (`Phase.opens`). `phase_step`: the
class refines it, whatever the order of calls, late events and timers.
`connection_sound` reads off what that means for sockets and reconnects, and
`Sys.client_step` says that the client of a stream takes the steps of the class.
-/

namespace OV.Impl

namespace Client

/-- Where a connection stands: suspended, on socket `i`, or waiting for timer
`h` to reconnect. -/
inductive Phase
  | suspended
  | live (i : Nat)
  | waiting (h : Nat)

namespace Phase

/-- Whether an action opens a socket. -/
def opens : Phase → ClientAction → Bool
  | .suspended, .resume => true
  | .waiting h, .timer t => t = h
  | _, _ => false

/-- The phase after an action: the next socket is `created`, the next timer
`nextTimer`. -/
def next (created nextTimer : Nat) (p : Phase) (a : ClientAction) : Phase :=
  if p.opens a then .live created
  else
    match a, p with
    | .suspend, _ | .close, _ => .suspended
    | .closed i, .live j => if i = j then .waiting nextTimer else .live j
    | _, p => p

end Phase

namespace LiveClient

variable {c d : LiveClient} {p : Phase} {a : ClientAction} {i h : Nat}

/-- A client is in a phase. -/
def InPhase (c : LiveClient) : Phase → Prop
  | .suspended => c.closedByUser = true ∧ c.ws = none ∧ ∀ h, ¬c.Pending h .retry
  | .live i =>
    c.closedByUser = false ∧ c.ws = some i ∧ (c.socket i).readyState ≠ .closed ∧ ∀ h, ¬c.Pending h .retry
  | .waiting h =>
    c.closedByUser = false ∧ (∃ i, c.ws = some i ∧ (c.socket i).readyState = .closed) ∧
      ∀ h', c.Pending h' .retry ↔ h' = h

/-- The same connection: all that most calls and events leave. -/
structure Quiet (c d : LiveClient) : Prop where
  closedByUser : d.closedByUser = c.closedByUser
  ws : d.ws = c.ws
  created : d.created = c.created
  closed : ∀ i, c.ws = some i → ((d.socket i).readyState = .closed ↔ (c.socket i).readyState = .closed)
  retry : ∀ h, d.Pending h .retry ↔ c.Pending h .retry

theorem Quiet.refl (c : LiveClient) : Quiet c c := ⟨rfl, rfl, rfl, fun _ _ => Iff.rfl, fun _ => Iff.rfl⟩

theorem Quiet.trans {e : LiveClient} (h : Quiet c d) (h' : Quiet d e) : Quiet c e where
  closedByUser := h'.closedByUser.trans h.closedByUser
  ws := h'.ws.trans h.ws
  created := h'.created.trans h.created
  closed i hi := (h'.closed i (h.ws.trans hi)).trans (h.closed i hi)
  retry t := (h'.retry t).trans (h.retry t)

theorem Quiet.inPhase (hq : Quiet c d) (hp : c.InPhase p) : d.InPhase p := by
  cases p with
  | suspended =>
    obtain ⟨h1, h2, h3⟩ := hp
    exact ⟨hq.closedByUser.trans h1, hq.ws.trans h2, fun h hh => h3 h ((hq.retry h).mp hh)⟩
  | live i =>
    obtain ⟨h1, h2, h3, h4⟩ := hp
    exact ⟨hq.closedByUser.trans h1, hq.ws.trans h2, fun hd => h3 ((hq.closed i h2).mp hd),
      fun h hh => h4 h ((hq.retry h).mp hh)⟩
  | waiting h =>
    obtain ⟨h1, ⟨i, h2, h3⟩, h4⟩ := hp
    exact ⟨hq.closedByUser.trans h1, ⟨i, hq.ws.trans h2, (hq.closed i h2).mpr h3⟩,
      fun h' => (hq.retry h').trans (h4 h')⟩

/-! ## One step -/

theorem Good.step (hc : Good c) (h : Step c a d) : Good d ∧ Evolves c d := by
  cases h.outcome with
  | update v => exact hc.update v
  | setPinned ids => exact hc.setPinned ids
  | suspend => exact hc.suspend
  | close => exact hc.suspend
  | resume => exact hc.resume
  | opened i hi => exact hc.opened hi
  | message i m => exact hc.onmessage m
  | failed i => exact hc.onerror i
  | closed i hi => exact hc.closed hi
  | timer t k ms ht => exact hc.fire ht

theorem quiet_send (c : LiveClient) : Quiet c c.send := by
  refine ⟨?_, ?_, ?_, fun i _ => by rw [send_ready], fun h => ?_⟩ <;> rw [send_eq]
  rfl

theorem quiet_wsClose (c : LiveClient) (i : Nat) : Quiet c (c.wsClose i) := by
  refine ⟨?_, ?_, ?_, fun j _ => wsClose_closed c i j, fun h => ?_⟩ <;> rw [wsClose_eq]
  rfl

theorem quiet_armHeartbeat (hc : Clocked c) : Quiet c c.armHeartbeat := by
  refine ⟨?_, ?_, ?_, fun j _ => ?_, fun h => ?_⟩
  on_goal 5 => rw [armHeartbeat_pending hc]; simp
  all_goals rw [armHeartbeat_eq]

theorem quiet_update (c : LiveClient) (v : ClientView) : Quiet c (c.update v) := by
  have hq := quiet_send { c with view := some v }
  exact ⟨hq.closedByUser, hq.ws, hq.created, hq.closed, hq.retry⟩

theorem quiet_setPinned (c : LiveClient) (ids : List String) : Quiet c (c.setPinned ids) := by
  have hq := quiet_send { c with pinned := ids }
  exact ⟨hq.closedByUser, hq.ws, hq.created, hq.closed, hq.retry⟩

/-- A socket that opens leaves the connection as it is. -/
theorem quiet_opened (hc : Clocked c) (hi : (c.socket i).readyState = .connecting) :
    Quiet c ((c.setReady i .open_).onopen i) := by
  obtain ⟨h1, -, -, h4, h5, h6, h7, -⟩ := onopen_frame (c.setReady i .open_) i
  have hc' : Clocked (c.setReady i .open_) := hc.congr rfl rfl rfl
  refine ⟨h4, h5, h6, fun j _ => ?_, fun h => ?_⟩
  · rw [h7, setReady_socket]
    split
    · rename_i e
      simp [e, hi]
    · rfl
  · unfold Pending
    rw [h1]
    exact (quiet_armHeartbeat hc').retry h

theorem inPhase_suspend (hg : Good c) (hc : Clocked c) : c.suspend.InPhase .suspended := by
  obtain ⟨-, -, -, hu, hw, -⟩ := suspend_frame c
  refine ⟨hu, hw, fun h hh => ?_⟩
  obtain ⟨hp, -, hne⟩ := (suspend_pending hc).mp hh
  exact hne (hg.retry h hp).1

theorem phase_resume (hg : Good c) (hp : c.InPhase p) :
    c.resume.InPhase (p.next c.created c.nextTimer .resume) ∧
      c.resume.created = c.created + if p.opens .resume then 1 else 0 := by
  have hv : c.view.isNone = false := by simpa using hg.viewed
  cases p with
  | suspended =>
    obtain ⟨-, h2, h3⟩ := hp
    have he : c.resume = ({ c with closedByUser := false, retry := 500 } : LiveClient).open := by
      simp [LiveClient.resume, h2, hv]
    rw [he]
    refine ⟨⟨rfl, rfl, ?_, h3⟩, rfl⟩
    simp [LiveClient.open]
  | live i =>
    have he : c.resume = c := by simp [LiveClient.resume, hp.2.1]
    rw [he]
    exact ⟨hp, rfl⟩
  | waiting h =>
    obtain ⟨i, hi, -⟩ := hp.2.1
    have he : c.resume = c := by simp [LiveClient.resume, hi]
    rw [he]
    exact ⟨hp, rfl⟩

/-- The `close` event of a socket that is no longer current reconnects nothing. -/
theorem quiet_closed (hc : Clocked c) (hne : c.ws ≠ some i) : Quiet c ((c.setReady i .closed).onclose i) := by
  have hc' : Clocked (c.setReady i .closed) := hc.congr rfl rfl rfl
  have heq := clearHeartbeat_eq (c.setReady i .closed)
  have he : (c.setReady i .closed).onclose i = (c.setReady i .closed).clearHeartbeat := by
    rcases onclose_cases (c.setReady i .closed) i with ⟨he, -⟩ | ⟨-, hw, -⟩ | ⟨hw, -⟩
    · exact he
    · exact absurd hw hne
    · exact absurd hw hne
  rw [he]
  refine ⟨?_, ?_, ?_, fun j hj => ?_, fun h => ?_⟩
  on_goal 5 =>
    rw [clearHeartbeat_pending hc']
    exact and_iff_left rfl
  on_goal 4 =>
    have hji : j ≠ i := fun e => hne (e ▸ hj)
    rw [heq]
    simp [hji]
  all_goals rw [heq]; rfl

/-- The `close` event of the current socket starts the wait for the reconnect;
that of any other socket changes nothing. -/
theorem phase_closed (hc : Clocked c) (hp : c.InPhase p) (hi : (c.socket i).readyState ≠ .closed) :
    ((c.setReady i .closed).onclose i).InPhase (p.next c.created c.nextTimer (.closed i)) ∧
      ((c.setReady i .closed).onclose i).created = c.created := by
  have hc' : Clocked (c.setReady i .closed) := hc.congr rfl rfl rfl
  have hpend : ∀ h k, (c.setReady i .closed).clearHeartbeat.Pending h k ↔ c.Pending h k ∧ k = .retry :=
    fun h k => clearHeartbeat_pending hc'
  have heq := clearHeartbeat_eq (c.setReady i .closed)
  have hclosed : ((c.setReady i .closed).socket i).readyState = .closed := by simp
  rcases onclose_cases (c.setReady i .closed) i with ⟨-, hne⟩ | ⟨-, hw, hu⟩ | ⟨hw, hu, he⟩
  · -- a socket that is no longer current
    have hq := quiet_closed hc hne
    refine ⟨?_, hq.created⟩
    cases p with
    | live j =>
      have hji : i ≠ j := fun e => hne (e ▸ hp.2.1)
      simpa [Phase.next, Phase.opens, hji] using hq.inPhase hp
    | suspended => exact hq.inPhase hp
    | waiting h => exact hq.inPhase hp
  · -- a suspended client has no current socket
    have hw : c.ws = some i := hw
    have hu : c.closedByUser = true := hu
    cases p with
    | suspended => rw [hp.2.1] at hw; cases hw
    | live j => exact absurd (hu.symm.trans hp.1) (by simp)
    | waiting h => exact absurd (hu.symm.trans hp.1) (by simp)
  · have hw : c.ws = some i := hw
    cases p with
    | suspended => rw [hp.2.1] at hw; cases hw
    | waiting h =>
      obtain ⟨j, hj, hcl⟩ := hp.2.1
      obtain rfl : i = j := Option.some.inj (hw.symm.trans hj)
      exact absurd hcl hi
    | live j =>
      obtain rfl : i = j := Option.some.inj (hw.symm.trans hp.2.1)
      rw [he, heq]
      refine ⟨?_, rfl⟩
      simp only [Phase.next, Phase.opens, Bool.false_eq_true, if_false, if_true]
      refine ⟨hp.1, ⟨i, hw, hclosed⟩, fun h => ?_⟩
      have hset : ∀ h k, ((c.setReady i .closed).clearHeartbeat.setTimeout .retry c.retry).1.Pending h k ↔
          h = c.nextTimer ∧ k = .retry ∨ h ≠ c.nextTimer ∧ c.Pending h k ∧ k = .retry := by
        intro h k
        rw [pending_setTimeout, hpend, heq]
        rfl
      have hgoal := hset h .retry
      rw [heq] at hgoal
      refine hgoal.trans ⟨?_, fun e => .inl ⟨e, rfl⟩⟩
      rintro (⟨e, -⟩ | ⟨-, hp', -⟩)
      · exact e
      · exact absurd hp' (hp.2.2.2 h)

/-- A timer of the heartbeat leaves the connection as it is. -/
theorem quiet_fire (hc : Clocked c) {k : TimerKind} (hk : k ≠ .retry) : Quiet c (c.fire k) := by
  cases k with
  | retry => exact absurd rfl hk
  | grace i => exact quiet_wsClose c i
  | idle =>
    rcases fire_idle_cases c with ⟨he, -⟩ | ⟨i, -, -, he⟩
    · rw [he]
      exact .refl c
    · rw [he]
      refine ⟨?_, ?_, ?_, fun j _ => ?_, fun t => ?_⟩
      on_goal 5 =>
        -- the new timer is no reconnect, and its handle was not in use
        have hset : ((c.wsSend i (.ping true)).setTimeout (.grace i) HEARTBEAT_GRACE_MS).1.Pending t .retry ↔
            c.Pending t .retry := by
          rw [pending_setTimeout, wsSend_eq]
          refine ⟨?_, fun ht => .inr ⟨(hc.below t _ ht).ne, ht⟩⟩
          rintro (⟨-, e⟩ | ⟨-, ht⟩)
          · cases e
          · exact ht
        exact hset
      on_goal 4 => exact iff_of_eq (congrArg (· = ReadyState.closed) (wsSend_ready c i _ j))
      all_goals rw [wsSend_eq]; rfl

theorem phase_timer (hc : Clocked c) (hp : c.InPhase p) {k : TimerKind} (hpk : c.Pending h k) :
    (({ c with timers := c.timers.erase h } : LiveClient).fire k).InPhase (p.next c.created c.nextTimer (.timer h)) ∧
      (({ c with timers := c.timers.erase h } : LiveClient).fire k).created =
        c.created + if p.opens (.timer h) then 1 else 0 := by
  have herase : ∀ h' k', ({ c with timers := c.timers.erase h } : LiveClient).Pending h' k' ↔ h' ≠ h ∧ c.Pending h' k' :=
    fun _ _ => pending_erase
  by_cases hr : k = .retry
  · subst hr
    cases p with
    | suspended => exact absurd hpk (hp.2.2 h)
    | live j => exact absurd hpk (hp.2.2.2 h)
    | waiting h' =>
      obtain rfl := (hp.2.2 h).mp hpk
      simp only [Phase.next, Phase.opens, decide_true, if_true]
      refine ⟨⟨hp.1, rfl, ?_, fun t ht => ?_⟩, rfl⟩
      · simp [LiveClient.fire, LiveClient.open]
      · obtain ⟨hne, ht⟩ := (herase t .retry).mp ht
        exact hne ((hp.2.2 t).mp ht)
  · -- the heartbeat's timers leave the connection alone
    have hopen : p.opens (.timer h) = false := by
      cases p with
      | waiting h' =>
        refine decide_eq_false fun e => hr ?_
        exact hpk.kind ((hp.2.2 h).mpr e)
      | _ => rfl
    have hnext : p.next c.created c.nextTimer (.timer h) = p := by
      unfold Phase.next
      rw [hopen]
      cases p <;> rfl
    have hq : Quiet c (({ c with timers := c.timers.erase h } : LiveClient).fire k) := by
      have he : Quiet c { c with timers := c.timers.erase h } := by
        refine ⟨rfl, rfl, rfl, fun _ _ => Iff.rfl, fun t => ?_⟩
        rw [herase]
        refine ⟨And.right, fun ht => ⟨?_, ht⟩⟩
        rintro rfl
        exact hr (hpk.kind ht)
      exact he.trans (quiet_fire (hc.fired h) hr)
    rw [hnext, hopen]
    exact ⟨hq.inPhase hp, hq.created⟩

/-- The class takes the steps of the phases, and opens a socket where they do. -/
theorem phase_step (hg : Good c) (hc : Clocked c) (hp : c.InPhase p) (hs : Step c a d) :
    d.InPhase (p.next c.created c.nextTimer a) ∧ d.created = c.created + if p.opens a then 1 else 0 := by
  -- an action that leaves the connection as it is
  have quiet (hq : Quiet c d) (ho : p.opens a = false) (hn : p.next c.created c.nextTimer a = p) :
      d.InPhase (p.next c.created c.nextTimer a) ∧ d.created = c.created + if p.opens a then 1 else 0 := by
    rw [hn, ho]
    exact ⟨hq.inPhase hp, hq.created⟩
  have suspended (hd : d = c.suspend) (ho : p.opens a = false) (hn : p.next c.created c.nextTimer a = .suspended) :
      d.InPhase (p.next c.created c.nextTimer a) ∧ d.created = c.created + if p.opens a then 1 else 0 := by
    rw [hn, ho, hd]
    exact ⟨inPhase_suspend hg hc, (suspend_frame c).2.2.2.2.2.1⟩
  cases hs.outcome with
  | update v => exact quiet (quiet_update c v) (by cases p <;> rfl) (by cases p <;> rfl)
  | setPinned ids => exact quiet (quiet_setPinned c ids) (by cases p <;> rfl) (by cases p <;> rfl)
  | opened i hi => exact quiet (quiet_opened hc hi) (by cases p <;> rfl) (by cases p <;> rfl)
  | message i m => exact quiet (quiet_armHeartbeat hc) (by cases p <;> rfl) (by cases p <;> rfl)
  | failed i => exact quiet (quiet_wsClose c i) (by cases p <;> rfl) (by cases p <;> rfl)
  | suspend => exact suspended rfl (by cases p <;> rfl) (by cases p <;> rfl)
  | close => exact suspended rfl (by cases p <;> rfl) (by cases p <;> rfl)
  | resume => exact phase_resume hg hp
  | closed i hi =>
    have ho : p.opens (.closed i) = false := by cases p <;> rfl
    rw [ho]
    exact phase_closed hc hp hi
  | timer t k ms ht => exact phase_timer hc hp ⟨ms, ht⟩

/-! ## Runs -/

/-- What holds of every client that called `connect`. -/
structure Steady (c : LiveClient) : Prop where
  good : Good c
  clocked : Clocked c
  phase : ∃ p, c.InPhase p

theorem Steady.step (hc : Steady c) (hs : Step c a d) : Steady d := by
  obtain ⟨p, hp⟩ := hc.phase
  exact ⟨(hc.good.step hs).1, hc.clocked.step hs, _, (phase_step hc.good hc.clocked hp hs).1⟩

theorem steady_start (heartbeatMs : Nat) (pinned : List String) (v : ClientView) :
    Steady (start heartbeatMs pinned v) := by
  refine ⟨good_connect heartbeatMs pinned v, clocked_start heartbeatMs pinned v, .live 0, rfl, rfl, ?_,
    fun h ⟨_, hh⟩ => nomatch hh⟩
  simp [start, LiveClient.connect, LiveClient.open]

theorem steady_of_run {as : List ClientAction} (hc : Steady c) (h : Run Step c as d) : Steady d :=
  h.inv (fun _ _ _ hs hc => hc.step hs) hc

/-- A suspended client opens no socket until it is resumed. -/
theorem suspended_of_run {as : List ClientAction} (hc : Steady c) (hp : c.InPhase .suspended) (h : Run Step c as d)
    (ha : ClientAction.resume ∉ as) : d.InPhase .suspended ∧ d.created = c.created := by
  induction h with
  | nil => exact ⟨hp, rfl⟩
  | @snoc as e a u hrun hs ih =>
    simp only [List.mem_append, List.mem_singleton, not_or] at ha
    obtain ⟨he, hcr⟩ := ih ha.1
    have hst := steady_of_run hc hrun
    obtain ⟨hu, hcu⟩ := phase_step hst.good hst.clocked he hs
    have ho : Phase.suspended.opens a = false := by
      cases a with
      | resume => exact absurd rfl ha.2
      | _ => rfl
    have hn : Phase.suspended.next e.created e.nextTimer a = .suspended := by
      unfold Phase.next
      rw [ho]
      cases a <;> rfl
    rw [hn] at hu
    rw [ho] at hcu
    exact ⟨hu, hcu.trans hcr⟩

/-- A socket that is neither closing nor closed. -/
def Up (c : LiveClient) (i : Nat) : Prop := (c.socket i).readyState ≠ .closing ∧ (c.socket i).readyState ≠ .closed

/-- A connection that is neither doubled, nor leaked, nor dead. -/
structure Sound (c : LiveClient) : Prop where
  single : ∀ i j, c.Up i → c.Up j → i = j
  running : c.closedByUser = false →
    ((∃ i, c.ws = some i ∧ (c.socket i).readyState ≠ .closed) ∧ ∀ h, ¬c.Pending h .retry) ∨ ∃! h, c.Pending h .retry
  suspended : c.closedByUser = true →
    (∀ h, ¬c.Pending h .retry) ∧ c.ws = none ∧
      ∀ as d, Run Step c as d → ClientAction.resume ∉ as → d.created = c.created ∧ d.ws = none
  stale : ∀ i d, Step c (.closed i) d → c.ws ≠ some i →
    d.created = c.created ∧ d.ws = c.ws ∧ ∀ h, d.Pending h .retry ↔ c.Pending h .retry

theorem Good.current_of_up (hg : Good c) (hi : c.Up i) : c.ws = some i := by
  by_contra hne
  obtain ⟨h1, h2⟩ := hg.others i hne
  cases hr : (c.socket i).readyState with
  | connecting => exact h1 hr
  | open_ => exact h2 hr
  | closing => exact hi.1 hr
  | closed => exact hi.2 hr

theorem Steady.sound (hst : Steady c) : c.Sound := by
  obtain ⟨p, hp⟩ := hst.phase
  refine ⟨fun i j hi hj => ?_, fun hu => ?_, fun hu => ?_, fun i d hs hne => ?_⟩
  · exact Option.some.inj ((hst.good.current_of_up hi).symm.trans (hst.good.current_of_up hj))
  · cases p with
    | suspended => exact absurd (hu.symm.trans hp.1) (by simp)
    | live i => exact .inl ⟨⟨i, hp.2.1, hp.2.2.1⟩, hp.2.2.2⟩
    | waiting h => exact .inr ⟨h, (hp.2.2 h).mpr rfl, fun h' hh => (hp.2.2 h').mp hh⟩
  · cases p with
    | suspended =>
      refine ⟨hp.2.2, hp.2.1, fun bs d hr ha => ?_⟩
      obtain ⟨hd, hcr⟩ := suspended_of_run hst hp hr ha
      exact ⟨hcr, hd.2.1⟩
    | live i => exact absurd (hu.symm.trans hp.1) (by simp)
    | waiting h => exact absurd (hu.symm.trans hp.1) (by simp)
  · cases hs.outcome
    have hq := quiet_closed hst.clocked hne
    exact ⟨hq.created, hq.ws, hq.retry⟩

/-- After `connect`, whatever calls, late events and timers follow in whatever
order: at most one socket is up; a client that is not suspended is on a socket
or waits for exactly one reconnect; a suspended one does neither and opens
nothing until it is resumed; and a stale `close` event does nothing. -/
theorem connection_sound {heartbeatMs : Nat} {pinned : List String} {v : ClientView} {as : List ClientAction}
    (h : Run Step (start heartbeatMs pinned v) as c) : c.Sound :=
  (steady_of_run (steady_start heartbeatMs pinned v) h).sound

/-- A view of a map. -/
def utrecht : ClientView where
  bbox := { minLat := .fin 52, minLon := .fin 5, maxLat := .fin 53, maxLon := .fin 6 }
  zoom := 12
  filters := { types := [], owners := [], search := "" }

/-- A client that reconnects after its socket fails, and is then put to sleep
while the next one is connecting. -/
theorem connection_sound_asleep :
    ∃ c, exec step (start 30000 [] utrecht) [.opened 0, .failed 0, .closed 0, .timer 2, .suspend, .closed 1] = some c ∧
      c.closedByUser = true ∧ c.Sound := by
  let c := (exec step (start 30000 [] utrecht)
    [.opened 0, .failed 0, .closed 0, .timer 2, .suspend, .closed 1]).get (by decide +kernel)
  have hrun : exec step (start 30000 [] utrecht) [.opened 0, .failed 0, .closed 0, .timer 2, .suspend, .closed 1] =
      some c := (Option.some_get _).symm
  exact ⟨c, hrun, by decide +kernel, connection_sound (Run.of_exec hrun)⟩

end LiveClient

end Client

namespace Sys

open Client

variable [Platform] {s t : Sys} {a : Action}

theorem receive_step (s : Sys) {i : Nat} (ho : (s.client.socket i).readyState = .open_) (x : Item) :
    (s.receive x).client = s.client ∨ ∃ b, LiveClient.Step s.client b (s.receive x).client := by
  unfold receive
  cases hm : x.message with
  | none => exact .inl rfl
  | some m =>
    refine .inr ⟨.message i m, ?_⟩
    have hstep : s.client.step (.message i m) = some (s.client.onmessage m).1 := if_pos (.inl ho)
    rw [LiveClient.Step, hstep]
    cases m <;> rfl

/-- The client of a stream takes the steps of the class. -/
theorem client_step (h : Step s a t) : t.client = s.client ∨ ∃ b, LiveClient.Step s.client b t.client := by
  unfold Step at h
  cases a <;> simp only [step] at h
  case update v => cases h; exact .inr ⟨.update v, rfl⟩
  case setPinned ids => cases h; exact .inr ⟨.setPinned ids, rfl⟩
  case suspend => cases h; exact .inr ⟨.suspend, rfl⟩
  case resume => cases h; exact .inr ⟨.resume, rfl⟩
  case select ids => cases h; exact .inl rfl
  case tick i idx => cases h; exact .inl rfl
  case opened i =>
    split at h
    · cases h; exact .inr ⟨.opened i, if_pos ‹_›⟩
    · cases h
  case failed i =>
    split at h
    · cases h; exact .inr ⟨.failed i, if_pos ‹_›⟩
    · cases h
  case closed i =>
    split at h
    · cases h; exact .inr ⟨.closed i, if_pos ‹_›⟩
    · cases h
  case timer t =>
    split at h
    · rename_i k ms hk
      cases h
      refine .inr ⟨.timer t, ?_⟩
      simp only [LiveClient.Step, LiveClient.step, hk]
    · cases h
  case serve i =>
    split at h
    · cases h; exact .inl rfl
    · cases h
  case deliver i =>
    split at h
    · split at h
      · cases h; exact receive_step _ ‹_› _
      · cases h
    · cases h

/-- So the connection of a stream is sound as well. -/
theorem client_sound {heartbeatMs : Nat} {pinned selected : List String} {v : ClientView} {as : List Action}
    (h : Run Step (start heartbeatMs pinned selected v) as s) : s.client.Sound := by
  refine (h.inv (P := fun s : Sys => s.client.Steady) (fun s a t hs hc => ?_) (LiveClient.steady_start heartbeatMs pinned v)).sound
  rcases client_step hs with e | ⟨b, hb⟩
  · rwa [e]
  · exact hc.step hb

end Sys

end OV.Impl
