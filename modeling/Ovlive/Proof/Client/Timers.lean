import Ovlive.Framework.Run
import Ovlive.Proof.Stream.Client

/-!
# The timers of a client

`Pending` says which timers run. The heartbeat has one handle for the timers of
all sockets: in a `Clocked` client every timer but a reconnect is under it, so
`clearHeartbeat` leaves the reconnects only (`clearHeartbeat_pending`) and
`armHeartbeat` one timer besides (`armHeartbeat_pending`). The equations
`clearHeartbeat_eq`, …, `wsClose_eq` say what else each of them changes: nothing.
`Outcome` says once what a step does, and `Clocked.step` that it keeps the invariant.
-/

namespace OV.Impl.Client.LiveClient

variable {c d : LiveClient} {h h' i : Nat} {k k' : TimerKind} {a : ClientAction}

/-- A timer is pending. -/
def Pending (c : LiveClient) (h : Nat) (k : TimerKind) : Prop := ∃ ms, c.timers.lookup h = some (k, ms)

theorem Pending.kind (hk : c.Pending h k) (hk' : c.Pending h k') : k = k' := by
  obtain ⟨ms, hk⟩ := hk
  obtain ⟨ms', hk'⟩ := hk'
  rw [hk] at hk'
  cases hk'
  rfl

theorem pending_erase : ({ c with timers := c.timers.erase h' } : LiveClient).Pending h k ↔ h ≠ h' ∧ c.Pending h k := by
  unfold Pending
  by_cases e : h = h'
  · subst e
    simp
  · simp [AList.lookup_erase_ne e, e]

theorem pending_setTimeout {ms : Nat} :
    (c.setTimeout k' ms).1.Pending h k ↔ h = c.nextTimer ∧ k = k' ∨ h ≠ c.nextTimer ∧ c.Pending h k := by
  unfold Pending setTimeout
  by_cases e : h = c.nextTimer
  · subst e
    simp [eq_comm]
  · simp [AList.lookup_insert_ne e, e]

/-! ## What a method leaves alone -/

theorem clearTimeout_eq (c : LiveClient) (o : Option Nat) :
    c.clearTimeout o = { c with timers := (c.clearTimeout o).timers } := by
  cases o <;> rfl

theorem clearHeartbeat_eq (c : LiveClient) :
    c.clearHeartbeat = { c with timers := c.clearHeartbeat.timers, heartbeatTimer := none } := by
  rw [clearHeartbeat, clearTimeout_eq]

theorem armHeartbeat_eq (c : LiveClient) :
    c.armHeartbeat =
      { c with
        timers := c.armHeartbeat.timers, heartbeatTimer := c.armHeartbeat.heartbeatTimer
        nextTimer := c.armHeartbeat.nextTimer } := by
  rw [armHeartbeat, clearHeartbeat_eq]
  simp only
  split <;> rfl

theorem wsSend_eq (c : LiveClient) (i : Nat) (p : Payload) :
    c.wsSend i p = { c with socket := (c.wsSend i p).socket } := by
  unfold wsSend
  split <;> rfl

theorem wsClose_eq (c : LiveClient) (i : Nat) : c.wsClose i = { c with socket := (c.wsClose i).socket } := by
  unfold wsClose
  split <;> rfl

theorem send_eq (c : LiveClient) : c.send = { c with socket := c.send.socket } := by
  unfold LiveClient.send
  split
  · exact wsSend_eq ..
  · rfl

/-- Sending changes no ready state. -/
theorem wsSend_ready (c : LiveClient) (i : Nat) (p : Payload) (j : Nat) :
    ((c.wsSend i p).socket j).readyState = (c.socket j).readyState := by
  unfold wsSend
  split
  · rw [setSocket_socket]
    split
    · rename_i e
      rw [e]
    · rfl
  · rfl

theorem send_ready (c : LiveClient) (j : Nat) : (c.send.socket j).readyState = (c.socket j).readyState := by
  unfold LiveClient.send
  split
  · exact wsSend_ready ..
  · rfl

/-- Closing a socket does not make it closed at once. -/
theorem wsClose_closed (c : LiveClient) (i j : Nat) :
    ((c.wsClose i).socket j).readyState = .closed ↔ (c.socket j).readyState = .closed := by
  unfold wsClose
  split
  · rename_i hi
    rw [setReady_socket]
    split
    · rename_i e
      subst e
      rcases hi with hi | hi <;> simp [hi]
    · rfl
  · rfl

/-! ## The heartbeat -/

/-- Handles are used once, and every timer but a reconnect is the heartbeat's. -/
structure Clocked (c : LiveClient) : Prop where
  below : ∀ h k, c.Pending h k → h < c.nextTimer
  handle : ∀ h, c.heartbeatTimer = some h → h < c.nextTimer ∧ ¬c.Pending h .retry
  heartbeat : ∀ h k, c.Pending h k → k ≠ .retry → c.heartbeatTimer = some h

/-- Of the heartbeat's timers at most one is pending. -/
theorem Clocked.unique (hc : Clocked c) (hp : c.Pending h k) (hk : k ≠ .retry) (hp' : c.Pending h' k')
    (hk' : k' ≠ .retry) : h = h' :=
  Option.some.inj ((hc.heartbeat h k hp hk).symm.trans (hc.heartbeat h' k' hp' hk'))

theorem Clocked.congr (hc : Clocked c) (ht : d.timers = c.timers) (hh : d.heartbeatTimer = c.heartbeatTimer)
    (hn : d.nextTimer = c.nextTimer) : Clocked d := by
  obtain ⟨h1, h2, h3⟩ := hc
  unfold Pending at h1 h2 h3
  refine ⟨?_, ?_, ?_⟩ <;> unfold Pending <;> rw [ht]
  · rwa [hn]
  · rwa [hh, hn]
  · rwa [hh]

theorem clearHeartbeat_pending (hc : Clocked c) : c.clearHeartbeat.Pending h k ↔ c.Pending h k ∧ k = .retry := by
  unfold clearHeartbeat
  cases hh : c.heartbeatTimer with
  | none =>
    show c.Pending h k ↔ _
    refine ⟨fun hk => ⟨hk, ?_⟩, And.left⟩
    by_contra hne
    rw [hc.heartbeat h k hk hne] at hh
    cases hh
  | some h' =>
    show ({ c with timers := c.timers.erase h' } : LiveClient).Pending h k ↔ _
    rw [pending_erase]
    constructor
    · rintro ⟨hne, hk⟩
      refine ⟨hk, ?_⟩
      by_contra hr
      exact hne (Option.some.inj ((hc.heartbeat h k hk hr).symm.trans hh))
    · rintro ⟨hk, rfl⟩
      refine ⟨?_, hk⟩
      rintro rfl
      exact (hc.handle h hh).2 hk

theorem Clocked.clearHeartbeat (hc : Clocked c) : Clocked c.clearHeartbeat := by
  have hn : c.clearHeartbeat.nextTimer = c.nextTimer := by rw [clearHeartbeat_eq]
  refine ⟨fun h k hk => ?_, fun h hh => ?_, fun h k hk hr => ?_⟩
  · rw [hn]
    exact hc.below h k ((clearHeartbeat_pending hc).mp hk).1
  · rw [clearHeartbeat_eq] at hh
    cases hh
  · exact absurd ((clearHeartbeat_pending hc).mp hk).2 hr

/-- A timer of the heartbeat is set, with no other pending. -/
theorem Clocked.watch (hc : Clocked c) (hno : ∀ h k, c.Pending h k → k = .retry) (hk : k ≠ .retry) (ms : Nat) :
    Clocked { (c.setTimeout k ms).1 with heartbeatTimer := some c.nextTimer } := by
  refine ⟨fun h k' hp => ?_, fun h hh => ?_, fun h k' hp hr => ?_⟩
  · have hp : (c.setTimeout k ms).1.Pending h k' := hp
    show h < c.nextTimer + 1
    rcases pending_setTimeout.mp hp with ⟨rfl, -⟩ | ⟨-, hp⟩
    · exact Nat.lt_succ_self _
    · exact Nat.lt_succ_of_lt (hc.below h k' hp)
  · obtain rfl : c.nextTimer = h := Option.some.inj hh
    refine ⟨Nat.lt_succ_self _, fun hp => ?_⟩
    have hp : (c.setTimeout k ms).1.Pending c.nextTimer .retry := hp
    rcases pending_setTimeout.mp hp with ⟨-, e⟩ | ⟨hne, -⟩
    · exact hk e.symm
    · exact hne rfl
  · have hp : (c.setTimeout k ms).1.Pending h k' := hp
    rcases pending_setTimeout.mp hp with ⟨rfl, -⟩ | ⟨-, hp⟩
    · rfl
    · exact absurd (hno h k' hp) hr

/-- A reconnect is set. -/
theorem Clocked.later (hc : Clocked c) (ms : Nat) : Clocked (c.setTimeout .retry ms).1 := by
  refine ⟨fun h k' hp => ?_, fun h hh => ?_, fun h k' hp hr => ?_⟩
  · show h < c.nextTimer + 1
    rcases pending_setTimeout.mp hp with ⟨rfl, -⟩ | ⟨-, hp⟩
    · exact Nat.lt_succ_self _
    · exact Nat.lt_succ_of_lt (hc.below h k' hp)
  · obtain ⟨hlt, hn⟩ := hc.handle h hh
    refine ⟨Nat.lt_succ_of_lt hlt, fun hp => ?_⟩
    rcases pending_setTimeout.mp hp with ⟨rfl, -⟩ | ⟨-, hp⟩
    · exact absurd hlt (lt_irrefl _)
    · exact hn hp
  · rcases pending_setTimeout.mp hp with ⟨-, rfl⟩ | ⟨-, hp⟩
    · exact absurd rfl hr
    · exact hc.heartbeat h k' hp hr

theorem armHeartbeat_pending (hc : Clocked c) :
    c.armHeartbeat.Pending h k ↔
      c.Pending h k ∧ k = .retry ∨ c.heartbeatMs ≠ 0 ∧ h = c.nextTimer ∧ k = .idle := by
  have hms : c.clearHeartbeat.heartbeatMs = c.heartbeatMs := by rw [clearHeartbeat_eq]
  have hn : c.clearHeartbeat.nextTimer = c.nextTimer := by rw [clearHeartbeat_eq]
  unfold armHeartbeat
  simp only [hms]
  split
  · rename_i h0
    rw [clearHeartbeat_pending hc]
    simp [h0]
  · rename_i h0
    show (c.clearHeartbeat.setTimeout .idle c.heartbeatMs).1.Pending h k ↔ _
    rw [pending_setTimeout, clearHeartbeat_pending hc, hn]
    constructor
    · rintro (⟨rfl, rfl⟩ | ⟨-, hk⟩)
      · exact .inr ⟨h0, rfl, rfl⟩
      · exact .inl hk
    · rintro (hk | ⟨-, rfl, rfl⟩)
      · exact .inr ⟨(hc.below h k hk.1).ne, hk⟩
      · exact .inl ⟨rfl, rfl⟩

theorem Clocked.armHeartbeat (hc : Clocked c) : Clocked c.armHeartbeat := by
  have hms : c.clearHeartbeat.heartbeatMs = c.heartbeatMs := by rw [clearHeartbeat_eq]
  have hcl := hc.clearHeartbeat
  unfold LiveClient.armHeartbeat
  simp only [hms]
  split
  · exact hcl
  · exact hcl.watch (fun h k hk => ((clearHeartbeat_pending hc).mp hk).2) (by simp) _

/-- A timer that fired is no longer pending. -/
theorem Clocked.fired (hc : Clocked c) (h' : Nat) : Clocked { c with timers := c.timers.erase h' } := by
  refine ⟨fun h k hp => hc.below h k (pending_erase.mp hp).2, fun h hh => ?_, fun h k hp hr => ?_⟩
  · obtain ⟨hlt, hn⟩ := hc.handle h hh
    exact ⟨hlt, fun hp => hn (pending_erase.mp hp).2⟩
  · exact hc.heartbeat h k (pending_erase.mp hp).2 hr

/-! ## The steps -/

/-- What a step of each kind does, where it can be taken. -/
inductive Outcome (c : LiveClient) : ClientAction → LiveClient → Prop
  | update (v : ClientView) : Outcome c (.update v) (c.update v)
  | setPinned (ids : List String) : Outcome c (.setPinned ids) (c.setPinned ids)
  | suspend : Outcome c .suspend c.suspend
  | resume : Outcome c .resume c.resume
  | close : Outcome c .close c.suspend
  | opened (i : Nat) (hi : (c.socket i).readyState = .connecting) :
      Outcome c (.opened i) ((c.setReady i .open_).onopen i)
  | message (i : Nat) (m : ServerMessage) : Outcome c (.message i m) c.armHeartbeat
  | failed (i : Nat) : Outcome c (.failed i) (c.wsClose i)
  | closed (i : Nat) (hi : (c.socket i).readyState ≠ .closed) :
      Outcome c (.closed i) ((c.setReady i .closed).onclose i)
  | timer (t : Nat) (k : TimerKind) (ms : Nat) (ht : c.timers.lookup t = some (k, ms)) :
      Outcome c (.timer t) (({ c with timers := c.timers.erase t } : LiveClient).fire k)

theorem Step.outcome (h : Step c a d) : Outcome c a d := by
  unfold Step at h
  cases a <;> simp only [LiveClient.step] at h
  case update v => cases h; exact .update v
  case setPinned ids => cases h; exact .setPinned ids
  case suspend => cases h; exact .suspend
  case resume => cases h; exact .resume
  case close => cases h; exact .close
  case opened i =>
    split at h
    · cases h; exact .opened i ‹_›
    · cases h
  case message i m =>
    split at h
    · cases h; exact .message i m
    · cases h
  case failed i =>
    split at h
    · cases h; exact .failed i
    · cases h
  case closed i =>
    split at h
    · cases h; exact .closed i ‹_›
    · cases h
  case timer t =>
    split at h
    · cases h; exact .timer t _ _ ‹_›
    · cases h

theorem suspend_frame (c : LiveClient) :
    c.suspend.timers = c.unarmed.timers ∧ c.suspend.heartbeatTimer = none ∧ c.suspend.nextTimer = c.nextTimer ∧
      c.suspend.closedByUser = true ∧ c.suspend.ws = none ∧ c.suspend.created = c.created ∧
      c.suspend.heartbeatMs = c.heartbeatMs := by
  have hu : c.unarmed =
      { c with
        timers := c.unarmed.timers, retryTimer := none, heartbeatTimer := none, closedByUser := true } := by
    rw [unarmed, clearTimeout_eq, clearHeartbeat_eq]
  rw [suspend_eq, giveUp]
  cases hw : c.unarmed.ws with
  | none =>
    rw [Option.elim_none]
    refine ⟨rfl, ?_, ?_, ?_, rfl, ?_, ?_⟩ <;> rw [hu]
  | some i =>
    rw [Option.elim_some, (wsClose_same _ i).2.2, wsClose_eq]
    refine ⟨rfl, ?_, ?_, ?_, rfl, ?_, ?_⟩ <;> rw [hu]

/-- A suspended client keeps no timer but those that are not its own. -/
theorem unarmed_pending (hc : Clocked c) :
    c.unarmed.Pending h k ↔ c.Pending h k ∧ k = .retry ∧ c.retryTimer ≠ some h := by
  have hp : ({ c.clearTimeout c.retryTimer with retryTimer := none } : LiveClient).Pending h k ↔
      c.Pending h k ∧ c.retryTimer ≠ some h := by
    cases hr : c.retryTimer with
    | none => simp [Pending, clearTimeout]
    | some h' =>
      show ({ c with timers := c.timers.erase h' } : LiveClient).Pending h k ↔ _
      rw [pending_erase, and_comm, ne_comm]
      simp
  have hcl : Clocked ({ c.clearTimeout c.retryTimer with retryTimer := none } : LiveClient) := by
    cases hr : c.retryTimer with
    | none => exact hc.congr rfl rfl rfl
    | some h' => exact (hc.fired h').congr rfl rfl rfl
  show ({ c.clearTimeout c.retryTimer with retryTimer := none } : LiveClient).clearHeartbeat.Pending h k ↔ _
  rw [clearHeartbeat_pending hcl, hp, and_assoc, and_comm (a := c.retryTimer ≠ some h)]

theorem suspend_pending (hc : Clocked c) :
    c.suspend.Pending h k ↔ c.Pending h k ∧ k = .retry ∧ c.retryTimer ≠ some h := by
  rw [← unarmed_pending hc, Pending, (suspend_frame c).1]
  rfl

theorem Clocked.suspend (hc : Clocked c) : Clocked c.suspend := by
  obtain ⟨-, hh, hn, -⟩ := suspend_frame c
  refine ⟨fun h k hk => ?_, fun h hk => ?_, fun h k hk hr => absurd ((suspend_pending hc).mp hk).2.1 hr⟩
  · rw [hn]
    exact hc.below h k ((suspend_pending hc).mp hk).1
  · rw [hh] at hk
    cases hk

theorem onopen_frame (c : LiveClient) (i : Nat) :
    (c.onopen i).timers = c.armHeartbeat.timers ∧ (c.onopen i).heartbeatTimer = c.armHeartbeat.heartbeatTimer ∧
      (c.onopen i).nextTimer = c.armHeartbeat.nextTimer ∧ (c.onopen i).closedByUser = c.closedByUser ∧
      (c.onopen i).ws = c.ws ∧ (c.onopen i).created = c.created ∧
      (∀ j, ((c.onopen i).socket j).readyState = (c.socket j).readyState) ∧
      (c.onopen i).heartbeatMs = c.heartbeatMs := by
  have ht : ∀ o, ({ c with retry := 500 } : LiveClient).clearTimeout o = { c.clearTimeout o with retry := 500 } := by
    intro o
    cases o <;> rfl
  have hcl : ({ c with retry := 500 } : LiveClient).clearHeartbeat = { c.clearHeartbeat with retry := 500 } := by
    simp only [clearHeartbeat, ht]
  have ha : ({ c with retry := 500 } : LiveClient).armHeartbeat = { c.armHeartbeat with retry := 500 } := by
    simp only [armHeartbeat, hcl]
    split <;> rfl
  rw [onopen]
  simp only [ha]
  rw [armHeartbeat_eq]
  split
  · refine ⟨?_, ?_, ?_, ?_, ?_, ?_, ?_, ?_⟩
    on_goal 7 => intro j; rw [wsSend_ready]
    all_goals rw [wsSend_eq]
  · exact ⟨rfl, rfl, rfl, rfl, rfl, rfl, fun _ => rfl, rfl⟩

/-- What the `close` event of a socket does. -/
theorem onclose_cases (c : LiveClient) (i : Nat) :
    (c.onclose i = c.clearHeartbeat ∧ c.ws ≠ some i) ∨
      (c.onclose i = { c.clearHeartbeat with status := some .closed } ∧ c.ws = some i ∧ c.closedByUser = true) ∨
      (c.ws = some i ∧ c.closedByUser = false ∧
        c.onclose i =
          { ({ c.clearHeartbeat with status := some .closed } : LiveClient).setTimeout .retry c.retry |>.1 with
            retryTimer := some c.nextTimer, retry := Nat.min (c.retry * 2) RETRY_MAX_MS }) := by
  unfold onclose
  rw [clearHeartbeat_eq]
  simp only
  split_ifs with hw hu
  · exact .inl ⟨rfl, hw⟩
  · exact .inr (.inl ⟨rfl, not_not.mp hw, hu⟩)
  · exact .inr (.inr ⟨not_not.mp hw, by simpa using hu, rfl⟩)

/-- The `close` event of a socket leaves the sockets and the current one alone. -/
theorem onclose_conn (c : LiveClient) (i : Nat) : (c.onclose i).ws = c.ws ∧ (c.onclose i).socket = c.socket := by
  rcases onclose_cases c i with ⟨he, -⟩ | ⟨he, -, -⟩ | ⟨-, -, he⟩ <;> rw [he, clearHeartbeat_eq] <;> exact ⟨rfl, rfl⟩

/-- The idle timer does nothing, or pings the current socket, which is open. -/
theorem fire_idle_cases (c : LiveClient) :
    (c.fire .idle = c ∧ ∀ i, c.ws = some i → (c.socket i).readyState ≠ .open_) ∨
      ∃ i, c.ws = some i ∧ (c.socket i).readyState = .open_ ∧
        c.fire .idle =
          { ((c.wsSend i (.ping true)).setTimeout (.grace i) HEARTBEAT_GRACE_MS).1 with
            heartbeatTimer := some c.nextTimer } := by
  simp only [LiveClient.fire]
  split
  · rename_i i hw
    split_ifs with ho
    · refine .inl ⟨rfl, fun j hj => ?_⟩
      obtain rfl : i = j := Option.some.inj (hw.symm.trans hj)
      exact ho
    · refine .inr ⟨i, hw, not_not.mp ho, ?_⟩
      rw [wsSend_eq]
      rfl
  · rename_i hw
    exact .inl ⟨rfl, fun i hi => by rw [hw] at hi; cases hi⟩

/-- After the `close` event of any socket the heartbeat is clear. -/
theorem onclose_pending (hc : Clocked c) (hp : (c.onclose i).Pending h k) : k = .retry := by
  have hcl : ∀ h k, c.clearHeartbeat.Pending h k → k = .retry := fun h k hk => ((clearHeartbeat_pending hc).mp hk).2
  rcases onclose_cases c i with ⟨he, -⟩ | ⟨he, -, -⟩ | ⟨-, -, he⟩ <;> rw [he] at hp
  · exact hcl h k hp
  · exact hcl h k hp
  · have hp : (c.clearHeartbeat.setTimeout .retry c.retry).1.Pending h k := hp
    rcases pending_setTimeout.mp hp with ⟨-, e⟩ | ⟨-, hp⟩
    · exact e
    · exact hcl h k hp

theorem Clocked.step (hc : Clocked c) (h : Step c a d) : Clocked d := by
  cases h.outcome with
  | update v =>
    rw [LiveClient.update, send_eq]
    exact hc.congr rfl rfl rfl
  | setPinned ids =>
    rw [LiveClient.setPinned, send_eq]
    exact hc.congr rfl rfl rfl
  | suspend => exact hc.suspend
  | close => exact hc.suspend
  | resume =>
    unfold LiveClient.resume
    split
    · exact hc
    · exact hc.congr rfl rfl rfl
  | opened i hi =>
    obtain ⟨h1, h2, h3, -⟩ := onopen_frame (c.setReady i .open_) i
    have ha : Clocked (c.setReady i .open_).armHeartbeat := Clocked.armHeartbeat (hc.congr rfl rfl rfl)
    exact ha.congr h1 h2 h3
  | message i m => exact hc.armHeartbeat
  | failed i =>
    rw [wsClose_eq]
    exact hc.congr rfl rfl rfl
  | closed i hi =>
    have hcl : Clocked (c.setReady i .closed).clearHeartbeat := Clocked.clearHeartbeat (hc.congr rfl rfl rfl)
    rcases onclose_cases (c.setReady i .closed) i with ⟨he, -⟩ | ⟨he, -, -⟩ | ⟨-, -, he⟩
    · rwa [he]
    · rw [he]
      exact hcl.congr rfl rfl rfl
    · rw [he]
      exact (hcl.later (c.setReady i .closed).retry).congr rfl rfl rfl
  | timer t k ms ht =>
    have hf := hc.fired t
    cases k with
    | retry => exact hf.congr rfl rfl rfl
    | grace i =>
      rw [LiveClient.fire, wsClose_eq]
      exact hf.congr rfl rfl rfl
    | idle =>
      -- it was the heartbeat's own timer
      have hno : ∀ h k, ({ c with timers := c.timers.erase t } : LiveClient).Pending h k → k = .retry := by
        intro h k hp
        obtain ⟨hne, hp⟩ := pending_erase.mp hp
        by_contra hr
        exact hne (hc.unique hp hr ⟨ms, ht⟩ (by simp))
      rcases fire_idle_cases { c with timers := c.timers.erase t } with ⟨he, -⟩ | ⟨i, -, -, he⟩
      · rw [he]
        exact hf
      · rw [he, wsSend_eq]
        exact (hf.watch hno (k := .grace i) (by simp) HEARTBEAT_GRACE_MS).congr rfl rfl rfl

theorem clocked_start (heartbeatMs : Nat) (pinned : List String) (v : ClientView) : Clocked (start heartbeatMs pinned v) :=
  ⟨fun _ _ ⟨_, h⟩ => (nomatch h), fun _ h => (nomatch h), fun _ _ ⟨_, h⟩ => (nomatch h)⟩

end OV.Impl.Client.LiveClient
