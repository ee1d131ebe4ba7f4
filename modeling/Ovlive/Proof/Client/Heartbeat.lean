import Ovlive.Proof.Client.Phases

/-!
# The watch over a half-open socket

`Armed` is the promise of the heartbeat: while the current socket is open, its
idle timer or the grace timer of its ping runs. Every step keeps it but one
(`armed_step_iff`): the `close` event of a socket that is no longer current
clears the heartbeat of the socket that is. That a grace timer closes the socket
that was pinged holds in any case (`Pinged`).
-/

namespace OV.Impl.Client.LiveClient

variable {c d : LiveClient} {a : ClientAction} {i h : Nat} {k : TimerKind}

/-- The idle timer runs, or the grace timer of the current socket, while that is open. -/
def Armed (c : LiveClient) : Prop :=
  ∀ i, c.ws = some i → (c.socket i).readyState = .open_ → ∃ h, c.Pending h .idle ∨ c.Pending h (.grace i)

/-- A socket with a grace timer was pinged, and when the timer fires it is closed. -/
def Pinged (c : LiveClient) : Prop :=
  ∀ h i, c.Pending h (.grace i) →
    ⟨some (.ping true)⟩ ∈ (c.socket i).sent ∧
      ∀ d, Step c (.timer h) d → (d.socket i).readyState = .closing ∨ (d.socket i).readyState = .closed

/-- A half-open socket is being watched. -/
structure Watched (c : LiveClient) : Prop where
  armed : c.Armed
  pinged : c.Pinged

/-- The action is no `close` event of a socket that is not current, while the
one that is current is open. -/
def Timely (c : LiveClient) (a : ClientAction) : Prop :=
  ∀ i j, a = .closed i → c.ws = some j → (c.socket j).readyState = .open_ → i = j

/-! ## The grace timer -/

theorem shut_cases {r : ReadyState} (h1 : r ≠ .connecting) (h2 : r ≠ .open_) : r = .closing ∨ r = .closed := by
  cases r with
  | connecting => exact absurd rfl h1
  | open_ => exact absurd rfl h2
  | closing => exact .inl rfl
  | closed => exact .inr rfl

theorem pinged_of_sent (hs : ∀ h i, c.Pending h (.grace i) → ⟨some (.ping true)⟩ ∈ (c.socket i).sent) : c.Pinged := by
  refine fun h i hp => ⟨hs h i hp, fun d hd => ?_⟩
  obtain ⟨ms, hp⟩ := hp
  simp only [Step, LiveClient.step, hp, Option.some.injEq] at hd
  obtain ⟨h1, h2⟩ := wsClose_shut { c with timers := c.timers.erase h } i
  subst hd
  exact shut_cases h1 h2

/-- A timer of the heartbeat was pending before, or is an idle timer, or is the
grace timer of a ping just sent. -/
theorem pending_step (hc : Clocked c) (hs : Step c a d) (hp : d.Pending h k) (hk : k ≠ .retry) :
    c.Pending h k ∨ k = .idle ∨ ∃ i, k = .grace i ∧ ⟨some (.ping true)⟩ ∈ (d.socket i).sent := by
  have arm {b : LiveClient} (hb : Clocked b) (he : ∀ h k, b.Pending h k → c.Pending h k)
      (hp : b.armHeartbeat.Pending h k) : c.Pending h k ∨ k = .idle := by
    rcases (armHeartbeat_pending hb).mp hp with ⟨hp, -⟩ | ⟨-, -, e⟩
    · exact .inl (he h k hp)
    · exact .inr e
  cases hs.outcome with
  | update v =>
    rw [LiveClient.update, send_eq] at hp
    exact .inl hp
  | setPinned ids =>
    rw [LiveClient.setPinned, send_eq] at hp
    exact .inl hp
  | suspend => exact absurd ((suspend_pending hc).mp hp).2.1 hk
  | close => exact absurd ((suspend_pending hc).mp hp).2.1 hk
  | resume =>
    unfold LiveClient.resume at hp
    split at hp <;> exact .inl hp
  | opened i hi =>
    unfold Pending at hp
    rw [(onopen_frame _ i).1] at hp
    exact or_assoc.mp (.inl (arm (b := c.setReady i .open_) (hc.congr rfl rfl rfl) (fun _ _ hp => hp) hp))
  | message i m => exact or_assoc.mp (.inl (arm hc (fun _ _ hp => hp) hp))
  | failed i =>
    rw [wsClose_eq] at hp
    exact .inl hp
  | closed i hi =>
    have hc' : Clocked (c.setReady i .closed) := hc.congr rfl rfl rfl
    exact absurd (onclose_pending hc' hp) hk
  | timer t k' ms ht =>
    have herase : ({ c with timers := c.timers.erase t } : LiveClient).Pending h k → c.Pending h k :=
      fun hp => (pending_erase.mp hp).2
    cases k' with
    | retry => exact .inl (herase hp)
    | grace i =>
      rw [LiveClient.fire, wsClose_eq] at hp
      exact .inl (herase hp)
    | idle =>
      rcases fire_idle_cases { c with timers := c.timers.erase t } with ⟨he, -⟩ | ⟨i, -, ho, he⟩ <;> rw [he] at hp ⊢
      · exact .inl (herase hp)
      · have hp : ((({ c with timers := c.timers.erase t } : LiveClient).wsSend i (.ping true)).setTimeout (.grace i)
            HEARTBEAT_GRACE_MS).1.Pending h k := hp
        rcases pending_setTimeout.mp hp with ⟨-, rfl⟩ | ⟨-, hp⟩
        · refine .inr (.inr ⟨i, rfl, ?_⟩)
          show _ ∈ ((({ c with timers := c.timers.erase t } : LiveClient).wsSend i (.ping true)).socket i).sent
          rw [wsSend, if_pos ho]
          simp
        · rw [wsSend_eq] at hp
          exact .inl (herase hp)

theorem Pinged.step (hg : Good c) (hc : Clocked c) (hp : c.Pinged) (hs : Step c a d) : d.Pinged := by
  refine pinged_of_sent fun h i hd => ?_
  rcases pending_step hc hs hd (by simp) with hd | e | ⟨j, e, hsent⟩
  · exact ((hg.step hs).2.sent i).subset (hp h i hd).1
  · cases e
  · cases e
    exact hsent

/-! ## The watch -/

theorem heartbeatMs_step (hs : Step c a d) : d.heartbeatMs = c.heartbeatMs := by
  cases hs.outcome with
  | update v => rw [LiveClient.update, send_eq]
  | setPinned ids => rw [LiveClient.setPinned, send_eq]
  | suspend => exact (suspend_frame c).2.2.2.2.2.2
  | close => exact (suspend_frame c).2.2.2.2.2.2
  | resume =>
    unfold LiveClient.resume
    split <;> rfl
  | opened i hi => exact (onopen_frame (c.setReady i .open_) i).2.2.2.2.2.2.2
  | message i m => rw [armHeartbeat_eq]
  | failed i => rw [wsClose_eq]
  | closed i hi =>
    have hcl : (c.setReady i .closed).clearHeartbeat.heartbeatMs = c.heartbeatMs := by rw [clearHeartbeat_eq]; rfl
    rcases onclose_cases (c.setReady i .closed) i with ⟨he, -⟩ | ⟨he, -, -⟩ | ⟨-, -, he⟩ <;> rw [he] <;> exact hcl
  | timer t k ms ht =>
    cases k with
    | retry => rfl
    | grace i => rw [LiveClient.fire, wsClose_eq]
    | idle =>
      rcases fire_idle_cases { c with timers := c.timers.erase t } with ⟨he, -⟩ | ⟨i, -, -, he⟩ <;> rw [he]
      rw [wsSend_eq]
      rfl

/-- The same current socket, open only if it was, and no timer of the heartbeat gone. -/
theorem Armed.congr (hc : c.Armed) (hw : d.ws = c.ws)
    (ho : ∀ i, c.ws = some i → (d.socket i).readyState = .open_ → (c.socket i).readyState = .open_)
    (hp : ∀ h k, c.Pending h k → k ≠ .retry → d.Pending h k) : d.Armed := by
  intro i hi hopen
  rw [hw] at hi
  obtain ⟨h, hh | hh⟩ := hc i hi (ho i hi hopen)
  · exact ⟨h, .inl (hp h _ hh (by simp))⟩
  · exact ⟨h, .inr (hp h _ hh (by simp))⟩

theorem wsClose_open {j : Nat} (ho : ((c.wsClose i).socket j).readyState = .open_) :
    j ≠ i ∧ (c.socket j).readyState = .open_ := by
  have hne : j ≠ i := by
    rintro rfl
    exact (wsClose_shut c j).2 ho
  rw [wsClose_ne c hne] at ho
  exact ⟨hne, ho⟩

/-- Whatever arms the heartbeat has its idle timer pending. -/
theorem armed_armHeartbeat (hc : Clocked c) (hms : c.heartbeatMs ≠ 0) : ∃ h, c.armHeartbeat.Pending h .idle :=
  ⟨c.nextTimer, (armHeartbeat_pending hc).mpr (.inr ⟨hms, rfl, rfl⟩)⟩

/-- A socket that is connecting needs no watch yet. -/
theorem armed_open (c : LiveClient) : c.open.Armed := by
  intro i hi ho
  obtain rfl : c.created = i := Option.some.inj hi
  have hr : (c.open.socket c.created).readyState = .connecting := by simp [LiveClient.open]
  rw [hr] at ho
  cases ho

/-- The timer of the heartbeat that fires was its only one. -/
theorem only_of_fired {t : Nat} (hc : Clocked c) (hpt : c.Pending t k) (hk : k ≠ .retry) {k' : TimerKind}
    (hh : c.Pending h k') (hk' : k' ≠ .retry) : k' = k := by
  obtain rfl : h = t := hc.unique hh hk' hpt hk
  exact hh.kind hpt

/-- A timer that fires keeps the watch: the idle timer hands over to the grace
timer, and the grace timer closes the socket. -/
theorem Armed.fire (hc : Clocked c) (ha : c.Armed) {t : Nat} (hpt : c.Pending t k) :
    (({ c with timers := c.timers.erase t } : LiveClient).fire k).Armed := by
  cases k with
  | retry => exact armed_open _
  | grace i =>
    intro j hj ho
    obtain ⟨hji, ho⟩ := wsClose_open ho
    rw [LiveClient.fire, (wsClose_same _ i).2.1] at hj
    obtain ⟨h, hh | hh⟩ := ha j hj ho
    · cases only_of_fired hc hpt (by simp) hh (by simp)
    · cases only_of_fired hc hpt (by simp) hh (by simp)
      exact absurd rfl hji
  | idle =>
    rcases fire_idle_cases { c with timers := c.timers.erase t } with ⟨he, hno⟩ | ⟨i, hw, -, he⟩ <;> rw [he]
    · exact fun j hj ho => absurd ho (hno j hj)
    · intro j hj _
      rw [wsSend_eq] at hj
      obtain rfl : i = j := Option.some.inj (hw.symm.trans hj)
      have hset : ((({ c with timers := c.timers.erase t } : LiveClient).wsSend i (.ping true)).setTimeout (.grace i)
          HEARTBEAT_GRACE_MS).1.Pending c.nextTimer (.grace i) := by
        refine pending_setTimeout.mpr (.inl ⟨?_, rfl⟩)
        rw [wsSend_eq]
      exact ⟨c.nextTimer, .inr hset⟩

/-- A timely step keeps the watch. -/
theorem Armed.step (hst : Steady c) (hms : c.heartbeatMs ≠ 0) (ha : c.Armed) (hs : Step c a d) (ht : c.Timely a) :
    d.Armed := by
  have hc := hst.clocked
  have asleep : c.suspend.Armed := by
    intro i hi
    rw [(suspend_frame c).2.2.2.2.1] at hi
    cases hi
  cases hs.outcome with
  | update v =>
    refine ha.congr ?_ (fun i _ ho => ?_) fun h k hk _ => ?_
    on_goal 2 => rwa [LiveClient.update, send_ready] at ho
    all_goals rw [LiveClient.update, send_eq]
    exact hk
  | setPinned ids =>
    refine ha.congr ?_ (fun i _ ho => ?_) fun h k hk _ => ?_
    on_goal 2 => rwa [LiveClient.setPinned, send_ready] at ho
    all_goals rw [LiveClient.setPinned, send_eq]
    exact hk
  | suspend => exact asleep
  | close => exact asleep
  | resume =>
    unfold LiveClient.resume
    split
    · exact ha
    · exact armed_open _
  | opened i hi =>
    have hc' : Clocked (c.setReady i .open_) := hc.congr rfl rfl rfl
    obtain ⟨h, hh⟩ := armed_armHeartbeat hc' hms
    refine fun _ _ _ => ⟨h, .inl ?_⟩
    rwa [Pending, (onopen_frame _ i).1]
  | message i m =>
    obtain ⟨h, hh⟩ := armed_armHeartbeat hc hms
    exact fun _ _ _ => ⟨h, .inl hh⟩
  | failed i =>
    refine ha.congr (wsClose_same c i).2.1 (fun j _ ho => (wsClose_open ho).2) fun h k hk _ => ?_
    rwa [Pending, (wsClose_same c i).1]
  | closed i hi =>
    intro j hj ho
    obtain ⟨hw, hsock⟩ := onclose_conn (c.setReady i .closed) i
    rw [hw] at hj
    rw [hsock, setReady_socket] at ho
    split at ho
    · cases ho
    · rename_i hji
      exact absurd (ht i j rfl hj ho).symm hji
  | timer t k ms hk => exact ha.fire hc ⟨ms, hk⟩

/-- Of all steps only a stale `close` event ends the watch. -/
theorem armed_step_iff (hst : Steady c) (hms : c.heartbeatMs ≠ 0) (ha : c.Armed) (hs : Step c a d) :
    d.Armed ↔ c.Timely a := by
  refine ⟨fun hd => ?_, ha.step hst hms hs⟩
  rintro i j rfl hj ho
  by_contra hne
  cases hs.outcome
  have hc' : Clocked (c.setReady i .closed) := hst.clocked.congr rfl rfl rfl
  obtain ⟨hw, hsock⟩ := onclose_conn (c.setReady i .closed) i
  obtain ⟨h, hh⟩ := hd j (hw.trans hj) (by rw [hsock, setReady_socket, if_neg (Ne.symm hne), ho])
  rcases hh with hh | hh <;> cases onclose_pending hc' hh

/-! ## Runs -/

/-- With a heartbeat, a client watches its open socket in every state it reaches
exactly if no `close` event of a replaced socket comes while the one that
replaced it is open. -/
theorem watched_run_iff {heartbeatMs : Nat} (hms : 0 < heartbeatMs) (pinned : List String) (v : ClientView)
    (as : List ClientAction) (c : LiveClient) :
    (start heartbeatMs pinned v).Watched ∧
      (Run (Ensured (fun _ _ d => d.Watched) Step) (start heartbeatMs pinned v) as c ↔
        Run (Guarded Timely Step) (start heartbeatMs pinned v) as c) := by
  have hstart : (start heartbeatMs pinned v).Watched :=
    ⟨armed_open _, pinged_of_sent fun _ _ ⟨_, h⟩ => (nomatch h)⟩
  refine ⟨hstart, Run.ensured_iff (P := fun c : LiveClient => Steady c ∧ c.heartbeatMs ≠ 0 ∧ c.Watched)
    (fun c a d hc hs => ?_) ⟨steady_start heartbeatMs pinned v, hms.ne', hstart⟩⟩
  obtain ⟨hst, hne, ha, hp⟩ := hc
  have hp' := hp.step hst.good hst.clocked hs
  have hiff := armed_step_iff hst hne ha hs
  refine ⟨⟨fun hd => hiff.mp hd.armed, fun ht => ⟨hiff.mpr ht, hp'⟩⟩, fun ht => ?_⟩
  exact ⟨hst.step hs, (heartbeatMs_step hs).symm ▸ hne, hiff.mpr ht, hp'⟩

/-- `Timely`, as a test. -/
def timely (c : LiveClient) : ClientAction → Bool
  | .closed i => c.ws.all fun j => (c.socket j).readyState ≠ .open_ || i = j
  | _ => true

theorem timely_of_test (h : c.timely a = true) : c.Timely a := by
  rintro i j rfl hj ho
  simpa [timely, hj, ho] using h

/-- A phone that is put to sleep and woken up, with the close of the old socket
before the new one opens. -/
theorem watched_run_iff_phone :
    ∃ c, c.ws = some 1 ∧
      Run (Ensured (fun _ _ d => d.Watched) Step) (start 30000 [] utrecht)
        [.opened 0, .suspend, .resume, .closed 0, .opened 1] c := by
  let timelyStep (c : LiveClient) (a : ClientAction) : Option LiveClient := if c.timely a then c.step a else none
  let c := (exec timelyStep (start 30000 [] utrecht) [.opened 0, .suspend, .resume, .closed 0, .opened 1]).get
    (by decide +kernel)
  have hrun : exec timelyStep (start 30000 [] utrecht) [.opened 0, .suspend, .resume, .closed 0, .opened 1] = some c :=
    (Option.some_get _).symm
  have hguard : Run (Guarded Timely Step) (start 30000 [] utrecht) [.opened 0, .suspend, .resume, .closed 0, .opened 1] c :=
    (Run.of_exec hrun).mono fun s a t hs => by
      rw [Option.ite_none_right_eq_some] at hs
      exact ⟨timely_of_test hs.1, hs.2⟩
  exact ⟨c, by decide +kernel, (watched_run_iff (by decide) [] utrecht _ c).2.mpr hguard⟩

/-- The close of the old socket comes when the new one is open, and nothing
watches it any more. -/
theorem not_watched :
    ¬∀ heartbeatMs pinned v, 0 < heartbeatMs → ∀ as c, Run Step (start heartbeatMs pinned v) as c → c.Watched := by
  intro h
  let c := (exec step (start 30000 [] utrecht) [.opened 0, .suspend, .resume, .opened 1, .closed 0]).get
    (by decide +kernel)
  have hrun : exec step (start 30000 [] utrecht) [.opened 0, .suspend, .resume, .opened 1, .closed 0] = some c :=
    (Option.some_get _).symm
  obtain ⟨t, ht⟩ := (h 30000 [] utrecht (by decide) _ c (Run.of_exec hrun)).armed 1 (by decide +kernel) (by decide +kernel)
  have hempty : c.timers.keys = [] := by decide +kernel
  have hnone : c.timers.lookup t = none := AList.lookup_eq_none.mpr (by rw [AList.mem_keys, hempty]; exact List.not_mem_nil)
  rcases ht with ⟨ms, ht⟩ | ⟨ms, ht⟩ <;> rw [hnone] at ht <;> cases ht

end OV.Impl.Client.LiveClient
