import Ovlive.Framework.Latest
import Ovlive.Impl.Client.LiveClient

/-!
# What a client has said

The invariant of a `LiveClient` that called `connect` (`Good`): at most the
current socket is connecting or open; on every socket the first message is a
`Subscribe` and the later ones are not; and the last view sent on an open
socket is the client's view and pins of now. `Wired` is the part of it that
does not look at the view. `Evolves` is what a method or a handler does to the
sockets: messages are only appended, and a socket that becomes the current one
is new. `Good.update`, …, `Good.fire` keep both.
-/

namespace OV.Impl

/-- The view a message asks for. -/
def ClientMessage.view? (m : ClientMessage) : Option View :=
  match m.payload with
  | some (.subscribe w) => some w
  | some (.updateViewport w) => some w
  | _ => none

/-- The last view asked for. -/
def lastView (ms : List ClientMessage) : Option View := latest ClientMessage.view? ms

theorem lastView_append {ms : List ClientMessage} {m : ClientMessage} :
    lastView (ms ++ [m]) = m.view?.or (lastView ms) :=
  latest_snoc _ _ _

namespace Client

/-- The messages of a socket: nothing, or a `Subscribe` and then pings and
viewport updates. -/
inductive WellSent : List ClientMessage → Prop
  | nil : WellSent []
  | subscribe (v : ClientView) (ids : List String) : WellSent [⟨some (.subscribe (viewportMsg v ids))⟩]
  | update {ms : List ClientMessage} (h : WellSent ms) (hne : ms ≠ []) (v : ClientView) (ids : List String) :
      WellSent (ms ++ [⟨some (.updateViewport (viewportMsg v ids))⟩])
  | ping {ms : List ClientMessage} (h : WellSent ms) (hne : ms ≠ []) : WellSent (ms ++ [⟨some (.ping true)⟩])

namespace LiveClient

variable {c d e : LiveClient}

@[simp] theorem setSocket_socket (c : LiveClient) (i j : Nat) (s : Socket) :
    (c.setSocket i s).socket j = if j = i then s else c.socket j := by
  simp [setSocket, Function.update_apply]

@[simp] theorem setSocket_view (c : LiveClient) (i : Nat) (s : Socket) : (c.setSocket i s).view = c.view := rfl
@[simp] theorem setSocket_pinned (c : LiveClient) (i : Nat) (s : Socket) : (c.setSocket i s).pinned = c.pinned := rfl
@[simp] theorem setSocket_ws (c : LiveClient) (i : Nat) (s : Socket) : (c.setSocket i s).ws = c.ws := rfl
@[simp] theorem setSocket_created (c : LiveClient) (i : Nat) (s : Socket) : (c.setSocket i s).created = c.created := rfl
@[simp] theorem setSocket_timers (c : LiveClient) (i : Nat) (s : Socket) : (c.setSocket i s).timers = c.timers := rfl
@[simp] theorem setSocket_retryTimer (c : LiveClient) (i : Nat) (s : Socket) :
    (c.setSocket i s).retryTimer = c.retryTimer := rfl

@[simp] theorem setReady_socket (c : LiveClient) (i j : Nat) (r : ReadyState) :
    (c.setReady i r).socket j = if j = i then { c.socket i with readyState := r } else c.socket j :=
  setSocket_socket ..

/-! ## The invariant -/

/-- A reconnect is pending. -/
def Retrying (c : LiveClient) (h : Nat) : Prop := ∃ ms, c.timers.lookup h = some (.retry, ms)

structure Wired (c : LiveClient) : Prop where
  fresh : ∀ i, c.created ≤ i → c.socket i = {}
  current : ∀ i, c.ws = some i → i < c.created
  others : ∀ i, c.ws ≠ some i → (c.socket i).readyState ≠ .connecting ∧ (c.socket i).readyState ≠ .open_
  unsent : ∀ i, (c.socket i).readyState = .connecting → (c.socket i).sent = []
  wellSent : ∀ i, WellSent (c.socket i).sent
  retry : ∀ h, c.Retrying h → c.retryTimer = some h ∧ ∃ i, c.ws = some i ∧ (c.socket i).readyState = .closed

structure Good (c : LiveClient) : Prop extends Wired c where
  viewed : c.view.isSome
  asked : ∀ i, (c.socket i).readyState = .open_ →
    ∃ v, c.view = some v ∧ lastView (c.socket i).sent = some (viewportMsg v c.pinned)

/-- Only the current socket can be open. -/
theorem Wired.ws_of_open (hc : Wired c) {i : Nat} (ho : (c.socket i).readyState = .open_) : c.ws = some i := by
  by_contra hne
  exact (hc.others i hne).2 ho

/-- What a client does to its sockets from one state to another. -/
structure Evolves (c d : LiveClient) : Prop where
  sent : ∀ i, (c.socket i).sent <+: (d.socket i).sent
  created : c.created ≤ d.created
  ws : ∀ i, d.ws = some i → c.ws = some i ∨ c.created ≤ i

theorem Evolves.refl (c : LiveClient) : Evolves c c :=
  ⟨fun _ => List.prefix_refl _, le_refl _, fun _ h => .inl h⟩

theorem Evolves.trans (h : Evolves c d) (h' : Evolves d e) : Evolves c e where
  sent i := (h.sent i).trans (h'.sent i)
  created := h.created.trans h'.created
  ws i hi := (h'.ws i hi).elim (h.ws i) fun hd => .inr (h.created.trans hd)

/-- The same sockets and views, and no new reconnect: all a timer or a status
changes. -/
structure SameConn (c d : LiveClient) : Prop where
  view : d.view = c.view
  pinned : d.pinned = c.pinned
  ws : d.ws = c.ws
  created : d.created = c.created
  socket : d.socket = c.socket
  retry : ∀ h, d.Retrying h → c.Retrying h ∧ d.retryTimer = c.retryTimer

theorem SameConn.trans (h : SameConn c d) (h' : SameConn d e) : SameConn c e where
  view := h'.view.trans h.view
  pinned := h'.pinned.trans h.pinned
  ws := h'.ws.trans h.ws
  created := h'.created.trans h.created
  socket := h'.socket.trans h.socket
  retry k hk := ⟨(h.retry k (h'.retry k hk).1).1, ((h'.retry k hk).2).trans (h.retry k (h'.retry k hk).1).2⟩

theorem SameConn.evolves (h : SameConn c d) : Evolves c d where
  sent _ := h.socket ▸ List.prefix_refl _
  created := h.created.ge
  ws _ hi := .inl (h.ws ▸ hi)

theorem Wired.congr (hc : Wired c) (h : SameConn c d) : Wired d where
  fresh := by rw [h.created, h.socket]; exact hc.fresh
  current := by rw [h.created, h.ws]; exact hc.current
  others := by rw [h.ws, h.socket]; exact hc.others
  unsent := by rw [h.socket]; exact hc.unsent
  wellSent := by rw [h.socket]; exact hc.wellSent
  retry k hk := by
    rw [h.ws, h.socket, (h.retry k hk).2]
    exact hc.retry k (h.retry k hk).1

theorem Good.congr (hc : Good c) (h : SameConn c d) : Good d where
  toWired := hc.toWired.congr h
  viewed := by rw [h.view]; exact hc.viewed
  asked := by rw [h.socket, h.view, h.pinned]; exact hc.asked

theorem clearTimeout_same (c : LiveClient) (h : Option Nat) : SameConn c (c.clearTimeout h) := by
  cases h with
  | none => exact ⟨rfl, rfl, rfl, rfl, rfl, fun _ hk => ⟨hk, rfl⟩⟩
  | some h =>
    refine ⟨rfl, rfl, rfl, rfl, rfl, fun k ⟨ms, hk⟩ => ⟨⟨ms, ?_⟩, rfl⟩⟩
    by_cases e : k = h
    · subst e
      simp [clearTimeout] at hk
    · rwa [clearTimeout, AList.lookup_erase_ne e] at hk

theorem clearHeartbeat_same (c : LiveClient) : SameConn c c.clearHeartbeat :=
  (clearTimeout_same c c.heartbeatTimer).trans ⟨rfl, rfl, rfl, rfl, rfl, fun _ hk => ⟨hk, rfl⟩⟩

/-- A timer that is no reconnect leaves the connection as it is. -/
theorem setTimeout_same {k : TimerKind} (hk : k ≠ .retry) (c : LiveClient) (ms : Nat) :
    SameConn c (c.setTimeout k ms).1 := by
  refine ⟨rfl, rfl, rfl, rfl, rfl, fun h ⟨m, hm⟩ => ⟨⟨m, ?_⟩, rfl⟩⟩
  simp only [setTimeout] at hm
  by_cases e : h = c.nextTimer
  · rw [e, AList.lookup_insert, Option.some.injEq, Prod.mk.injEq] at hm
    exact absurd hm.1 hk
  · rwa [AList.lookup_insert_ne e] at hm

theorem armHeartbeat_same (c : LiveClient) : SameConn c c.armHeartbeat := by
  simp only [armHeartbeat]
  split_ifs with h
  · exact clearHeartbeat_same c
  · exact ((clearHeartbeat_same c).trans (setTimeout_same (by simp) _ _)).trans
      ⟨rfl, rfl, rfl, rfl, rfl, fun _ hk => ⟨hk, rfl⟩⟩

/-! ## Sending -/

/-- Something was sent on every open socket. -/
def Spoken (c : LiveClient) : Prop := ∀ i, (c.socket i).readyState = .open_ → (c.socket i).sent ≠ []

theorem Good.spoken (hc : Good c) : c.Spoken := by
  intro i hi hs
  obtain ⟨v, _, hv⟩ := hc.asked i hi
  simp [hs, lastView] at hv

theorem evolves_setSocket {i : Nat} {s : Socket} (h : (c.socket i).sent <+: s.sent) : Evolves c (c.setSocket i s) where
  sent j := by
    rw [setSocket_socket]
    split_ifs with e
    · subst e; exact h
    · exact List.prefix_refl _
  created := le_refl _
  ws _ hj := .inl hj

theorem evolves_wsSend (c : LiveClient) (i : Nat) (p : Payload) : Evolves c (c.wsSend i p) := by
  unfold wsSend
  split_ifs with h
  · exact evolves_setSocket (List.prefix_append _ _)
  · exact .refl c

/-- An open socket that transmits keeps the invariant if what it has sent then
is in order. -/
theorem Wired.transmit (hc : Wired c) {i : Nat} (ho : (c.socket i).readyState = .open_) {ms : List ClientMessage}
    (hm : WellSent ms) : Wired (c.setSocket i { c.socket i with sent := ms }) where
  fresh j hj := by
    rw [setSocket_socket, if_neg, hc.fresh j hj]
    rintro rfl
    rw [hc.fresh j hj] at ho
    cases ho
  current := hc.current
  others j hj := by
    rw [setSocket_socket]
    split_ifs with e
    · subst e; exact absurd ho (hc.others j hj).2
    · exact hc.others j hj
  unsent j hj := by
    rw [setSocket_socket] at hj ⊢
    split_ifs at hj ⊢ with e
    · rw [ho] at hj; cases hj
    · exact hc.unsent j hj
  wellSent j := by
    rw [setSocket_socket]
    split_ifs with e
    · exact hm
    · exact hc.wellSent j
  retry h hh := by
    obtain ⟨h1, j, h2, h3⟩ := hc.retry h hh
    refine ⟨h1, j, h2, ?_⟩
    rw [setSocket_socket, if_neg, h3]
    rintro rfl
    rw [ho] at h3
    cases h3

/-- After a view is sent on the current socket, it is the last one. -/
theorem Good.of_transmit (hc : Wired c) {v : ClientView} (hv : c.view = some v) {i : Nat}
    (ho : (c.socket i).readyState = .open_) {m : ClientMessage} (hm : WellSent ((c.socket i).sent ++ [m]))
    (hw : m.view? = some (viewportMsg v c.pinned)) :
    Good (c.setSocket i { c.socket i with sent := (c.socket i).sent ++ [m] }) where
  toWired := hc.transmit ho hm
  viewed := by rw [setSocket_view, hv]; rfl
  asked j hj := by
    rw [setSocket_socket] at hj
    split_ifs at hj with e
    · subst e
      exact ⟨v, hv, by simp [lastView_append, hw]⟩
    · exact absurd (Option.some.inj ((hc.ws_of_open hj).symm.trans (hc.ws_of_open ho))) e

theorem Wired.send (hc : Wired c) (hs : c.Spoken) (hv : c.view.isSome) : Good c.send ∧ Evolves c c.send := by
  obtain ⟨v, hv⟩ := Option.isSome_iff_exists.mp hv
  cases hws : c.ws with
  | none =>
    have : c.send = c := by simp [LiveClient.send, hv, hws]
    rw [this]
    exact ⟨⟨hc, by rw [hv]; rfl, fun i hi => absurd hi (hc.others i (by simp [hws])).2⟩, .refl c⟩
  | some i =>
    have he : c.send = c.wsSend i (.updateViewport (viewportMsg v c.pinned)) := by simp [LiveClient.send, hv, hws]
    rw [he]
    refine ⟨?_, evolves_wsSend ..⟩
    unfold wsSend
    split_ifs with ho
    · exact Good.of_transmit hc hv ho (.update (hc.wellSent i) (hs i ho) v c.pinned) rfl
    · refine ⟨hc, by rw [hv]; rfl, fun j hj => ?_⟩
      by_cases e : i = j
      · exact absurd (e ▸ hj) ho
      · exact absurd hj (hc.others j (by simpa [hws] using e)).2

theorem Good.update (hc : Good c) (v : ClientView) : Good (c.update v) ∧ Evolves c (c.update v) := by
  obtain ⟨hg, he⟩ := Wired.send (c := { c with view := some v })
    ⟨hc.fresh, hc.current, hc.others, hc.unsent, hc.wellSent, hc.retry⟩ hc.spoken rfl
  exact ⟨hg, he.sent, he.created, he.ws⟩

theorem Good.setPinned (hc : Good c) (ids : List String) : Good (c.setPinned ids) ∧ Evolves c (c.setPinned ids) := by
  obtain ⟨hg, he⟩ := Wired.send (c := { c with pinned := ids })
    ⟨hc.fresh, hc.current, hc.others, hc.unsent, hc.wellSent, hc.retry⟩ hc.spoken hc.viewed
  exact ⟨hg, he.sent, he.created, he.ws⟩

/-! ## Opening and closing -/

theorem Wired.open (hc : Wired c) (hv : c.view.isSome)
    (hn : ∀ i, (c.socket i).readyState ≠ .connecting ∧ (c.socket i).readyState ≠ .open_)
    (hr : ∀ h, ¬c.Retrying h) : Good c.open ∧ Evolves c c.open := by
  have hs : ∀ j, c.open.socket j = if j = c.created then { readyState := .connecting } else c.socket j :=
    fun j => setSocket_socket _ _ _ _
  refine ⟨⟨⟨fun i hi => ?_, fun i hi => ?_, fun i hi => ?_, fun i hi => ?_, fun i => ?_, fun h hh => absurd hh (hr h)⟩,
    hv, fun i hi => ?_⟩, fun i => ?_, Nat.le_succ _, fun i hi => .inr (Option.some.inj hi).le⟩
  · have hi : c.created + 1 ≤ i := hi
    rw [hs, if_neg (by omega), hc.fresh i (by omega)]
  · have hi : some c.created = some i := hi
    exact Option.some.inj hi ▸ Nat.lt_succ_self _
  · have hi : some c.created ≠ some i := hi
    have hne : i ≠ c.created := fun e => hi (congrArg some e.symm)
    rw [hs, if_neg hne]
    exact hn i
  · rw [hs] at hi ⊢
    split_ifs at hi ⊢ with e
    · rfl
    · exact absurd hi (hn i).1
  · rw [hs]
    split_ifs with e
    · exact .nil
    · exact hc.wellSent i
  · rw [hs] at hi
    split_ifs at hi with e
    exact absurd hi (hn i).2
  · rw [hs]
    split_ifs with e
    · have hnil : (c.socket i).sent = [] := congrArg Socket.sent (hc.fresh i e.ge)
      exact hnil ▸ List.nil_prefix
    · exact List.prefix_refl _

theorem Good.resume (hc : Good c) : Good c.resume ∧ Evolves c c.resume := by
  unfold LiveClient.resume
  split_ifs with h
  · exact ⟨hc, .refl c⟩
  · simp only [not_or, Bool.not_eq_true, Option.isSome_eq_false_iff, Option.isNone_iff_eq_none] at h
    have hno : ∀ k, ¬c.Retrying k := fun k hk => by
      obtain ⟨_, i, hi, _⟩ := hc.retry k hk
      rw [h.1] at hi
      cases hi
    obtain ⟨hg, he⟩ := Wired.open (c := { c with closedByUser := false, retry := 500 })
      ⟨hc.fresh, hc.current, hc.others, hc.unsent, hc.wellSent, hc.retry⟩ hc.viewed
      (fun i => hc.others i (by simp [h.1])) hno
    exact ⟨hg, he.sent, he.created, he.ws⟩

/-- A socket changes its ready state: the current one may open, any may close. -/
theorem Wired.ready (hc : Wired c) {i : Nat} {r : ReadyState} (hi : (c.socket i).readyState ≠ .closed)
    (hr : r ≠ .connecting) (ho : r = .open_ → c.ws = some i) : Wired (c.setReady i r) where
  fresh j hj := by
    rw [setReady_socket, if_neg, hc.fresh j hj]
    rintro rfl
    rw [hc.fresh j hj] at hi
    exact hi rfl
  current := hc.current
  others j hj := by
    rw [setReady_socket]
    split_ifs with e
    · exact ⟨hr, fun h => hj (e ▸ ho h)⟩
    · exact hc.others j hj
  unsent j hj := by
    rw [setReady_socket] at hj ⊢
    split_ifs at hj ⊢ with e
    · exact absurd hj hr
    · exact hc.unsent j hj
  wellSent j := by
    rw [setReady_socket]
    split_ifs with e
    · exact hc.wellSent i
    · exact hc.wellSent j
  retry h hh := by
    obtain ⟨h1, j, h2, h3⟩ := hc.retry h hh
    refine ⟨h1, j, h2, ?_⟩
    rw [setReady_socket, if_neg, h3]
    rintro rfl
    exact hi h3

theorem evolves_setReady (c : LiveClient) (i : Nat) (r : ReadyState) : Evolves c (c.setReady i r) :=
  evolves_setSocket (s := { c.socket i with readyState := r }) (List.prefix_refl _)

/-- A socket goes to closing or closed. -/
theorem Good.shut (hc : Good c) {i : Nat} {r : ReadyState} (h1 : r ≠ .connecting) (h2 : r ≠ .open_)
    (hi : (c.socket i).readyState ≠ .closed) : Good (c.setReady i r) where
  toWired := hc.ready hi h1 fun h => absurd h h2
  viewed := hc.viewed
  asked j hj := by
    rw [setReady_socket] at hj ⊢
    split_ifs at hj ⊢ with e
    · exact absurd hj h2
    · exact hc.asked j hj

theorem Good.wsClose (hc : Good c) (i : Nat) : Good (c.wsClose i) ∧ Evolves c (c.wsClose i) := by
  unfold LiveClient.wsClose
  split_ifs with h
  · refine ⟨hc.shut (by simp) (by simp) ?_, evolves_setReady c i _⟩
    rcases h with h | h <;> simp [h]
  · exact ⟨hc, .refl c⟩

/-- A closed socket neither connects nor transmits. -/
theorem wsClose_shut (c : LiveClient) (i : Nat) :
    ((c.wsClose i).socket i).readyState ≠ .connecting ∧ ((c.wsClose i).socket i).readyState ≠ .open_ := by
  unfold LiveClient.wsClose
  split_ifs with h
  · simp
  · exact not_or.mp h

theorem wsClose_ne (c : LiveClient) {i j : Nat} (h : j ≠ i) : (c.wsClose i).socket j = c.socket j := by
  unfold LiveClient.wsClose
  split_ifs
  · rw [setReady_socket, if_neg h]
  · rfl

theorem wsClose_same (c : LiveClient) (i : Nat) :
    (c.wsClose i).timers = c.timers ∧ (c.wsClose i).ws = c.ws ∧
      ({ c with ws := none } : LiveClient).wsClose i = { c.wsClose i with ws := none } := by
  unfold LiveClient.wsClose
  split_ifs <;> exact ⟨rfl, rfl, rfl⟩

/-! ## Events -/

theorem Good.onerror (hc : Good c) (i : Nat) : Good (c.onerror i) ∧ Evolves c (c.onerror i) := hc.wsClose i

theorem Good.onmessage (hc : Good c) (m : ServerMessage) :
    Good (c.onmessage m).1 ∧ Evolves c (c.onmessage m).1 :=
  ⟨hc.congr (armHeartbeat_same c), (armHeartbeat_same c).evolves⟩

/-- A socket opens, and the client subscribes on it. -/
theorem Good.opened (hc : Good c) {i : Nat} (hi : (c.socket i).readyState = .connecting) :
    Good ((c.setReady i .open_).onopen i) ∧ Evolves c ((c.setReady i .open_).onopen i) := by
  obtain ⟨v, hv⟩ := Option.isSome_iff_exists.mp hc.viewed
  -- the only socket that can be connecting is the current one
  have hws : c.ws = some i := by
    by_contra hne; exact (hc.others i hne).1 hi
  have hw : Wired (c.setReady i .open_) := hc.ready (by simp [hi]) (by simp) fun _ => hws
  have hsame := armHeartbeat_same { c.setReady i .open_ with retry := 500 }
  have he : (c.setReady i .open_).onopen i =
      ({ ({ c.setReady i .open_ with retry := 500 } : LiveClient).armHeartbeat with status := some .open_ } :
        LiveClient).wsSend i (.subscribe (viewportMsg v c.pinned)) := by
    simp only [onopen, hsame.view, hsame.pinned]
    simp only [setReady, setSocket_view, hv]
    rfl
  rw [he]
  generalize ({ c.setReady i .open_ with retry := 500 } : LiveClient).armHeartbeat = d at hsame ⊢
  have hdi : d.socket i = { c.socket i with readyState := .open_ } := by
    rw [hsame.socket]
    exact (setReady_socket c i i .open_).trans (if_pos rfl)
  have hd : Wired { d with status := some .open_ } :=
    Wired.congr (c := { c.setReady i .open_ with retry := 500 })
      ⟨hw.fresh, hw.current, hw.others, hw.unsent, hw.wellSent, hw.retry⟩
      (hsame.trans ⟨rfl, rfl, rfl, rfl, rfl, fun _ hk => ⟨hk, rfl⟩⟩)
  constructor
  · have ho : (({ d with status := some .open_ } : LiveClient).socket i).readyState = .open_ := by
      show (d.socket i).readyState = _
      rw [hdi]
    rw [wsSend, if_pos ho]
    refine Good.of_transmit hd (hsame.view.trans hv) ho ?_ (congrArg some (congrArg _ hsame.pinned.symm))
    show WellSent ((d.socket i).sent ++ _)
    rw [hdi, hc.unsent i hi]
    exact .subscribe v c.pinned
  · have h := (evolves_setReady c i .open_).trans
      ⟨hsame.evolves.sent, hsame.evolves.created, hsame.evolves.ws⟩
    exact Evolves.trans (d := { d with status := some .open_ }) ⟨h.sent, h.created, h.ws⟩ (evolves_wsSend ..)

/-- A socket closes; the client may schedule a reconnect. -/
theorem Good.closed (hc : Good c) {i : Nat} (hi : (c.socket i).readyState ≠ .closed) :
    Good ((c.setReady i .closed).onclose i) ∧ Evolves c ((c.setReady i .closed).onclose i) := by
  have hsame := clearHeartbeat_same (c.setReady i .closed)
  have hg := (hc.shut (r := .closed) (by simp) (by simp) hi).congr hsame
  have hev := (evolves_setReady c i .closed).trans hsame.evolves
  have hdi : ((c.setReady i .closed).clearHeartbeat.socket i).readyState = .closed := by
    rw [hsame.socket, setReady_socket, if_pos rfl]
  -- a pending reconnect would mean the socket was closed already
  have hno : (c.setReady i .closed).clearHeartbeat.ws = some i →
      ∀ h, ¬(c.setReady i .closed).clearHeartbeat.Retrying h := by
    intro hws h hh
    obtain ⟨_, j, h2, h3⟩ := hc.retry h (hsame.retry h hh).1
    have hij : some j = some i := h2.symm.trans (hsame.ws.symm.trans hws)
    exact hi (Option.some.inj hij ▸ h3)
  simp only [onclose]
  generalize (c.setReady i .closed).clearHeartbeat = d at hg hev hdi hno
  split_ifs with hws hu
  · exact ⟨hg, hev⟩
  · exact ⟨⟨⟨hg.fresh, hg.current, hg.others, hg.unsent, hg.wellSent, hg.retry⟩, hg.viewed, hg.asked⟩,
      hev.sent, hev.created, hev.ws⟩
  · rw [not_not] at hws
    refine ⟨⟨⟨hg.fresh, hg.current, hg.others, hg.unsent, hg.wellSent, fun h ⟨ms, hh⟩ => ?_⟩, hg.viewed, hg.asked⟩,
      hev.sent, hev.created, hev.ws⟩
    simp only [setTimeout] at hh ⊢
    by_cases e : h = d.nextTimer
    · exact ⟨congrArg some e.symm, i, hws, hdi⟩
    · rw [AList.lookup_insert_ne e] at hh
      exact absurd ⟨ms, hh⟩ (hno hws h)

/-- Without a reconnect pending, a client whose sockets are all shut may give
up the current one. -/
theorem Good.drop (hc : Good c) (hr : ∀ h, ¬c.Retrying h)
    (hn : ∀ i, (c.socket i).readyState ≠ .connecting ∧ (c.socket i).readyState ≠ .open_) (st : Option ConnStatus) :
    Good { c with ws := none, status := st } :=
  ⟨⟨hc.fresh, nofun, fun i _ => hn i, hc.unsent, hc.wellSent, fun k hk => absurd hk (hr k)⟩, hc.viewed, hc.asked⟩

/-- A client with its timers cleared, its socket still to be closed. -/
def unarmed (c : LiveClient) : LiveClient :=
  { ({ c.clearTimeout c.retryTimer with retryTimer := none } : LiveClient).clearHeartbeat with closedByUser := true }

/-- The socket given up, and closed if there is one. -/
def giveUp (c : LiveClient) : LiveClient :=
  { (c.ws.elim { c with ws := none } fun i => ({ c with ws := none } : LiveClient).wsClose i) with
    status := some .closed }

theorem suspend_eq (c : LiveClient) : c.suspend = c.unarmed.giveUp := by
  unfold giveUp
  cases h : c.unarmed.ws <;> simp only [unarmed] at h <;> simp only [LiveClient.suspend, unarmed, h, Option.elim]

/-- Without its timers no retry is pending. -/
theorem Good.unarmed (hc : Good c) :
    Good c.unarmed ∧ Evolves c c.unarmed ∧ ∀ h, ¬c.unarmed.Retrying h := by
  have hsame := clearTimeout_same c c.retryTimer
  have hno : ∀ h, ¬({ c.clearTimeout c.retryTimer with retryTimer := none } : LiveClient).Retrying h := by
    rintro h ⟨ms, hh⟩
    have hr := (hc.retry h (hsame.retry h ⟨ms, hh⟩).1).1
    simp only [hr, clearTimeout, AList.lookup_erase] at hh
    cases hh
  have hg : Good { c.clearTimeout c.retryTimer with retryTimer := none } := by
    have h := hc.congr hsame
    exact ⟨⟨h.fresh, h.current, h.others, h.unsent, h.wellSent, fun k hk => absurd hk (hno k)⟩, h.viewed, h.asked⟩
  have hev : Evolves c { c.clearTimeout c.retryTimer with retryTimer := none } :=
    ⟨hsame.evolves.sent, hsame.evolves.created, hsame.evolves.ws⟩
  have hsame' := (clearHeartbeat_same { c.clearTimeout c.retryTimer with retryTimer := none }).trans (e := c.unarmed)
    ⟨rfl, rfl, rfl, rfl, rfl, fun _ hk => ⟨hk, rfl⟩⟩
  exact ⟨hg.congr hsame', hev.trans hsame'.evolves, fun h hh => hno h (hsame'.retry h hh).1⟩

theorem Good.suspend (hc : Good c) : Good c.suspend ∧ Evolves c c.suspend := by
  obtain ⟨hg, hev, hno⟩ := hc.unarmed
  rw [suspend_eq]
  generalize c.unarmed = d at hg hev hno
  unfold giveUp
  cases hws : d.ws with
  | none =>
    rw [Option.elim_none]
    exact ⟨hg.drop hno (fun i => hg.others i (by simp [hws])) _, hev.sent, hev.created, fun _ h => by cases h⟩
  | some i =>
    rw [Option.elim_some, (wsClose_same d i).2.2]
    have hi := hg.wsClose i
    have hno' : ∀ h, ¬(d.wsClose i).Retrying h := by
      rintro h ⟨ms, hh⟩
      exact hno h ⟨ms, (wsClose_same d i).1 ▸ hh⟩
    refine ⟨hi.1.drop hno' (fun j => ?_) _, (hev.trans hi.2).sent, (hev.trans hi.2).created, fun _ h => by cases h⟩
    by_cases hj : j = i
    · rw [hj]
      exact wsClose_shut d i
    · rw [wsClose_ne d hj]
      exact hg.others j fun h => hj (Option.some.inj (h.symm.trans hws))

/-- The watchdog pings an open socket. -/
theorem Good.fire_idle (hc : Good c) : Good (c.fire .idle) ∧ Evolves c (c.fire .idle) := by
  cases hws : c.ws with
  | none =>
    simp only [LiveClient.fire, hws]
    exact ⟨hc, .refl c⟩
  | some i =>
    simp only [LiveClient.fire, hws]
    split_ifs with ho
    · exact ⟨hc, .refl c⟩
    · rw [not_not] at ho
      have hp : Good (c.wsSend i (.ping true)) := by
        rw [wsSend, if_pos ho]
        refine ⟨hc.transmit ho (.ping (hc.wellSent i) (hc.spoken i ho)), hc.viewed, fun j hj => ?_⟩
        rw [setSocket_socket] at hj ⊢
        split_ifs at hj ⊢ with e
        · obtain ⟨v, hv, hl⟩ := hc.asked i ho
          exact ⟨v, hv, by rw [lastView_append, hl]; rfl⟩
        · exact hc.asked j hj
      have hs := setTimeout_same (k := .grace i) (by simp) (c.wsSend i (.ping true)) HEARTBEAT_GRACE_MS
      have hev := (evolves_wsSend c i (.ping true)).trans hs.evolves
      have hg := hp.congr hs
      exact ⟨⟨⟨hg.fresh, hg.current, hg.others, hg.unsent, hg.wellSent, hg.retry⟩, hg.viewed, hg.asked⟩,
        hev.sent, hev.created, hev.ws⟩

/-- A timer fires. -/
theorem Good.fire (hc : Good c) {h ms : Nat} {k : TimerKind} (hk : c.timers.lookup h = some (k, ms)) :
    Good (({ c with timers := c.timers.erase h } : LiveClient).fire k) ∧
      Evolves c (({ c with timers := c.timers.erase h } : LiveClient).fire k) := by
  have hsame := clearTimeout_same c (some h)
  have hg : Good { c with timers := c.timers.erase h } := hc.congr hsame
  have hev : Evolves c { c with timers := c.timers.erase h } := hsame.evolves
  cases k with
  | retry =>
    -- the reconnect that was pending was the only one, and the current socket is closed
    obtain ⟨h1, i, h2, h3⟩ := hc.retry h ⟨ms, hk⟩
    have hn : ∀ j, (c.socket j).readyState ≠ .connecting ∧ (c.socket j).readyState ≠ .open_ := by
      intro j
      by_cases hj : j = i
      · rw [hj, h3]
        exact ⟨nofun, nofun⟩
      · exact hc.others j fun e => hj (Option.some.inj (e.symm.trans h2))
    have hr : ∀ h', ¬({ c with timers := c.timers.erase h } : LiveClient).Retrying h' := by
      intro h' hh
      obtain rfl : h = h' := Option.some.inj (h1.symm.trans (hc.retry h' (hsame.retry h' hh).1).1)
      obtain ⟨ms', hh⟩ := hh
      rw [AList.lookup_erase] at hh
      cases hh
    have ho := Wired.open hg.toWired hg.viewed hn hr
    exact ⟨ho.1, hev.trans ho.2⟩
  | idle => exact ⟨hg.fire_idle.1, hev.trans hg.fire_idle.2⟩
  | grace i => exact ⟨(hg.wsClose i).1, hev.trans (hg.wsClose i).2⟩

/-- A client that calls `connect` first. -/
theorem good_connect (heartbeatMs : Nat) (pinned : List String) (v : ClientView) :
    Good (({ heartbeatMs := heartbeatMs, pinned := pinned } : LiveClient).connect v) :=
  (Wired.open (c := { heartbeatMs := heartbeatMs, pinned := pinned, view := some v })
    ⟨fun _ _ => rfl, nofun, fun _ _ => ⟨nofun, nofun⟩, nofun, fun _ => .nil, fun _ ⟨_, h⟩ => nomatch h⟩ rfl
    (fun _ => ⟨nofun, nofun⟩) fun _ ⟨_, h⟩ => nomatch h).1

end LiveClient

end Client

end OV.Impl
