import Ovlive.Framework.Lists
import Ovlive.Framework.Run
import Ovlive.Impl.Stream
import Ovlive.Proof.Stream.Client
import Ovlive.Proof.Stream.Store

/-!
# Client and server in step

The invariant of the stream (`Sys.Good`): every socket's messages are in order
(`LiveClient.Good`), every server task has the parameters of the last view it
processed and each of its ticks continues the one before (`Peer.Good`,
`Subscription.Follows`), and the store mirrors what the subscription had sent
at the last tick delivered on the current socket (`Mirrors`).
`Sys.Good.effect` says once what a step can do; `Sys.Good.step` is the step lemma
and `good_of_run` the run lemma.
-/

namespace OV.Impl

open Client

/-! ## A server task -/

/-- The last tick of a log. -/
def lastTick (log : List Item) : Option Tick := latest Item.tick? log

theorem lastTick_append {log : List Item} {x : Item} : lastTick (log ++ [x]) = x.tick?.or (lastTick log) :=
  latest_snoc _ _ _

namespace Subscription

/-- A subscription is new, or has sent what the tick before it left. -/
def Follows (s : Subscription) (prev : Option Tick) : Prop :=
  (s.sent = ∅ ∧ s.forceSnapshot = true) ∨ ∃ p, prev = some p ∧ s.sent = p.after.sent ∧ s.forceSnapshot = false

/-- Before a snapshot nothing was sent. -/
theorem Follows.sent_empty {s : Subscription} {prev : Option Tick} (h : s.Follows prev) (hb : s.forceSnapshot = true) :
    s.sent = ∅ := by
  obtain ⟨hs, _⟩ | ⟨_, _, _, hn⟩ := h
  · exact hs
  · exact nomatch hn.symm.trans hb

/-- A subscription has the box, the filters and the pins of a view. -/
def Asks (s : Subscription) (w : View) : Prop :=
  ∃ vp f, w.viewport = some vp ∧ w.filters = some f ∧ s.bbox = pbViewportToBBox vp ∧
    s.filters = pbFiltersToCore f ∧ s.pinned = w.pinned

/-- What was sent has a position. -/
def Real (s : Subscription) : Prop := ∀ k v, s.sent.lookup k = some v → v.lat.isFinite = true ∧ v.lon.isFinite = true

theorem asks_viewportMsg {s : Subscription} {v : ClientView} {ids : List String} :
    s.Asks (viewportMsg v ids) ↔ s.bbox = v.bbox ∧
      s.filters = pbFiltersToCore { vehicleTypes := v.filters.types, dataowners := v.filters.owners
                                    search := v.filters.search } ∧ s.pinned = ids := by
  constructor
  · rintro ⟨vp, f, h1, h2, h3, h4, h5⟩
    cases h1; cases h2
    exact ⟨h3, h4, h5⟩
  · rintro ⟨h1, h2, h3⟩
    exact ⟨_, _, rfl, rfl, h1, h2, h3⟩

theorem Real.buildUpdate {s : Subscription} (h : s.Real) (idx : VehicleIndex) : (s.buildUpdate idx).1.Real := by
  intro k v hv
  rw [buildUpdate_sent] at hv
  cases hw : s.wants idx k with
  | none => rw [hw] at hv; cases hs : s.sent.lookup k <;> rw [hs] at hv <;> cases hv
  | some t =>
    -- an index holds positioned trips only
    have hp := idx.positioned t (mem_vehicles_of_wanted (wants_eq_some.mp hw).1)
    rw [LiveTrip.hasPosition, Bool.and_eq_true] at hp
    rw [hw] at hv
    cases hs : s.sent.lookup k with
    | none => rw [hs] at hv; cases hv; exact hp
    | some u =>
      rw [hs] at hv
      simp only [Mirror.sync, Option.some.injEq] at hv
      split at hv
      · subst hv; exact h k u hs
      · subst hv; exact hp

end Subscription

/-- What holds of a server task whose socket carried the messages `sent`. -/
structure Peer.Good (sent : List ClientMessage) (p : Peer) : Prop where
  received : p.received ≤ sent.length
  delivered : p.delivered ≤ p.log.length
  replies : ∀ m, .reply m ∈ p.log → m = .pong
  idle : p.sub = none → p.received = 0
  sub : ∀ s, p.sub = some s →
    (∃ w, lastView (sent.take p.received) = some w ∧ s.Asks w) ∧ s.Follows (lastTick p.log) ∧ s.Real
  ticks : ∀ (n : Nat) (t : Tick), p.log[n]? = some (.tick t) → t.received ≤ p.received ∧
    (∃ w, lastView (sent.take t.received) = some w ∧ t.before.Asks w) ∧
    t.before.Follows (lastTick (p.log.take n)) ∧ t.before.Real

theorem Client.WellSent.get {ms : List ClientMessage} (h : WellSent ms) {n : Nat} {m : ClientMessage}
    (hm : ms[n]? = some m) :
    (n = 0 ∧ ∃ v ids, m = ⟨some (.subscribe (viewportMsg v ids))⟩) ∨
      (0 < n ∧ (m = ⟨some (.ping true)⟩ ∨ ∃ v ids, m = ⟨some (.updateViewport (viewportMsg v ids))⟩)) := by
  induction h with
  | nil => simp at hm
  | subscribe v ids =>
    rw [List.getElem?_singleton] at hm
    split at hm
    · cases hm; exact .inl ⟨‹_›, v, ids, rfl⟩
    · cases hm
  | update _ hne v ids ih =>
    rcases getElem?_snoc hm with ⟨-, hm⟩ | ⟨rfl, rfl⟩
    · exact ih hm
    · exact .inr ⟨List.length_pos_iff.mpr hne, .inr ⟨v, ids, rfl⟩⟩
  | ping _ hne ih =>
    rcases getElem?_snoc hm with ⟨-, hm⟩ | ⟨rfl, rfl⟩
    · exact ih hm
    · exact .inr ⟨List.length_pos_iff.mpr hne, .inl rfl⟩

namespace Peer

variable {sent sent' : List ClientMessage} {p : Peer}

theorem good_fresh (sent : List ClientMessage) : Good sent {} where
  received := Nat.zero_le _
  delivered := le_refl _
  replies _ h := nomatch h
  idle _ := rfl
  sub _ h := nomatch h
  ticks n t h := by simp at h

/-- Messages still unprocessed do not matter. -/
theorem Good.grow (hp : Good sent p) (h : sent <+: sent') : Good sent' p := by
  obtain ⟨rest, rfl⟩ := h
  have htake : ∀ n ≤ p.received, (sent ++ rest).take n = sent.take n := fun n hn =>
    List.take_append_of_le_length (hn.trans hp.received)
  exact
    { hp with
      received := hp.received.trans (by simp)
      sub := fun s hs => by rw [htake _ le_rfl]; exact hp.sub s hs
      ticks := fun n t ht => by
        have h := hp.ticks n t ht
        rw [htake _ h.1]
        exact h }

theorem Good.deliver (hp : Good sent p) {x : Item} (hx : p.log[p.delivered]? = some x) :
    Good sent { p with delivered := p.delivered + 1 } :=
  ⟨hp.received, (List.getElem?_eq_some_iff.mp hx).1, hp.replies, hp.idle, hp.sub, hp.ticks⟩

/-- An item at the end of the log leaves the ones before it in order. -/
theorem Good.ticks_snoc (hp : Good sent p) {x : Item} {r : Nat} (hr : p.received ≤ r)
    (hx : ∀ t, x = .tick t → t.received ≤ r ∧ (∃ w, lastView (sent.take t.received) = some w ∧ t.before.Asks w) ∧
      t.before.Follows (lastTick p.log) ∧ t.before.Real)
    (n : Nat) (t : Tick) (h : (p.log ++ [x])[n]? = some (.tick t)) :
    t.received ≤ r ∧ (∃ w, lastView (sent.take t.received) = some w ∧ t.before.Asks w) ∧
      t.before.Follows (lastTick ((p.log ++ [x]).take n)) ∧ t.before.Real := by
  rcases getElem?_snoc h with ⟨hn, ht⟩ | ⟨rfl, ht⟩
  · rw [List.take_append_of_le_length hn.le]
    exact ⟨(hp.ticks n t ht).1.trans hr, (hp.ticks n t ht).2⟩
  · rw [List.take_left' rfl]
    exact hx t ht

theorem Good.tick (hp : Good sent p) (idx : VehicleIndex) : Good sent (p.tick idx) := by
  unfold Peer.tick
  cases hs : p.sub with
  | none => exact hp
  | some s =>
    obtain ⟨hw, hf, hr⟩ := hp.sub s hs
    refine ⟨hp.received, hp.delivered.trans (by simp), fun m hm => ?_, nofun, fun u hu => ?_, ?_⟩
    · rcases List.mem_append.mp hm with h | h
      · exact hp.replies m h
      · simp at h
    · cases hu
      refine ⟨hw, .inr ⟨_, lastTick_append, rfl, rfl⟩, hr.buildUpdate idx⟩
    · refine hp.ticks_snoc le_rfl fun t ht => ?_
      cases ht
      exact ⟨le_rfl, hw, hf, hr⟩

/-- With one more message processed, its view is the last one processed. -/
theorem lastView_take_succ {n : Nat} {m : ClientMessage} (hm : sent[n]? = some m) :
    lastView (sent.take (n + 1)) = m.view?.or (lastView (sent.take n)) := by
  rw [List.take_add_one, hm, Option.toList_some, lastView_append]

theorem Good.ticks_succ (hp : Good sent p) (n : Nat) (t : Tick) (ht : p.log[n]? = some (.tick t)) :
    t.received ≤ p.received + 1 ∧ (∃ w, lastView (sent.take t.received) = some w ∧ t.before.Asks w) ∧
      t.before.Follows (lastTick (p.log.take n)) ∧ t.before.Real :=
  ⟨(hp.ticks n t ht).1.trans (Nat.le_succ _), (hp.ticks n t ht).2⟩

/-- `Subscribe`: a new subscription. -/
theorem Good.serve_subscribe (hp : Good sent p) {v : ClientView} {ids : List String}
    (hm : sent[p.received]? = some ⟨some (.subscribe (viewportMsg v ids))⟩) :
    Good sent (p.serve ⟨some (.subscribe (viewportMsg v ids))⟩) := by
  refine ⟨(List.getElem?_eq_some_iff.mp hm).1, hp.delivered.trans (by simp [Peer.serve]), ?_, nofun, fun s hs => ?_, ?_⟩
  · simpa [Peer.serve, applyClientMsg, viewportMsg] using hp.replies
  · simp only [Peer.serve, applyClientMsg, viewportMsg, Option.some.injEq] at hs
    subst hs
    exact ⟨⟨_, lastView_take_succ hm, _, _, rfl, rfl, rfl, rfl, rfl⟩, .inl ⟨rfl, rfl⟩, fun k v hv => by simp at hv⟩
  · simpa [Peer.serve, applyClientMsg, viewportMsg] using hp.ticks_succ

/-- A ping: the subscription is as it was, and a pong goes out. -/
theorem Good.serve_ping (hp : Good sent p) (h0 : 0 < p.received) (hm : sent[p.received]? = some ⟨some (.ping true)⟩) :
    Good sent (p.serve ⟨some (.ping true)⟩) := by
  have hne : p.sub ≠ none := fun h => h0.ne' (hp.idle h)
  have hlog : (p.serve ⟨some (.ping true)⟩).log = p.log ++ [.reply .pong] := rfl
  refine ⟨(List.getElem?_eq_some_iff.mp hm).1, hp.delivered.trans (by simp [Peer.serve]), fun m h => ?_,
    fun h => absurd h hne, fun s hs => ?_, ?_⟩
  · rw [hlog, List.mem_append, List.mem_singleton, Item.reply.injEq] at h
    exact h.elim (hp.replies m) id
  · obtain ⟨⟨w, hw, ha⟩, hf, hr⟩ := hp.sub s hs
    refine ⟨⟨w, ?_, ha⟩, ?_, hr⟩
    · exact (lastView_take_succ hm).trans hw
    · rw [hlog, lastTick_append]
      exact hf
  · rw [hlog]
    exact hp.ticks_snoc (Nat.le_succ _) fun t ht => nomatch ht

/-- `UpdateViewport`: new parameters for the same subscription. -/
theorem Good.serve_viewport (hp : Good sent p) (h0 : 0 < p.received) {v : ClientView} {ids : List String}
    (hm : sent[p.received]? = some ⟨some (.updateViewport (viewportMsg v ids))⟩) :
    Good sent (p.serve ⟨some (.updateViewport (viewportMsg v ids))⟩) := by
  cases hsub : p.sub with
  | none => exact absurd (hp.idle hsub) h0.ne'
  | some s =>
    obtain ⟨_, hf, hr⟩ := hp.sub s hsub
    refine ⟨(List.getElem?_eq_some_iff.mp hm).1, hp.delivered.trans (by simp [Peer.serve]), ?_, ?_, fun u hu => ?_, ?_⟩
    · simpa [Peer.serve, applyClientMsg, viewportMsg, hsub] using hp.replies
    · simp [Peer.serve, applyClientMsg, viewportMsg, hsub]
    · simp only [Peer.serve, applyClientMsg, viewportMsg, hsub, Option.some.injEq] at hu
      subst hu
      refine ⟨⟨_, lastView_take_succ hm, _, _, rfl, rfl, rfl, rfl, rfl⟩, ?_, hr⟩
      simp only [Peer.serve, applyClientMsg, viewportMsg, hsub, Option.map_none, Option.toList_none, List.append_nil]
      exact hf
    · simpa [Peer.serve, applyClientMsg, viewportMsg, hsub] using hp.ticks_succ

theorem Good.serve (hp : Good sent p) (hs : WellSent sent) {m : ClientMessage} (hm : sent[p.received]? = some m) :
    Good sent (p.serve m) := by
  rcases hs.get hm with ⟨-, v, ids, rfl⟩ | ⟨h0, rfl | ⟨v, ids, rfl⟩⟩
  · exact hp.serve_subscribe hm
  · exact hp.serve_ping h0 hm
  · exact hp.serve_viewport h0 hm

end Peer

/-! ## The system -/

/-- The store shows what was sent, vehicle by vehicle and feature by feature. -/
def Mirrors [Platform] (st : VehicleStore) (sent : Map String Sent) : Prop :=
  ∀ k, Option.Rel shows (st.vehicles.lookup k) (sent.lookup k) ∧ Option.Rel placed (st.features.lookup k) (sent.lookup k)

/-- A store that mirrors what a subscription has sent, unless the next frame is
a snapshot, mirrors what it has sent after a tick. -/
theorem Mirrors.hear [Platform] (st : VehicleStore) {t : Tick} {prev : Option Tick} (hf : t.before.Follows prev)
    (h : ∀ p, prev = some p → Mirrors st p.after.sent) : Mirrors (st.hear t.before t.idx) t.after.sent := by
  have hbase : ∀ k,
      Option.Rel shows ((VehicleStore.base t.before.forceSnapshot st.vehicles).lookup k) (t.before.sent.lookup k) ∧
      Option.Rel placed ((VehicleStore.base t.before.forceSnapshot st.features).lookup k) (t.before.sent.lookup k) := by
    intro k
    rcases hf with ⟨hs, hb⟩ | ⟨p, hp, hs, hb⟩
    · rw [hs, hb]
      exact ⟨.none, .none⟩
    · rw [hs, hb]
      exact h p hp k
  intro k
  rw [VehicleStore.hear_vehicles, VehicleStore.hear_features, Tick.after, Subscription.buildUpdate_sent]
  exact ⟨Mirror.change_apply shows_enter shows_move (hbase k).1 _,
    Mirror.change_apply (fun t => placed_enter t) placed_move (hbase k).2 _⟩

namespace Sys

variable [Platform] {s s' : Sys}

/-- The invariant of the stream. -/
structure Good (s : Sys) : Prop where
  client : s.client.Good
  peers : ∀ i, (s.peer i).Good (s.client.socket i).sent
  fresh : ∀ i, s.client.created ≤ i → s.peer i = {}
  mirror : ∀ i t, s.client.ws = some i → lastTick ((s.peer i).log.take (s.peer i).delivered) = some t →
    Mirrors s.store t.after.sent

theorem good_start (heartbeatMs : Nat) (pinned selected : List String) (v : ClientView) :
    (start heartbeatMs pinned selected v).Good where
  client := LiveClient.good_connect heartbeatMs pinned v
  peers i := Peer.good_fresh _
  fresh _ _ := rfl
  mirror i t _ h := by simp [start, lastTick] at h

omit [Platform] in
theorem setPeer_peer (s : Sys) (i : Nat) (p : Peer) (j : Nat) :
    (s.setPeer i p).peer j = if j = i then p else s.peer j := Function.update_apply ..

/-- A step of the client alone. -/
theorem Good.of_client (hs : s.Good) {c : LiveClient} (hc : c.Good) (he : s.client.Evolves c) :
    ({ s with client := c } : Sys).Good where
  client := hc
  peers i := (hs.peers i).grow (he.sent i)
  fresh i hi := hs.fresh i (he.created.trans hi)
  mirror i t hi ht := by
    rcases he.ws i hi with h | h
    · exact hs.mirror i t h ht
    · -- a new socket has delivered nothing
      simp only [hs.fresh i h] at ht
      simp [lastTick] at ht

/-- A step of a server task. -/
theorem Good.of_peer (hs : s.Good) {i : Nat} {p : Peer} (hp : p.Good (s.client.socket i).sent)
    (hi : s.client.created ≤ i → p = {}) (hd : p.delivered = (s.peer i).delivered) (hl : (s.peer i).log <+: p.log) :
    (s.setPeer i p).Good where
  client := hs.client
  peers j := by
    rw [setPeer_peer]
    split_ifs with e
    · rw [e]; exact hp
    · exact hs.peers j
  fresh j hj := by
    rw [setPeer_peer]
    split_ifs with e
    · exact hi (e ▸ hj)
    · exact hs.fresh j hj
  mirror j t hj ht := by
    rw [setPeer_peer] at ht
    split_ifs at ht with e
    · obtain ⟨rest, hl⟩ := hl
      rw [← hl, hd, List.take_append_of_le_length (hs.peers i).delivered, ← e] at ht
      exact hs.mirror j t hj ht
    · exact hs.mirror j t hj ht

/-! ### A delivery -/

theorem receive_client (hc : s.client.Good) (x : Item) :
    (s.receive x).client.Good ∧ s.client.Evolves (s.receive x).client := by
  unfold receive
  cases x.message with
  | none => exact ⟨hc, .refl _⟩
  | some m => cases m <;> exact hc.onmessage .pong

theorem receive_peer (s : Sys) (x : Item) : (s.receive x).peer = s.peer := by
  unfold receive
  cases x.message with
  | none => rfl
  | some m => cases m <;> rfl

theorem receive_pong (s : Sys) : (s.receive (.reply .pong)).store = s.store := rfl

/-- Handing over a tick, its frame or its silence, is hearing its report. -/
theorem receive_tick (s : Sys) (t : Tick) :
    (s.receive (.tick t)).store.vehicles = (s.store.hear t.before t.idx).vehicles ∧
      (s.receive (.tick t)).store.features = (s.store.hear t.before t.idx).features := by
  simp only [receive, Item.message]
  cases hf : t.frame with
  | none =>
    have h := s.store.hear_silent t.before t.idx hf
    exact ⟨h.1.symm, h.2.symm⟩
  | some u =>
    obtain rfl := Subscription.buildUpdate_frame hf
    exact ⟨rfl, rfl⟩

theorem Good.deliver (hs : s.Good) {i : Nat} {x : Item} (hi : (s.client.socket i).readyState = .open_)
    (hx : (s.peer i).log[(s.peer i).delivered]? = some x) :
    ((s.setPeer i { s.peer i with delivered := (s.peer i).delivered + 1 }).receive x).Good := by
  have hws := hs.client.ws_of_open hi
  have hlt := hs.client.current i hws
  obtain ⟨hc, he⟩ := receive_client (s := s.setPeer i { s.peer i with delivered := (s.peer i).delivered + 1 }) hs.client x
  refine ⟨hc, fun j => ?_, fun j hj => ?_, fun j t hj ht => ?_⟩
  · rw [receive_peer]
    rw [setPeer_peer]
    split_ifs with e
    · subst e
      exact ((hs.peers j).deliver hx).grow (he.sent j)
    · exact (hs.peers j).grow (he.sent j)
  · rw [receive_peer]
    rw [setPeer_peer]
    have hj := he.created.trans hj
    rw [if_neg fun e : j = i => absurd hlt (not_lt.mpr (e ▸ hj))]
    exact hs.fresh j hj
  · rw [receive_peer] at ht
    rw [setPeer_peer] at ht
    rcases he.ws j hj with h | h
    · obtain rfl : i = j := Option.some.inj (hws.symm.trans h)
      rw [if_pos rfl] at ht
      simp only [List.take_add_one, hx, Option.toList_some, lastTick_append] at ht
      have hprev : ∀ p, lastTick ((s.peer i).log.take (s.peer i).delivered) = some p → Mirrors s.store p.after.sent :=
        fun p hp => hs.mirror i p hws hp
      cases x with
      | reply m =>
        obtain rfl := (hs.peers i).replies m (List.mem_of_getElem? hx)
        rw [receive_pong]
        exact hprev t ht
      | tick u =>
        cases ht
        have h := Mirrors.hear s.store ((hs.peers i).ticks _ t hx).2.2.1 hprev
        intro k
        obtain ⟨hv, hf⟩ := receive_tick (s.setPeer i { s.peer i with delivered := (s.peer i).delivered + 1 }) t
        rw [hv, hf]
        exact h k
    · rw [if_neg fun e : j = i => absurd hlt (not_lt.mpr (e ▸ h)), hs.fresh j h] at ht
      simp [lastTick] at ht

/-! ### Steps and runs -/

/-- What a step can do: move the client, change the selection, extend the log
of a server task, or hand over an item of the open socket. -/
inductive Effect (s : Sys) : Action → Sys → Prop
  | client {a : Action} {c : LiveClient} (ha : ∀ i, a ≠ .deliver i) (hc : c.Good) (he : s.client.Evolves c) :
      Effect s a { s with client := c }
  | select (ids : List String) : Effect s (.select ids) { s with store := { s.store with selectedIds := ids } }
  | peer {a : Action} {i : Nat} {p : Peer} (ha : ∀ i, a ≠ .deliver i) (hp : p.Good (s.client.socket i).sent)
      (hi : s.client.created ≤ i → p = {}) (hd : p.delivered = (s.peer i).delivered) (hl : (s.peer i).log <+: p.log) :
      Effect s a (s.setPeer i p)
  | deliver {i : Nat} {x : Item} (ho : (s.client.socket i).readyState = .open_)
      (hx : (s.peer i).log[(s.peer i).delivered]? = some x) :
      Effect s (.deliver i) ((s.setPeer i { s.peer i with delivered := (s.peer i).delivered + 1 }).receive x)

theorem Good.effect (hs : s.Good) {a : Action} (h : Step s a s') : Effect s a s' := by
  unfold Step at h
  cases a with
  | update v => cases h; exact .client nofun (hs.client.update v).1 (hs.client.update v).2
  | setPinned ids => cases h; exact .client nofun (hs.client.setPinned ids).1 (hs.client.setPinned ids).2
  | suspend => cases h; exact .client nofun hs.client.suspend.1 hs.client.suspend.2
  | resume => cases h; exact .client nofun hs.client.resume.1 hs.client.resume.2
  | select ids => cases h; exact .select ids
  | opened i =>
    simp only [Sys.step] at h
    split_ifs at h with hi
    cases h; exact .client nofun (hs.client.opened hi).1 (hs.client.opened hi).2
  | failed i =>
    simp only [Sys.step] at h
    split_ifs at h with hi
    cases h; exact .client nofun (hs.client.onerror i).1 (hs.client.onerror i).2
  | closed i =>
    simp only [Sys.step] at h
    split_ifs at h with hi
    cases h; exact .client nofun (hs.client.closed hi).1 (hs.client.closed hi).2
  | timer k =>
    simp only [Sys.step] at h
    split at h
    · rename_i hk
      cases h; exact .client nofun (hs.client.fire hk).1 (hs.client.fire hk).2
    · cases h
  | serve i =>
    simp only [Sys.step] at h
    split at h
    · rename_i m hm
      cases h
      refine .peer nofun ((hs.peers i).serve (hs.client.wellSent i) hm) (fun hi => ?_) rfl (List.prefix_append _ _)
      rw [hs.client.fresh i hi] at hm
      simp at hm
    · cases h
  | tick i idx =>
    cases h
    refine .peer nofun ((hs.peers i).tick idx) (fun hi => by rw [hs.fresh i hi]; rfl) ?_ ?_
    · unfold Peer.tick
      split <;> rfl
    · unfold Peer.tick
      split
      · exact List.prefix_refl _
      · exact List.prefix_append _ _
  | deliver i =>
    simp only [Sys.step] at h
    split_ifs at h with hi
    split at h
    · rename_i x hx
      cases h; exact .deliver hi hx
    · cases h

/-- Every step keeps the invariant. -/
theorem Good.step (hs : s.Good) {a : Action} (h : Step s a s') : s'.Good := by
  cases hs.effect h with
  | client _ hc he => exact hs.of_client hc he
  | select ids => exact ⟨hs.client, hs.peers, hs.fresh, hs.mirror⟩
  | peer _ hp hi hd hl => exact hs.of_peer hp hi hd hl
  | deliver ho hx => exact hs.deliver ho hx

/-- The invariant holds in every state of every run. -/
theorem good_of_run {heartbeatMs : Nat} {pinned selected : List String} {v : ClientView} {as : List Action}
    (h : Run Step (start heartbeatMs pinned selected v) as s) : s.Good :=
  h.inv (fun _ _ _ hr hs => hs.step hr) (good_start heartbeatMs pinned selected v)

end Sys

end OV.Impl
