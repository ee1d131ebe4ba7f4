import Ovlive.Proof.Client.Written
import Ovlive.Proof.Stream.Converge

/-!
# What the sockets carry

Over a whole run of the stream, with views and indexes whose numbers are those
of their types, a client says nothing but pings and views (`Says`), and a
server task nothing but pongs and updates of such numbers (`Exact`). So no
message a client sends is refused by its own verification, the server is sent
bytes that spell the message, and a client decodes every frame that an encoder
made to the message it was made from (`carried_of_run`).
-/

namespace OV.Impl

open Client Wire

/-- The numbers of a view fit their types, and its vehicle types are the enum's. -/
structure Client.ClientView.Exact (v : ClientView) : Prop where
  minLat : Ieee.Has Ieee.binary64 v.bbox.minLat
  minLon : Ieee.Has Ieee.binary64 v.bbox.minLon
  maxLat : Ieee.Has Ieee.binary64 v.bbox.maxLat
  maxLon : Ieee.Has Ieee.binary64 v.bbox.maxLon
  zoom : v.zoom < 2 ^ 32
  types : ∀ n ∈ v.filters.types, 0 ≤ n ∧ n ≤ 5

/-- The numbers of a trip fit their types. -/
structure LiveTrip.Exact (t : LiveTrip) : Prop where
  lat : Ieee.Has Ieee.binary64 t.lat
  lon : Ieee.Has Ieee.binary64 t.lon
  bearing : Ieee.Has Ieee.binary32 t.bearing
  delaySeconds : FitsI32 t.delaySeconds
  speedKmh : ∀ x, t.speedKmh = some x → Ieee.Has Ieee.binary32 x

/-! ## The client -/

namespace Client

/-- A ping, or a view of a kind. -/
inductive Said (P : ClientView → Prop) : ClientMessage → Prop
  | ping : Said P ⟨some (.ping true)⟩
  | subscribe {v : ClientView} (hv : P v) (ids : List String) : Said P ⟨some (.subscribe (viewportMsg v ids))⟩
  | update {v : ClientView} (hv : P v) (ids : List String) : Said P ⟨some (.updateViewport (viewportMsg v ids))⟩

namespace LiveClient

/-- A client that has such a view, and said nothing else. -/
structure Says (P : ClientView → Prop) (c : LiveClient) : Prop where
  view : ∀ v, c.view = some v → P v
  sent : ∀ i, ∀ m ∈ (c.socket i).sent, Said P m

variable {P : ClientView → Prop} {c d : LiveClient}

namespace Says

theorem congr (hc : Says P c) (hv : d.view = c.view) (hs : d.socket = c.socket) : Says P d :=
  ⟨by rw [hv]; exact hc.view, by rw [hs]; exact hc.sent⟩

theorem setSocket (hc : Says P c) {i : Nat} {s : Socket} (h : ∀ m ∈ s.sent, Said P m) : Says P (c.setSocket i s) := by
  refine ⟨hc.view, fun j => ?_⟩
  rw [setSocket_socket]
  split
  · exact h
  · exact hc.sent j

theorem setReady (hc : Says P c) (i : Nat) (r : ReadyState) : Says P (c.setReady i r) := hc.setSocket (hc.sent i)

theorem wsSend (hc : Says P c) (i : Nat) {p : Payload} (hp : Said P ⟨some p⟩) : Says P (c.wsSend i p) := by
  rw [LiveClient.wsSend]
  split
  · refine hc.setSocket fun m hm => ?_
    rcases List.mem_append.mp hm with hm | hm
    · exact hc.sent i m hm
    · exact List.mem_singleton.mp hm ▸ hp
  · exact hc

theorem wsClose (hc : Says P c) (i : Nat) : Says P (c.wsClose i) := by
  rw [LiveClient.wsClose]
  split
  · exact hc.setReady i .closing
  · exact hc

theorem armHeartbeat (hc : Says P c) : Says P c.armHeartbeat :=
  hc.congr (armHeartbeat_same c).view (armHeartbeat_same c).socket

theorem clearHeartbeat (hc : Says P c) : Says P c.clearHeartbeat :=
  hc.congr (clearHeartbeat_same c).view (clearHeartbeat_same c).socket

theorem send (hc : Says P c) : Says P c.send := by
  rw [LiveClient.send]
  split
  · rename_i v i hv _
    exact hc.wsSend i (.update (hc.view v hv) c.pinned)
  · exact hc

theorem update (hc : Says P c) {v : ClientView} (hv : P v) : Says P (c.update v) :=
  send ⟨fun w hw => by cases hw; exact hv, hc.sent⟩

theorem setPinned (hc : Says P c) (ids : List String) : Says P (c.setPinned ids) := send ⟨hc.view, hc.sent⟩

theorem opens (hc : Says P c) : Says P c.open :=
  congr (c := c.setSocket c.created { readyState := .connecting })
    (hc.setSocket fun _ hm => absurd hm List.not_mem_nil) rfl rfl

theorem resume (hc : Says P c) : Says P c.resume := by
  rw [LiveClient.resume]
  split
  · exact hc
  · exact Says.opens ⟨hc.view, hc.sent⟩

theorem suspend (hc : Says P c) : Says P c.suspend := by
  have hunarmed : Says P c.unarmed := by
    have h := hc.congr (clearTimeout_same c c.retryTimer).view (clearTimeout_same c c.retryTimer).socket
    have h' : Says P ({ c.clearTimeout c.retryTimer with retryTimer := none } : LiveClient) := ⟨h.view, h.sent⟩
    exact ⟨h'.clearHeartbeat.view, h'.clearHeartbeat.sent⟩
  rw [suspend_eq]
  generalize c.unarmed = d at hunarmed
  unfold giveUp
  cases d.ws with
  | none => exact ⟨hunarmed.view, hunarmed.sent⟩
  | some i =>
    have h : Says P ({ d with ws := none } : LiveClient) := ⟨hunarmed.view, hunarmed.sent⟩
    exact ⟨(h.wsClose i).view, (h.wsClose i).sent⟩

theorem onopen (hc : Says P c) (i : Nat) : Says P (c.onopen i) := by
  have h : Says P ({ ({ c with retry := 500 } : LiveClient).armHeartbeat with status := some .open_ } : LiveClient) :=
    have h' : Says P ({ c with retry := 500 } : LiveClient) := ⟨hc.view, hc.sent⟩
    ⟨h'.armHeartbeat.view, h'.armHeartbeat.sent⟩
  simp only [LiveClient.onopen]
  split
  · rename_i v hv
    exact h.wsSend i (.subscribe (h.view v hv) _)
  · exact h

theorem onclose (hc : Says P c) (i : Nat) : Says P (c.onclose i) := by
  have h := hc.clearHeartbeat
  simp only [LiveClient.onclose]
  split_ifs
  · exact h
  · exact ⟨h.view, h.sent⟩
  · exact ⟨h.view, h.sent⟩

theorem fire (hc : Says P c) (k : TimerKind) : Says P (c.fire k) := by
  cases k with
  | retry => exact hc.opens
  | idle =>
    simp only [LiveClient.fire]
    split
    · rename_i i _
      split_ifs
      · exact hc
      · exact ⟨(hc.wsSend i .ping).view, (hc.wsSend i .ping).sent⟩
    · exact hc
  | grace i => exact hc.wsClose i

end Says

end LiveClient

/-- What a client says verifies. -/
theorem Said.exact {m : ClientMessage} (h : Said ClientView.Exact m) : m.Exact ∧ ∀ v ∈ m.types, 0 ≤ v ∧ v ≤ 5 := by
  have hview {v : ClientView} (hv : v.Exact) (ids : List String) : (viewportMsg v ids).Exact := by
    intro p hp
    cases hp
    exact ⟨hv.minLat, hv.minLon, hv.maxLat, hv.maxLon, hv.zoom⟩
  cases h with
  | ping => exact ⟨fun _ h => (by cases h), fun _ h => absurd h List.not_mem_nil⟩
  | subscribe hv ids => exact ⟨fun w hw => by cases hw; exact hview hv ids, hv.types⟩
  | update hv ids => exact ⟨fun w hw => by cases hw; exact hview hv ids, hv.types⟩

end Client

/-! ## The server -/

theorem speed_exact {t : LiveTrip} (h : t.Exact) : Ieee.Has Ieee.binary32 (t.speedKmh.getD (.fin 0)) := by
  cases hs : t.speedKmh with
  | none => exact Ieee.has_zero
  | some x => exact h.speedKmh x hs

theorem toState_exact {t : LiveTrip} (h : t.Exact) : (toState t).Exact where
  vehicleType := by cases ht : t.vehicleType <;> simp [toState, ht, coreTypeToPb, FitsI32]
  lat := h.lat
  lon := h.lon
  bearing := h.bearing
  delaySeconds := h.delaySeconds
  speedKmh := speed_exact h

theorem toMove_exact {t : LiveTrip} (h : t.Exact) : (toMove t).Exact where
  lat := h.lat
  lon := h.lon
  bearing := h.bearing
  delaySeconds := h.delaySeconds
  speedKmh := speed_exact h

/-- A tick on an index of such trips says such numbers. -/
theorem Subscription.report_exact (sub : Subscription) {idx : VehicleIndex} (h : ∀ t ∈ idx.vehicles, t.Exact) :
    (sub.report idx).Exact where
  entered v hv := by
    obtain ⟨t, ht, rfl⟩ := List.mem_map.mp hv
    exact toState_exact (h t (mem_vehicles_of_wanted (List.mem_filter.mp ht).1))
  moved v hv := by
    obtain ⟨t, ht, rfl⟩ := List.mem_map.mp hv
    exact toMove_exact (h t (mem_vehicles_of_wanted (List.mem_filter.mp ht).1))

/-- The only reply is a pong. -/
theorem applyClientMsg_reply {m : ClientMessage} {sub : Option Subscription} {r : ServerMessage}
    (h : (applyClientMsg m sub).2 = some r) : r = .pong := by
  simp only [applyClientMsg] at h
  split at h
  · cases h
  · split at h <;> cases h
  · split at h <;> cases h
  · cases h
    rfl

/-! ## Runs -/

/-- The numbers that come in fit their types. -/
def Action.Exact : Action → Prop
  | .update v => v.Exact
  | .tick _ idx => ∀ t ∈ idx.vehicles, t.Exact
  | _ => True

namespace Sys

variable [Platform] {s s' : Sys}

structure Exact (s : Sys) : Prop where
  client : LiveClient.Says ClientView.Exact s.client
  peers : ∀ i, ∀ x ∈ (s.peer i).log, ∀ m, x.message = some m → m.Exact

omit [Platform] in
/-- A server task whose log grows by items of such numbers. -/
theorem Exact.of_peer (hs : s.Exact) (i : Nat) {p : Peer} {xs : List Item} (hlog : p.log = (s.peer i).log ++ xs)
    (h : ∀ x ∈ xs, ∀ m, x.message = some m → m.Exact) : (s.setPeer i p).Exact := by
  refine ⟨hs.client, fun j x hx => ?_⟩
  rw [setPeer_peer] at hx
  split at hx
  · rw [hlog] at hx
    rcases List.mem_append.mp hx with hx | hx
    · exact hs.peers i x hx
    · exact h x hx
  · exact hs.peers j x hx

omit [Platform] in
theorem Exact.serve (hs : s.Exact) (i : Nat) (m : ClientMessage) : (s.setPeer i ((s.peer i).serve m)).Exact := by
  refine hs.of_peer i rfl fun x hx r hr => ?_
  obtain ⟨r', hr', rfl⟩ := Option.map_eq_some_iff.mp (Option.mem_toList.mp hx)
  cases hr
  rw [applyClientMsg_reply hr']
  trivial

omit [Platform] in
theorem Exact.tick (hs : s.Exact) (i : Nat) {idx : VehicleIndex} (h : ∀ t ∈ idx.vehicles, t.Exact) :
    (s.setPeer i ((s.peer i).tick idx)).Exact := by
  rw [Peer.tick]
  split
  · exact hs.of_peer i (List.append_nil _).symm fun _ hx => absurd hx List.not_mem_nil
  · rename_i sub _
    refine hs.of_peer i rfl fun x hx m hm => ?_
    obtain rfl := List.mem_singleton.mp hx
    obtain ⟨u, hu, rfl⟩ := Option.map_eq_some_iff.mp hm
    rw [Subscription.buildUpdate_frame hu]
    exact sub.report_exact h

theorem Exact.receive (hs : s.Exact) (x : Item) : (s.receive x).Exact := by
  have hclient : LiveClient.Says ClientView.Exact s.client.armHeartbeat := hs.client.armHeartbeat
  rw [Sys.receive]
  split
  · exact hs
  · rename_i m _
    cases m
    · exact ⟨hclient, hs.peers⟩
    · exact ⟨hclient, hs.peers⟩

theorem Exact.step (hs : s.Exact) {a : Action} (ha : a.Exact) (h : Step s a s') : s'.Exact := by
  unfold Step at h
  cases a with
  | update v => cases h; exact ⟨hs.client.update ha, hs.peers⟩
  | setPinned ids => cases h; exact ⟨hs.client.setPinned ids, hs.peers⟩
  | suspend => cases h; exact ⟨hs.client.suspend, hs.peers⟩
  | resume => cases h; exact ⟨hs.client.resume, hs.peers⟩
  | select ids => cases h; exact ⟨hs.client, hs.peers⟩
  | opened i =>
    simp only [Sys.step] at h
    split_ifs at h
    cases h; exact ⟨(hs.client.setReady i .open_).onopen i, hs.peers⟩
  | failed i =>
    simp only [Sys.step] at h
    split_ifs at h
    cases h; exact ⟨hs.client.wsClose i, hs.peers⟩
  | closed i =>
    simp only [Sys.step] at h
    split_ifs at h
    cases h; exact ⟨(hs.client.setReady i .closed).onclose i, hs.peers⟩
  | timer k =>
    simp only [Sys.step] at h
    split at h
    · rename_i kind _ _
      cases h
      have hc : LiveClient.Says ClientView.Exact { s.client with timers := s.client.timers.erase k } :=
        ⟨hs.client.view, hs.client.sent⟩
      exact ⟨hc.fire kind, hs.peers⟩
    · cases h
  | serve i =>
    simp only [Sys.step] at h
    split at h
    · cases h; exact hs.serve i _
    · cases h
  | tick i idx => cases h; exact hs.tick i ha
  | deliver i =>
    simp only [Sys.step] at h
    split_ifs at h
    split at h
    · cases h
      have hdelivered : (s.setPeer i { s.peer i with delivered := (s.peer i).delivered + 1 }).Exact :=
        hs.of_peer i (List.append_nil _).symm fun _ hx => absurd hx List.not_mem_nil
      exact hdelivered.receive _
    · cases h

theorem exact_of_run {heartbeatMs : Nat} {pinned selected : List String} {v : ClientView} (hv : v.Exact)
    {as : List Action} (h : Run (Guarded (fun _ a => a.Exact) Step) (start heartbeatMs pinned selected v) as s) :
    s.Exact := by
  refine h.inv (fun _ _ _ hr hs => hs.step hr.1 hr.2) ⟨?_, fun i x hx => nomatch hx⟩
  exact LiveClient.Says.opens ⟨fun w hw => by cases hw; exact hv, fun i m hm => nomatch hm⟩

/-- In every run, every message a client sent was sent as bytes that spell it,
and every frame of a server task is decoded to the message it was made from. -/
theorem carried_of_run [Codec] {encode : ServerMessage → Bytes} (henc : Encodes encode) {heartbeatMs : Nat}
    {pinned selected : List String} {v : ClientView} (hv : v.Exact) {as : List Action}
    (h : Run (Guarded (fun _ a => a.Exact) Step) (start heartbeatMs pinned selected v) as s) (i : Nat) :
    (∀ m ∈ (s.client.socket i).sent, Short m.written →
      ∃ fs, encodeClient m = .ok (render fs) ∧ ClientMessage.Typed fs ∧ ClientMessage.ofFields fs = m) ∧
    ∀ x ∈ (s.peer i).log, ∀ m, x.message = some m → (encode m).length < 2 ^ 32 →
      decodeServer (encode m) = some m.object := by
  have hs := exact_of_run hv h
  constructor
  · intro m hm hshort
    obtain ⟨hexact, htypes⟩ := (hs.client.sent i m hm).exact
    exact encodeClient_spells hexact hshort htypes
  · intro x hx m hm hshort
    exact henc.decodeServer (hs.peers i x hx m hm) hshort

omit [Platform] in
theorem square_exact : square.Exact where
  minLat := ⟨Ieee.bits Ieee.binary64 (.fin 51), by decide +kernel⟩
  minLon := ⟨Ieee.bits Ieee.binary64 (.fin 4), by decide +kernel⟩
  maxLat := ⟨Ieee.bits Ieee.binary64 (.fin 53), by decide +kernel⟩
  maxLon := ⟨Ieee.bits Ieee.binary64 (.fin 6), by decide +kernel⟩
  zoom := by decide
  types := by decide

omit [Platform] in
theorem oneBus_exact : ∀ t ∈ (oneBus 52 5).vehicles, t.Exact := by
  intro t ht
  obtain rfl := List.mem_singleton.mp ht
  exact ⟨⟨Ieee.bits Ieee.binary64 (.fin 52), by decide +kernel⟩, ⟨Ieee.bits Ieee.binary64 (.fin 5), by decide +kernel⟩,
    ⟨Ieee.bits Ieee.binary32 .nan, by decide +kernel⟩, ⟨by decide, by decide⟩, nofun⟩

omit [Platform] in
/-- A client subscribes to a square with a bus in it, and a frame is sent. -/
theorem carried_of_run_square :
    ∃ s, Run (Guarded (fun _ a => a.Exact) (@Step plainPlatform)) (@start 0 [] [] square)
        [.opened 0, .serve 0, .tick 0 (oneBus 52 5)] s ∧
      (∀ m ∈ (s.client.socket 0).sent, Short (@ClientMessage.written standard m) → ∃ fs,
        @encodeClient standard m = .ok (render fs) ∧ ClientMessage.Typed fs ∧ ClientMessage.ofFields fs = m) ∧
      ∀ x ∈ (s.peer 0).log, ∀ m, x.message = some m → (plain m).length < 2 ^ 32 →
        @decodeServer standard (plain m) = some m.object := by
  let := plainPlatform
  let := standard
  let acts : List Action := [.opened 0, .serve 0, .tick 0 (oneBus 52 5)]
  obtain ⟨s, hexec⟩ : ∃ s, exec step (start 0 [] [] square) acts = some s :=
    Option.isSome_iff_exists.mp (by decide +kernel)
  have hrun : Run (Guarded (fun _ a => a.Exact) Step) _ acts _ := (Run.of_exec hexec).guarded fun a ha _ => by
    simp only [acts, List.mem_cons, List.not_mem_nil, or_false] at ha
    rcases ha with rfl | rfl | rfl
    · trivial
    · trivial
    · exact oneBus_exact
  exact ⟨_, hrun, carried_of_run encodes_plain square_exact hrun 0⟩

end Sys

end OV.Impl
