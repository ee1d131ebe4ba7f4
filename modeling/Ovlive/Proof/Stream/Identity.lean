import Ovlive.Proof.Stream.Converge

/-!
# The identity of a vehicle

A MOVE carries no journey, line, destination, type, operator, block or colour:
these reach the client with an ENTER only. So a record's identity is the one
the trip had at the tick that entered it (`identity_of_enter`), and a trip that
rolls over to its next journey while in view keeps the old one on the client
(`identity_not_followed`).
-/

namespace OV.Impl

open Client

/-- What a record says about a vehicle besides where it is and how late. -/
structure Identity where
  line : String
  type : Int
  operator : String
  destination : String
  block : String
  journey : String
  lineColor : String
  lineTextColor : String
  deriving DecidableEq

def Client.Vehicle.identity (v : Vehicle) : Identity where
  line := v.line
  type := v.type
  operator := v.operator
  destination := v.destination
  block := v.block
  journey := v.journey
  lineColor := v.lineColor
  lineTextColor := v.lineTextColor

/-- The identity of a trip, as the wire has it. -/
def LiveTrip.identity (t : LiveTrip) : Identity where
  line := t.linePublicNumber.getD ""
  type := coreTypeToPb t.vehicleType
  operator := t.operatorName.getD ""
  destination := t.destination.getD ""
  block := t.blockCode.getD ""
  journey := t.journeyNumber.getD ""
  lineColor := t.lineColor.getD ""
  lineTextColor := t.lineTextColor.getD ""

theorem identity_enter (t : LiveTrip) : (enterVehicle t).identity = t.identity := rfl
theorem identity_move (t : LiveTrip) (w : Vehicle) : (moveVehicle t w).identity = w.identity := rfl

/-- What a tick does to a record, seen from its identity: it entered, or it was
there and the vehicle is still wanted. -/
theorem identity_hear [Platform] {st : VehicleStore} {sub : Subscription} {idx : VehicleIndex} {k : String} {w : Vehicle}
    (h : (st.hear sub idx).vehicles.lookup k = some w) :
    (sub.sent.lookup k = none ∧ ∃ t, sub.wants idx k = some t ∧ w.identity = t.identity) ∨
      (∃ u, (VehicleStore.base sub.forceSnapshot st.vehicles).lookup k = some u ∧ w.identity = u.identity ∧
        ((sub.sent.lookup k).isSome = (sub.wants idx k).isSome)) := by
  rw [VehicleStore.hear_vehicles] at h
  cases hs : sub.sent.lookup k with
  | none =>
    cases hw : sub.wants idx k with
    | none =>
      rw [hs, hw] at h
      exact .inr ⟨w, h, rfl, rfl⟩
    | some t =>
      rw [hs, hw] at h
      cases h
      exact .inl ⟨rfl, t, rfl, identity_enter t⟩
  | some v =>
    cases hw : sub.wants idx k with
    | none => rw [hs, hw] at h; cases h
    | some t =>
      rw [hs, hw] at h
      simp only [Mirror.change] at h
      split at h
      · exact .inr ⟨w, h, rfl, rfl⟩
      · obtain ⟨u, hu, rfl⟩ := Option.map_eq_some_iff.mp h
        exact .inr ⟨u, hu, identity_move t u, rfl⟩

namespace Peer

/-- The record entered at a tick delivered on this socket, with the identity
the trip had then, and the vehicle was wanted at every tick since. -/
def Entered (p : Peer) (k : String) (w : Vehicle) : Prop :=
  ∃ n t trip, n < p.delivered ∧ p.log[n]? = some (.tick t) ∧ t.before.sent.lookup k = none ∧
    t.before.wants t.idx k = some trip ∧ w.identity = trip.identity ∧
    ∀ m u, n < m → m < p.delivered → p.log[m]? = some (.tick u) → (u.before.wants u.idx k).isSome = true

theorem Entered.grow {p q : Peer} {k : String} {w : Vehicle} (h : p.Entered k w) (hp : p.delivered ≤ p.log.length)
    (hd : q.delivered = p.delivered) (hl : p.log <+: q.log) : q.Entered k w := by
  obtain ⟨rest, hl⟩ := hl
  have hget : ∀ n < p.delivered, q.log[n]? = p.log[n]? := fun n hn => by
    rw [← hl, List.getElem?_append_left (hn.trans_le hp)]
  obtain ⟨n, t, trip, hn, ht, h1, h2, h3, h4⟩ := h
  refine ⟨n, t, trip, hd ▸ hn, (hget n hn).trans ht, h1, h2, h3, fun m u hnm hm hu => ?_⟩
  rw [hd] at hm
  exact h4 m u hnm hm ((hget m hm).symm.trans hu)

/-- One more delivery, at which the vehicle is wanted if it is a tick's. -/
theorem Entered.deliver {p : Peer} {k : String} {w w' : Vehicle} (h : p.Entered k w)
    (hw : w'.identity = w.identity)
    (hx : ∀ u, p.log[p.delivered]? = some (.tick u) → (u.before.wants u.idx k).isSome = true) :
    ({ p with delivered := p.delivered + 1 } : Peer).Entered k w' := by
  obtain ⟨n, t, trip, hn, ht, h1, h2, h3, h4⟩ := h
  refine ⟨n, t, trip, Nat.lt_succ_of_lt hn, ht, h1, h2, hw.trans h3, fun m u hnm hm hu => ?_⟩
  rcases Nat.lt_succ_iff_lt_or_eq.mp hm with hm | rfl
  · exact h4 m u hnm hm hu
  · exact hx u hu

end Peer

/-! ## The stream -/

namespace Sys

variable [Platform] {s s' : Sys}

/-- Once a tick was delivered on the current socket, every record has the
identity it entered with. -/
def Identified (s : Sys) : Prop :=
  ∀ i t, s.client.ws = some i → s.heard i = some t →
    ∀ k w, s.store.vehicles.lookup k = some w → (s.peer i).Entered k w

omit [Platform] in
theorem identified_start (heartbeatMs : Nat) (pinned selected : List String) (v : ClientView) :
    (start heartbeatMs pinned selected v).Identified := by
  intro i t _ ht
  simp [heard, start, lastTick] at ht

theorem Good.identified_deliver (hs : s.Good) (h : s.Identified) {i : Nat} {x : Item} (hws : s.client.ws = some i)
    (hx : (s.peer i).log[(s.peer i).delivered]? = some x) {k : String} {w : Vehicle} {t : Tick}
    (ht : lastTick ((s.peer i).log.take ((s.peer i).delivered + 1)) = some t)
    (hw : ((s.setPeer i { s.peer i with delivered := (s.peer i).delivered + 1 }).receive x).store.vehicles.lookup k =
      some w) : ({ s.peer i with delivered := (s.peer i).delivered + 1 } : Peer).Entered k w := by
  cases x with
  | reply m =>
    obtain rfl := (hs.peers i).replies m (List.mem_of_getElem? hx)
    rw [receive_pong] at hw
    simp only [List.take_add_one, hx, Option.toList_some, lastTick_append] at ht
    exact (h i t hws ht k w hw).deliver rfl fun u hu => nomatch hx.symm.trans hu
  | tick u =>
    rw [(receive_tick _ u).1] at hw
    have hf := ((hs.peers i).ticks _ u hx).2.2.1
    rcases identity_hear hw with ⟨h1, trip, h2, h3⟩ | ⟨r, hr, he, hsame⟩
    · exact ⟨_, u, trip, Nat.lt_succ_self _, hx, h1, h2, h3, fun m _ hm hm' => absurd hm' (by simp only; omega)⟩
    · -- the record was there: this is no snapshot, and the store mirrored what was sent
      obtain ⟨hs', hb⟩ | ⟨p, hp, hsent, hb⟩ := hf
      · rw [hb] at hr
        cases hr
      · rw [hb] at hr
        have hrel := (hs.mirror i p hws hp k).1
        rw [show s.store.vehicles.lookup k = some r from hr, ← hsent] at hrel
        refine (h i p hws hp k r hr).deliver he fun u' hu' => ?_
        cases hx.symm.trans hu'
        rw [← hsame]
        generalize u.before.sent.lookup k = o at hrel
        cases hrel
        rfl

theorem Good.identified_step (hs : s.Good) (hi : s.Identified) {a : Action} (h : Step s a s') : s'.Identified := by
  cases hs.effect h with
  | client _ hc he =>
    intro i t hws ht
    rcases he.ws i hws with h | h
    · exact hi i t h ht
    · rw [heard, hs.fresh i h] at ht
      simp [lastTick] at ht
  | select ids => exact hi
  | @peer _ i p _ hp _ hd hl =>
    intro j t hws ht k w hw
    by_cases e : j = i
    · subst e
      rw [heard, setPeer_peer, if_pos rfl] at ht
      rw [setPeer_peer, if_pos rfl]
      obtain ⟨rest, hr⟩ := hl
      rw [← hr, hd, List.take_append_of_le_length (hs.peers j).delivered] at ht
      exact (hi j t hws ht k w hw).grow (hs.peers j).delivered hd ⟨rest, hr⟩
    · rw [heard, setPeer_peer, if_neg e] at ht
      rw [setPeer_peer, if_neg e]
      exact hi j t hws ht k w hw
  | @deliver i x ho hx =>
    intro j t hws ht k w hw
    have hcur := hs.client.ws_of_open ho
    have he := (receive_client (s := s.setPeer i { s.peer i with delivered := (s.peer i).delivered + 1 }) hs.client x).2
    rw [heard, receive_peer] at ht
    rw [receive_peer]
    rcases he.ws j hws with h | h
    · obtain rfl : i = j := Option.some.inj (hcur.symm.trans h)
      rw [setPeer_peer, if_pos rfl] at ht ⊢
      exact hs.identified_deliver hi hcur hx ht hw
    · have hne : j ≠ i := fun e => absurd (hs.client.current i hcur) (not_lt.mpr (e ▸ h))
      rw [setPeer_peer, if_neg hne, hs.fresh j h] at ht
      simp [lastTick] at ht

end Sys

namespace World

variable [Platform] {w w' : World}

/-- A step of the world is a step of the stream, or leaves it alone. -/
theorem Step.sys {a : WorldAction} (h : Step w a w') : w'.sys = w.sys ∨ ∃ b, Sys.Step w.sys b w'.sys := by
  have lift : ∀ b, ((w.sys.step b).map fun sys => { w with sys := sys }) = some w' → ∃ b, Sys.Step w.sys b w'.sys := by
    intro b hb
    obtain ⟨u, hu, rfl⟩ := Option.map_eq_some_iff.mp hb
    exact ⟨b, hu⟩
  unfold Step at h
  cases a with
  | live b en => cases h; exact .inl rfl
  | tick i => exact .inr (lift (.tick i w.live.buildIndex) h)
  | act b =>
    cases b with
    | tick i idx => cases h
    | _ => simp only [step] at h; exact .inr (lift _ h)

/-- A run of the world is a run of the stream, whose ticks read the indexes of
the live state. -/
theorem run_sys {as : List WorldAction} (h : Run Step w as w') : ∃ bs, Run Sys.Step w.sys bs w'.sys := by
  induction h with
  | nil => exact ⟨[], .nil⟩
  | snoc _ hstep ih =>
    obtain ⟨bs, hbs⟩ := ih
    rcases hstep.sys with e | ⟨b, hb⟩
    · exact ⟨bs, e ▸ hbs⟩
    · exact ⟨_, hbs.snoc hb⟩

/-- A vehicle's identity on the client is that of its last ENTER: every record
entered at a tick delivered on the open socket with the identity the trip had
then, and no frame for a vehicle sent before and still wanted changes it. -/
theorem identity_of_enter {staleAfterSecs : Int} {heartbeatMs : Nat} {pinned selected : List String} {v : ClientView}
    {as : List WorldAction} (h : Run Step (start staleAfterSecs (Sys.start heartbeatMs pinned selected v)) as w)
    {i : Nat} (ho : (w.sys.client.socket i).readyState = .open_) :
    (∀ t, w.sys.heard i = some t → ∀ k r, w.sys.store.vehicles.lookup k = some r → (w.sys.peer i).Entered k r) ∧
    (∀ t, (w.sys.peer i).log[(w.sys.peer i).delivered]? = some (.tick t) → ∀ k,
      (t.before.sent.lookup k).isSome = true → (t.before.wants t.idx k).isSome = true →
        ((w.sys.receive (.tick t)).store.vehicles.lookup k).map Vehicle.identity =
          (w.sys.store.vehicles.lookup k).map Vehicle.identity) := by
  obtain ⟨bs, hbs⟩ := run_sys h
  have hs := Sys.good_of_run hbs
  have hid : w.sys.Identified := by
    refine (hbs.inv (P := fun u => u.Good ∧ u.Identified)
      (fun _ _ _ hr hu => ⟨hu.1.step hr, hu.1.identified_step hu.2 hr⟩) ?_).2
    exact ⟨Sys.good_start .., Sys.identified_start heartbeatMs pinned selected v⟩
  have hws := hs.client.ws_of_open ho
  refine ⟨fun t ht => hid i t hws ht, fun t ht k hk hw => ?_⟩
  rw [(Sys.receive_tick _ t).1, VehicleStore.hear_vehicles]
  -- something was sent, so this is no snapshot
  have hb : t.before.forceSnapshot = false := by
    by_contra hb
    rw [((hs.peers i).ticks _ t ht).2.2.1.sent_empty (by simpa using hb)] at hk
    cases hk
  obtain ⟨x, hx⟩ := Option.isSome_iff_exists.mp hk
  obtain ⟨trip, htrip⟩ := Option.isSome_iff_exists.mp hw
  rw [hb, hx, htrip]
  simp only [Mirror.change]
  split
  · rfl
  · rw [Mirror.Change.apply_move, Option.map_map]
    rfl

end World

/-! ## A rollover in view -/

/-- Bus 1 starts journey 7, and further on reports its next journey without an
END of the first. -/
def rollover : List PosEvent :=
  [{ key := { dataowner := "RET", vehicleNumber := "1" }, kind := .init, journeyNumber := some "7"
     vehicleType := some .bus, lat := some (.fin 52), lon := some (.fin 5), timestamp := 0 },
   { key := { dataowner := "RET", vehicleNumber := "1" }, kind := .onRoute, journeyNumber := some "8"
     vehicleType := some .bus, lat := some (.fin 52.005), lon := some (.fin 5), timestamp := nanos }]

namespace World

/-- A tick before the rollover, and one after it. -/
def rolloverActs : List WorldAction :=
  ((rollover.take 1).map fun ev => .live (.event ev) NoEnricher) ++
    [.act (.opened 0), .act (.serve 0), .tick 0, .act (.deliver 0)] ++
    ((rollover.drop 1).map fun ev => .live (.event ev) NoEnricher) ++ [.tick 0, .act (.deliver 0)]

theorem identity_of_enter_rollover :
    ∃ w, exec (@step plainPlatform) (@start 600 (@Sys.start 0 [] [] square)) rolloverActs = some w ∧
      ∃ r, w.sys.store.vehicles.lookup "RET:1" = some r ∧ (w.sys.peer 0).Entered "RET:1" r := by
  let := plainPlatform
  let w := (exec step (start 600 (Sys.start 0 [] [] square)) rolloverActs).get (by decide +kernel)
  have hrun : exec step (start 600 (Sys.start 0 [] [] square)) rolloverActs = some w := (Option.some_get _).symm
  have hr : (w.sys.store.vehicles.lookup "RET:1").isSome = true := by decide +kernel
  have ht : (w.sys.heard 0).isSome = true := by decide +kernel
  obtain ⟨r, hr⟩ := Option.isSome_iff_exists.mp hr
  obtain ⟨t, ht⟩ := Option.isSome_iff_exists.mp ht
  exact ⟨w, hrun, r, hr, (identity_of_enter (Run.of_exec hrun) (i := 0) (by decide +kernel)).1 t ht "RET:1" r hr⟩

/-- The tick of item `n` and the one before it had the vehicle present, with
identities that differ, and the record differs from the trip of the later one. -/
def strayed (w : World) (i n : Nat) (k : String) : Bool :=
  match lastTick ((w.sys.peer i).log.take n), (w.sys.peer i).log[n]?, w.sys.store.vehicles.lookup k with
  | some t, some (.tick t'), some r =>
    (t.before.wants t.idx k).any fun old => (t'.before.wants t'.idx k).any fun trip =>
      old.identity ≠ trip.identity ∧ r.identity ≠ trip.identity
  | _, _, _ => false

/-- The client's record does not follow the trip into its next journey. -/
theorem identity_not_followed :
    ¬∀ as w, Run (@Step plainPlatform) (@start 600 (@Sys.start 0 [] [] square)) as w →
      ∀ (i n : Nat) (t t' : Tick), (w.sys.client.socket i).readyState = .open_ →
        -- two consecutive ticks, the second one the last that was applied
        n + 1 = (w.sys.peer i).delivered → (w.sys.peer i).log[n]? = some (.tick t') →
        lastTick ((w.sys.peer i).log.take n) = some t →
        -- the vehicle was present at both, and its identity differs between them
        ∀ k old trip r, t.before.wants t.idx k = some old → t'.before.wants t'.idx k = some trip →
          old.identity ≠ trip.identity →
          w.sys.store.vehicles.lookup k = some r → r.identity = trip.identity := by
  let := plainPlatform
  intro h
  let w := (exec step (start 600 (Sys.start 0 [] [] square)) rolloverActs).get (by decide +kernel)
  have hrun : exec step (start 600 (Sys.start 0 [] [] square)) rolloverActs = some w := (Option.some_get _).symm
  have ho : (w.sys.client.socket 0).readyState = .open_ := by decide +kernel
  have hd : 1 + 1 = (w.sys.peer 0).delivered := by decide +kernel
  have hs : strayed w 0 1 "RET:1" = true := by decide +kernel
  unfold strayed at hs
  split at hs
  · rename_i t t' r ht ht' hr
    simp only [Option.any_eq_true, decide_eq_true_eq] at hs
    obtain ⟨old, hold, trip, htrip, hdiffers, hne⟩ := hs
    exact hne (h _ w (Run.of_exec hrun) 0 1 t t' ho hd ht' ht "RET:1" old trip r hold htrip hdiffers hr)
  · cases hs

end World

end OV.Impl
