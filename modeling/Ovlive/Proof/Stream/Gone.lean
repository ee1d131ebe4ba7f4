import Ovlive.Proof.Stream.Converge

/-!
# The gone event

`VehicleStore` raises `onSelectedGone` for a selected vehicle that left or that
a snapshot lacks (`mem_gone`). It takes that to mean the vehicle is no longer
live, which is so only if the frame was computed with the vehicle pinned. A
frame in flight need not be: `gone_not_sound` is a run in which a vehicle
selected while its LEAVE is on the way is reported gone though it is live.
`gone_sound_iff` says exactly which runs are free of it.
-/

namespace OV.Impl

open Client

/-! ## One frame -/

/-- A live vehicle is not visited by a tick that has it neither in view nor
pinned. -/
theorem wants_eq_none_iff {sub : Subscription} {idx : VehicleIndex} {id : String} :
    sub.wants idx id = none ↔
      ∀ trip, idx.get id = some trip → id ∉ sub.pinned ∧ trip ∉ idx.query sub.bbox sub.filters := by
  constructor
  · intro h trip ht
    obtain ⟨hm, rfl⟩ := VehicleIndex.get_eq_some.mp ht
    have hn : trip ∉ sub.wanted idx := fun hw => by
      rw [Subscription.wants_id.mpr hw] at h
      cases h
    rw [Subscription.mem_wanted, not_or, not_and] at hn
    exact ⟨hn.2 hm, hn.1⟩
  · intro h
    rw [Subscription.wants_eq_none]
    rintro hk
    obtain ⟨trip, hw, rfl⟩ := List.mem_map.mp hk
    have hm := Subscription.mem_vehicles_of_wanted hw
    obtain ⟨h1, h2⟩ := h trip (VehicleIndex.get_eq_some.mpr ⟨hm, rfl⟩)
    exact (Subscription.mem_wanted.mp hw).elim h2 fun hp => h1 hp.2

/-- The events of a tick's report name as gone the selected vehicles the tick
did not visit, of a snapshot, or of those sent before. -/
theorem Client.VehicleStore.mem_gone [Platform] {st : VehicleStore} {sub : Subscription} {idx : VehicleIndex}
    {id : String} (hf : sub.forceSnapshot = true → sub.sent = ∅) :
    .selectedGone id ∈ (st.apply (Client.normalize (sub.report idx))).2 ↔
      id ∈ st.selectedIds ∧ sub.wants idx id = none ∧
        (sub.forceSnapshot = true ∨ ∃ v, sub.sent.lookup id = some v) := by
  have hv : (((st.hear sub idx).vehicles.lookup id).isNone = true) ↔
      (Mirror.change sentOf kept enterVehicle moveVehicle (sub.sent.lookup id) (sub.wants idx id)).apply
        ((VehicleStore.base sub.forceSnapshot st.vehicles).lookup id) = none := by
    rw [VehicleStore.hear_vehicles, Option.isNone_iff_eq_none]
  have hmem : .selectedGone id ∈ (st.apply (Client.normalize (sub.report idx))).2 ↔
      (id ∈ sub.leaves idx ∧ id ∈ st.selectedIds) ∨
        (sub.forceSnapshot = true ∧ id ∈ st.selectedIds ∧ ((st.hear sub idx).vehicles.lookup id).isNone = true) := by
    cases hb : sub.forceSnapshot <;>
      simp [VehicleStore.hear, VehicleStore.apply, Client.normalize, Subscription.report, hb]
  rw [hmem, hv, Subscription.mem_leaves]
  cases hb : sub.forceSnapshot with
  | false => simp [and_comm]
  | true =>
    simp only [hf hb, VehicleStore.base]
    cases sub.wants idx id <;> simp [Mirror.change]

/-! ## One step -/

namespace Sys

variable [Platform] {s s' : Sys}

/-- A gone event raised while an item was processed is right: the item is a
tick whose index did not have the vehicle. -/
def Right : Item × StoreEvent → Prop
  | (x, .selectedGone id) => ∃ t, x = .tick t ∧ t.idx.get id = none
  | (_, .selectedBack _) => True

/-- A delivery is safe when every selected vehicle its tick's index still had
was pinned at the tick, or in its box and past its filters, or was no part of
the subscription and the frame is no snapshot. -/
def Safe (s : Sys) : Action → Prop
  | .deliver i => ∀ t, (s.peer i).log[(s.peer i).delivered]? = some (.tick t) →
    ∀ id ∈ s.store.selectedIds, ∀ trip, t.idx.get id = some trip →
      id ∈ t.before.pinned ∨ trip ∈ t.idx.query t.before.bbox t.before.filters ∨
        (t.before.forceSnapshot = false ∧ t.before.sent.lookup id = none)
  | _ => True

/-- The events that handing over an item raises. -/
def raises (s : Sys) (x : Item) : List (Item × StoreEvent) :=
  match x.message with
  | some (.update u) => (s.store.apply (Client.normalize u)).2.map fun e => (x, e)
  | _ => []

theorem receive_raised (s : Sys) (x : Item) : (s.receive x).raised = s.raised ++ s.raises x := by
  unfold receive raises
  cases x.message with
  | none => simp
  | some m => cases m <;> simp [LiveClient.onmessage]

/-- Who a tick reports gone: the selected that are no longer wanted, of those
sent before or, in a snapshot, of all. A silent tick raises nothing, and a
report of nothing names nobody gone. -/
theorem mem_raises_tick {t : Tick} (hf : t.before.forceSnapshot = true → t.before.sent = ∅) {id : String} :
    (Item.tick t, .selectedGone id) ∈ s.raises (.tick t) ↔
      id ∈ s.store.selectedIds ∧ t.before.wants t.idx id = none ∧
        (t.before.forceSnapshot = true ∨ ∃ v, t.before.sent.lookup id = some v) := by
  rw [← s.store.mem_gone hf]
  simp only [raises, Item.message]
  cases hu : t.frame with
  | none =>
    rw [Subscription.buildUpdate_silent hu]
    simp [VehicleStore.apply, Client.normalize]
  | some u =>
    obtain rfl := Subscription.buildUpdate_frame hu
    simp

/-- A tick raises right events if it reports only those gone that its index did
not have. -/
theorem right_tick_iff {t : Tick} :
    (∀ e ∈ s.raises (.tick t), Right e) ↔
      ∀ id, (Item.tick t, .selectedGone id) ∈ s.raises (.tick t) → t.idx.get id = none := by
  constructor
  · intro h id hid
    obtain ⟨u, hu, hn⟩ := h _ hid
    cases hu
    exact hn
  · rintro h ⟨x, e⟩ he
    have hx : x = .tick t := by
      unfold raises at he
      split at he
      · obtain ⟨_, _, h'⟩ := List.mem_map.mp he
        exact (congrArg Prod.fst h').symm
      · cases he
    subst hx
    cases e with
    | selectedGone id => exact ⟨t, rfl, h id he⟩
    | selectedBack v => trivial

/-- The events of a tick are right exactly when its delivery is safe. -/
theorem raises_right_iff {t : Tick} (hf : t.before.forceSnapshot = true → t.before.sent = ∅) :
    (∀ e ∈ s.raises (.tick t), Right e) ↔
      ∀ id ∈ s.store.selectedIds, ∀ trip, t.idx.get id = some trip →
        id ∈ t.before.pinned ∨ trip ∈ t.idx.query t.before.bbox t.before.filters ∨
          (t.before.forceSnapshot = false ∧ t.before.sent.lookup id = none) := by
  rw [right_tick_iff]
  simp only [mem_raises_tick hf]
  constructor
  · intro h id hid trip ht
    by_contra hc
    rw [not_or, not_or] at hc
    have hw : t.before.wants t.idx id = none := wants_eq_none_iff.mpr fun u hu => by
      rw [ht] at hu
      cases hu
      exact ⟨hc.1, hc.2.1⟩
    have hs : t.before.forceSnapshot = true ∨ ∃ v, t.before.sent.lookup id = some v := by
      cases hb : t.before.forceSnapshot with
      | true => exact .inl rfl
      | false => exact .inr (Option.ne_none_iff_exists'.mp fun hn => hc.2.2 ⟨hb, hn⟩)
    exact Option.some_ne_none _ (ht.symm.trans (h id ⟨hid, hw, hs⟩))
  · rintro h id ⟨hid, hw, hs⟩
    by_contra hn
    obtain ⟨trip, ht⟩ := Option.ne_none_iff_exists'.mp hn
    obtain ⟨h1, h2⟩ := wants_eq_none_iff.mp hw trip ht
    rcases h id hid trip ht with h3 | h3 | ⟨h3, h4⟩
    · exact h1 h3
    · exact h2 h3
    · rcases hs with hs | ⟨v, hv⟩
      · exact Bool.false_ne_true (h3.symm.trans hs)
      · exact Option.some_ne_none v (hv.symm.trans h4)

/-- A step adds events that are right exactly when the step is safe. -/
theorem Good.raised_step (hs : s.Good) {a : Action} (h : Step s a s') :
    ∃ new, s'.raised = s.raised ++ new ∧ ((∀ e ∈ new, Right e) ↔ Safe s a) := by
  have quiet : ∀ {u : Sys}, u.raised = s.raised → (∀ i, a ≠ .deliver i) →
      ∃ new, u.raised = s.raised ++ new ∧ ((∀ e ∈ new, Right e) ↔ Safe s a) := by
    intro u hu ha
    refine ⟨[], by rw [hu, List.append_nil], iff_of_true (fun _ he => absurd he List.not_mem_nil) ?_⟩
    cases a with
    | deliver i => exact absurd rfl (ha i)
    | _ => trivial
  cases hs.effect h with
  | client ha _ _ => exact quiet rfl ha
  | select ids => exact quiet rfl nofun
  | peer ha _ _ _ _ => exact quiet rfl ha
  | @deliver i x ho hx =>
    refine ⟨s.raises x, by rw [receive_raised]; rfl, ?_⟩
    cases x with
    | reply m =>
      obtain rfl := (hs.peers i).replies m (List.mem_of_getElem? hx)
      exact iff_of_true (fun _ he => absurd he List.not_mem_nil) fun t ht => nomatch hx.symm.trans ht
    | tick t =>
      rw [raises_right_iff (((hs.peers i).ticks _ t hx).2.2.1.sent_empty)]
      refine ⟨fun h u hu => ?_, fun h => h t hx⟩
      cases hx.symm.trans hu
      exact h

/-! ## Runs -/

/-- The gone events of a run are right exactly when all its deliveries are
safe: no gone event names a vehicle that the tick's index still had. -/
theorem gone_sound_iff {heartbeatMs : Nat} {pinned selected : List String} {v : ClientView} {as : List Action}
    (h : Run Step (start heartbeatMs pinned selected v) as s) :
    (∀ x id, (x, .selectedGone id) ∈ s.raised → ∃ t, x = .tick t ∧ t.idx.get id = none) ↔
      Run (Guarded Safe Step) (start heartbeatMs pinned selected v) as s := by
  have hiff : ∀ u : Sys, (∀ x id, (x, .selectedGone id) ∈ u.raised → ∃ t, x = .tick t ∧ t.idx.get id = none) ↔
      ∀ e ∈ u.raised, Right e := by
    refine fun u => ⟨fun h e he => ?_, fun h x id he => h _ he⟩
    obtain ⟨x, e | e⟩ := e
    · exact h x _ he
    · trivial
  rw [hiff]
  constructor
  · -- from the events: the last step is safe, and the events before it are right
    intro hr
    induction h with
    | nil => exact .nil
    | snoc hrun hstep ih =>
      obtain ⟨new, hnew, hsafe⟩ := (good_of_run hrun).raised_step hstep
      rw [hnew] at hr
      exact (ih fun e he => hr e (List.mem_append_left _ he)).snoc
        ⟨hsafe.mp fun e he => hr e (List.mem_append_right _ he), hstep⟩
  · -- from the steps: each adds right events only
    intro hg
    refine (hg.inv (P := fun u => u.Good ∧ ∀ e ∈ u.raised, Right e) (fun t a u hstep ⟨hgood, hr⟩ => ?_)
      ⟨good_start heartbeatMs pinned selected v, fun _ he => absurd he List.not_mem_nil⟩).2
    obtain ⟨new, hnew, hsafe⟩ := hgood.raised_step hstep.2
    refine ⟨hgood.step hstep.2, fun e he => ?_⟩
    rw [hnew] at he
    exact (List.mem_append.mp he).elim (hr e) (hsafe.mpr hstep.1 e)

end Sys

namespace Sys

/-- A vehicle is selected and pinned before it drives out of the box. -/
def pinnedActs : List Action :=
  [.select ["RET:1"], .setPinned ["RET:1"], .opened 0, .serve 0, .tick 0 (oneBus 52 5), .deliver 0,
    .tick 0 (oneBus 60 5), .deliver 0]

/-- The run is safe: all its events say that the vehicle is back. -/
theorem gone_sound_iff_pinned :
    ∃ s, exec (@step plainPlatform) (@start 0 [] [] square) pinnedActs = some s ∧
      Run (Guarded Safe (@Step plainPlatform)) (@start 0 [] [] square) pinnedActs s := by
  let := plainPlatform
  have hrun : exec step (start 0 [] [] square) pinnedActs =
      some ((exec step (start 0 [] [] square) pinnedActs).get (by decide +kernel)) := (Option.some_get _).symm
  refine ⟨_, hrun, (gone_sound_iff (Run.of_exec hrun)).mp fun x id h => ?_⟩
  have hback : ((exec step (start 0 [] [] square) pinnedActs).get (by decide +kernel)).raised.all
      (fun e => match e.2 with
        | .selectedBack _ => true
        | .selectedGone _ => false) = true := by decide +kernel
  exact nomatch List.all_eq_true.mp hback _ h

/-- The box is moved off a vehicle, the LEAVE is on its way, and the vehicle is
selected. -/
def panActs : List Action :=
  [.opened 0, .serve 0, .tick 0 (oneBus 52 5), .deliver 0,
    .update { square with bbox := { minLat := .fin 10, minLon := .fin 4, maxLat := .fin 11, maxLon := .fin 6 } },
    .serve 0, .tick 0 (oneBus 52 5), .select ["RET:1"], .setPinned ["RET:1"], .deliver 0]

/-- The ids of the live vehicles a state's store reported gone. -/
def wronged (s : Sys) : List String :=
  s.raised.filterMap fun e => match e with
    | (.tick t, .selectedGone id) => if (t.idx.get id).isSome then some id else none
    | _ => none

/-- A vehicle that only left the viewport is reported gone. -/
theorem gone_not_sound :
    ¬∀ as s, Run (@Step plainPlatform) (@start 0 [] [] square) as s →
      ∀ x id, (x, .selectedGone id) ∈ s.raised → ∃ t : Tick, x = .tick t ∧ t.idx.get id = none := by
  let := plainPlatform
  intro h
  have hrun : exec step (start 0 [] [] square) panActs =
      some ((exec step (start 0 [] [] square) panActs).get (by decide +kernel)) := (Option.some_get _).symm
  have hw : "RET:1" ∈ wronged ((exec step (start 0 [] [] square) panActs).get (by decide +kernel)) := by
    decide +kernel
  obtain ⟨⟨x, e⟩, he, hid⟩ := List.mem_filterMap.mp hw
  cases x with
  | reply m => cases hid
  | tick t =>
    cases e with
    | selectedBack v => cases hid
    | selectedGone id =>
      obtain ⟨u, hu, hn⟩ := h panActs _ (Run.of_exec hrun) _ id he
      cases hu
      simp [hn] at hid

end Sys

end OV.Impl
