import Mathlib.Data.List.Nodup
import Ovlive.Impl.Client.Home

/-!
# The trip offered in place of an ended one

What the events of an update make of a tab (`update_selected`) and of the
stream (`update_inStream`), and from it exactly the runs in which a replacement
is one of an ended tab and of a vehicle in the stream, and resuming a trip leaves
a tab of a vehicle in the stream (`offered_iff`): those in which no vehicle with
a replacement in its tab leaves the stream. `Tidy` is the invariant.
-/

namespace OV.Impl.Client

namespace Selected

variable (s : Selected)

/-- An event keeps the vehicle of a tab. -/
@[simp] theorem gone_id (id : String) : (s.gone id).id = s.id := by
  unfold gone
  split <;> rfl

@[simp] theorem back_id (v : Vehicle) : (s.back v).id = s.id := by
  unfold back
  split_ifs <;> rfl

@[simp] theorem resume_id (id : String) : (s.resume id).id = s.id := by
  unfold resume
  split <;> rfl

/-- An ended tab only has a replacement. -/
def Frozen : Prop := s.replacement.isSome → s.ended = true

theorem frozen_back {s : Selected} (h : s.Frozen) (v : Vehicle) : (s.back v).Frozen := by
  unfold back
  split_ifs with hid hended hsame
  · exact h
  · exact h
  · exact nofun
  · exact fun _ => by simpa using hended

/-- The vehicles back, one after the other. -/
def backAll (vs : List Vehicle) : Selected := vs.foldl back s

/-- The vehicles gone, one after the other. -/
def goneAll (ids : List String) : Selected := ids.foldl gone s

@[simp] theorem backAll_id (vs : List Vehicle) : (s.backAll vs).id = s.id := by
  induction vs generalizing s with
  | nil => rfl
  | cons v vs ih =>
    rw [backAll, List.foldl_cons, ← backAll, ih, back_id]

theorem frozen_backAll {s : Selected} (h : s.Frozen) (vs : List Vehicle) : (s.backAll vs).Frozen := by
  induction vs generalizing s with
  | nil => exact h
  | cons v vs ih => exact ih (frozen_back h v)

theorem backAll_of_notMem {s : Selected} {vs : List Vehicle} (h : s.id ∉ vs.map Vehicle.id) : s.backAll vs = s := by
  induction vs with
  | nil => rfl
  | cons v vs ih =>
    simp only [List.map_cons, List.mem_cons, not_or] at h
    have hv : s.back v = s := if_pos h.1
    rw [backAll, List.foldl_cons, hv, ← backAll]
    exact ih h.2

theorem goneAll_eq (ids : List String) : s.goneAll ids = if s.id ∈ ids then { s with ended := true } else s := by
  induction ids generalizing s with
  | nil => rfl
  | cons id ids ih =>
    rw [goneAll, List.foldl_cons, ← goneAll, ih, gone_id, gone]
    by_cases hid : s.id = id
    · simp [hid]
    · simp [hid]

/-- What an update makes of a tab: the vehicles that come back, then those gone. -/
def updated (back : List Vehicle) (gone : List String) : Selected := (s.backAll back).goneAll gone

variable {s} {back : List Vehicle} {gone : List String}

@[simp] theorem updated_id : (s.updated back gone).id = s.id := by
  rw [updated, goneAll_eq]
  split <;> exact backAll_id ..

theorem updated_replacement : (s.updated back gone).replacement = (s.backAll back).replacement := by
  rw [updated, goneAll_eq]
  split <;> rfl

theorem updated_ended_of_mem (h : s.id ∈ gone) : (s.updated back gone).ended = true := by
  rw [updated, goneAll_eq, backAll_id, if_pos h]

/-- A vehicle neither back nor gone leaves its tab. -/
theorem updated_of_notMem (hback : s.id ∉ back.map Vehicle.id) (hgone : s.id ∉ gone) : s.updated back gone = s := by
  rw [updated, backAll_of_notMem hback, goneAll_eq, if_neg hgone]

theorem frozen_updated (h : s.Frozen) : (s.updated back gone).Frozen := by
  intro hsome
  rw [updated_replacement] at hsome
  have hended := frozen_backAll h back hsome
  rw [updated, goneAll_eq]
  split
  · rfl
  · exact hended

end Selected

namespace HomeApp

variable {s t : HomeApp} {u : NormalizedUpdate}

/-- Whether the client has the vehicle. -/
def InStream (s : HomeApp) (id : String) : Prop := (s.map.vehiclesRef.lookup id).isSome

/-- A replacement is one of an ended tab and of a vehicle in the stream. -/
def Offered (s : HomeApp) : Prop :=
  ∀ tab ∈ s.state.selected, tab.replacement.isSome → tab.ended = true ∧ s.InStream tab.id

/-- What a step is to leave: what is offered is live, and so is a trip that is resumed. -/
def offersLive (_ : HomeApp) (a : HomeAction) (t : HomeApp) : Prop :=
  t.Offered ∧ ∀ id, a = .resumeTrip id → ∀ tab ∈ t.state.selected, tab.id = id → tab.ended = false → t.InStream id

/-- An update removes no vehicle whose tab has a replacement, and a tab is closed
only when every other one that was rendered with a replacement is still in the
stream. -/
def spares (s : HomeApp) : HomeAction → Prop
  | .update u => ∀ tab ∈ s.state.selected, tab.replacement.isSome →
      tab.id ∉ u.left ∧ (u.isSnapshot = true → tab.id ∈ u.entered.map Vehicle.id)
  | .closeTab id => ∀ tab ∈ s.rendered.selected, tab.id ≠ id → tab.replacement.isSome → s.InStream tab.id
  | _ => True

/-! ## Updates -/

/-- The ids that an update reports gone. -/
def goneOf [Platform] (s : HomeApp) (u : NormalizedUpdate) : List String :=
  (u.left.filter fun id => id ∈ s.map.selectedIds) ++
    if u.isSnapshot then s.map.selectedIds.filter fun id => ((s.update u).map.vehiclesRef.lookup id).isNone else []

/-- Events that each change the tabs one by one. -/
theorem foldl_onEvent_map {X : Type} {event : X → StoreEvent} {f : Selected → X → Selected}
    (hf : ∀ (h : HomeState) x, (h.onEvent (event x)).selected = h.selected.map (f · x)) (xs : List X) (h : HomeState) :
    ((xs.map event).foldl HomeState.onEvent h).selected = h.selected.map fun tab => xs.foldl f tab := by
  induction xs generalizing h with
  | nil => exact (List.map_id h.selected).symm
  | cons x xs ih =>
    rw [List.map_cons, List.foldl_cons, ih, hf, List.map_map]
    rfl

/-- What an update makes of the tabs. -/
theorem update_selected [Platform] (s : HomeApp) (u : NormalizedUpdate) :
    (s.update u).state.selected =
      s.state.selected.map fun tab => tab.updated (u.entered.filter fun v => v.id ∈ s.map.selectedIds) (s.goneOf u) := by
  have hevents : (s.map.onUpdate u).2 =
      (u.entered.filter fun v => v.id ∈ s.map.selectedIds).map .selectedBack ++ (s.goneOf u).map .selectedGone := by
    rw [goneOf, List.map_append, ← List.append_assoc]
    rfl
  show ((s.map.onUpdate u).2.foldl HomeState.onEvent s.state).selected = _
  rw [hevents, List.foldl_append, foldl_onEvent_map fun _ _ => rfl, foldl_onEvent_map fun _ _ => rfl, List.map_map]
  rfl

/-- What an update makes of the stream. -/
theorem update_inStream [Platform] (s : HomeApp) (u : NormalizedUpdate) (id : String) :
    (s.update u).InStream id ↔
      id ∉ u.left ∧ (id ∈ u.entered.map Vehicle.id ∨ u.isSnapshot = false ∧ s.InStream id) := by
  show ((Map.eraseAll u.left _).lookup id).isSome ↔ _
  rw [Map.lookup_eraseAll]
  by_cases hid : id ∈ u.left
  · simp [hid]
  · rw [if_neg hid, Map.isSome_lookup_adjustAll, Map.isSome_lookup_insertAll]
    cases hsnap : u.isSnapshot <;> simp [hid, InStream]

/-! ## The invariant -/

/-- What the runs keep: no vehicle has two tabs, the map has the selection of
the render, what is offered is live, and a tab rendered as ended is woken by the
stream only. -/
structure Tidy (s : HomeApp) : Prop where
  selectedIds : s.map.selectedIds = s.rendered.selected.map Selected.id
  nodup : (s.state.selected.map Selected.id).Nodup
  renderedNodup : (s.rendered.selected.map Selected.id).Nodup
  offered : s.Offered
  frozen : ∀ tab ∈ s.rendered.selected, tab.Frozen
  woken : ∀ old ∈ s.rendered.selected, old.ended = true →
    ∀ tab ∈ s.state.selected, tab.id = old.id → tab.ended = false → s.InStream tab.id

theorem tidy_init : Tidy {} where
  selectedIds := rfl
  nodup := List.nodup_nil
  renderedNodup := List.nodup_nil
  offered _ h := absurd h List.not_mem_nil
  frozen _ h := absurd h List.not_mem_nil
  woken _ h := absurd h List.not_mem_nil

/-- A click leaves what its handler does. -/
theorem tidy_click {state : HomeState} (hnodup : (state.selected.map Selected.id).Nodup)
    (hoffered : ∀ tab ∈ state.selected, tab.replacement.isSome → tab.ended = true ∧ s.InStream tab.id) :
    (s.click state).Tidy where
  selectedIds := rfl
  nodup := hnodup
  renderedNodup := hnodup
  offered := hoffered
  frozen tab htab hsome := (hoffered tab htab hsome).1
  woken old hold hended tab htab hid hawake := by
    -- a vehicle has one tab
    obtain rfl := List.inj_on_of_nodup_map hnodup htab hold hid
    exact absurd (hended.symm.trans hawake) (by decide)

/-- An update that changes no tab's vehicle, end or replacement. -/
theorem tidy_map (h : s.Tidy) {f : Selected → Selected} {state : HomeState} {map : MapView}
    (hf : ∀ tab, (f tab).id = tab.id ∧ (f tab).ended = tab.ended ∧ (f tab).replacement = tab.replacement)
    (hstate : state.selected = s.state.selected.map f) (hmap : map.vehiclesRef = s.map.vehiclesRef)
    (hids : map.selectedIds = s.map.selectedIds) : Tidy { s with state := state, map := map } := by
  have hin : ∀ id, InStream { s with state := state, map := map } id ↔ s.InStream id := by
    intro id
    unfold InStream
    rw [hmap]
  refine ⟨hids.trans h.selectedIds, ?_, h.renderedNodup, ?_, h.frozen, ?_⟩
  · rw [hstate, List.map_map, show Selected.id ∘ f = Selected.id from funext fun tab => (hf tab).1]
    exact h.nodup
  · intro tab htab hsome
    obtain ⟨old, hold, rfl⟩ := List.mem_map.mp (hstate ▸ htab)
    obtain ⟨hid, hended, hrepl⟩ := hf old
    rw [hrepl] at hsome
    rw [hin, hid, hended]
    exact h.offered old hold hsome
  · intro rend hrend hrended tab htab hid hawake
    obtain ⟨old, hold, rfl⟩ := List.mem_map.mp (hstate ▸ htab)
    obtain ⟨hid', hended, -⟩ := hf old
    rw [hin, hid']
    exact h.woken rend hrend hrended old hold (hid'.symm.trans hid) (hended.symm.trans hawake)

/-- A vehicle that does not enter does not come back. -/
theorem notMem_back {id : String} (h : id ∉ u.entered.map Vehicle.id) :
    id ∉ (u.entered.filter fun v => v.id ∈ s.map.selectedIds).map Vehicle.id := by
  intro hback
  obtain ⟨v, hv, rfl⟩ := List.mem_map.mp hback
  exact h (List.mem_map_of_mem (List.mem_filter.mp hv).1)

/-- A vehicle that is not in the stream any more, but whose tab the map has, is
reported gone. -/
theorem mem_goneOf [Platform] {id : String} (hid : id ∈ s.map.selectedIds) (hin : s.InStream id)
    (hout : ¬(s.update u).InStream id) : id ∈ s.goneOf u := by
  rw [goneOf, List.mem_append]
  by_cases hleft : id ∈ u.left
  · exact .inl (List.mem_filter.mpr ⟨hleft, by simpa using hid⟩)
  · have hsnap : u.isSnapshot = true := by
      by_contra hsnap
      exact hout ((update_inStream s u id).mpr ⟨hleft, .inr ⟨eq_false_of_ne_true hsnap, hin⟩⟩)
    rw [if_pos hsnap]
    exact .inr (List.mem_filter.mpr ⟨hid, by simpa [InStream] using hout⟩)

/-- An update keeps what is offered live exactly if it removes no vehicle with a
replacement. -/
theorem offered_update_iff [Platform] (h : s.Tidy) (hdisjoint : ∀ id ∈ u.entered.map Vehicle.id, id ∉ u.left) :
    (s.update u).Offered ↔ s.spares (.update u) := by
  unfold Offered
  rw [update_selected]
  constructor
  · intro hall tab htab hsome
    by_cases hentered : tab.id ∈ u.entered.map Vehicle.id
    · exact ⟨hdisjoint _ hentered, fun _ => hentered⟩
    · -- nothing took the replacement away
      have hnotBack := notMem_back (s := s) hentered
      have hin := (hall _ (List.mem_map_of_mem htab)
        (by rw [Selected.updated_replacement, Selected.backAll_of_notMem hnotBack]; exact hsome)).2
      rw [Selected.updated_id, update_inStream] at hin
      refine ⟨hin.1, fun hsnap => ?_⟩
      rcases hin.2 with hmem | ⟨hsnap', -⟩
      · exact hmem
      · exact absurd (hsnap.symm.trans hsnap') (by decide)
  · intro hspares tab htab hsome
    obtain ⟨old, hold, rfl⟩ := List.mem_map.mp htab
    have hfrozen : old.Frozen := fun hsome => (h.offered old hold hsome).1
    refine ⟨Selected.frozen_updated hfrozen hsome, ?_⟩
    rw [Selected.updated_id, update_inStream]
    by_cases hentered : old.id ∈ u.entered.map Vehicle.id
    · exact ⟨hdisjoint _ hentered, .inl hentered⟩
    · have hnotBack := notMem_back (s := s) hentered
      rw [Selected.updated_replacement, Selected.backAll_of_notMem hnotBack] at hsome
      obtain ⟨hleft, hsnap⟩ := hspares old hold hsome
      refine ⟨hleft, .inr ⟨?_, (h.offered old hold hsome).2⟩⟩
      exact eq_false_of_ne_true fun hs => hentered (hsnap hs)

/-- An update that keeps what is offered live keeps the invariant. -/
theorem tidy_update [Platform] (h : s.Tidy) (hdisjoint : ∀ id ∈ u.entered.map Vehicle.id, id ∉ u.left)
    (hoffered : (s.update u).Offered) : (s.update u).Tidy := by
  refine ⟨h.selectedIds, ?_, h.renderedNodup, hoffered, h.frozen, ?_⟩
  · rw [update_selected, List.map_map, show Selected.id ∘ _ = Selected.id from funext fun _ => Selected.updated_id]
    exact h.nodup
  · intro rend hrend hrended tab htab hid hawake
    rw [update_selected] at htab
    obtain ⟨old, hold, rfl⟩ := List.mem_map.mp htab
    rw [Selected.updated_id] at hid ⊢
    by_cases hentered : old.id ∈ u.entered.map Vehicle.id
    · exact (update_inStream s u _).mpr ⟨hdisjoint _ hentered, .inl hentered⟩
    · have hnotBack := notMem_back (s := s) hentered
      have hnotGone : old.id ∉ s.goneOf u := fun hgone =>
        absurd (hawake.symm.trans (Selected.updated_ended_of_mem hgone)) (by decide)
      rw [Selected.updated_of_notMem hnotBack hnotGone] at hawake
      by_contra hout
      refine hnotGone (mem_goneOf ?_ (h.woken rend hrend hrended old hold hid hawake) hout)
      rw [h.selectedIds, hid]
      exact List.mem_map_of_mem hrend

/-! ## Clicks -/

/-- A handler that keeps, of the tabs, some, and adds one without a replacement. -/
theorem tidy_click_of_sublist (h : s.Tidy) {state : HomeState}
    (hnodup : (state.selected.map Selected.id).Nodup)
    (hsub : ∀ tab ∈ state.selected, tab ∈ s.state.selected ∨ tab.replacement = none) : (s.click state).Tidy := by
  refine tidy_click hnodup fun tab htab hsome => ?_
  rcases hsub tab htab with hold | hnone
  · exact h.offered tab hold hsome
  · rw [hnone] at hsome
    cases hsome

/-- A vehicle is selected: its tab is new, or it had one. -/
theorem tidy_select (h : s.Tidy) (id : String) (v : Option Vehicle) : (s.click (s.state.selectVehicle id v)).Tidy := by
  refine tidy_click_of_sublist h ?_ ?_
  · simp only [HomeState.selectVehicle]
    split_ifs with hmulti hany
    · exact List.nodup_singleton _
    · exact h.nodup
    · rw [List.map_drop]
      refine List.Nodup.sublist (List.drop_sublist ..) ?_
      rw [List.map_append, List.nodup_append']
      refine ⟨h.nodup, List.nodup_singleton _, ?_⟩
      intro x hx hnew
      obtain ⟨tab, htab, rfl⟩ := List.mem_map.mp hx
      exact hany (List.any_eq_true.mpr ⟨tab, htab, by simpa using hnew⟩)
  · intro tab htab
    simp only [HomeState.selectVehicle] at htab
    split_ifs at htab
    · exact .inr (List.mem_singleton.mp htab ▸ rfl)
    · exact .inl htab
    · rcases List.mem_append.mp (List.mem_of_mem_drop htab) with hold | hnew
      · exact .inl hold
      · exact .inr (List.mem_singleton.mp hnew ▸ rfl)

/-- A trip is resumed where the panel offers it: its tab has the replacement, or
the stream has woken it since. -/
theorem tidy_resume (h : s.Tidy) {id : String} (hoffers : s.offers id = true) :
    (s.click (s.state.resumeTrip id)).Tidy ∧
      ∀ tab ∈ (s.state.resumeTrip id).selected, tab.id = id → tab.ended = false → s.InStream id := by
  have hback : ∀ tab ∈ s.state.selected, tab.resume id = tab ∨ tab.id = id ∧ (tab.resume id).replacement = none ∧
      s.InStream id := by
    intro tab htab
    unfold Selected.resume
    split
    · rename_i hid
      exact .inr ⟨hid.1, rfl, hid.1 ▸ (h.offered tab htab hid.2).2⟩
    · exact .inl rfl
  refine ⟨tidy_click ?_ ?_, ?_⟩
  · show ((s.state.selected.map (·.resume id)).map Selected.id).Nodup
    rw [List.map_map, show Selected.id ∘ _ = Selected.id from funext fun tab => tab.resume_id id]
    exact h.nodup
  · intro tab htab hsome
    obtain ⟨old, hold, rfl⟩ := List.mem_map.mp htab
    rcases hback old hold with hsame | ⟨-, hnone, -⟩
    · rw [hsame] at hsome ⊢
      exact h.offered old hold hsome
    · rw [hnone] at hsome
      cases hsome
  · intro tab htab hid hawake
    obtain ⟨old, hold, rfl⟩ := List.mem_map.mp htab
    rcases hback old hold with hsame | ⟨-, -, hin⟩
    · rw [hsame] at hid hawake
      -- the tab rendered for the vehicle had ended
      simp only [offers, Bool.and_eq_true, Option.any_eq_true] at hoffers
      obtain ⟨-, rend, hfind, hended, -⟩ := hoffers
      have hrid : rend.id = id := by simpa using List.find?_some hfind
      exact hid ▸ h.woken rend (List.mem_of_find?_eq_some hfind) hended old hold (hid.trans hrid.symm) hawake
    · exact hin

/-- Closing a tab keeps what is offered live exactly if the tabs that remain are
live as rendered. -/
theorem offered_close_iff (h : s.Tidy) (id : String) :
    (s.click (s.state.closeTab s.rendered id)).Offered ↔ s.spares (.closeTab id) := by
  constructor
  · intro hall tab htab hne hsome
    exact (hall tab (List.mem_filter.mpr ⟨htab, by simpa using hne⟩) hsome).2
  · intro hspares tab htab hsome
    obtain ⟨hold, hne⟩ := List.mem_filter.mp htab
    exact ⟨h.frozen tab hold hsome, hspares tab hold (by simpa using hne) hsome⟩

/-! ## Runs -/

/-- An action that is spared anything, and leaves the invariant. -/
theorem live_of_tidy {a : HomeAction} (ht : t.Tidy) (ha : s.spares a) (hresume : ∀ id, a ≠ .resumeTrip id) :
    (offersLive s a t ↔ s.spares a) ∧ (s.spares a → t.Tidy) :=
  ⟨⟨fun _ => ha, fun _ => ⟨ht.offered, fun id h => absurd h (hresume id)⟩⟩, fun _ => ht⟩

/-- The record of the stream changes no tab otherwise, -/
theorem live_keeps (v : Vehicle) (tab : Selected) :
    (tab.live v).id = tab.id ∧ (tab.live v).ended = tab.ended ∧ (tab.live v).replacement = tab.replacement := by
  unfold Selected.live
  split <;> exact ⟨rfl, rfl, rfl⟩

/-- and neither does the line of a detail. -/
theorem detailed_keeps (id line : String) (tab : Selected) :
    (tab.detailed id line).id = tab.id ∧ (tab.detailed id line).ended = tab.ended ∧
      (tab.detailed id line).replacement = tab.replacement := by
  unfold Selected.detailed
  split <;> exact ⟨rfl, rfl, rfl⟩

theorem tidy_frame (h : s.Tidy) : s.frame.Tidy := by
  have hkeep : Tidy { s with map := { s.map with dirty := false } } :=
    tidy_map h (fun _ => ⟨rfl, rfl, rfl⟩) (List.map_id _).symm rfl rfl
  simp only [frame]
  split
  · split
    · exact tidy_map h (live_keeps _) rfl rfl rfl
    · exact hkeep
  · exact hkeep

theorem tidy_detail (h : s.Tidy) (id line : String) : Tidy { s with state := s.state.onDetail id line } := by
  unfold HomeState.onDetail
  split
  · exact h
  · exact tidy_map h (detailed_keeps id line) rfl rfl rfl

/-- A step leaves what is offered live, and a trip resumed in the stream, exactly
if it spares what is offered. -/
theorem tidy_step [Platform] {a : HomeAction} (h : s.Tidy) (hs : Step s a t) :
    (offersLive s a t ↔ s.spares a) ∧ (s.spares a → t.Tidy) := by
  have hkept : ∀ {state : HomeState}, state.selected = s.state.selected → (s.click state).Tidy := fun hsame =>
    tidy_click_of_sublist h (by rw [hsame]; exact h.nodup) fun tab htab => .inl (hsame ▸ htab)
  cases a with
  | update u =>
    simp only [Step, step] at hs
    split at hs
    · rename_i hdisjoint
      obtain rfl := Option.some.inj hs
      have hout : ∀ id ∈ u.entered.map Vehicle.id, id ∉ u.left := by simpa using hdisjoint
      have hiff := offered_update_iff h hout
      exact ⟨⟨fun hq => hiff.mp hq.1, fun hok => ⟨hiff.mpr hok, nofun⟩⟩, fun hok => tidy_update h hout (hiff.mpr hok)⟩
    · cases hs
  | frame =>
    simp only [Step, step] at hs
    split at hs
    · obtain rfl := Option.some.inj hs
      exact live_of_tidy (tidy_frame h) trivial nofun
    · cases hs
  | detail id line =>
    obtain rfl := Option.some.inj hs
    exact live_of_tidy (tidy_detail h id line) trivial nofun
  | render =>
    obtain rfl := Option.some.inj hs
    exact live_of_tidy (hkept rfl) trivial nofun
  | pick id =>
    obtain rfl := Option.some.inj hs
    exact live_of_tidy (tidy_select h id _) trivial nofun
  | openVehicle id =>
    obtain rfl := Option.some.inj hs
    exact live_of_tidy (tidy_select h id _) trivial nofun
  | openStop id =>
    obtain rfl := Option.some.inj hs
    exact live_of_tidy (hkept rfl) trivial nofun
  | closeStop =>
    obtain rfl := Option.some.inj hs
    exact live_of_tidy (hkept rfl) trivial nofun
  | resumeTrip id =>
    simp only [Step, step] at hs
    split at hs
    · rename_i hoffers
      obtain rfl := Option.some.inj hs
      obtain ⟨htidy, hin⟩ := tidy_resume h hoffers
      refine ⟨⟨fun _ => trivial, fun _ => ⟨htidy.offered, fun id' he => ?_⟩⟩, fun _ => htidy⟩
      cases he
      exact hin
    · cases hs
  | selectTab id =>
    obtain rfl := Option.some.inj hs
    exact live_of_tidy (hkept rfl) trivial nofun
  | closeTab id =>
    obtain rfl := Option.some.inj hs
    have hiff := offered_close_iff h id
    refine ⟨⟨fun hq => hiff.mp hq.1, fun hok => ⟨hiff.mpr hok, nofun⟩⟩, fun hok => tidy_click ?_ (hiff.mpr hok)⟩
    exact h.renderedNodup.sublist (List.filter_sublist.map _)
  | closeAll =>
    obtain rfl := Option.some.inj hs
    exact live_of_tidy (tidy_click List.nodup_nil fun _ htab => absurd htab List.not_mem_nil) trivial nofun
  | changeMultiSelect on =>
    obtain rfl := Option.some.inj hs
    refine live_of_tidy (tidy_click_of_sublist h ?_ ?_) trivial nofun
    · show ((if on then s.state.selected else _).map Selected.id).Nodup
      split
      · exact h.nodup
      · exact h.nodup.sublist (List.filter_sublist.map _)
    · intro tab htab
      simp only [HomeState.changeMultiSelect] at htab
      split at htab
      · exact .inl htab
      · exact .inl (List.mem_filter.mp htab).1

/-- In a run every state offers what is live, and every trip resumed is in the
stream, exactly if no vehicle with a replacement leaves the stream and no tab is
closed that brings one back. -/
theorem offered_iff [Platform] (as : List HomeAction) (s : HomeApp) :
    Run (Ensured offersLive Step) {} as s ↔ Run (Guarded spares Step) {} as s :=
  Run.ensured_iff (P := Tidy) (fun _ _ _ htidy hs => tidy_step htidy hs) tidy_init

/-! ## A trip that ends while it is offered -/

/-- A bus on a journey. -/
def busOn (journey : String) : Vehicle where
  id := "RET:1"
  dataowner := "RET"
  vehicleNumber := "1"
  line := "44"
  type := 1
  operator := "RET"
  lat := .fin 52
  lon := .fin 5
  bearing := none
  speedKmh := none
  delay := 0
  delayKnown := true
  destination := "Zuidplein"
  block := ""
  journey := journey
  atStop := false
  currentStopId := ""
  schedulePositioned := false
  lineColor := ""
  lineTextColor := ""

/-- The stream has a vehicle enter. -/
def entering (v : Vehicle) : HomeAction := .update { entered := [v], moved := [], left := [], isSnapshot := false }

/-- The stream has a vehicle leave. -/
def leaving (id : String) : HomeAction := .update { entered := [], moved := [], left := [id], isSnapshot := false }

/-- A selected vehicle ends its journey, is back on another, and ends that too. -/
def endedTwice : List HomeAction :=
  [entering (busOn "1"), .pick "RET:1", leaving "RET:1", .render, entering (busOn "2"), .render, leaving "RET:1", .render]

/-- The state after some actions. -/
def after (as : List HomeAction) : Option HomeApp := exec (fun s => @step s plainPlatform) {} as

/-- What the screen shows of a state: its tabs, and whether the vehicle is in the
stream. -/
def shown (s : HomeApp) : List Selected × Bool := (s.state.selected, (s.map.vehiclesRef.lookup "RET:1").isSome)

/-- The other journey is still offered though its vehicle has left, and resuming
it leaves a tab that has not ended. -/
theorem not_offered :
    (¬ ∀ as s, Run (@Step plainPlatform) {} as s → s.Offered) ∧
      ¬ ∀ as s id t, Run (@Step plainPlatform) {} as s → @Step plainPlatform s (.resumeTrip id) t →
        ∀ tab ∈ t.state.selected, tab.id = id → tab.ended = false → t.InStream id := by
  have hleft : (after endedTwice).map shown = some ([⟨"RET:1", some (busOn "1"), true, some (busOn "2")⟩], false) := by
    decide +kernel
  have hresumed : (after (endedTwice ++ [.resumeTrip "RET:1"])).map shown =
      some ([⟨"RET:1", some (busOn "2"), false, none⟩], false) := by
    decide +kernel
  obtain ⟨s, hs, hshown⟩ := Option.map_eq_some_iff.mp hleft
  obtain ⟨t, ht, hshown'⟩ := Option.map_eq_some_iff.mp hresumed
  obtain ⟨htabs, hout⟩ := Prod.mk.inj hshown
  obtain ⟨htabs', hout'⟩ := Prod.mk.inj hshown'
  constructor
  · intro hall
    have hin := (hall _ s (Run.of_exec hs) _ (htabs ▸ List.mem_singleton_self _) rfl).2
    exact absurd (hin.symm.trans hout) (by decide)
  · intro hall
    obtain ⟨u, hu, hstep⟩ := (Run.of_exec ht).last
    have hin := hall _ u _ t hu hstep _ (htabs' ▸ List.mem_singleton_self _) rfl rfl
    exact absurd (hin.symm.trans hout') (by decide)

end HomeApp

end OV.Impl.Client
