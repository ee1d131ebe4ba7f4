import Ovlive.Impl.Client.VehicleView
import Ovlive.Proof.Client.Offered

/-!
# Where the panel and the map see the vehicle

The map splits the trip by the record of the stream, and the panel by what the
tab has, or else the detail. An animation frame gives the tab the record of the
stream, and the next render shows it; `Wait` says which of the two the panel
waits for. In every run the two splits are equal wherever the panel waits for
nothing and the tab has not ended, and where nothing is known of the vehicle
(`split_eq_of_run`). A vehicle that left the stream is split by its tab on the
panel, and by the clock alone on the map (`not_split_eq`).
-/

namespace OV.Impl.Client

/-- What the panel waits for until it has what the map has. -/
inductive Wait
  | frame
  | render
  | nothing
  deriving DecidableEq

/-- A tab has the place, the delay and the halt of a record. -/
def Selected.HasRecord (tab : Selected) (veh : Vehicle) : Prop :=
  ∃ basic, tab.basic = some basic ∧ basic.lat = veh.lat ∧ basic.lon = veh.lon ∧ basic.atStop = veh.atStop ∧
    basic.delay = veh.delay

/-- A render shows what a frame brought. -/
def Wait.rendered (w : Wait) : Wait := if w = .render then .nothing else w

/-- Whether an update says anything of a vehicle; a snapshot does of all. -/
def NormalizedUpdate.concerns (u : NormalizedUpdate) (id : String) : Bool :=
  u.isSnapshot || decide (id ∈ u.entered.map Vehicle.id) || decide (id ∈ u.moved.map MoveDelta.id) || decide (id ∈ u.left)

namespace HomeApp

/-- What the panel waits for after a turn to the tab of a vehicle. -/
def turned (s : HomeApp) (w : Wait) (id : String) : Wait := if s.state.activeId = some id then w.rendered else .frame

/-- Whether a vehicle that is selected has a tab already. -/
def keeps (s : HomeApp) (id : String) : Bool := s.state.multiSelect && s.state.selected.any (·.id = id)

/-- What the panel waits for after an action. An update may change the record of
the active vehicle, and the tab that is opened or turned to may have an old one or
none; a vehicle picked on the map brings its record, unless it has a tab. A tab is
closed as last rendered. -/
def wait (s : HomeApp) (w : Wait) : HomeAction → Wait
  | .update u => if s.state.activeId.any u.concerns then .frame else w
  | .pick id => if s.keeps id then s.turned w id else .nothing
  | .openVehicle id => if s.keeps id then s.turned w id else .frame
  | .selectTab id => s.turned w id
  | .resumeTrip _ => .frame
  | .closeTab id => if w = .nothing ∧ s.rendered.activeId ≠ some id then .nothing else .frame
  | .frame => .render
  | .render | .openStop _ | .closeStop | .closeAll | .changeMultiSelect _ => w.rendered
  | .detail _ _ => w

/-- The steps of the screen, with what the panel waits for. -/
def Waiting [Platform] (s : HomeApp × Wait) (a : HomeAction) (t : HomeApp × Wait) : Prop :=
  Step s.1 a t.1 ∧ t.2 = s.1.wait s.2 a

/-- The panel has all that the map has of the active vehicle: it waits for
nothing, and the tab of a vehicle in the stream has not ended; or there is no
record of it, in the stream or in the tab, and no detail that the panel reads. -/
inductive Settled (s : HomeApp) (w : Wait) (id : String) (detail : Option VehicleDetail) : Prop
  | live {veh : Vehicle} {tab : Selected} (record : s.map.active (some id) = some veh)
      (shown : s.rendered.selected.find? (·.id = id) = some tab) (running : tab.ended = false) (waits : w = .nothing)
  | unknown (record : s.map.active (some id) = none)
      (noRecord : ∀ tab, s.rendered.selected.find? (·.id = id) = some tab → tab.basic = none)
      (noDetail : detail = none ∨ ∃ tab, s.rendered.selected.find? (·.id = id) = some tab ∧ tab.ended = true)

/-- The active tab of a state has the record of the stream, if there is one and the
tab has not ended. -/
def Has (s : HomeApp) (state : HomeState) : Prop :=
  ∀ id veh tab, state.activeId = some id → s.map.active (some id) = some veh →
    state.selected.find? (·.id = id) = some tab → tab.ended = false → tab.HasRecord veh

/-- What the runs keep: a click is rendered at once, and the stream's records are
under their ids. -/
structure Wired (s : HomeApp) : Prop where
  active : s.state.activeId = s.rendered.activeId
  keyed : ∀ k v, s.map.vehiclesRef.lookup k = some v → v.id = k

theorem onEvents_activeId (es : List StoreEvent) (h : HomeState) : (es.foldl HomeState.onEvent h).activeId = h.activeId := by
  induction es generalizing h with
  | nil => rfl
  | cons e es ih =>
    rw [List.foldl_cons, ih]
    cases e <;> rfl

/-- A frame brings the queued state the record, and leaves the rest. -/
theorem frame_keeps (s : HomeApp) : s.frame.map = { s.map with dirty := false } ∧ s.frame.rendered = s.rendered ∧
    s.frame.state.activeId = s.state.activeId := by
  unfold frame
  dsimp only
  split
  · split
    · exact ⟨rfl, rfl, rfl⟩
    · exact ⟨rfl, rfl, rfl⟩
  · exact ⟨rfl, rfl, rfl⟩

theorem wired_step [Platform] {s t : HomeApp} {a : HomeAction} (h : s.Wired) (hs : Step s a t) : t.Wired := by
  have hclick : ∀ state, (s.click state).Wired := fun _ => ⟨rfl, h.keyed⟩
  cases a with
  | update u =>
    simp only [Step, step] at hs
    split at hs
    · obtain rfl := Option.some.inj hs
      refine ⟨(onEvents_activeId ..).trans h.active, ?_⟩
      have hbase : ∀ k v, (if u.isSnapshot then ∅ else s.map.vehiclesRef).lookup k = some v → v.id = k := by
        intro k v hk
        split at hk
        · cases hk
        · exact h.keyed k v hk
      intro k v hk
      have hk : (Map.eraseAll u.left _).lookup k = some v := hk
      rw [Map.lookup_eraseAll] at hk
      split at hk
      · cases hk
      · refine Map.forall_adjustAll (P := fun k v => v.id = k) (f := MoveDelta.assignVehicle) ?_ ?_ k v hk
        · exact fun _ _ _ hv => hv
        · exact Map.forall_insertAll (fun _ _ => rfl) hbase
    · cases hs
  | frame =>
    simp only [Step, step] at hs
    split at hs
    · obtain rfl := Option.some.inj hs
      obtain ⟨hmap, hrendered, hactive⟩ := frame_keeps s
      exact ⟨by rw [hactive, hrendered, h.active], by rw [hmap]; exact h.keyed⟩
    · cases hs
  | detail id line =>
    obtain rfl := Option.some.inj hs
    refine ⟨?_, h.keyed⟩
    show (s.state.onDetail id line).activeId = _
    unfold HomeState.onDetail
    split
    · exact h.active
    · exact h.active
  | render =>
    obtain rfl := Option.some.inj hs
    exact ⟨rfl, h.keyed⟩
  | resumeTrip id =>
    simp only [Step, step] at hs
    split at hs
    · obtain rfl := Option.some.inj hs
      exact hclick _
    · cases hs
  | pick id | openVehicle id | openStop id | closeStop | selectTab id | closeTab id | closeAll | changeMultiSelect on =>
    obtain rfl := Option.some.inj hs
    exact hclick _

/-- What the runs keep besides: once a frame has come the queued state has the
record, and once it is rendered so has the rendered one. -/
structure Caught (s : HomeApp) (w : Wait) : Prop where
  queued : w ≠ .frame → s.Has s.state
  shown : w = .nothing → s.Has s.rendered

section

variable {s t : HomeApp} {w : Wait} {id : String} {state : HomeState} {veh : Vehicle} {tab : Selected}
  {detail : Option VehicleDetail}

theorem live_hasRecord (hid : tab.id = veh.id) (hended : (tab.live veh).ended = false) :
    (tab.live veh).HasRecord veh := by
  have hrunning : tab.ended = false := (live_keeps veh tab).2.1.symm.trans hended
  rw [Selected.live, if_pos ⟨hid, hrunning⟩]
  exact ⟨_, rfl, rfl, rfl, rfl, rfl⟩

/-- A change of each tab that leaves it under its id. -/
theorem find?_map_tabs {f : Selected → Selected} (hf : ∀ tab, (f tab).id = tab.id) (tabs : List Selected) :
    (tabs.map f).find? (·.id = id) = (tabs.find? (·.id = id)).map f := by
  have hsame : (fun tab : Selected => decide (tab.id = id)) ∘ f = fun tab => decide (tab.id = id) := by
    funext tab
    rw [Function.comp_apply, hf]
  rw [List.find?_map, hsame]

theorem lookup_of_active (h : s.map.active (some id) = some veh) : id ≠ "" ∧ s.map.vehiclesRef.lookup id = some veh := by
  obtain ⟨found, hfound, hlookup⟩ := Option.bind_eq_some_iff.mp h
  rw [Option.filter_eq_some_iff] at hfound
  obtain ⟨hid, hne⟩ := hfound
  obtain rfl := Option.some.inj hid
  exact ⟨of_decide_eq_true hne, hlookup⟩

/-- A render shows what is queued, and so does a click that leaves the active tab
as it is. -/
theorem Caught.click (h : s.Caught w) (hstate : s.Has s.state → s.Has state) : (s.click state).Caught w.rendered where
  queued hw := hstate (h.queued (by rintro rfl; exact hw rfl))
  shown hw := hstate (h.queued (by rintro rfl; cases hw))

/-- The panel waits for a frame, whatever it shows. -/
theorem caught_frame (s : HomeApp) : s.Caught .frame := ⟨fun hw => absurd rfl hw, nofun⟩

/-- So does a turn to the active tab. -/
theorem Caught.turn (h : s.Caught w) (hactive : state.activeId = some id) (hselected : state.selected = s.state.selected) :
    (s.click state).Caught (s.turned w id) := by
  unfold turned
  split
  · rename_i hsame
    refine h.click fun hhas vid veh tab hid => ?_
    rw [hselected]
    exact hhas vid veh tab (hsame.trans (hactive.symm.trans hid))
  · exact caught_frame _

/-- An update leaves the record of a vehicle it says nothing of. -/
theorem update_active [Platform] {u : NormalizedUpdate} (hid : u.concerns id = false) :
    (s.update u).map.active (some id) = s.map.active (some id) := by
  simp only [NormalizedUpdate.concerns, Bool.or_eq_false_iff, decide_eq_false_iff_not] at hid
  obtain ⟨⟨⟨hsnap, hentered⟩, hmoved⟩, hleft⟩ := hid
  have hlookup : (s.update u).map.vehiclesRef.lookup id = s.map.vehiclesRef.lookup id := by
    show (Map.eraseAll u.left (Map.adjustAll MoveDelta.id MoveDelta.assignVehicle u.moved (Map.insertAll Vehicle.id (fun v => v)
      u.entered (if u.isSnapshot then ∅ else s.map.vehiclesRef)))).lookup id = _
    rw [Map.lookup_eraseAll, if_neg hleft, Map.lookup_adjustAll_of_notMem hmoved, Map.lookup_insertAll_of_notMem hentered,
      hsnap, if_neg Bool.false_ne_true]
  simp only [MapView.active, Option.filter_some]
  split
  · exact hlookup
  · rfl

/-- And its tab. -/
theorem has_update [Platform] {u : NormalizedUpdate} (hnone : s.state.activeId.any u.concerns = false)
    (h : s.Has s.state) : (s.update u).Has (s.update u).state := by
  intro id veh tab hid hrecord htab hrunning
  have hid : s.state.activeId = some id := (onEvents_activeId ..).symm.trans hid
  rw [hid, Option.any_some] at hnone
  rw [update_active hnone] at hrecord
  rw [update_selected, find?_map_tabs fun _ => Selected.updated_id] at htab
  obtain ⟨old, hold, rfl⟩ := Option.map_eq_some_iff.mp htab
  have hoid : old.id = id := by simpa using List.find?_some hold
  simp only [NormalizedUpdate.concerns, Bool.or_eq_false_iff, decide_eq_false_iff_not] at hnone
  obtain ⟨⟨⟨hsnap, hentered⟩, -⟩, hleft⟩ := hnone
  have hgone : old.id ∉ s.goneOf u := by
    rw [goneOf, hsnap, if_neg Bool.false_ne_true, List.append_nil, hoid]
    exact fun hmem => hleft (List.mem_filter.mp hmem).1
  rw [Selected.updated_of_notMem (notMem_back (hoid ▸ hentered)) hgone] at hrunning ⊢
  exact h id veh old hid hrecord hold hrunning

theorem caught_update [Platform] {u : NormalizedUpdate} (hwired : s.Wired) (h : s.Caught w)
    (hnone : s.state.activeId.any u.concerns = false) : (s.update u).Caught w := by
  refine ⟨fun hw => has_update hnone (h.queued hw), fun hw id veh tab hid hrecord => h.shown hw id veh tab hid ?_⟩
  have hid : s.state.activeId = some id := hwired.active.trans hid
  rw [hid, Option.any_some] at hnone
  rwa [update_active hnone] at hrecord

/-- A frame gives the active tab the record of the stream. -/
theorem has_frame (h : s.Wired) : s.frame.Has s.frame.state := by
  intro id veh tab hid hrecord htab hrunning
  obtain ⟨hmap, -, hactive⟩ := frame_keeps s
  rw [hmap] at hrecord
  obtain ⟨hne, hlookup⟩ := lookup_of_active hrecord
  have hfilter : s.rendered.activeId.filter (· ≠ "") = some id := by
    rw [← h.active, ← hactive, hid, Option.filter_some, if_pos (by simpa using hne)]
  have hstate : s.frame.state = s.state.onSelectedLive veh := by simp only [frame, hfilter, hlookup]
  rw [hstate, HomeState.onSelectedLive, find?_map_tabs fun tab => (live_keeps veh tab).1] at htab
  obtain ⟨old, hold, rfl⟩ := Option.map_eq_some_iff.mp htab
  have hoid : old.id = id := by simpa using List.find?_some hold
  exact live_hasRecord (hoid.trans (h.keyed id veh hlookup).symm) hrunning

theorem has_detail (h : s.Has s.state) (vid line : String) : s.Has (s.state.onDetail vid line) := by
  unfold HomeState.onDetail
  split
  · exact h
  · intro id veh tab hid hrecord htab hrunning
    rw [find?_map_tabs fun tab => (detailed_keeps vid line tab).1] at htab
    obtain ⟨old, hold, rfl⟩ := Option.map_eq_some_iff.mp htab
    unfold Selected.detailed at hrunning ⊢
    split
    · rename_i hsame
      rw [if_pos hsame] at hrunning
      obtain ⟨basic, hbasic, hplace⟩ := h id veh old hid hrecord hold hrunning
      exact ⟨{ basic with line := line }, by rw [hbasic]; rfl, hplace⟩
    · rename_i hother
      rw [if_neg hother] at hrunning
      exact h id veh old hid hrecord hold hrunning

/-- A vehicle that is selected and has a tab keeps it. -/
theorem selectVehicle_of_keeps (h : s.keeps id = true) (v : Option Vehicle) :
    (s.state.selectVehicle id v).selected = s.state.selected := by
  rw [keeps, Bool.and_eq_true] at h
  simp only [HomeState.selectVehicle]
  rw [if_neg (by simp [h.1]), if_pos h.2]

/-- A vehicle that is picked on the map and has no tab has the stream's record in its new one. -/
theorem has_pick (hnew : s.keeps id = false) : s.Has (s.state.selectVehicle id (s.map.vehiclesRef.lookup id)) := by
  have hnew : s.state.multiSelect = true → s.state.selected.any (·.id = id) = false := by
    intro hmulti
    rwa [keeps, hmulti, Bool.true_and] at hnew
  intro vid veh tab hid hrecord htab hrunning
  obtain rfl : id = vid := Option.some.inj hid
  obtain ⟨-, hlookup⟩ := lookup_of_active hrecord
  have hfound : tab = { id := id, basic := s.map.vehiclesRef.lookup id } := by
    simp only [HomeState.selectVehicle] at htab
    split at htab
    · simpa using htab.symm
    · rename_i hmulti
      rw [if_neg (by simpa using hnew (by simpa using hmulti))] at htab
      have hmem := List.mem_of_mem_drop (List.mem_of_find?_eq_some htab)
      have htid : tab.id = id := by simpa using List.find?_some htab
      rcases List.mem_append.mp hmem with hold | hlast
      · have hany := hnew (by simpa using hmulti)
        rw [List.any_eq_false] at hany
        exact absurd htid (by simpa using hany tab hold)
      · exact List.mem_singleton.mp hlast
  rw [hfound, hlookup]
  exact ⟨veh, rfl, rfl, rfl, rfl, rfl⟩

theorem has_changeMultiSelect (h : s.Has s.state) (on : Bool) : s.Has (s.state.changeMultiSelect on) := by
  intro id veh tab hid hrecord htab hrunning
  refine h id veh tab hid hrecord ?_ hrunning
  have hactive : s.state.activeId = some id := hid
  simp only [HomeState.changeMultiSelect] at htab
  split at htab
  · exact htab
  · rw [List.find?_filter] at htab
    rw [← htab]
    congr 1
    funext tab
    rw [hactive]
    simp

/-- The tabs that remain beside the active one are those of the render. -/
theorem has_closeTab (hwired : s.Wired) (h : s.Has s.rendered) (hother : s.rendered.activeId ≠ some id) :
    s.Has (s.state.closeTab s.rendered id) := by
  intro vid veh tab hid hrecord htab hrunning
  simp only [HomeState.closeTab, if_neg hother] at hid
  rw [hwired.active] at hid
  have hne : vid ≠ id := fun he => hother (he ▸ hid)
  refine h vid veh tab hid hrecord ?_ hrunning
  rw [← htab]
  simp only [HomeState.closeTab, List.find?_filter]
  congr 1
  funext tab
  by_cases htid : tab.id = vid
  · simp [htid, hne]
  · simp [htid]

/-- Each step leaves the panel with what it no longer waits for. -/
theorem caught_step [Platform] {a : HomeAction} (hwired : s.Wired) (h : s.Caught w) (hs : Step s a t) :
    t.Caught (s.wait w a) := by
  cases a with
  | update u =>
    simp only [Step, step] at hs
    split at hs
    · obtain rfl := Option.some.inj hs
      simp only [wait]
      split
      · exact caught_frame _
      · rename_i hnone
        exact caught_update hwired h (Bool.eq_false_iff.mpr hnone)
    · cases hs
  | openVehicle id =>
    obtain rfl := Option.some.inj hs
    simp only [wait]
    split
    · rename_i hkeeps
      exact h.turn rfl (selectVehicle_of_keeps hkeeps none)
    · exact caught_frame _
  | resumeTrip id => exact caught_frame t
  | selectTab id =>
    obtain rfl := Option.some.inj hs
    exact h.turn rfl rfl
  | closeTab id =>
    obtain rfl := Option.some.inj hs
    simp only [wait]
    split
    · rename_i hkept
      have hclosed := has_closeTab hwired (h.shown hkept.1) hkept.2
      exact ⟨fun _ => hclosed, fun _ => hclosed⟩
    · exact caught_frame _
  | frame =>
    simp only [Step, step] at hs
    split at hs
    · obtain rfl := Option.some.inj hs
      have hwaits : s.wait w .frame ≠ .nothing := Wait.noConfusion
      exact ⟨fun _ => has_frame hwired, fun hw => absurd hw hwaits⟩
    · cases hs
  | detail id line =>
    obtain rfl := Option.some.inj hs
    exact ⟨fun hw => has_detail (h.queued hw) id line, h.shown⟩
  | pick id =>
    obtain rfl := Option.some.inj hs
    simp only [wait]
    split
    · rename_i hkeeps
      exact h.turn rfl (selectVehicle_of_keeps hkeeps _)
    · rename_i hnew
      have hpick : s.Has (s.state.selectVehicle id (s.map.vehiclesRef.lookup id)) :=
        has_pick (Bool.eq_false_iff.mpr hnew)
      exact ⟨fun _ => hpick, fun _ => hpick⟩
  | render =>
    obtain rfl := Option.some.inj hs
    exact h.click id
  | openStop id | closeStop =>
    obtain rfl := Option.some.inj hs
    exact h.click fun hhas => hhas
  | closeAll =>
    obtain rfl := Option.some.inj hs
    exact h.click fun _ _ _ _ hid => by cases hid
  | changeMultiSelect on =>
    obtain rfl := Option.some.inj hs
    exact h.click fun hhas => has_changeMultiSelect hhas on

/-- What the panel reads is what the map reads. -/
theorem Settled.progress_eq (h : s.Settled w id detail) (hcaught : s.Caught w) (hid : s.rendered.activeId = some id)
    (trip : Option VehicleTripPlan) (now : Int) :
    s.map.progress (some id) = (s.viewInput id detail trip now).progress := by
  cases h with
  | live record htab running waits =>
    obtain ⟨basic, hbasic, hlat, hlon, hhalt, hdelay⟩ := hcaught.shown waits id _ _ hid record htab running
    simp only [MapView.progress, record, ViewInput.progress, viewInput, htab, Option.bind_some, hbasic, Option.map_some,
      Option.some_or, Option.getD_some, hlat, hlon, hhalt, hdelay]
  | unknown record htab hdetail =>
    have hbasic : (s.rendered.selected.find? (·.id = id)).bind Selected.basic = none :=
      Option.bind_eq_none_iff.mpr htab
    have hlive : (s.viewInput id detail trip now).live = none := by
      rcases hdetail with rfl | ⟨tab, hfind, hended⟩
      · exact ite_self _
      · simp [ViewInput.live, viewInput, hfind, hended]
    rw [MapView.progress, record, ViewInput.progress, hlive]
    simp only [viewInput, hbasic]
    rfl

end

/-- Every run, with what the panel waits for. -/
theorem exists_waiting [Platform] {as : List HomeAction} {s t : HomeApp} (h : Run Step s as t) (w : Wait) :
    ∃ w', Run Waiting (s, w) as (t, w') := by
  induction h with
  | nil => exact ⟨w, .nil⟩
  | snoc _ hr ih =>
    obtain ⟨w', hrun⟩ := ih
    exact ⟨_, hrun.snoc ⟨hr, rfl⟩⟩

variable [JsMath] [Platform]

/-- In every run of the screen the map and the panel split the trip of the active
vehicle at the same call, wherever the panel has all that the map has. -/
theorem split_eq_of_run {as : List HomeAction} {s : HomeApp} (hrun : Run Step {} as s) :
    (∃ w, Run Waiting ({}, .nothing) as (s, w)) ∧
      ∀ w, Run Waiting ({}, .nothing) as (s, w) → ∀ id detail, s.rendered.activeId = some id → s.Settled w id detail →
        ∀ trip now, s.mapUpcomingFrom trip now = s.panelUpcomingFrom id detail trip now := by
  refine ⟨exists_waiting hrun .nothing, fun w hw id detail hid hsettled trip now => ?_⟩
  have hnone : ∀ s : HomeApp, s.Has {} := fun _ _ _ _ hid => by cases hid
  have hinv : s.Wired ∧ s.Caught w := by
    refine hw.inv (P := fun x => x.1.Wired ∧ x.1.Caught x.2) ?_
      ⟨⟨rfl, fun _ _ h => by cases h⟩, ⟨fun _ => hnone _, fun _ => hnone _⟩⟩
    rintro ⟨s, w⟩ a ⟨t, w'⟩ ⟨hs, rfl⟩ ⟨hwired, hcaught⟩
    exact ⟨wired_step hwired hs, caught_step hwired hcaught hs⟩
  rw [mapUpcomingFrom, hid, MapView.currentUpcomingFrom, hsettled.progress_eq hinv.2 hid trip now]
  cases trip with
  | none => rfl
  | some plan => rfl

/-- Exact where two points are on one meridian. -/
@[reducible] def meridian : JsMath where
  cos _ := .fin 1
  sqrt d := d
  pi := .fin 3

/-- A trip of two calls, both ahead; the bus is at the second. -/
def northbound : VehicleTripPlan where
  tripId := some "T1"
  stops := [{ lat := .fin 53, lon := .fin 5, scheduledDeparture := 100 },
    { lat := .fin 52, lon := .fin 5, scheduledDeparture := 200 }]

/-- A vehicle is opened from a link, enters the stream, and a frame comes and is
rendered. -/
def openedAndSeen : List HomeAction := [.openVehicle "RET:1", entering (busOn "1"), .frame, .render]

/-- What the detail of the vehicle says of its place, at the first call. -/
def detailOfOne : VehicleDetail where
  vehicle :=
    { id := "RET:1", vehicleNumber := "1", linePublicNumber := none, operatorName := none, lat := .fin 53, lon := .fin 5
      speedKmh := none, delaySeconds := 0, delayKnown := true, destination := none, blockCode := none
      journeyNumber := none, atStop := false, lastUpdate := "" }
  tripId := none

/-- The screen after some actions, with what the panel waits for. -/
def waitingAfter (as : List HomeAction) : Option (HomeApp × Wait) :=
  exec (fun x a => (@step x.1 plainPlatform a).map fun t => (t, x.1.wait x.2 a)) ({}, .nothing) as

omit [JsMath] [Platform] in
/-- Then both have it at the second call, whatever the detail says. -/
theorem split_eq_of_run_seen :
    let _ := meridian
    let _ := plainPlatform
    ∃ s, Run Step {} openedAndSeen s ∧
      s.mapUpcomingFrom (some northbound) 0 = s.panelUpcomingFrom "RET:1" (some detailOfOne) (some northbound) 0 := by
  let := meridian
  let := plainPlatform
  intro _ _
  have hseen : (waitingAfter openedAndSeen).any (fun x => decide (x.1.rendered.activeId = some "RET:1") &&
      (x.1.map.active (some "RET:1")).isSome && decide (x.2 = .nothing) &&
      (x.1.rendered.selected.find? (·.id = "RET:1")).any fun tab => !tab.ended) = true := by decide +kernel
  obtain ⟨⟨s, w⟩, hexec, hs⟩ := (Option.any_eq_true _ _).mp hseen
  simp only [Bool.and_eq_true, decide_eq_true_eq, Option.any_eq_true, Bool.not_eq_true'] at hs
  obtain ⟨⟨⟨hactive, hrecord⟩, hwaits⟩, tab, htab, hrunning⟩ := hs
  obtain ⟨veh, hveh⟩ := Option.isSome_iff_exists.mp hrecord
  have hwaiting : Run Waiting ({}, .nothing) openedAndSeen (s, w) := by
    refine (Run.of_exec (Option.mem_def.mp hexec)).mono fun x a y hy => ?_
    obtain ⟨t, ht, rfl⟩ := Option.map_eq_some_iff.mp hy
    exact ⟨ht, rfl⟩
  have hrun : Run Step {} openedAndSeen s := by
    have hpart := hwaiting.project (Q := Step) Prod.fst some fun _ _ _ h => h.1
    rwa [List.filterMap_some] at hpart
  exact ⟨s, hrun, (split_eq_of_run hrun).2 w hwaiting "RET:1" (some detailOfOne) hactive (.live hveh htab hrunning hwaits)
    (some northbound) 0⟩

/-- A selected vehicle leaves the stream at the second call of its trip. -/
def leftAtCall : List HomeAction := [entering (busOn "1"), .pick "RET:1", leaving "RET:1", .render]

/-- What is active, and what the map and the panel have ahead of it. -/
def splits (s : HomeApp) : Option String × Nat × Nat :=
  let _ := meridian
  let _ := plainPlatform
  (s.rendered.activeId, s.mapUpcomingFrom (some northbound) 0, s.panelUpcomingFrom "RET:1" none (some northbound) 0)

omit [JsMath] [Platform] in
/-- The panel has it at the second call, from the record of the tab, and the map,
which has none any more, at the first. -/
theorem not_split_eq :
    let _ := meridian
    let _ := plainPlatform
    ¬ ∀ as (s : HomeApp) id detail trip now, Run Step {} as s → s.rendered.activeId = some id →
      s.mapUpcomingFrom trip now = s.panelUpcomingFrom id detail trip now := by
  let := meridian
  let := plainPlatform
  intro _ _ hall
  have hseen : (after leftAtCall).map splits = some (some "RET:1", 0, 1) := by decide +kernel
  obtain ⟨s, hs, hsplits⟩ := Option.map_eq_some_iff.mp hseen
  obtain ⟨hactive, hboth⟩ := Prod.mk.inj hsplits
  obtain ⟨hmap, hpanel⟩ := Prod.mk.inj hboth
  have heq := hall _ s "RET:1" none (some northbound) 0 (Run.of_exec hs) hactive
  exact absurd (hmap.symm.trans (heq.trans hpanel)) (by decide)

end HomeApp

end OV.Impl.Client
