import Ovlive.Framework.Run
import Ovlive.Impl.Client.MapView
import Ovlive.Impl.Stream
import Ovlive.Proof.Stream.Identity

/-!
# Three copies of a vehicle

The app's store, the web's map and the page of a vehicle each fold the same
updates. `Held` is what they hold at any time, of the trips of the last ENTER
and of the last ENTER or MOVE: the page spreads the whole delta over the record
that entered, the other two assign some of its fields. So the copies differ
exactly in the fields left out, and only once a MOVE changes one of them
(`Held.agree_iff`); `Folds.agree_run_iff` has it for whole runs.
-/

namespace OV.Impl

open Client

/-- The record of a vehicle that has not ended. -/
def Client.VehicleLive.record (s : VehicleLive) : Option Vehicle := if s.ended then none else s.live

/-- What a move spreads over a record. -/
def spreadVehicle (t : LiveTrip) : Vehicle → Vehicle := (Client.toMove (toMove t)).spread

/-- The fields of a delta that only the page keeps are those of the trip that entered. -/
structure Steady (t₀ t : LiveTrip) : Prop where
  bearing : finite t.bearing = finite t₀.bearing
  currentStopId : t.currentStopId.getD "" = t₀.currentStopId.getD ""
  schedulePositioned : t.schedulePositioned = t₀.schedulePositioned

section

variable {t t₀ : LiveTrip}

theorem moveVehicle_self (t : LiveTrip) : moveVehicle t (enterVehicle t) = enterVehicle t := rfl
theorem spreadVehicle_self (t : LiveTrip) : spreadVehicle t (enterVehicle t) = enterVehicle t := rfl

theorem moveVehicle_moveVehicle (t u : LiveTrip) (w : Vehicle) : moveVehicle t (moveVehicle u w) = moveVehicle t w := rfl

theorem spreadVehicle_spreadVehicle (t u : LiveTrip) (w : Vehicle) :
    spreadVehicle t (spreadVehicle u w) = spreadVehicle t w := rfl

/-- A whole delta makes the record of the trip, if the rest of the trip is as it entered. -/
theorem spreadVehicle_eq (hkey : t.key = t₀.key) (hid : t.identity = t₀.identity) :
    spreadVehicle t (enterVehicle t₀) = enterVehicle t := by
  simp only [LiveTrip.identity, Identity.mk.injEq] at hid
  obtain ⟨hline, htype, hoperator, hdestination, hblock, hjourney, hcolor, htext⟩ := hid
  simp only [spreadVehicle, MoveDelta.spread, Client.toMove, toMove, enterVehicle, toVehicle, toState, hkey, hline,
    htype, hoperator, hdestination, hblock, hjourney, hcolor, htext]

/-- Assigning the selection is spreading the delta exactly if the rest of it is as it entered. -/
theorem moveVehicle_eq_iff (hid : t.id = t₀.id) :
    moveVehicle t (enterVehicle t₀) = spreadVehicle t (enterVehicle t₀) ↔ Steady t₀ t := by
  constructor
  · intro h
    exact ⟨(congrArg Vehicle.bearing h).symm, (congrArg Vehicle.currentStopId h).symm,
      (congrArg Vehicle.schedulePositioned h).symm⟩
  · rintro ⟨hbearing, hstop, hflag⟩
    simp only [moveVehicle, MoveDelta.moveVehicle, spreadVehicle, MoveDelta.spread, Client.toMove, toMove,
      enterVehicle, toVehicle, toState, hid, hbearing, hstop, hflag]

end

/-! ## A report, seen from one vehicle -/

section

variable (sub : Subscription) (idx : VehicleIndex) (k : String)

theorem find_enters : (sub.enters idx).find? (fun t => t.id = k) =
    if (sub.sent.lookup k).isNone then sub.wants idx k else none :=
  (sub.frame idx).find_enters (fun _ _ h => (Subscription.wants_eq_some.mp h).2) k

theorem find_moves : (sub.moves idx).find? (fun t => t.id = k) =
    (sub.wants idx k).filter fun t => (sub.sent.lookup k).any fun v => !kept v (sentOf t) :=
  (sub.frame idx).find_moves (fun _ _ h => (Subscription.wants_eq_some.mp h).2) k

theorem find_entered : (Client.normalize (sub.report idx)).entered.find? (fun v => v.id = k) =
    (if (sub.sent.lookup k).isNone then sub.wants idx k else none).map enterVehicle := by
  rw [← find_enters]
  simp only [Client.normalize, Subscription.report, List.map_map, List.find?_map]
  rfl

theorem find_moved : (Client.normalize (sub.report idx)).moved.find? (fun m => m.id = k) =
    ((sub.wants idx k).filter fun t => (sub.sent.lookup k).any fun v => !kept v (sentOf t)).map
      fun t => Client.toMove (toMove t) := by
  rw [← find_moves]
  simp only [Client.normalize, Subscription.report, List.map_map, List.find?_map]
  rfl

theorem mem_left : k ∈ (Client.normalize (sub.report idx)).left ↔
    (sub.sent.lookup k).isSome = true ∧ sub.wants idx k = none := by
  show k ∈ sub.leaves idx ↔ _
  rw [Subscription.mem_leaves, Option.isSome_iff_exists]

/-- What the page makes of a report. -/
theorem page_report (p : VehicleLive) : p.onUpdate k (Client.normalize (sub.report idx)) =
    match sub.sent.lookup k, sub.wants idx k with
    | none, none => { p with ended := sub.forceSnapshot || p.ended }
    | none, some t => { live := some (enterVehicle t), ended := false }
    | some _, none => { p with ended := true }
    | some v, some t =>
      { live := if kept v (sentOf t) then p.live else p.live.map (spreadVehicle t)
        ended := sub.forceSnapshot || p.ended } := by
  have hs : (Client.normalize (sub.report idx)).isSnapshot = sub.forceSnapshot := rfl
  simp only [VehicleLive.onUpdate, find_entered, find_moved, mem_left, hs]
  cases hv : sub.sent.lookup k with
  | none =>
    cases hw : sub.wants idx k with
    | none => cases hf : sub.forceSnapshot <;> simp
    | some t => simp
  | some v =>
    cases hw : sub.wants idx k with
    | none => simp
    | some t =>
      cases hk : kept v (sentOf t) <;> cases hf : sub.forceSnapshot <;> simp [Option.filter_some, hk, spreadVehicle]

end

/-- The map's vehicles after a report, as the store has them. -/
theorem Client.MapView.report_vehicles [Platform] (m : MapView) (sub : Subscription) (idx : VehicleIndex) (k : String) :
    (m.onUpdate (Client.normalize (sub.report idx))).1.vehiclesRef.lookup k =
      (Mirror.change sentOf kept enterVehicle moveVehicle (sub.sent.lookup k) (sub.wants idx k)).apply
        ((VehicleStore.base sub.forceSnapshot m.vehiclesRef).lookup k) := by
  rw [← (sub.frame idx).lookup_apply fun k t h => (Subscription.wants_eq_some.mp h).2]
  simp only [MapView.onUpdate, Client.normalize, Subscription.report, Map.insertAll_map, Map.adjustAll_map]
  rfl

/-! ## The copies -/

/-- A session whose updates go to a store, a map, and the page of one vehicle;
and of that vehicle the trips of the last ENTER and of the last ENTER or MOVE. -/
structure Folds where
  session : Session
  store : VehicleStore
  map : MapView
  page : VehicleLive := {}
  last : Option (LiveTrip × LiveTrip) := none

namespace Folds

variable [Platform] {id : String} {s t : Folds} {a : SessionAction} {sub : Subscription}

/-- Nothing was sent yet, on any live state. -/
def start (live : LiveState) (selected : List String) (dark : Bool) : Folds where
  session := { live := live }
  store := { selectedIds := selected }
  map := { selectedIds := selected, dark := dark }

/-- The trips last sent, after a report. -/
def tell (id : String) (last : Option (LiveTrip × LiveTrip)) (sub : Subscription) (idx : VehicleIndex) :
    Option (LiveTrip × LiveTrip) :=
  match (sub.enters idx).find? fun t => t.id = id with
  | some t => some (t, t)
  | none =>
    match (sub.moves idx).find? fun t => t.id = id with
    | some t => last.map fun l => (l.1, t)
    | none => last

omit [Platform] in
theorem tell_eq (id : String) (last : Option (LiveTrip × LiveTrip)) (sub : Subscription) (idx : VehicleIndex) :
    tell id last sub idx =
      match sub.sent.lookup id, sub.wants idx id with
      | none, some t => some (t, t)
      | some v, some t => if kept v (sentOf t) then last else last.map fun l => (l.1, t)
      | _, none => last := by
  rw [tell, find_enters, find_moves]
  cases hv : sub.sent.lookup id with
  | none => cases hw : sub.wants idx id <;> simp
  | some v =>
    cases hw : sub.wants idx id with
    | none => simp
    | some t => cases hk : kept v (sentOf t) <;> simp [Option.filter_some, hk]

/-- Every copy is handed the update of an action. -/
def hear (id : String) (s : Folds) (u : Update) : Folds :=
  { s with
    store := (s.store.apply (Client.normalize u)).1
    map := (s.map.onUpdate (Client.normalize u)).1
    page := s.page.onUpdate id (Client.normalize u) }

def step (id : String) (s : Folds) (a : SessionAction) : Folds :=
  let heard := ((s.session.frame a).map (s.hear id)).getD s
  { heard with
    session := s.session.step a
    last :=
      match a, s.session.sub with
      | .tick, some sub => tell id s.last sub s.session.live.buildIndex
      | _, _ => s.last }

def Step (id : String) (s : Folds) (a : SessionAction) (t : Folds) : Prop := s.step id a = t

/-- The three records of the vehicle are the same, and the page has that of the
last trip sent, as long as the trip is who it was when it entered. -/
structure Agree (id : String) (s : Folds) : Prop where
  map : s.map.vehiclesRef.lookup id = s.store.vehicles.lookup id
  page : s.page.record = s.store.vehicles.lookup id
  last : ∀ t₀ t, s.last = some (t₀, t) → t.key = t₀.key → t.identity = t₀.identity →
    s.page.live = some (enterVehicle t)

/-- A MOVE of the vehicle has what only the page keeps of it as it entered. -/
def Ok (id : String) (s : Folds) (a : SessionAction) : Prop :=
  ∀ sub t t₀ u, a = .tick → s.session.sub = some sub → t ∈ sub.moves s.session.live.buildIndex → t.id = id →
    s.last = some (t₀, u) → Steady t₀ t

/-- What the copies hold of the vehicle. -/
structure Held (id : String) (s : Folds) : Prop where
  own : ∀ t₀ t, s.last = some (t₀, t) → t₀.id = id ∧ t.id = id
  page : s.page.live = s.last.map fun l => spreadVehicle l.2 (enterVehicle l.1)
  store : s.store.vehicles.lookup id =
    if s.page.ended then none else s.last.map fun l => moveVehicle l.2 (enterVehicle l.1)
  map : s.map.vehiclesRef.lookup id = s.store.vehicles.lookup id
  server : ∀ sub, s.session.sub = some sub →
    ((VehicleStore.base sub.forceSnapshot s.store.vehicles).lookup id).isSome = (sub.sent.lookup id).isSome

omit [Platform] in
/-- Copies that were handed every update differ in the fields left out. -/
theorem Held.agree_iff (h : s.Held id) :
    s.Agree id ↔ (s.page.ended = false → ∀ t₀ t, s.last = some (t₀, t) → Steady t₀ t) := by
  have hiff : s.page.record = s.store.vehicles.lookup id ↔
      (s.page.ended = false → ∀ t₀ t, s.last = some (t₀, t) → Steady t₀ t) := by
    rw [h.store, VehicleLive.record, h.page]
    cases he : s.page.ended with
    | true => simp
    | false =>
      cases hl : s.last with
      | none => simp
      | some l =>
        obtain ⟨t₀, t⟩ := l
        obtain ⟨h0, h1⟩ := h.own t₀ t hl
        simp only [Bool.false_eq_true, if_false, Option.map_some, Option.some.injEq, forall_const, Prod.mk.injEq]
        rw [eq_comm, moveVehicle_eq_iff (h1.trans h0.symm)]
        constructor
        · rintro hsteady _ _ ⟨rfl, rfl⟩
          exact hsteady
        · exact fun hsteady => hsteady t₀ t ⟨rfl, rfl⟩
  constructor
  · exact fun hagree => hiff.mp hagree.page
  · intro hsteady
    refine ⟨h.map, hiff.mpr hsteady, fun t₀ t hl hkey hid => ?_⟩
    rw [h.page, hl, Option.map_some, spreadVehicle_eq hkey hid]

/-! ## A tick -/

omit [Platform] in
/-- A snapshot is due only while nothing was sent. -/
theorem Held.force_of_sent (h : s.Held id) (hsub : s.session.sub = some sub) {v : Sent}
    (hv : sub.sent.lookup id = some v) : sub.forceSnapshot = false := by
  have hserver := h.server sub hsub
  cases hforce : sub.forceSnapshot with
  | false => rfl
  | true =>
    rw [hforce, hv] at hserver
    cases hserver

/-- A silent tick is a report of nothing, so every tick is heard as its report. -/
theorem hear_tick (id : String) (hsub : s.session.sub = some sub) :
    (s.step id .tick).store.vehicles = (s.store.hear sub s.session.live.buildIndex).vehicles ∧
      (s.step id .tick).map.vehiclesRef =
        (s.map.onUpdate (Client.normalize (sub.report s.session.live.buildIndex))).1.vehiclesRef ∧
      (s.step id .tick).page = s.page.onUpdate id (Client.normalize (sub.report s.session.live.buildIndex)) := by
  simp only [step, Session.frame_tick hsub]
  cases hu : (sub.buildUpdate s.session.live.buildIndex).2 with
  | none =>
    rw [(VehicleStore.hear_silent s.store sub _ hu).1, Subscription.buildUpdate_silent hu]
    exact ⟨rfl, rfl, rfl⟩
  | some u =>
    rw [Subscription.buildUpdate_frame hu]
    exact ⟨rfl, rfl, rfl⟩

theorem last_tick (id : String) (hsub : s.session.sub = some sub) :
    (s.step id .tick).last =
      match sub.sent.lookup id, sub.wants s.session.live.buildIndex id with
      | none, some t => some (t, t)
      | some v, some t => if kept v (sentOf t) then s.last else s.last.map fun l => (l.1, t)
      | _, none => s.last := by
  rw [← tell_eq]
  simp only [step, hsub]

omit [Platform] in
theorem base_lookup {V : Type} {m m' : Map String V} (h : m.lookup id = m'.lookup id) (snapshot : Bool) :
    (VehicleStore.base snapshot m).lookup id = (VehicleStore.base snapshot m').lookup id := by
  cases snapshot with
  | true => rfl
  | false => exact h

theorem record_tick (id : String) (hsub : s.session.sub = some sub) :
    (s.step id .tick).store.vehicles.lookup id =
      (Mirror.change sentOf kept enterVehicle moveVehicle (sub.sent.lookup id)
        (sub.wants s.session.live.buildIndex id)).apply
          ((VehicleStore.base sub.forceSnapshot s.store.vehicles).lookup id) := by
  rw [(hear_tick id hsub).1, VehicleStore.hear_vehicles]

theorem Held.map_tick (h : s.Held id) (hsub : s.session.sub = some sub) :
    (s.step id .tick).map.vehiclesRef.lookup id = (s.step id .tick).store.vehicles.lookup id := by
  rw [(hear_tick id hsub).2.1, MapView.report_vehicles, base_lookup h.map, record_tick id hsub]

/-- After a tick the store has a record of the vehicle if the server sent one. -/
theorem Held.server_tick (h : s.Held id) (hsub : s.session.sub = some sub) {sub' : Subscription}
    (hsub' : (s.step id .tick).session.sub = some sub') :
    ((VehicleStore.base sub'.forceSnapshot (s.step id .tick).store.vehicles).lookup id).isSome =
      (sub'.sent.lookup id).isSome := by
  simp only [step, Session.step_tick hsub, Option.some.injEq] at hsub'
  subst hsub'
  rw [Subscription.buildUpdate_sent, ← Mirror.isSome_change (h.server sub hsub), ← record_tick id hsub,
    Subscription.buildUpdate_eq]
  rfl

/-- What the copies hold after a tick, from what was last sent and what is wanted. -/
theorem Held.tick (h : s.Held id) (hsub : s.session.sub = some sub) : (s.step id .tick).Held id := by
  have hpage := (hear_tick id hsub).2.2
  rw [page_report] at hpage
  have hlast := last_tick id hsub
  have hrecord := record_tick id hsub
  have hsame := h.map_tick hsub
  have hafter : ∀ sub', (s.step id .tick).session.sub = some sub' → _ = _ := fun _ hsub' => h.server_tick hsub hsub'
  cases hv : sub.sent.lookup id with
  | none =>
    cases hw : sub.wants s.session.live.buildIndex id with
    | none =>
      -- not there, and not wanted: a snapshot without the vehicle ends it
      simp only [hv, hw] at hlast hpage hrecord
      refine ⟨by rw [hlast]; exact h.own, by rw [hlast, hpage]; exact h.page, ?_, hsame, hafter⟩
      rw [hrecord, hlast, hpage]
      cases hforce : sub.forceSnapshot with
      | true => rfl
      | false => exact h.store
    | some t =>
      -- an ENTER starts all copies over
      simp only [hv, hw] at hlast hpage hrecord
      obtain ⟨-, hid⟩ := Subscription.wants_eq_some.mp hw
      refine ⟨?_, ?_, ?_, hsame, hafter⟩
      · intro t₀ t' hl
        rw [hlast, Option.some.injEq, Prod.mk.injEq] at hl
        obtain ⟨rfl, rfl⟩ := hl
        exact ⟨hid, hid⟩
      · rw [hlast, hpage, Option.map_some, spreadVehicle_self]
      · rw [hrecord, hlast, hpage, if_neg Bool.false_ne_true, Option.map_some, moveVehicle_self]
        rfl
  | some v =>
    cases hw : sub.wants s.session.live.buildIndex id with
    | none =>
      -- a LEAVE ends it
      simp only [hv, hw] at hlast hpage hrecord
      exact ⟨by rw [hlast]; exact h.own, by rw [hlast, hpage]; exact h.page, by rw [hrecord, hpage]; rfl, hsame, hafter⟩
    | some t =>
      have hforce := h.force_of_sent hsub hv
      simp only [hv, hw, hforce] at hlast hpage hrecord
      obtain ⟨-, hid⟩ := Subscription.wants_eq_some.mp hw
      cases hk : kept v (sentOf t) with
      | true =>
        -- nothing is said of it
        simp only [hk, if_true, Mirror.change] at hlast hpage hrecord
        exact ⟨by rw [hlast]; exact h.own, by rw [hlast, hpage]; exact h.page,
          by rw [hrecord, hlast, hpage]; exact h.store, hsame, hafter⟩
      | false =>
        -- a MOVE
        simp only [hk, Bool.false_eq_true, if_false, Mirror.change] at hlast hpage hrecord
        refine ⟨?_, ?_, ?_, hsame, hafter⟩
        · intro t₀ t' hl
          rw [hlast, Option.map_eq_some_iff] at hl
          obtain ⟨l, hl, he⟩ := hl
          rw [Prod.mk.injEq] at he
          obtain ⟨rfl, rfl⟩ := he
          exact ⟨(h.own l.1 l.2 hl).1, hid⟩
        · rw [hpage, hlast, h.page, Option.map_map, Option.map_map]
          simp only [Function.comp_def, spreadVehicle_spreadVehicle]
        · rw [hrecord, hlast, hpage, Mirror.Change.apply_move]
          show (s.store.vehicles.lookup id).map (moveVehicle t) = _
          rw [h.store]
          show _ = if s.page.ended then none else _
          cases s.page.ended with
          | true => rfl
          | false =>
            simp only [Bool.false_eq_true, if_false, Option.map_map, Function.comp_def, moveVehicle_moveVehicle]

/-! ## Runs -/

omit [Platform] in
theorem held_start (live : LiveState) (selected : List String) (dark : Bool) :
    (start live selected dark).Held id where
  own _ _ h := nomatch h
  page := rfl
  store := rfl
  map := rfl
  server _ h := nomatch h

omit [Platform] in
theorem agree_start (live : LiveState) (selected : List String) (dark : Bool) :
    (start live selected dark).Agree id where
  map := rfl
  page := rfl
  last _ _ h := nomatch h

/-- Without a subscription a tick does nothing. -/
theorem step_tick_none (hsub : s.session.sub = none) : s.step id .tick = s := by
  simp only [step, Session.frame_tick_none hsub, Session.step_tick_none hsub, hsub, Option.map_none, Option.getD_none]

theorem Held.step (h : s.Held id) (a : SessionAction) : (s.step id a).Held id := by
  cases a with
  | live a enricher => exact ⟨h.own, h.page, h.store, h.map, h.server⟩
  | message m =>
    refine ⟨h.own, h.page, h.store, h.map, fun sub' hsub' => ?_⟩
    show ((VehicleStore.base sub'.forceSnapshot s.store.vehicles).lookup id).isSome = _
    rcases applyClientMsg_cases hsub' with ⟨hsent, hforce⟩ | ⟨old, hold, hsent, hforce⟩
    · rw [hsent, hforce]
      rfl
    · rw [hsent, hforce]
      exact h.server old hold
  | tick =>
    cases hsub : s.session.sub with
    | none =>
      rw [step_tick_none hsub]
      exact h
    | some sub => exact h.tick hsub

omit [Platform] in
/-- A vehicle that was sent has not ended. -/
theorem Held.ended_of_sent (h : s.Held id) (hsub : s.session.sub = some sub) {v : Sent}
    (hv : sub.sent.lookup id = some v) : s.page.ended = false := by
  have hserver := h.server sub hsub
  rw [h.force_of_sent hsub hv, hv] at hserver
  replace hserver : (s.store.vehicles.lookup id).isSome = true := hserver
  rw [h.store] at hserver
  cases he : s.page.ended with
  | false => rfl
  | true =>
    rw [he] at hserver
    cases hserver

omit [Platform] in
/-- The trip of a vehicle among the moves of a tick. -/
theorem mem_moves_iff {idx : VehicleIndex} {t : LiveTrip} :
    t ∈ sub.moves idx ∧ t.id = id ↔
      sub.wants idx id = some t ∧ ∃ v, sub.sent.lookup id = some v ∧ kept v (sentOf t) = false := by
  constructor
  · rintro ⟨hm, rfl⟩
    exact ((sub.frame idx).mem_moves t).mp hm
  · rintro ⟨hw, hv⟩
    obtain ⟨-, rfl⟩ := Subscription.wants_eq_some.mp hw
    exact ⟨((sub.frame idx).mem_moves t).mpr ⟨hw, hv⟩, rfl⟩

/-- A tick leaves three equal records exactly if no MOVE changes what only the
page keeps. -/
theorem agree_tick_iff (h : s.Held id) (hagree : s.Agree id) (hsub : s.session.sub = some sub) :
    (s.step id .tick).Agree id ↔
      ∀ t t₀ u, (t ∈ sub.moves s.session.live.buildIndex ∧ t.id = id) → s.last = some (t₀, u) → Steady t₀ t := by
  rw [(h.tick hsub).agree_iff, last_tick id hsub, (hear_tick id hsub).2.2, page_report]
  have hsteady := h.agree_iff.mp hagree
  simp only [mem_moves_iff]
  cases hv : sub.sent.lookup id with
  | none =>
    cases hw : sub.wants s.session.live.buildIndex id with
    | none =>
      refine iff_of_true (fun hended => hsteady ?_) (by simp)
      exact (Bool.or_eq_false_iff.mp hended).2
    | some t =>
      refine iff_of_true (fun _ t₀ t' hl => ?_) (by simp)
      cases hl
      exact ⟨rfl, rfl, rfl⟩
  | some v =>
    cases hw : sub.wants s.session.live.buildIndex id with
    | none => exact iff_of_true (fun hended => nomatch hended) (by simp)
    | some t =>
      have hended := h.ended_of_sent hsub hv
      simp only [h.force_of_sent hsub hv, hended, Bool.or_false, forall_const]
      cases hk : kept v (sentOf t) with
      | true =>
        refine iff_of_true (hsteady hended) ?_
        rintro t' t₀ u ⟨ht, v', hv', hk'⟩
        cases ht
        cases hv'
        rw [hk] at hk'
        cases hk'
      | false =>
        constructor
        · rintro hall t' t₀ u ⟨ht, -⟩ hl
          cases ht
          exact hall t₀ t (by rw [hl]; rfl)
        · intro hall t₀ t' hl
          simp only [Bool.false_eq_true, if_false] at hl
          obtain ⟨l, hlast, he⟩ := Option.map_eq_some_iff.mp hl
          cases he
          exact hall t l.1 l.2 ⟨rfl, v, rfl, hk⟩ hlast

/-- A step leaves three equal records exactly if no MOVE changes what only the
page keeps. -/
theorem agree_step_iff (h : s.Held id) (hagree : s.Agree id) (a : SessionAction) :
    (s.step id a).Agree id ↔ s.Ok id a := by
  cases a with
  | live a enricher => exact iff_of_true ⟨hagree.map, hagree.page, hagree.last⟩ (fun _ _ _ _ h => nomatch h)
  | message m => exact iff_of_true ⟨hagree.map, hagree.page, hagree.last⟩ (fun _ _ _ _ h => nomatch h)
  | tick =>
    cases hsub : s.session.sub with
    | none =>
      rw [step_tick_none hsub]
      refine iff_of_true hagree fun sub _ _ _ _ h => ?_
      rw [hsub] at h
      cases h
    | some sub =>
      rw [agree_tick_iff h hagree hsub]
      constructor
      · intro hall sub' t t₀ u _ hsub' hm hid hl
        rw [hsub, Option.some.injEq] at hsub'
        subst hsub'
        exact hall t t₀ u ⟨hm, hid⟩ hl
      · exact fun hok t t₀ u hm hl => hok sub t t₀ u rfl hsub hm.1 hm.2 hl

/-- In every run the three copies hold the same record of the vehicle, and the
one of the last trip sent, exactly if every MOVE of it meets the condition. -/
theorem agree_run_iff (live : LiveState) (selected : List String) (dark : Bool) (id : String)
    (as : List SessionAction) (t : Folds) :
    Run (Ensured (fun _ _ t => t.Agree id) (Step id)) (start live selected dark) as t ↔
      Run (Guarded (Ok id) (Step id)) (start live selected dark) as t := by
  refine Run.ensured_iff (P := fun s => s.Held id ∧ s.Agree id) ?_
    ⟨held_start live selected dark, agree_start live selected dark⟩
  rintro s a t ⟨hheld, hagree⟩ hstep
  cases hstep
  have hiff := agree_step_iff hheld hagree a
  exact ⟨hiff, fun hok => ⟨hheld.step a, hiff.mpr hok⟩⟩

/-! ## A stop reached in view -/

/-- A message that has a view pins the vehicle. -/
def Pins (id : String) (_ : Folds) (a : SessionAction) : Prop :=
  ∀ m v, a = .message m → (m.payload = some (.subscribe v) ∨ m.payload = some (.updateViewport v)) → id ∈ v.pinned

/-- The page's subscription to bus 1, which appears and then arrives at a stop. -/
def arrivalActs : List SessionAction :=
  [.message ⟨some (.subscribe (viewportMsg
      { bbox := { minLat := .fin 0, minLon := .fin 0, maxLat := .fin 0, maxLon := .fin 0 }, zoom := 14
        filters := { types := [], owners := [], search := "" } } ["RET:1"]))⟩,
   .live (.event
      { key := { dataowner := "RET", vehicleNumber := "1" }, kind := .init, journeyNumber := some "7"
        vehicleType := some .bus, lat := some (.fin 52), lon := some (.fin 5), timestamp := 0 }) NoEnricher,
   .tick,
   .live (.event
      { key := { dataowner := "RET", vehicleNumber := "1" }, kind := .arrival, journeyNumber := some "7"
        userStopCode := some "31008753", punctuality := some 0, timestamp := nanos }) NoEnricher]

omit [Platform] in
/-- The page has the stop, and the map does not. -/
theorem not_agree :
    let _ := plainPlatform
    ¬ ∀ (live : LiveState) (selected : List String) (dark : Bool) (id : String) (as : List SessionAction) (t : Folds),
      Run (Guarded (Pins id) (Step id)) (start live selected dark) as t →
        Run (Ensured (fun _ _ t => t.Agree id) (Step id)) (start live selected dark) as t := by
  intro _ h
  let before : Folds := arrivalActs.foldl (step "RET:1") (start (LiveState.new 600) [] false)
  have hrun : Run (Guarded (Pins "RET:1") (Step "RET:1")) (start (LiveState.new 600) [] false)
      (arrivalActs ++ [.tick]) (before.step "RET:1" .tick) := by
    refine Run.guarded ((Run.foldl (step "RET:1") _ arrivalActs).snoc rfl) fun a ha s m v e hview => ?_
    subst e
    simp only [arrivalActs, List.cons_append, List.nil_append, List.mem_cons, SessionAction.message.injEq, reduceCtorEq,
      List.not_mem_nil, or_false] at ha
    subst ha
    rcases hview with hview | hview
    · cases hview
      exact List.mem_singleton_self _
    · cases hview
  obtain ⟨s, -, -, hagree⟩ := (h _ _ _ _ _ _ hrun).last
  have hdiff : (before.step "RET:1" .tick).page.record ≠
      (before.step "RET:1" .tick).store.vehicles.lookup "RET:1" := by decide +kernel
  exact hdiff hagree.page

end Folds

end OV.Impl
