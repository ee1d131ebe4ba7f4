import Ovlive.Framework.Run
import Ovlive.Impl.Core.State

/-!
# The live state, vehicle by vehicle

An action on the live state is an action on each vehicle's trip alone:
`lookup_apply` and `lookup_pruneStale` say what is stored under an id
afterwards, and `trips_inv` is the induction for what each event leaves of its
trip. Of the parts of an update, `moved_applyFix` and
`moved_anchorToSchedule` change a trip's position only, `markStop_eq` its stop
only, and none of them its key.
-/

namespace OV.Impl

namespace LiveState

variable [Platform] {s : LiveState} {en : Enricher} {ev : PosEvent} {id : String}

/-- What an event leaves under its vehicle's id. -/
def eventTrip (delays : Option TrainDelays) (en : Enricher) (ev : PosEvent) (o : Option LiveTrip) : Option LiveTrip :=
  match ev.kind with
  | .init => some (initTrip delays ev en)
  | .end_ => none
  | _ => some (updateTrip delays (o.getD (LiveTrip.new ev.key ev.timestamp)) ev en)

theorem updateTrip_entryFor_id :
    (updateTrip s.trainDelays (s.entryFor ev) ev en).id = ev.key.id := by
  apply updateTrip_id
  unfold entryFor
  cases h : s.trips.lookup ev.key.id with
  | none => rfl
  | some t => exact s.own _ _ h

omit [Platform] in
theorem lookup_put (s : LiveState) (t : LiveTrip) (k : String) :
    (s.put t).trips.lookup k = if k = t.id then some t else s.trips.lookup k := by
  simp only [put]
  split_ifs with h
  · rw [h, AList.lookup_insert]
  · exact AList.lookup_insert_ne h

omit [Platform] in
theorem lookup_remove (s : LiveState) (k' k : String) :
    (s.remove k').trips.lookup k = if k = k' then none else s.trips.lookup k := by
  simp only [remove]
  split_ifs with h
  · rw [h, AList.lookup_erase]
  · exact AList.lookup_erase_ne h

theorem eventTrip_init (h : ev.kind = .init) (delays : Option TrainDelays) (o : Option LiveTrip) :
    eventTrip delays en ev o = some (initTrip delays ev en) := by
  simp only [eventTrip, h]

theorem eventTrip_end (h : ev.kind = .end_) (delays : Option TrainDelays) (o : Option LiveTrip) :
    eventTrip delays en ev o = none := by
  simp only [eventTrip, h]

theorem eventTrip_update (h : ev.kind ≠ .init) (h' : ev.kind ≠ .end_) (delays : Option TrainDelays)
    (o : Option LiveTrip) :
    eventTrip delays en ev o = some (updateTrip delays (o.getD (LiveTrip.new ev.key ev.timestamp)) ev en) := by
  unfold eventTrip
  split
  · exact absurd ‹_› h
  · exact absurd ‹_› h'
  · rfl

theorem apply_update (h : ev.kind ≠ .init) (h' : ev.kind ≠ .end_) :
    (s.apply ev en).1 = s.put (updateTrip s.trainDelays (s.entryFor ev) ev en) := by
  unfold apply
  split
  · exact absurd ‹_› h
  · exact absurd ‹_› h'
  · rfl

/-- An event changes its own vehicle's trip only. -/
theorem lookup_apply (s : LiveState) (ev : PosEvent) (en : Enricher) (k : String) :
    (s.apply ev en).1.trips.lookup k =
      if k = ev.key.id then eventTrip s.trainDelays en ev (s.trips.lookup k) else s.trips.lookup k := by
  by_cases h : ev.kind = .init
  · simp only [apply, h, eventTrip_init h]
    rw [lookup_put, initTrip_id]
  by_cases h' : ev.kind = .end_
  · simp only [apply, h', eventTrip_end h']
    rw [lookup_remove]
  rw [apply_update h h', lookup_put, updateTrip_entryFor_id, eventTrip_update h h']
  by_cases hk : k = ev.key.id
  · rw [if_pos hk, if_pos hk, hk, entryFor]
  · rw [if_neg hk, if_neg hk]

omit [Platform] in
/-- A sweep keeps the trips updated since the cutoff. -/
theorem lookup_pruneStale (s : LiveState) (now : Instant) (k : String) :
    (s.pruneStale now).1.trips.lookup k = (s.trips.lookup k).filter fun t => now - s.staleAfter ≤ t.lastUpdate :=
  Map.lookup_retain _ _ _

theorem apply_staleAfter (s : LiveState) (ev : PosEvent) (en : Enricher) :
    (s.apply ev en).1.staleAfter = s.staleAfter ∧ (s.apply ev en).1.trainDelays = s.trainDelays := by
  unfold apply
  split <;> exact ⟨rfl, rfl⟩

theorem act_staleAfter (s : LiveState) (a : LiveAction) (en : Enricher) : (s.act en a).staleAfter = s.staleAfter := by
  cases a with
  | event ev => exact (apply_staleAfter s ev en).1
  | prune now => rfl
  | delays d => rfl

theorem functional {a : LiveAction} {t u : LiveState} (ht : Step en s a t) (hu : Step en s a u) : t = u :=
  ht.symm.trans hu

/-- What every event of a run leaves of a trip, whatever the delay curves, holds
of every trip in the end. -/
theorem trips_inv {P : LiveTrip → Prop} {u : LiveState} {as : List LiveAction}
    (hstep : ∀ ev, .event ev ∈ as → ∀ delays o t, (∀ t', o = some t' → P t') →
      eventTrip delays en ev o = some t → P t)
    (h : Run (Step en) s as u) (h0 : ∀ id t, s.trips.lookup id = some t → P t) :
    ∀ id t, u.trips.lookup id = some t → P t := by
  induction h with
  | nil => exact h0
  | snoc _ hlast ih =>
    rename_i as v a w hrun
    have hv := ih fun ev hev => hstep ev (List.mem_append_left _ hev)
    obtain rfl := hlast
    intro id t ht
    cases a with
    | event ev =>
      have ht : (v.apply ev en).1.trips.lookup id = some t := ht
      rw [lookup_apply] at ht
      split at ht
      · exact hstep ev (List.mem_append_right _ List.mem_cons_self) _ _ _ (hv id) ht
      · exact hv id t ht
    | prune now =>
      have ht : (v.pruneStale now).1.trips.lookup id = some t := ht
      rw [lookup_pruneStale, Option.filter_eq_some_iff] at ht
      exact hv id t ht.1
    | delays d => exact hv id t ht

end LiveState

/-! ## Trips that are no trains -/

theorem applyTrainDelay_of_ne {delays : Option TrainDelays} {t : LiveTrip} (h : t.key.dataowner ≠ TRAIN_DATAOWNER) :
    applyTrainDelay delays t = t := by
  simp [applyTrainDelay, curveOf, h]

theorem applyTrainDelay_key (delays : Option TrainDelays) (t : LiveTrip) : (applyTrainDelay delays t).key = t.key := by
  unfold applyTrainDelay
  split <;> rfl

/-! ## The parts of an update -/

/-- `u` is `t` but for its position. -/
abbrev Moved (t u : LiveTrip) : Prop :=
  u = { t with
    lat := u.lat, lon := u.lon, bearing := u.bearing, prevLat := u.prevLat, prevLon := u.prevLon
    schedulePositioned := u.schedulePositioned }

/-- `markStop` sets the stop state only. -/
theorem markStop_eq (t : LiveTrip) (ev : PosEvent) :
    markStop t ev = { t with atStop := (markStop t ev).atStop, currentStopId := (markStop t ev).currentStopId } := by
  unfold markStop
  split <;> rfl

theorem markStop_key (t : LiveTrip) (ev : PosEvent) : (markStop t ev).key = t.key := by
  rw [markStop_eq]

section

variable [Platform]

theorem moved_applyFix (t : LiveTrip) (ev : PosEvent) : Moved t (applyFix t ev) := by
  unfold applyFix
  split <;> rfl

theorem moved_anchorToSchedule (t : LiveTrip) (ev : PosEvent) (en : Enricher) : Moved t (anchorToSchedule t ev en) := by
  unfold anchorToSchedule
  split
  · rfl
  · split <;> rfl

theorem applyFields_key (t : LiveTrip) (ev : PosEvent) : (applyFields t ev).key = t.key := by
  rw [applyFields, moved_applyFix]

theorem anchorToSchedule_key (t : LiveTrip) (ev : PosEvent) (en : Enricher) : (anchorToSchedule t ev en).key = t.key := by
  rw [moved_anchorToSchedule]

end

end OV.Impl
