import Ovlive.Framework.Mirror
import Ovlive.Impl.Api.Ws

/-!
# What a tick says

`Subscription.wanted` is the list of the trips a tick visits: the hits of the
query, and the pinned trips that were not among them. `buildUpdate` is a fold
of `Diff.visit` over it (`foldl_visitPinned`), and a fold of `Diff.visit` over
trips with distinct ids has a closed form (`visit_entered`, `visit_moved`,
`visit_present`, `visit_sent`). From these, `buildUpdate_sent`: for every id
the subscription's record is `Mirror.sync` of what was wanted, and
`Subscription.frame`: the lists of the update are a frame of the mirror.
-/

namespace OV.Impl

/-- What was last sent is kept while it is not worth re-sending. -/
def kept (prev now : Sent) : Bool := !changed prev now

/-- The pinned trips of the index that are not present yet, each one once. -/
def extras (idx : VehicleIndex) (present : List String) : List String → List LiveTrip
  | [] => []
  | id :: ids =>
    if id ∈ present then extras idx present ids
    else match idx.get id with
      | some t => t :: extras idx (t.id :: present) ids
      | none => extras idx present ids

namespace Subscription

/-- The trips a tick visits. -/
def wanted (sub : Subscription) (idx : VehicleIndex) : List LiveTrip :=
  let hits := idx.query sub.bbox sub.filters
  hits ++ extras idx (hits.map LiveTrip.id).reverse sub.pinned

/-- The trip a tick visits under an id. -/
def wants (sub : Subscription) (idx : VehicleIndex) (id : String) : Option LiveTrip :=
  (sub.wanted idx).find? fun t => t.id = id

end Subscription

/-! ## The fold -/

section

variable (d : Diff) (ts : List LiveTrip)

@[simp] theorem Diff.visit_present (t : LiveTrip) : (d.visit t).present = t.id :: d.present := by
  simp only [Diff.visit]
  split
  · rfl
  · split <;> rfl

theorem Diff.visit_sent (t : LiveTrip) (k : String) :
    (d.visit t).sent.lookup k =
      if k = t.id then Mirror.sync sentOf kept (d.sent.lookup k) (some t) else d.sent.lookup k := by
  simp only [Diff.visit]
  split_ifs with h
  · subst h
    cases hl : d.sent.lookup t.id with
    | none => simp [Mirror.sync, AList.lookup_insert]
    | some prev =>
      by_cases hc : changed prev (sentOf t) = true <;>
        simp [Mirror.sync, kept, hc, hl, AList.lookup_insert]
  · cases d.sent.lookup t.id with
    | none => exact AList.lookup_insert_ne h
    | some prev =>
      simp only
      split
      · exact AList.lookup_insert_ne h
      · rfl

theorem Diff.visit_entered (t : LiveTrip) :
    (d.visit t).entered = d.entered ++ if (d.sent.lookup t.id).isNone then [toState t] else [] := by
  simp only [Diff.visit]
  cases d.sent.lookup t.id with
  | none => simp
  | some prev => by_cases hc : changed prev (sentOf t) = true <;> simp [hc]

theorem Diff.visit_moved (t : LiveTrip) :
    (d.visit t).moved =
      d.moved ++ if (d.sent.lookup t.id).any fun prev => changed prev (sentOf t) then [toMove t] else [] := by
  simp only [Diff.visit]
  cases d.sent.lookup t.id with
  | none => simp
  | some prev => by_cases hc : changed prev (sentOf t) = true <;> simp [hc]

/-- A fold over the pinned ids visits the trips it adds. -/
theorem foldl_visitPinned (idx : VehicleIndex) (ids : List String) :
    ids.foldl (Diff.visitPinned idx) d = (extras idx d.present ids).foldl Diff.visit d := by
  induction ids generalizing d with
  | nil => rfl
  | cons id ids ih =>
    simp only [List.foldl_cons, extras, Diff.visitPinned]
    split
    · exact ih d
    · cases idx.get id with
      | none => exact ih d
      | some t => rw [ih, Diff.visit_present, List.foldl_cons]

theorem foldl_visit_present : (ts.foldl Diff.visit d).present = (ts.map LiveTrip.id).reverse ++ d.present := by
  induction ts generalizing d with
  | nil => rfl
  | cons t ts ih => simp [ih]

variable {d ts}

/-- What was sent under an id that is not visited stays; what was sent under a
visited one follows the trip. -/
theorem foldl_visit_sent (hn : (ts.map LiveTrip.id).Nodup) (k : String) :
    (ts.foldl Diff.visit d).sent.lookup k =
      match ts.find? fun t => t.id = k with
      | some t => Mirror.sync sentOf kept (d.sent.lookup k) (some t)
      | none => d.sent.lookup k := by
  induction ts generalizing d with
  | nil => rfl
  | cons t ts ih =>
    rw [List.map_cons, List.nodup_cons] at hn
    rw [List.foldl_cons, ih hn.2, Diff.visit_sent, List.find?_cons]
    by_cases h : t.id = k
    · subst h
      have : ts.find? (fun u => u.id = t.id) = none :=
        List.find?_eq_none.mpr fun u hu e => hn.1 (List.mem_map.mpr ⟨u, hu, by simpa using e⟩)
      simp [this]
    · simp [h, Ne.symm h]

/-- A test on what was sent before the fold selects the trips to report. -/
theorem visit_filter {t : LiveTrip} (hn : t.id ∉ ts.map LiveTrip.id) (p : Option Sent → LiveTrip → Bool) :
    (ts.filter fun u => p ((d.visit t).sent.lookup u.id) u) = ts.filter fun u => p (d.sent.lookup u.id) u := by
  refine List.filter_congr fun u hu => ?_
  have hne : u.id ≠ t.id := fun e => hn (e ▸ List.mem_map_of_mem hu)
  rw [Diff.visit_sent, if_neg hne]

theorem foldl_visit_entered (hn : (ts.map LiveTrip.id).Nodup) :
    (ts.foldl Diff.visit d).entered =
      d.entered ++ (ts.filter fun t => (d.sent.lookup t.id).isNone).map toState := by
  induction ts generalizing d with
  | nil => simp
  | cons t ts ih =>
    rw [List.map_cons, List.nodup_cons] at hn
    rw [List.foldl_cons, ih hn.2, Diff.visit_entered, visit_filter hn.1 fun o _ => o.isNone, List.filter_cons,
      List.append_assoc]
    split <;> rfl

theorem foldl_visit_moved (hn : (ts.map LiveTrip.id).Nodup) :
    (ts.foldl Diff.visit d).moved =
      d.moved ++ (ts.filter fun t => (d.sent.lookup t.id).any fun prev => changed prev (sentOf t)).map toMove := by
  induction ts generalizing d with
  | nil => simp
  | cons t ts ih =>
    rw [List.map_cons, List.nodup_cons] at hn
    rw [List.foldl_cons, ih hn.2, Diff.visit_moved,
      visit_filter hn.1 fun o u => o.any fun prev => changed prev (sentOf u), List.filter_cons, List.append_assoc]
    split <;> rfl

end

/-! ## The trips wanted -/

section

variable {idx : VehicleIndex}

theorem mem_extras {t : LiveTrip} {ids present : List String} :
    t ∈ extras idx present ids ↔ t ∈ idx.vehicles ∧ t.id ∈ ids ∧ t.id ∉ present := by
  induction ids generalizing present with
  | nil => simp [extras]
  | cons id ids ih =>
    -- an id that adds nothing
    have skip (h : t ∈ idx.vehicles → t.id ∉ present → t.id ≠ id) :
        t ∈ extras idx present ids ↔ t ∈ idx.vehicles ∧ t.id ∈ id :: ids ∧ t.id ∉ present := by
      rw [ih]
      constructor
      · rintro ⟨h1, h2, h3⟩
        exact ⟨h1, .tail _ h2, h3⟩
      · rintro ⟨h1, h2, h3⟩
        exact ⟨h1, (List.mem_cons.mp h2).resolve_left (h h1 h3), h3⟩
    simp only [extras]
    split
    · rename_i hp
      exact skip fun _ h3 e => h3 (e ▸ hp)
    · rename_i hp
      cases hg : idx.get id with
      | none =>
        refine skip fun h1 _ e => ?_
        rw [VehicleIndex.get_eq_some.mpr ⟨h1, e⟩] at hg
        cases hg
      | some u =>
        obtain ⟨hu, rfl⟩ := VehicleIndex.get_eq_some.mp hg
        simp only [List.mem_cons, ih, not_or]
        constructor
        · rintro (rfl | ⟨h1, h2, h3, h4⟩)
          · exact ⟨hu, .inl rfl, hp⟩
          · exact ⟨h1, .inr h2, h4⟩
        · rintro ⟨h1, h2, h3⟩
          by_cases e : t.id = u.id
          · exact .inl (List.inj_on_of_nodup_map idx.distinct h1 hu e)
          · exact .inr ⟨h1, h2.resolve_left e, e, h3⟩

theorem nodup_extras {ids present : List String} : ((extras idx present ids).map LiveTrip.id).Nodup := by
  induction ids generalizing present with
  | nil => simp [extras]
  | cons id ids ih =>
    simp only [extras]
    split
    · exact ih
    · cases idx.get id with
      | none => exact ih
      | some u =>
        rw [List.map_cons, List.nodup_cons]
        refine ⟨fun h => ?_, ih⟩
        obtain ⟨t, ht, e⟩ := List.mem_map.mp h
        exact (mem_extras.mp ht).2.2 (e ▸ List.mem_cons_self)

namespace Subscription

variable {sub : Subscription} {t : LiveTrip} {k : String} {u : Update}

/-- A tick visits the trips in view and the pinned ones. -/
theorem mem_wanted :
    t ∈ sub.wanted idx ↔ t ∈ idx.query sub.bbox sub.filters ∨ (t ∈ idx.vehicles ∧ t.id ∈ sub.pinned) := by
  simp only [wanted, List.mem_append, mem_extras, List.mem_reverse, List.mem_map, not_exists, not_and]
  constructor
  · rintro (h | ⟨h1, h2, _⟩)
    · exact .inl h
    · exact .inr ⟨h1, h2⟩
  · rintro (h | ⟨h1, h2⟩)
    · exact .inl h
    · by_cases hq : t ∈ idx.query sub.bbox sub.filters
      · exact .inl hq
      · refine .inr ⟨h1, h2, fun u hu e => hq ?_⟩
        rwa [← List.inj_on_of_nodup_map idx.distinct (idx.mem_of_mem_query hu) h1 e]

theorem mem_vehicles_of_wanted (h : t ∈ sub.wanted idx) : t ∈ idx.vehicles :=
  (mem_wanted.mp h).elim idx.mem_of_mem_query And.left

theorem nodup_wanted : ((sub.wanted idx).map LiveTrip.id).Nodup := by
  simp only [wanted, List.map_append, List.nodup_append']
  refine ⟨idx.distinct.sublist ((List.filter_sublist.trans List.filter_sublist).map _), nodup_extras, ?_⟩
  intro k h1 h2
  obtain ⟨t, ht, rfl⟩ := List.mem_map.mp h2
  exact (mem_extras.mp ht).2.2 (List.mem_reverse.mpr h1)

theorem wants_eq_some : sub.wants idx k = some t ↔ t ∈ sub.wanted idx ∧ t.id = k := by
  unfold wants
  constructor
  · intro h
    exact ⟨List.mem_of_find?_eq_some h, by simpa using List.find?_some h⟩
  · rintro ⟨h, rfl⟩
    cases hf : (sub.wanted idx).find? (fun u => u.id = t.id) with
    | none => exact absurd (List.find?_eq_none.mp hf t h) (by simp)
    | some u =>
      have hu : u.id = t.id := by simpa using List.find?_some hf
      rw [List.inj_on_of_nodup_map nodup_wanted (List.mem_of_find?_eq_some hf) h hu]

/-- A trip that a tick visits is the one the index has. -/
theorem get_of_wants (h : sub.wants idx k = some t) : idx.get k = some t := by
  obtain ⟨hm, hk⟩ := wants_eq_some.mp h
  exact VehicleIndex.get_eq_some.mpr ⟨mem_vehicles_of_wanted hm, hk⟩

theorem wants_eq_none : sub.wants idx k = none ↔ k ∉ (sub.wanted idx).map LiveTrip.id := by
  simp [wants, List.find?_eq_none]

/-! ## The update -/

/-- The fold of a tick is over the trips wanted. -/
theorem visits (sub : Subscription) (idx : VehicleIndex) :
    sub.pinned.foldl (Diff.visitPinned idx)
        ((idx.query sub.bbox sub.filters).foldl Diff.visit { sent := sub.sent }) =
      (sub.wanted idx).foldl Diff.visit { sent := sub.sent } := by
  rw [foldl_visitPinned, foldl_visit_present, wanted, List.foldl_append]
  simp

/-- The trips a tick reports as entered. -/
def enters (sub : Subscription) (idx : VehicleIndex) : List LiveTrip :=
  (sub.wanted idx).filter fun t => (sub.sent.lookup t.id).isNone

/-- The trips a tick reports as moved. -/
def moves (sub : Subscription) (idx : VehicleIndex) : List LiveTrip :=
  (sub.wanted idx).filter fun t => (sub.sent.lookup t.id).any fun prev => changed prev (sentOf t)

/-- The ids a tick reports as left. -/
def leaves (sub : Subscription) (idx : VehicleIndex) : List String :=
  ((sub.wanted idx).foldl Diff.visit { sent := sub.sent }).sent.keys.filter fun id => (sub.wants idx id).isNone

/-- The changes of a tick, said or not. -/
def report (sub : Subscription) (idx : VehicleIndex) : Update where
  entered := (sub.enters idx).map toState
  moved := (sub.moves idx).map toMove
  left := sub.leaves idx
  isSnapshot := sub.forceSnapshot

theorem wants_id : sub.wants idx t.id = some t ↔ t ∈ sub.wanted idx := by
  rw [wants_eq_some, and_iff_left rfl]

/-- What a fold of `Diff.visit` over the trips wanted has sent under an id. -/
theorem visited_sent (sub : Subscription) (idx : VehicleIndex) (k : String) :
    ((sub.wanted idx).foldl Diff.visit { sent := sub.sent }).sent.lookup k =
      match sub.wants idx k with
      | some t => Mirror.sync sentOf kept (sub.sent.lookup k) (some t)
      | none => sub.sent.lookup k :=
  foldl_visit_sent nodup_wanted k

theorem mem_leaves : k ∈ sub.leaves idx ↔ (∃ v, sub.sent.lookup k = some v) ∧ sub.wants idx k = none := by
  rw [leaves, List.mem_filter, ← AList.mem_keys, ← AList.lookup_isSome, visited_sent, Option.isNone_iff_eq_none,
    ← Option.isSome_iff_exists]
  refine and_congr_left fun h => ?_
  rw [h]

/-- The changes of a tick are a frame of the mirror. -/
def frame (sub : Subscription) (idx : VehicleIndex) :
    Mirror.Frame sentOf kept LiveTrip.id (fun k => sub.sent.lookup k) (sub.wants idx) where
  enters := sub.enters idx
  moves := sub.moves idx
  leaves := sub.leaves idx
  mem_enters t := by simp [enters, wants_id]
  mem_moves t := by simp [moves, wants_id, kept, Option.any_eq_true]
  mem_leaves _ := mem_leaves
  nodup_enters := nodup_wanted.sublist (List.filter_sublist.map _)
  nodup_moves := nodup_wanted.sublist (List.filter_sublist.map _)
  nodup_leaves := (AList.keys_nodup _).filter _

/-- `buildUpdate` in terms of what the tick says. -/
theorem buildUpdate_eq (sub : Subscription) (idx : VehicleIndex) :
    sub.buildUpdate idx =
      ({ sub with
          sent := Map.eraseAll (sub.leaves idx) ((sub.wanted idx).foldl Diff.visit { sent := sub.sent }).sent
          forceSnapshot := false },
        if !sub.forceSnapshot && (sub.report idx).entered.isEmpty && (sub.report idx).moved.isEmpty &&
            (sub.report idx).left.isEmpty then none
        else some (sub.report idx)) := by
  have hl : (((sub.wanted idx).foldl Diff.visit { sent := sub.sent }).sent.keys.filter fun id =>
      id ∉ ((sub.wanted idx).foldl Diff.visit { sent := sub.sent }).present) = sub.leaves idx := by
    refine List.filter_congr fun k _ => ?_
    rw [foldl_visit_present, Bool.eq_iff_iff, Option.isNone_iff_eq_none, wants_eq_none]
    simp
  simp only [buildUpdate, visits, hl, foldl_visit_entered nodup_wanted, foldl_visit_moved nodup_wanted,
    List.nil_append, report, enters, moves]
  rfl

theorem buildUpdate_frame (h : (sub.buildUpdate idx).2 = some u) : u = sub.report idx := by
  rw [buildUpdate_eq] at h
  simp only at h
  split at h
  · cases h
  · exact (Option.some.inj h).symm

/-- A silent tick had nothing to say. -/
theorem buildUpdate_silent (h : (sub.buildUpdate idx).2 = none) :
    sub.report idx = { entered := [], moved := [], left := [], isSnapshot := false } := by
  rw [buildUpdate_eq] at h
  simp only at h
  split at h
  · rename_i hs
    simp only [Bool.and_eq_true, Bool.not_eq_true', List.isEmpty_iff] at hs
    obtain ⟨⟨⟨h1, h2⟩, h3⟩, h4⟩ := hs
    rw [← h2, ← h3, ← h4, ← h1]
    rfl
  · cases h

/-- The record of a subscription follows what is wanted, id by id. -/
theorem buildUpdate_sent (sub : Subscription) (idx : VehicleIndex) (k : String) :
    (sub.buildUpdate idx).1.sent.lookup k = Mirror.sync sentOf kept (sub.sent.lookup k) (sub.wants idx k) := by
  rw [buildUpdate_eq]
  simp only
  rw [Map.lookup_eraseAll, visited_sent]
  by_cases h : k ∈ sub.leaves idx
  · rw [if_pos h, (mem_leaves.mp h).2]
    cases sub.sent.lookup k <;> rfl
  · rw [if_neg h]
    cases hw : sub.wants idx k with
    | some t => rfl
    | none =>
      cases hs : sub.sent.lookup k with
      | none => rfl
      | some v => exact absurd (mem_leaves.mpr ⟨⟨v, hs⟩, hw⟩) h

end Subscription

/-! ## Messages -/

/-- A message starts the record of a subscription over, or leaves it. -/
theorem applyClientMsg_cases {m : ClientMessage} {o : Option Subscription} {sub : Subscription}
    (h : (applyClientMsg m o).1 = some sub) :
    (sub.sent = ∅ ∧ sub.forceSnapshot = true) ∨
      ∃ old, o = some old ∧ sub.sent = old.sent ∧ sub.forceSnapshot = old.forceSnapshot := by
  unfold applyClientMsg at h
  split at h
  · exact .inr ⟨sub, h, rfl, rfl⟩
  · split at h
    · exact .inr ⟨sub, h, rfl, rfl⟩
    · cases h
      exact .inl ⟨rfl, rfl⟩
  · split at h
    · cases h
      exact .inr ⟨_, rfl, rfl, rfl⟩
    · exact .inr ⟨sub, h, rfl, rfl⟩
  · exact .inr ⟨sub, h, rfl, rfl⟩

end

end OV.Impl
