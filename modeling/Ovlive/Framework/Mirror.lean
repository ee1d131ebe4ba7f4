import Mathlib.Data.Option.Basic
import Ovlive.Framework.Assoc

/-!
# Mirroring a map by differences

A sender keeps, for each key, the value it last sent (`V`), and wants the
receiver to show the items (`T`) it has now. What it says about a key is a
`Change`: the whole item when the key appears, an update when its value
strayed too far from the one last sent (`keep` fails), that it left, or
nothing. The receiver keeps a record (`W`) for each key. A `Frame` is what the
sender puts on the wire: the lists of the keys that enter, move and leave.

`change_apply` is the reason a mirror never drifts: whatever relation `shows`
between records and values an entry establishes and an update restores, it
holds of the receiver's record and the sender's last value after the change
if it did before. `sync_close` bounds the distance between what was last sent
and what is there. Both are about one key and one frame; a run of frames is
an induction over them. `Frame.lookup_apply` says that inserting, updating and
erasing what a frame lists is applying the change to every key.
-/

namespace OV.Mirror

variable {K T V W : Type}

/-- What a frame says about a key. -/
inductive Change (W : Type)
  | enter (w : W)
  | move (f : W → W)
  | leave
  | nothing

namespace Change

/-- The record after a change. -/
def apply : Change W → Option W → Option W
  | enter w, _ => some w
  | move f, o => o.map f
  | leave, _ => none
  | nothing, o => o

@[simp] theorem apply_enter (w : W) (o : Option W) : (enter w).apply o = some w := rfl
@[simp] theorem apply_move (f : W → W) (o : Option W) : (move f).apply o = o.map f := rfl
@[simp] theorem apply_leave (o : Option W) : (leave : Change W).apply o = none := rfl
@[simp] theorem apply_nothing (o : Option W) : (nothing : Change W).apply o = o := rfl

end Change

variable (view : T → V) (keep : V → V → Bool) (enter : T → W) (move : T → W → W)

/-- What the sender says about a key, from the value last sent and the item wanted. -/
def change : Option V → Option T → Change W
  | none, none => .nothing
  | none, some t => .enter (enter t)
  | some _, none => .leave
  | some v, some t => if keep v (view t) then .nothing else .move (move t)

/-- The value the sender has last sent for a key, after saying so. -/
def sync : Option V → Option T → Option V
  | _, none => none
  | none, some t => some (view t)
  | some v, some t => some (if keep v (view t) then v else view t)

variable {view keep enter move}

/-- The keys after a change are the keys wanted. -/
theorem isSome_sync (o : Option V) (w : Option T) : (sync view keep o w).isSome = w.isSome := by
  cases o <;> cases w <;> rfl

/-- What was last sent is the wanted value, or close enough to it to be kept. -/
theorem sync_close {o : Option V} {t : T} {v : V} (h : sync view keep o (some t) = some v) :
    v = view t ∨ keep v (view t) = true := by
  cases o with
  | none => exact .inl (Option.some.inj h).symm
  | some u =>
    simp only [sync, Option.some.injEq] at h
    split at h
    · rename_i hk
      subst h
      exact .inr hk
    · exact .inl h.symm

/-- The receiver's record and the sender's last value stay related. -/
theorem change_apply {shows : W → V → Prop} (henter : ∀ t, shows (enter t) (view t))
    (hmove : ∀ t w, shows (move t w) (view t)) {o : Option W} {v : Option V} (h : Option.Rel shows o v)
    (t : Option T) :
    Option.Rel shows ((change view keep enter move v t).apply o) (sync view keep v t) := by
  cases h with
  | none =>
    cases t with
    | none => exact .none
    | some t => exact .some (henter t)
  | @some w v h =>
    cases t with
    | none => exact .none
    | some t =>
      simp only [change, sync]
      split
      · exact .some h
      · exact .some (hmove t w)

/-- The receiver keeps records of the keys the sender keeps values of. -/
theorem isSome_change {o : Option W} {v : Option V} (h : o.isSome = v.isSome) (t : Option T) :
    ((change view keep enter move v t).apply o).isSome = (sync view keep v t).isSome := by
  rw [isSome_sync]
  cases v <;> cases t
  case none.none => exact h
  case none.some t => rfl
  case some.none v => rfl
  case some.some v t =>
    simp only [change]
    split
    · exact h
    · rw [Change.apply_move, Option.isSome_map]
      exact h

/-! ## Frames -/

/-- The keys that enter, move and leave, for the values `old` last sent and the
items `wants`. -/
structure Frame (view : T → V) (keep : V → V → Bool) (key : T → K) (old : K → Option V) (wants : K → Option T) where
  enters : List T
  moves : List T
  leaves : List K
  mem_enters : ∀ t, t ∈ enters ↔ wants (key t) = some t ∧ old (key t) = none
  mem_moves : ∀ t, t ∈ moves ↔ wants (key t) = some t ∧ ∃ v, old (key t) = some v ∧ keep v (view t) = false
  mem_leaves : ∀ k, k ∈ leaves ↔ (∃ v, old k = some v) ∧ wants k = none
  nodup_enters : (enters.map key).Nodup
  nodup_moves : (moves.map key).Nodup
  nodup_leaves : leaves.Nodup

namespace Frame

variable {key : T → K} {old : K → Option V} {wants : K → Option T} (f : Frame view keep key old wants) {k : K}

theorem old_of_enters (h : k ∈ f.enters.map key) : old k = none := by
  obtain ⟨t, ht, rfl⟩ := List.mem_map.mp h
  exact ((f.mem_enters t).mp ht).2

theorem old_of_moves (h : k ∈ f.moves.map key) : ∃ v, old k = some v := by
  obtain ⟨t, ht, rfl⟩ := List.mem_map.mp h
  obtain ⟨_, v, hv, _⟩ := (f.mem_moves t).mp ht
  exact ⟨v, hv⟩

theorem wants_of_moves (h : k ∈ f.moves.map key) : ∃ t, wants k = some t := by
  obtain ⟨t, ht, rfl⟩ := List.mem_map.mp h
  exact ⟨t, ((f.mem_moves t).mp ht).1⟩

theorem disjoint_enters_moves : (f.enters.map key).Disjoint (f.moves.map key) := by
  intro k h1 h2
  obtain ⟨v, hv⟩ := f.old_of_moves h2
  rw [f.old_of_enters h1] at hv
  cases hv

theorem disjoint_enters_leaves : (f.enters.map key).Disjoint f.leaves := by
  intro k h1 h2
  obtain ⟨⟨v, hv⟩, _⟩ := (f.mem_leaves k).mp h2
  rw [f.old_of_enters h1] at hv
  cases hv

theorem disjoint_moves_leaves : (f.moves.map key).Disjoint f.leaves := by
  intro k h1 h2
  obtain ⟨t, ht⟩ := f.wants_of_moves h1
  rw [((f.mem_leaves k).mp h2).2] at ht
  cases ht

/-- A receiver that inserts what enters, updates what moves and erases what
leaves applies the change to every key. -/
theorem lookup_apply [DecidableEq K] (hkey : ∀ k t, wants k = some t → key t = k) (m : Map K W) (k : K) :
    (Map.eraseAll f.leaves (Map.adjustAll key move f.moves (Map.insertAll key enter f.enters m))).lookup k =
      (change view keep enter move (old k) (wants k)).apply (m.lookup k) := by
  rw [Map.lookup_eraseAll]
  by_cases hl : k ∈ f.leaves
  · obtain ⟨⟨v, hv⟩, hw⟩ := (f.mem_leaves k).mp hl
    rw [if_pos hl, hv, hw]
    rfl
  rw [if_neg hl]
  by_cases hm : k ∈ f.moves.map key
  · have he := fun h => f.disjoint_enters_moves h hm
    obtain ⟨t, ht, rfl⟩ := List.mem_map.mp hm
    obtain ⟨hw, v, hv, hk⟩ := (f.mem_moves t).mp ht
    rw [Map.lookup_adjustAll_of_mem f.nodup_moves ht, Map.lookup_insertAll_of_notMem he, hw, hv]
    simp [change, hk]
  rw [Map.lookup_adjustAll_of_notMem hm]
  by_cases he : k ∈ f.enters.map key
  · obtain ⟨t, ht, rfl⟩ := List.mem_map.mp he
    obtain ⟨hw, hv⟩ := (f.mem_enters t).mp ht
    rw [Map.lookup_insertAll_of_mem f.nodup_enters ht, hw, hv]
    rfl
  rw [Map.lookup_insertAll_of_notMem he]
  -- on no list: nothing is said about the key
  cases hw : wants k with
  | none =>
    cases hv : old k with
    | none => rfl
    | some v => exact absurd ((f.mem_leaves k).mpr ⟨⟨v, hv⟩, hw⟩) hl
  | some t =>
    obtain rfl := hkey k t hw
    cases hv : old (key t) with
    | none => exact absurd (List.mem_map_of_mem ((f.mem_enters t).mpr ⟨hw, hv⟩)) he
    | some v =>
      cases hk : keep v (view t) with
      | true => simp [change, hk]
      | false => exact absurd (List.mem_map_of_mem ((f.mem_moves t).mpr ⟨hw, v, hv, hk⟩)) hm

/-- The item of a key among those that enter. -/
theorem find_enters [DecidableEq K] (hkey : ∀ k t, wants k = some t → key t = k) (k : K) :
    f.enters.find? (fun t => key t = k) = if (old k).isNone then wants k else none := by
  cases ht : f.enters.find? (fun t => key t = k) with
  | some t =>
    obtain ⟨hm, rfl⟩ : t ∈ f.enters ∧ key t = k := ⟨List.mem_of_find?_eq_some ht, by simpa using List.find?_some ht⟩
    obtain ⟨hw, ho⟩ := (f.mem_enters t).mp hm
    rw [ho, hw]
    rfl
  | none =>
    rw [List.find?_eq_none] at ht
    cases ho : old k with
    | some v => rfl
    | none =>
      cases hw : wants k with
      | none => rfl
      | some t =>
        obtain rfl := hkey k t hw
        exact absurd (decide_eq_true rfl) (ht t ((f.mem_enters t).mpr ⟨hw, ho⟩))

/-- The item of a key among those that move. -/
theorem find_moves [DecidableEq K] (hkey : ∀ k t, wants k = some t → key t = k) (k : K) :
    f.moves.find? (fun t => key t = k) = (wants k).filter fun t => (old k).any fun v => !keep v (view t) := by
  cases ht : f.moves.find? (fun t => key t = k) with
  | some t =>
    obtain ⟨hm, rfl⟩ : t ∈ f.moves ∧ key t = k := ⟨List.mem_of_find?_eq_some ht, by simpa using List.find?_some ht⟩
    obtain ⟨hw, v, ho, hk⟩ := (f.mem_moves t).mp hm
    rw [ho, hw]
    simp [Option.filter_some, hk]
  | none =>
    rw [List.find?_eq_none] at ht
    refine (Option.filter_eq_none_iff.mpr fun t hw hany => ?_).symm
    obtain ⟨v, ho, hk⟩ := (Option.any_eq_true _ _).mp hany
    rw [Bool.not_eq_true'] at hk
    obtain rfl := hkey k t hw
    exact ht t ((f.mem_moves t).mpr ⟨hw, v, ho, hk⟩) (decide_eq_true rfl)

end Frame

end OV.Mirror
