import Mathlib.Data.List.AList
import Mathlib.Data.List.Induction

/-!
# Keyed maps

A hash map (of Rust or of JavaScript) is an association list without
duplicate keys. The order of its entries stands for the iteration order,
which the languages leave open: a theorem about every `Map` is about every
iteration order.

Beside Mathlib's `insert`, `erase` and `lookup`: `retain`, `insertAll` and
`eraseAll`, with the lookups and keys they leave, and for maps of lists `push`,
`valuesAt` and the map that pushing leaves (`group`).
-/

namespace OV

/-- A map from `K` to `V`. -/
abbrev Map (K V : Type) := AList fun _ : K => V

namespace Map

variable {K V W : Type}

/-- The values, in iteration order. -/
def values (m : Map K V) : List V := m.entries.map Sigma.snd

/-- The entries that satisfy `p`. -/
def retain (p : K → V → Bool) (m : Map K V) : Map K V where
  entries := m.entries.filter fun e => p e.1 e.2
  nodupKeys := List.Pairwise.sublist (List.Sublist.map _ List.filter_sublist) m.nodupKeys

variable [DecidableEq K]

theorem mem_entries {m : Map K V} {k : K} {v : V} : ⟨k, v⟩ ∈ m.entries ↔ m.lookup k = some v := by
  rw [← Option.mem_def, AList.mem_lookup_iff]

theorem mem_values {m : Map K V} {v : V} : v ∈ values m ↔ ∃ k, m.lookup k = some v := by
  simp only [values, List.mem_map]
  constructor
  · rintro ⟨⟨k, w⟩, h, rfl⟩
    exact ⟨k, mem_entries.mp h⟩
  · rintro ⟨k, h⟩
    exact ⟨⟨k, v⟩, mem_entries.mpr h, rfl⟩

/-- Values stored under their own ids have distinct ids. -/
theorem nodup_map_values {m : Map K V} {id : V → K} (h : ∀ k v, m.lookup k = some v → id v = k) :
    ((values m).map id).Nodup := by
  have hk : (values m).map id = m.keys := by
    simp only [values, AList.keys, List.keys, List.map_map]
    exact List.map_congr_left fun e he => h e.1 e.2 (mem_entries.mp he)
  rw [hk]
  exact m.keys_nodup

theorem lookup_retain (p : K → V → Bool) (m : Map K V) (k : K) :
    (retain p m).lookup k = (m.lookup k).filter (p k) := by
  apply Option.ext
  intro v
  rw [Option.filter_eq_some_iff, ← mem_entries, ← mem_entries]
  simp [retain]

/-- Insert the entries of a list, one after the other. -/
def insertAll (key : W → K) (val : W → V) (ws : List W) (m : Map K V) : Map K V :=
  ws.foldl (fun m w => m.insert (key w) (val w)) m

/-- Erase the keys of a list, one after the other. -/
def eraseAll (ks : List K) (m : Map K V) : Map K V :=
  ks.foldl (fun m k => m.erase k) m

@[simp] theorem insertAll_nil (key : W → K) (val : W → V) (m : Map K V) :
    insertAll key val [] m = m := rfl

@[simp] theorem insertAll_cons (key : W → K) (val : W → V) (w : W) (ws : List W) (m : Map K V) :
    insertAll key val (w :: ws) m = insertAll key val ws (m.insert (key w) (val w)) := rfl

theorem insertAll_map {X : Type} (f : X → W) (key : W → K) (val : W → V) (xs : List X) (m : Map K V) :
    insertAll key val (xs.map f) m = insertAll (fun x => key (f x)) (fun x => val (f x)) xs m := by
  simp only [insertAll, List.foldl_map]

/-- A key that is not inserted keeps its value. -/
theorem lookup_insertAll_of_notMem {key : W → K} {val : W → V} {ws : List W} {m : Map K V} {k : K}
    (h : k ∉ ws.map key) : (insertAll key val ws m).lookup k = m.lookup k := by
  induction ws generalizing m with
  | nil => rfl
  | cons w ws ih =>
    simp only [List.map_cons, List.mem_cons, not_or] at h
    rw [insertAll_cons, ih h.2, AList.lookup_insert_ne h.1]

/-- A key inserted once has the value inserted. -/
theorem lookup_insertAll_of_mem {key : W → K} {val : W → V} {ws : List W} {m : Map K V} {w : W}
    (hn : (ws.map key).Nodup) (h : w ∈ ws) : (insertAll key val ws m).lookup (key w) = some (val w) := by
  induction ws generalizing m with
  | nil => cases h
  | cons x ws ih =>
    rw [List.map_cons, List.nodup_cons] at hn
    rw [insertAll_cons]
    rcases List.mem_cons.mp h with rfl | h
    · rw [lookup_insertAll_of_notMem hn.1, AList.lookup_insert]
    · exact ih hn.2 h

theorem isSome_lookup_insertAll (key : W → K) (val : W → V) (ws : List W) (m : Map K V) (k : K) :
    ((insertAll key val ws m).lookup k).isSome ↔ k ∈ ws.map key ∨ (m.lookup k).isSome := by
  induction ws generalizing m with
  | nil => simp
  | cons w ws ih =>
    rw [insertAll_cons, ih, List.map_cons, List.mem_cons]
    by_cases hk : k = key w
    · subst hk
      simp [AList.lookup_insert]
    · simp [hk, AList.lookup_insert_ne hk]

/-- What holds of the entry inserted and of those before holds of all. -/
theorem forall_insert {P : K → V → Prop} {k : K} {v : V} {m : Map K V} (hnew : P k v)
    (hold : ∀ k' v', m.lookup k' = some v' → P k' v') : ∀ k' v', (m.insert k v).lookup k' = some v' → P k' v' := by
  intro k' v' h
  by_cases he : k' = k
  · subst he
    rw [AList.lookup_insert] at h
    exact Option.some.inj h ▸ hnew
  · rw [AList.lookup_insert_ne he] at h
    exact hold k' v' h

/-- What holds of the entries inserted and of those before holds of all. -/
theorem forall_insertAll {P : K → V → Prop} {key : W → K} {val : W → V} {ws : List W} {m : Map K V}
    (hnew : ∀ w ∈ ws, P (key w) (val w)) (hold : ∀ k v, m.lookup k = some v → P k v) :
    ∀ k v, (insertAll key val ws m).lookup k = some v → P k v := by
  induction ws generalizing m with
  | nil => exact hold
  | cons w ws ih =>
    refine ih (fun x hx => hnew x (List.mem_cons_of_mem _ hx)) ?_
    exact forall_insert (hnew w List.mem_cons_self) hold

/-- What another map's entries are inserted into. -/
theorem lookup_insertAll_entries (m' m : Map K V) (k : K) :
    (insertAll Sigma.fst Sigma.snd m'.entries m).lookup k = (m'.lookup k).or (m.lookup k) := by
  cases h : m'.lookup k with
  | none =>
    have hk : k ∉ m'.entries.map Sigma.fst := by
      intro hmem
      rw [← List.keys, ← AList.keys, ← AList.mem_keys, AList.lookup_isSome.symm] at hmem
      simp [h] at hmem
    rw [Option.none_or, lookup_insertAll_of_notMem hk]
  | some v => exact lookup_insertAll_of_mem m'.nodupKeys (mem_entries.mpr h)

/-- Replace the value of a key, if it has one. -/
def adjust (k : K) (f : V → V) (m : Map K V) : Map K V :=
  match m.lookup k with
  | some v => m.insert k (f v)
  | none => m

theorem lookup_adjust (k : K) (f : V → V) (m : Map K V) (k' : K) :
    (adjust k f m).lookup k' = if k' = k then (m.lookup k).map f else m.lookup k' := by
  unfold adjust
  by_cases e : k' = k
  · subst e
    cases h : m.lookup k' <;> simp [h, AList.lookup_insert]
  · cases h : m.lookup k <;> simp [e, AList.lookup_insert_ne e]

/-- Adjust the keys of a list, one after the other. -/
def adjustAll (key : W → K) (f : W → V → V) (ws : List W) (m : Map K V) : Map K V :=
  ws.foldl (fun m w => adjust (key w) (f w) m) m

@[simp] theorem adjustAll_cons (key : W → K) (f : W → V → V) (w : W) (ws : List W) (m : Map K V) :
    adjustAll key f (w :: ws) m = adjustAll key f ws (adjust (key w) (f w) m) := rfl

theorem adjustAll_map {X : Type} (g : X → W) (key : W → K) (f : W → V → V) (xs : List X) (m : Map K V) :
    adjustAll key f (xs.map g) m = adjustAll (fun x => key (g x)) (fun x => f (g x)) xs m := by
  simp only [adjustAll, List.foldl_map]

theorem lookup_adjustAll_of_notMem {key : W → K} {f : W → V → V} {ws : List W} {m : Map K V} {k : K}
    (h : k ∉ ws.map key) : (adjustAll key f ws m).lookup k = m.lookup k := by
  induction ws generalizing m with
  | nil => rfl
  | cons w ws ih =>
    simp only [List.map_cons, List.mem_cons, not_or] at h
    rw [adjustAll_cons, ih h.2, lookup_adjust, if_neg h.1]

theorem lookup_adjustAll_of_mem {key : W → K} {f : W → V → V} {ws : List W} {m : Map K V} {w : W}
    (hn : (ws.map key).Nodup) (h : w ∈ ws) :
    (adjustAll key f ws m).lookup (key w) = (m.lookup (key w)).map (f w) := by
  induction ws generalizing m with
  | nil => cases h
  | cons x ws ih =>
    rw [List.map_cons, List.nodup_cons] at hn
    rw [adjustAll_cons]
    rcases List.mem_cons.mp h with rfl | h
    · rw [lookup_adjustAll_of_notMem hn.1, lookup_adjust, if_pos rfl]
    · have hne : key w ≠ key x := fun e => hn.1 (e ▸ List.mem_map_of_mem h)
      rw [ih hn.2 h, lookup_adjust, if_neg hne]

/-- What the adjustments keep holds of all entries. -/
theorem forall_adjustAll {P : K → V → Prop} {key : W → K} {f : W → V → V} {ws : List W} {m : Map K V}
    (hkeep : ∀ w ∈ ws, ∀ v, P (key w) v → P (key w) (f w v)) (hold : ∀ k v, m.lookup k = some v → P k v) :
    ∀ k v, (adjustAll key f ws m).lookup k = some v → P k v := by
  induction ws generalizing m with
  | nil => exact hold
  | cons w ws ih =>
    refine ih (fun x hx => hkeep x (List.mem_cons_of_mem _ hx)) fun k v hk => ?_
    rw [lookup_adjust] at hk
    split at hk
    · rename_i he
      obtain ⟨v, hv, rfl⟩ := Option.map_eq_some_iff.mp hk
      exact he ▸ hkeep w List.mem_cons_self v (hold _ v hv)
    · exact hold k v hk

theorem isSome_lookup_adjustAll (key : W → K) (f : W → V → V) (ws : List W) (m : Map K V) (k : K) :
    ((adjustAll key f ws m).lookup k).isSome = (m.lookup k).isSome := by
  induction ws generalizing m with
  | nil => rfl
  | cons w ws ih =>
    rw [adjustAll_cons, ih, lookup_adjust]
    split
    · rename_i hk
      rw [hk, Option.isSome_map]
    · rfl

theorem lookup_eraseAll (ks : List K) (m : Map K V) (k : K) :
    (eraseAll ks m).lookup k = if k ∈ ks then none else m.lookup k := by
  induction ks generalizing m with
  | nil => simp [eraseAll]
  | cons x ks ih =>
    have : eraseAll (x :: ks) m = eraseAll ks (m.erase x) := rfl
    rw [this, ih]
    by_cases hk : k ∈ ks
    · simp [hk]
    · by_cases hx : k = x
      · subst hx; simp [AList.lookup_erase]
      · simp [hk, hx, AList.lookup_erase_ne hx]

/-- Apply a function to every value. -/
def mapValues (f : V → W) (m : Map K V) : Map K W where
  entries := m.entries.map fun e => ⟨e.1, f e.2⟩
  nodupKeys := by
    have h : List.keys (m.entries.map fun e => (⟨e.1, f e.2⟩ : Sigma fun _ : K => W)) = List.keys m.entries := by
      simp only [List.keys, List.map_map]
      rfl
    rw [List.NodupKeys, h]
    exact m.nodupKeys

theorem lookup_mapValues (f : V → W) (m : Map K V) (k : K) : (mapValues f m).lookup k = (m.lookup k).map f := by
  apply Option.ext
  intro w
  rw [← mem_entries, Option.map_eq_some_iff]
  simp only [mapValues, List.mem_map, Sigma.mk.injEq, heq_eq_eq]
  constructor
  · rintro ⟨⟨k', v⟩, h, rfl, rfl⟩
    exact ⟨v, mem_entries.mp h, rfl⟩
  · rintro ⟨v, h, rfl⟩
    exact ⟨⟨k, v⟩, mem_entries.mpr h, rfl, rfl⟩

/-! ## Maps of lists -/

/-- The values of a key, none if it has no entry. -/
def valuesAt (m : Map K (List V)) (k : K) : List V := (m.lookup k).getD []

/-- A function on the lists, where there is one. -/
theorem valuesAt_mapValues_of_mem (f : List V → List W) {m : Map K (List V)} {k : K} {v : V} (h : v ∈ valuesAt m k) :
    valuesAt (mapValues f m) k = f (valuesAt m k) := by
  unfold valuesAt at h ⊢
  rw [lookup_mapValues]
  cases hl : m.lookup k with
  | none =>
    rw [hl] at h
    cases h
  | some l => rfl

/-- Append a value to those of a key. -/
def push (k : K) (v : V) (m : Map K (List V)) : Map K (List V) := m.insert k (valuesAt m k ++ [v])

theorem valuesAt_push (k : K) (v : V) (m : Map K (List V)) (k' : K) :
    valuesAt (push k v m) k' = valuesAt m k' ++ if k' = k then [v] else [] := by
  by_cases h : k' = k
  · rw [if_pos h, h, push, valuesAt, AList.lookup_insert, Option.getD_some]
  · rw [if_neg h, List.append_nil, push, valuesAt, AList.lookup_insert_ne h, valuesAt]

/-- What a loop leaves whose steps append to the values of a key. -/
theorem valuesAt_foldl {f : Map K (List V) → W → Map K (List V)} {g : W → List V} {k : K}
    (h : ∀ m w, valuesAt (f m w) k = valuesAt m k ++ g w) (ws : List W) (m : Map K (List V)) :
    valuesAt (ws.foldl f m) k = valuesAt m k ++ ws.flatMap g := by
  induction ws generalizing m with
  | nil => simp
  | cons w ws ih => rw [List.foldl_cons, ih, h, List.flatMap_cons, List.append_assoc]

/-- Push the values that some of the elements of a list have, each under its key. -/
def group (f : W → Option (K × V)) (ws : List W) (m : Map K (List V)) : Map K (List V) :=
  ws.foldl (fun m w =>
    match f w with
    | none => m
    | some (k, v) => push k v m) m

/-- The values that a list has for a key. -/
def groupAt (f : W → Option (K × V)) (ws : List W) (k : K) : List V :=
  ws.filterMap fun w => ((f w).filter fun e => e.1 = k).map Prod.snd

/-- A key has its values, and no entry without any. -/
theorem lookup_group (f : W → Option (K × V)) (ws : List W) (k : K) :
    (group f ws ∅).lookup k = if groupAt f ws k = [] then none else some (groupAt f ws k) := by
  induction ws using List.reverseRecOn with
  | nil => rfl
  | append_singleton ws w ih =>
    have hsnoc : groupAt f (ws ++ [w]) k =
        groupAt f ws k ++ (((f w).filter fun e => e.1 = k).map Prod.snd).toList := by
      rw [groupAt, List.filterMap_append, ← groupAt]
      cases h : ((f w).filter fun e => e.1 = k).map Prod.snd <;> simp [h]
    rw [hsnoc, group, List.foldl_append, List.foldl_cons, List.foldl_nil, ← group]
    cases hf : f w with
    | none => simpa using ih
    | some e =>
      by_cases hk : e.1 = k
      · have hvalues : valuesAt (group f ws ∅) k = groupAt f ws k := by
          rw [valuesAt, ih]
          split
          · rename_i hnil
            rw [hnil]
            rfl
          · rfl
        have hnew : ((some e).filter fun e => decide (e.1 = k)) = some e := by simp [hk]
        rw [hnew, if_neg (by simp)]
        simp only [push]
        rw [hk, AList.lookup_insert, hvalues]
        rfl
      · have hnone : ((some e).filter fun e => decide (e.1 = k)) = none := by simp [hk]
        simp only [push]
        rw [AList.lookup_insert_ne (Ne.symm hk), ih, hnone]
        simp

end Map

end OV
