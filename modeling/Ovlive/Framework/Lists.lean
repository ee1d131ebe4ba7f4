import Mathlib.Data.List.Induction
import Mathlib.Data.List.Nodup

/-!
# Lists

Where a list that ends in an entry can be cut (`snoc_eq_append_cons`), what it has
where (`getElem?_snoc`, and `getElem?_set_cases` where an entry is replaced), the
lists that loops with a conditional push build (`flatMap_ite`), the part of
a concatenation that one key contributes (`filter_flatMap_of_key`), a list put
together from its keys (`flatMap_filter_perm`) or from its positions
(`pick_perm`), what is left of a list that is
mapped entry by entry (`filterMap_take_filter`), its entries without repeats
(`firsts`), the state of a loop over what the entries stand for
(`foldl_flatMap_state`), and the maximal constant runs of a list that grows
(`constantRuns_snoc`).
-/

namespace OV

variable {A B K : Type}

/-- Where a list that ends in `y` can be cut: before `y`, or further in. -/
theorem snoc_eq_append_cons {xs l l' : List A} {y x : A} (h : xs ++ [y] = l ++ x :: l') :
    (l = xs ∧ x = y ∧ l' = []) ∨ ∃ l'', l' = l'' ++ [y] ∧ xs = l ++ x :: l'' := by
  induction l' using List.reverseRecOn with
  | nil =>
    obtain ⟨rfl, hx⟩ := List.append_inj' h rfl
    cases hx
    exact .inl ⟨rfl, rfl, rfl⟩
  | append_singleton l'' z =>
    rw [← List.cons_append, ← List.append_assoc] at h
    obtain ⟨rfl, hz⟩ := List.append_inj' h rfl
    cases hz
    exact .inr ⟨l'', rfl, rfl⟩

/-- An entry of a list that ends in `y`. -/
theorem getElem?_snoc {xs : List A} {y x : A} {n : Nat} (h : (xs ++ [y])[n]? = some x) :
    (n < xs.length ∧ xs[n]? = some x) ∨ (n = xs.length ∧ y = x) := by
  by_cases hn : n < xs.length
  · rw [List.getElem?_append_left hn] at h
    exact .inl ⟨hn, h⟩
  · rw [List.getElem?_append_right (Nat.le_of_not_lt hn), List.getElem?_singleton] at h
    split at h
    · exact .inr ⟨by omega, Option.some.inj h⟩
    · cases h

/-- What a list has somewhere it has when others follow. -/
theorem getElem?_append_of_eq_some {xs : List A} {n : Nat} {x : A} (h : xs[n]? = some x) (ys : List A) :
    (xs ++ ys)[n]? = some x := by
  rw [List.getElem?_append_left (List.getElem?_eq_some_iff.mp h).1, h]

/-- An entry of a list whose entry at `n` is replaced by `y`. -/
theorem getElem?_set_cases {xs : List A} {n m : Nat} {y x : A} (h : (xs.set n y)[m]? = some x) :
    (m = n ∧ y = x) ∨ (m ≠ n ∧ xs[m]? = some x) := by
  rw [List.getElem?_set] at h
  split at h
  · rename_i hnm
    split at h
    · exact .inl ⟨hnm.symm, Option.some.inj h⟩
    · cases h
  · rename_i hnm
    exact .inr ⟨Ne.symm hnm, h⟩

theorem flatMap_ite (p : A → Bool) (f : A → B) (l : List A) :
    (l.flatMap fun a => if p a then [f a] else []) = (l.filter p).map f := by
  induction l with
  | nil => rfl
  | cons a l ih => cases h : p a <;> simp [ih, h]

/-- Of a concatenation of lists with distinct keys, the entries of one key are
the list of that key. -/
theorem filter_flatMap_of_key [DecidableEq K] {f : A → List B} {key : B → K} {id : A → K} {l : List A} {a : A}
    (hf : ∀ a, ∀ b ∈ f a, key b = id a) (hn : (l.map id).Nodup) (ha : a ∈ l) :
    (l.flatMap f).filter (fun b => key b = id a) = f a := by
  induction l with
  | nil => cases ha
  | cons x l ih =>
    rw [List.map_cons, List.nodup_cons] at hn
    rw [List.flatMap_cons, List.filter_append]
    rcases List.mem_cons.mp ha with rfl | ha
    · have hl : (l.flatMap f).filter (fun b => key b = id a) = [] := by
        rw [List.filter_eq_nil_iff]
        intro b hb
        obtain ⟨c, hc, hbc⟩ := List.mem_flatMap.mp hb
        have hne : id a ≠ id c := fun e => hn.1 (e ▸ List.mem_map_of_mem hc)
        simpa [hf c b hbc] using hne.symm
      rw [hl, List.append_nil, List.filter_eq_self]
      intro b hb
      simpa using hf a b hb
    · have hne : id x ≠ id a := fun e => hn.1 (e ▸ List.mem_map_of_mem ha)
      have hx : (f x).filter (fun b => key b = id a) = [] := by
        rw [List.filter_eq_nil_iff]
        intro b hb
        simpa [hf x b hb] using hne
      rw [hx, List.nil_append, ih hn.2 ha]

/-- Two tests of which no entry passes both split the entries that pass either. -/
theorem filter_append_perm_or {p q : A → Bool} {l : List A} (h : ∀ a ∈ l, ¬ (p a = true ∧ q a = true)) :
    (l.filter p ++ l.filter q).Perm (l.filter fun a => p a || q a) := by
  induction l with
  | nil => exact .nil
  | cons a l ih =>
    have ih := ih fun b hb => h b (List.mem_cons_of_mem _ hb)
    have ha := h a List.mem_cons_self
    cases hp : p a with
    | true =>
      rw [List.filter_cons_of_pos hp, List.filter_cons_of_neg fun hq => ha ⟨hp, hq⟩,
        List.filter_cons_of_pos (by simp [hp])]
      exact ih.cons a
    | false =>
      cases hq : q a with
      | true =>
        rw [List.filter_cons_of_neg (by simp [hp]), List.filter_cons_of_pos hq, List.filter_cons_of_pos (by simp [hq])]
        exact List.perm_middle.trans (ih.cons a)
      | false =>
        rw [List.filter_cons_of_neg (by simp [hp]), List.filter_cons_of_neg (by simp [hq]),
          List.filter_cons_of_neg (by simp [hp, hq])]
        exact ih

/-- The entries of distinct keys, key by key, are the entries with one of the keys. -/
theorem flatMap_filter_perm [DecidableEq K] {key : A → K} {ks : List K} (hn : ks.Nodup) (l : List A) :
    (ks.flatMap fun k => l.filter fun a => key a = k).Perm (l.filter fun a => key a ∈ ks) := by
  induction ks with
  | nil => simp
  | cons k ks ih =>
    rw [List.nodup_cons] at hn
    rw [List.flatMap_cons]
    refine ((ih hn.2).append_left _).trans ?_
    have hsplit := filter_append_perm_or (p := fun a => decide (key a = k)) (q := fun a => decide (key a ∈ ks)) (l := l)
      fun a _ h => hn.1 (of_decide_eq_true h.1 ▸ of_decide_eq_true h.2)
    simpa [List.mem_cons] using hsplit

/-- Values that only depend on a key are values of the keys. -/
theorem exists_filterMap_of_key {V : Type} {key : A → K} {f : A → Option V} (hf : ∀ a b, key a = key b → f a = f b) :
    ∃ g : K → Option V, ∀ l : List A, l.filterMap f = (l.map key).filterMap g := by
  obtain ⟨g, hg⟩ := (Function.factorsThrough_iff f).mp fun a b hab => hf a b hab
  refine ⟨g, fun l => ?_⟩
  rw [List.filterMap_map, hg]

/-- The entries of a list at some positions. -/
def pick (order : List Nat) (l : List A) : List A := order.filterMap fun i => l[i]?

/-- At all of its positions, in whatever order, it has its entries. -/
theorem pick_perm {order : List Nat} {l : List A} (h : order.Perm (List.range l.length)) : (pick order l).Perm l := by
  have hmap : (List.range l.length).map (fun i => l[i]?) = l.map some := List.ext_getElem (by simp) (by simp)
  have hall : pick (List.range l.length) l = l := by
    have hpick : pick (List.range l.length) l = ((List.range l.length).map fun i => l[i]?).filterMap id := by
      rw [List.filterMap_map]
      rfl
    rw [hpick, hmap, List.filterMap_map]
    exact List.filterMap_some
  exact (h.filterMap _).trans (.of_eq hall)

theorem pick_zip (order : List Nat) {l : List A} {m : List B} (h : m.length = l.length) :
    (pick order l).zip (pick order m) = pick order (l.zip m) := by
  induction order with
  | nil => rfl
  | cons i order ih =>
    by_cases hi : i < l.length
    · have hzip : (l.zip m)[i]? = some (l[i], m[i]) := by simp [hi, h]
      rw [pick, pick, pick, List.filterMap_cons_some (List.getElem?_eq_getElem hi),
        List.filterMap_cons_some (List.getElem?_eq_getElem (h ▸ hi)), List.filterMap_cons_some hzip, List.zip_cons_cons]
      exact congrArg _ ih
    · have hl : l[i]? = none := List.getElem?_eq_none (Nat.le_of_not_lt hi)
      have hm : m[i]? = none := List.getElem?_eq_none (h ▸ Nat.le_of_not_lt hi)
      have hzip : (l.zip m)[i]? = none := List.getElem?_eq_none (by simpa [h] using hi)
      rw [pick, pick, pick, List.filterMap_cons_none hl, List.filterMap_cons_none hm, List.filterMap_cons_none hzip]
      exact ih

/-- An entry that few come before is among the first. -/
theorem mem_take_append_cons {a : A} {before after : List A} {n : Nat} (h : before.length < n) :
    a ∈ (before ++ a :: after).take n := by
  have hget : (before ++ a :: after)[before.length]? = some a := by
    rw [List.getElem?_append_right (Nat.le_refl _), Nat.sub_self, List.getElem?_cons_zero]
  refine List.mem_of_getElem? (i := before.length) ?_
  rw [List.getElem?_take_of_lt h, hget]

/-- What a list is mapped to, filtered and cut, is the list filtered by the same
and cut, then mapped. -/
theorem filterMap_take_filter {f : A → Option B} {p : A → Bool} {q : B → Bool} {l : List A} {m : List B}
    (h : l.map f = m.map some) (hpq : ∀ a b, f a = some b → q b = p a) (n : Nat) :
    ((l.filter p).take n).filterMap f = (m.filter q).take n := by
  induction l generalizing m n with
  | nil => simp_all
  | cons a l ih =>
    cases m with
    | nil => cases h
    | cons b m =>
      rw [List.map_cons, List.map_cons, List.cons.injEq] at h
      obtain ⟨hb, h⟩ := h
      cases hp : p a with
      | true =>
        rw [List.filter_cons_of_pos hp, List.filter_cons_of_pos ((hpq a b hb).trans hp)]
        cases n with
        | zero => rfl
        | succ n => rw [List.take_succ_cons, List.take_succ_cons, List.filterMap_cons_some hb, ih h]
      | false =>
        rw [List.filter_cons_of_neg (by rw [hp]; decide), List.filter_cons_of_neg (by rw [hpq a b hb, hp]; decide), ih h]

/-- The distinct entries of a list, each where it first occurs. -/
def firsts [DecidableEq A] (l : List A) : List A := l.foldl (fun seen a => if a ∈ seen then seen else seen ++ [a]) []

theorem firsts_snoc [DecidableEq A] (l : List A) (a : A) :
    firsts (l ++ [a]) = if a ∈ firsts l then firsts l else firsts l ++ [a] := by
  rw [firsts, List.foldl_append]
  rfl

theorem mem_firsts [DecidableEq A] {l : List A} {a : A} : a ∈ firsts l ↔ a ∈ l := by
  induction l using List.reverseRecOn with
  | nil => rfl
  | append_singleton l b ih =>
    rw [firsts_snoc, List.mem_append, List.mem_singleton, ← ih]
    split
    · rename_i hb
      exact ⟨.inl, fun h => h.elim id fun h => h ▸ hb⟩
    · rw [List.mem_append, List.mem_singleton]

theorem nodup_firsts [DecidableEq A] (l : List A) : (firsts l).Nodup := by
  induction l using List.reverseRecOn with
  | nil => exact .nil
  | append_singleton l b ih =>
    rw [firsts_snoc]
    split
    · exact ih
    · rename_i hb
      exact List.nodup_append.mpr ⟨ih, List.nodup_singleton b, fun a ha c hc he => hb (List.mem_singleton.mp hc ▸ he ▸ ha)⟩

theorem firsts_sublist [DecidableEq A] (l : List A) : (firsts l).Sublist l := by
  induction l using List.reverseRecOn with
  | nil => exact List.Sublist.refl _
  | append_singleton l b ih =>
    rw [firsts_snoc]
    split
    · exact ih.trans (List.sublist_append_left _ _)
    · exact ih.append_right [b]

/-- A loop over what the entries of a list stand for is in the state of the entries
so far, if each entry takes it there. Of the state, `r` is not followed. -/
theorem foldl_flatMap_state {S R : Type} {step : S → B → S} {f : A → List B} {state : List A → R → S} {l : List A}
    (h : ∀ (before : List A) (r : R), ∀ a ∈ l, ∃ r', (f a).foldl step (state before r) = state (before ++ [a]) r')
    (before : List A) (r : R) : ∃ r', (l.flatMap f).foldl step (state before r) = state (before ++ l) r' := by
  induction l generalizing before r with
  | nil => exact ⟨r, by rw [List.append_nil]; rfl⟩
  | cons a l ih =>
    obtain ⟨r₁, h₁⟩ := h before r a List.mem_cons_self
    obtain ⟨r₂, h₂⟩ := ih (fun before r b hb => h before r b (List.mem_cons_of_mem _ hb)) (before ++ [a]) r₁
    refine ⟨r₂, ?_⟩
    rw [List.flatMap_cons, List.foldl_append, h₁, h₂, List.append_assoc, List.singleton_append]

/-- How many maximal constant runs a list has. -/
def constantRuns [DecidableEq A] : List A → Nat
  | [] => 0
  | [_] => 1
  | a :: b :: l => (if a = b then 0 else 1) + constantRuns (b :: l)

example : constantRuns [1, 1, 2, 2, 2, 1] = 3 := by decide

/-- An entry at the end starts a run unless it is the last one again. -/
theorem constantRuns_snoc [DecidableEq A] (l : List A) (b : A) :
    constantRuns (l ++ [b]) = constantRuns l + if l.getLast? = some b then 0 else 1 := by
  induction l with
  | nil => rfl
  | cons a l ih =>
    cases l with
    | nil =>
      by_cases h : a = b
      · simp [constantRuns, h]
      · simp [constantRuns, h]
    | cons c l =>
      rw [List.cons_append, List.cons_append, constantRuns, ← List.cons_append, ih, constantRuns,
        List.getLast?_cons_cons, Nat.add_assoc]

/-- A weaker test that lets no more entries pass is the same test. -/
theorem of_length_filter_eq {p q : A → Bool} {l : List A} (hpq : ∀ a ∈ l, p a = true → q a = true)
    (h : (l.filter q).length = (l.filter p).length) : ∀ a ∈ l, q a = true → p a = true := by
  have hp : l.filter p = (l.filter q).filter p := by
    rw [List.filter_filter]
    refine List.filter_congr fun a ha => ?_
    cases hpa : p a with
    | false => rfl
    | true => simp [hpq a ha hpa]
  rw [hp, eq_comm, List.length_filter_eq_length_iff] at h
  intro a ha hq
  exact h a (List.mem_filter.mpr ⟨ha, hq⟩)

/-- An entry that no other passes for is found. -/
theorem find?_eq_some_of_unique {p : A → Bool} {l : List A} {a : A} (ha : a ∈ l) (hp : p a = true)
    (hu : ∀ b ∈ l, p b = true → b = a) : l.find? p = some a := by
  cases hf : l.find? p with
  | none => exact absurd hp (List.find?_eq_none.mp hf a ha)
  | some b => rw [hu b (List.mem_of_find?_eq_some hf) (List.find?_some hf)]

end OV
