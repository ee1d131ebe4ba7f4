import Mathlib.Data.List.Induction
import Mathlib.Data.List.Nodup
import Mathlib.Order.Lattice

/-!
# The first of the least

`least key l` is what a loop keeps that replaces its best entry only by one with
a smaller key: the first of the entries with the least key. `least_eq_some_iff`
says where it is; without two equal keys the order of the list does not matter
(`least_perm`), and on an ascending list the least of some entries is the first
of them (`find?_eq_least`), and the greatest the last (`getLast?_eq_greatest`).
-/

namespace OV

variable {A K : Type} [LinearOrder K] {key : A → K} {l : List A} {a : A}

/-- One step of the loop. -/
def leastStep (key : A → K) (best : Option A) (a : A) : Option A :=
  match best with
  | none => some a
  | some b => if key a < key b then some a else some b

/-- The first of the entries with the least key. -/
def least (key : A → K) (l : List A) : Option A := l.foldl (leastStep key) none

@[simp] theorem least_nil (key : A → K) : least key [] = none := rfl

theorem least_snoc (key : A → K) (l : List A) (a : A) : least key (l ++ [a]) = leastStep key (least key l) a := by
  rw [least, List.foldl_append]
  rfl

theorem leastStep_ne_none (key : A → K) (best : Option A) (a : A) : leastStep key best a ≠ none := by
  cases best with
  | none => exact Option.some_ne_none a
  | some b =>
    simp only [leastStep]
    split <;> exact Option.some_ne_none _

theorem least_eq_none_iff : least key l = none ↔ l = [] := by
  cases l using List.reverseRecOn with
  | nil => exact iff_of_true rfl rfl
  | append_singleton l a =>
    rw [least_snoc]
    exact iff_of_false (leastStep_ne_none _ _ _) (by simp)

/-- The least is where those before it have larger keys, and those after it no
smaller ones. -/
theorem split_of_least (h : least key l = some a) :
    ∃ l₁ l₂, l = l₁ ++ a :: l₂ ∧ (∀ b ∈ l₁, key a < key b) ∧ ∀ b ∈ l₂, key a ≤ key b := by
  induction l using List.reverseRecOn generalizing a with
  | nil => cases h
  | append_singleton l c ih =>
    rw [least_snoc] at h
    cases hl : least key l with
    | none =>
      rw [hl] at h
      obtain rfl := Option.some.inj h
      rw [least_eq_none_iff.mp hl]
      exact ⟨[], [], rfl, fun _ hb => absurd hb List.not_mem_nil, fun _ hb => absurd hb List.not_mem_nil⟩
    | some b =>
      obtain ⟨l₁, l₂, rfl, h1, h2⟩ := ih hl
      rw [hl] at h
      simp only [leastStep] at h
      split at h
      · rename_i hlt
        obtain rfl := Option.some.inj h
        refine ⟨l₁ ++ b :: l₂, [], rfl, fun d hd => ?_, fun _ hb => absurd hb List.not_mem_nil⟩
        rcases List.mem_append.mp hd with hd | hd
        · exact lt_trans hlt (h1 d hd)
        · rcases List.mem_cons.mp hd with rfl | hd
          · exact hlt
          · exact lt_of_lt_of_le hlt (h2 d hd)
      · rename_i hle
        obtain rfl := Option.some.inj h
        refine ⟨l₁, l₂ ++ [c], by simp, h1, fun d hd => ?_⟩
        rcases List.mem_append.mp hd with hd | hd
        · exact h2 d hd
        · rw [List.mem_singleton.mp hd]
          exact not_lt.mp hle

theorem least_eq_some_iff :
    least key l = some a ↔
      ∃ l₁ l₂, l = l₁ ++ a :: l₂ ∧ (∀ b ∈ l₁, key a < key b) ∧ ∀ b ∈ l₂, key a ≤ key b := by
  refine ⟨split_of_least, ?_⟩
  rintro ⟨l₁, l₂, rfl, h1, h2⟩
  induction l₂ using List.reverseRecOn with
  | nil =>
    rw [least_snoc]
    cases hl : least key l₁ with
    | none => rfl
    | some b =>
      obtain ⟨m₁, m₂, rfl, -, -⟩ := split_of_least hl
      exact if_pos (h1 b (List.mem_append_right _ List.mem_cons_self))
  | append_singleton l₂ c ih =>
    rw [← List.cons_append, ← List.append_assoc, least_snoc, ih fun b hb => h2 b (List.mem_append_left _ hb)]
    exact if_neg (not_lt.mpr (h2 c (List.mem_append_right _ (List.mem_singleton_self c))))

theorem mem_of_least (h : least key l = some a) : a ∈ l := by
  obtain ⟨l₁, l₂, rfl, -, -⟩ := split_of_least h
  exact List.mem_append_right _ List.mem_cons_self

theorem le_of_least (h : least key l = some a) : ∀ b ∈ l, key a ≤ key b := by
  obtain ⟨l₁, l₂, rfl, h1, h2⟩ := split_of_least h
  intro b hb
  rcases List.mem_append.mp hb with hb | hb
  · exact le_of_lt (h1 b hb)
  · rcases List.mem_cons.mp hb with rfl | hb
    · exact le_refl _
    · exact h2 b hb

/-- Without equal keys, an entry that is no larger than the others is the least. -/
theorem least_of_nodup (hn : (l.map key).Nodup) (ha : a ∈ l) (h : ∀ b ∈ l, key a ≤ key b) : least key l = some a := by
  cases hl : least key l with
  | none =>
    rw [least_eq_none_iff.mp hl] at ha
    cases ha
  | some b =>
    have hkey : key b = key a := le_antisymm (le_of_least hl a ha) (h b (mem_of_least hl))
    rw [List.inj_on_of_nodup_map hn (mem_of_least hl) ha hkey]

theorem least_perm {l' : List A} (hn : (l.map key).Nodup) (hp : l.Perm l') : least key l' = least key l := by
  cases hl : least key l with
  | none =>
    rw [least_eq_none_iff.mp hl] at hp
    rw [List.nil_perm.mp hp]
    rfl
  | some a =>
    refine least_of_nodup ((hp.map key).nodup_iff.mp hn) (hp.mem_iff.mp (mem_of_least hl)) fun b hb => ?_
    exact le_of_least hl b (hp.mem_iff.mpr hb)

theorem least_map {B : Type} (f : B → A) (l : List B) :
    least key (l.map f) = (least (fun b => key (f b)) l).map f := by
  induction l using List.reverseRecOn with
  | nil => rfl
  | append_singleton l b ih =>
    rw [List.map_append, List.map_singleton, least_snoc, least_snoc, ih]
    cases least (fun b => key (f b)) l with
    | none => rfl
    | some c =>
      simp only [leastStep, Option.map_some]
      split <;> rfl

/-- The first of the entries with the greatest key. -/
def greatest (key : A → K) (l : List A) : Option A := least (fun a => OrderDual.toDual (key a)) l

omit [LinearOrder K] in
theorem nodup_map_toDual (hn : (l.map key).Nodup) : (l.map fun a => OrderDual.toDual (key a)).Nodup := by
  have hmap := hn.map OrderDual.toDual.injective
  rwa [List.map_map] at hmap

theorem mem_of_greatest (h : greatest key l = some a) : a ∈ l := mem_of_least h

theorem greatest_map {B : Type} (f : B → A) (l : List B) :
    greatest key (l.map f) = (greatest (fun b => key (f b)) l).map f :=
  least_map f l

theorem greatest_perm {l' : List A} (hn : (l.map key).Nodup) (hp : l.Perm l') : greatest key l' = greatest key l :=
  least_perm (nodup_map_toDual hn) hp

/-- Of some entries of an ascending list, the least is the first. -/
theorem find?_eq_least {p : A → Bool} {sorted : List A} (hs : sorted.Pairwise fun a b => key a ≤ key b)
    (hp : sorted.Perm l) (hn : (l.map key).Nodup) : sorted.find? p = least key (l.filter p) := by
  cases hf : sorted.find? p with
  | none =>
    have hnil : l.filter p = [] := by
      rw [List.filter_eq_nil_iff]
      exact fun a ha => List.find?_eq_none.mp hf a (hp.mem_iff.mpr ha)
    rw [hnil, least_nil]
  | some a =>
    obtain ⟨hpa, before, after, rfl, hbefore⟩ := List.find?_eq_some_iff_append.mp hf
    have ha : a ∈ l := hp.mem_iff.mp (List.mem_append_right _ List.mem_cons_self)
    have hnf : ((l.filter p).map key).Nodup := hn.sublist (List.filter_sublist.map key)
    refine (least_of_nodup hnf (List.mem_filter.mpr ⟨ha, hpa⟩) fun b hb => ?_).symm
    obtain ⟨hbl, hpb⟩ := List.mem_filter.mp hb
    -- an entry before the first does not pass, one after it has no smaller key
    rcases List.mem_append.mp (hp.mem_iff.mpr hbl) with hb | hb
    · have hno := hbefore b hb
      rw [hpb] at hno
      cases hno
    · rcases List.mem_cons.mp hb with rfl | hb
      · exact le_refl _
      · exact List.rel_of_pairwise_cons (List.pairwise_append.mp hs).2.1 hb

/-- The greatest entry of an ascending list is the last. -/
theorem getLast?_eq_greatest {sorted : List A} (hs : sorted.Pairwise fun a b => key a ≤ key b) (hp : sorted.Perm l)
    (hn : (l.map key).Nodup) : sorted.getLast? = greatest key l := by
  cases sorted using List.reverseRecOn with
  | nil =>
    rw [List.nil_perm.mp hp]
    rfl
  | append_singleton before a =>
    rw [List.getLast?_concat]
    refine (least_of_nodup (nodup_map_toDual hn) (hp.mem_iff.mp (List.mem_append_right _ (List.mem_singleton_self a)))
      fun b hb => ?_).symm
    rcases List.mem_append.mp (hp.mem_iff.mpr hb) with hb | hb
    · exact (List.pairwise_append.mp hs).2.2 b hb a (List.mem_singleton_self a)
    · rw [List.mem_singleton.mp hb]

end OV
