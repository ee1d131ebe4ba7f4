import Mathlib.Data.Int.Order.Basic
import Mathlib.Data.List.Sort
import Mathlib.Data.Set.Card

/-!
# Sorting and searching by a key

`SortBy key` is a sort that promises no order between equal keys: what it
returns is a permutation in ascending order, and a theorem about every such
sort is about every order it may leave: any entry may come before the others of
its key (`SortBy.first`). Without equal keys there is one order
(`insertionSort_eq_of_perm`). On an ascending list the entries from
`partitionPoint` on, while they stay below a bound, are those of the window
(`takeWhile_drop_partitionPoint`), and its first entries are the `Nearest`
(`nearest_take`).
-/

namespace OV

variable {A : Type}

/-- An unstable sort by an integer key. -/
structure SortBy (key : A → Int) where
  sort : List A → List A
  perm : ∀ l, (sort l).Perm l
  ascending : ∀ l, (sort l).Pairwise fun a b => key a ≤ key b

/-- Insertion sort is one. -/
def SortBy.insertion (key : A → Int) : SortBy key where
  sort := List.insertionSort fun a b => key a ≤ key b
  perm := List.perm_insertionSort _
  ascending l := by
    have : IsTrans A fun a b => key a ≤ key b := ⟨fun _ _ _ => Int.le_trans⟩
    have : Std.Total fun a b : A => key a ≤ key b := ⟨fun _ _ => Int.le_total _ _⟩
    exact List.pairwise_insertionSort _ l

open Classical in
/-- A sort that leaves an entry before the others of its key. -/
noncomputable def SortBy.first (key : A → Int) (a : A) : SortBy key where
  sort l :=
    let others := (SortBy.insertion key).sort (l.erase a)
    if a ∈ l then others.filter (key · < key a) ++ a :: others.filter fun b => !decide (key b < key a)
    else (SortBy.insertion key).sort l
  perm l := by
    split
    · rename_i ha
      have hsplit := List.filter_append_perm (key · < key a) ((SortBy.insertion key).sort (l.erase a))
      exact (List.perm_middle.trans ((hsplit.trans ((SortBy.insertion key).perm _)).cons a)).trans
        (List.perm_cons_erase ha).symm
    · exact (SortBy.insertion key).perm l
  ascending l := by
    have hothers := (SortBy.insertion key).ascending (l.erase a)
    split
    · refine List.pairwise_append.mpr ⟨hothers.filter _, List.pairwise_cons.mpr ⟨fun b hb => ?_, hothers.filter _⟩, ?_⟩
      · simpa using (List.mem_filter.mp hb).2
      · intro b hb c hc
        have hlt : key b < key a := by simpa using (List.mem_filter.mp hb).2
        rcases List.mem_cons.mp hc with rfl | hc
        · exact hlt.le
        · exact hlt.le.trans (by simpa using (List.mem_filter.mp hc).2)
    · exact (SortBy.insertion key).ascending l

theorem SortBy.sort_first (key : A → Int) {a : A} {l : List A} (ha : a ∈ l) :
    ∃ before after, (SortBy.first key a).sort l = before ++ a :: after ∧ ∀ b ∈ before, key b < key a := by
  refine ⟨_, _, if_pos ha, fun b hb => ?_⟩
  simpa using (List.mem_filter.mp hb).2

/-- Among the first entries of an ascending list, one has few of a lesser key. -/
theorem length_filter_lt_of_mem_take {key : A → Int} {l : List A} (h : l.Pairwise fun a b => key a ≤ key b) {a : A}
    {n : Nat} (ha : a ∈ l.take n) : (l.filter fun b => key b < key a).length < n := by
  have hnone : (l.drop n).filter (fun b => key b < key a) = [] := by
    rw [← List.take_append_drop n l, List.pairwise_append] at h
    exact List.filter_eq_nil_iff.mpr fun b hb => by simpa using h.2.2 a ha b hb
  have hself : (l.take n).filter (fun b => key b < key a) ≠ l.take n := fun he => by
    simpa using List.filter_eq_self.mp he a ha
  calc (l.filter fun b => key b < key a).length = ((l.take n).filter fun b => key b < key a).length := by
        conv_lhs => rw [← List.take_append_drop n l, List.filter_append, hnone, List.append_nil]
    _ < (l.take n).length := lt_of_le_of_ne (List.length_filter_le _ _) fun he =>
        hself (List.filter_sublist.eq_of_length he)
    _ ≤ n := List.length_take_le _ _

/-- Without equal keys the order before the sort does not matter. -/
theorem insertionSort_eq_of_perm {K : Type} [LinearOrder K] {key : A → K} {l l' : List A} (hn : (l.map key).Nodup)
    (hp : l.Perm l') :
    l.insertionSort (fun a b => key a ≤ key b) = l'.insertionSort fun a b => key a ≤ key b := by
  have : IsTrans A fun a b => key a ≤ key b := ⟨fun _ _ _ => le_trans⟩
  have : Std.Total fun a b : A => key a ≤ key b := ⟨fun _ _ => le_total _ _⟩
  have hperm := List.perm_insertionSort (fun a b => key a ≤ key b) l
  refine List.Perm.eq_of_pairwise (fun a b ha hb hab hba => ?_) (List.pairwise_insertionSort _ l)
    (List.pairwise_insertionSort _ l') (hperm.trans (hp.trans (List.perm_insertionSort _ l').symm))
  have hb' := hp.mem_iff.mpr ((List.perm_insertionSort _ l').mem_iff.mp hb)
  exact List.inj_on_of_nodup_map hn (hperm.mem_iff.mp ha) hb' (le_antisymm hab hba)

/-- `partition_point` of a list whose entries with `p` come first: where the
others start. -/
def partitionPoint (p : A → Bool) (l : List A) : Nat := l.findIdx fun a => !p a

/-- On an ascending list, the entries up to a bound come first. -/
theorem takeWhile_eq_filter {key : A → Int} {l : List A} (h : l.Pairwise fun a b => key a ≤ key b) (hi : Int) :
    l.takeWhile (fun a => key a ≤ hi) = l.filter fun a => key a ≤ hi := by
  induction l with
  | nil => rfl
  | cons a l ih =>
    rw [List.pairwise_cons] at h
    by_cases ha : key a ≤ hi
    · rw [List.takeWhile_cons_of_pos (by simpa using ha), List.filter_cons_of_pos (by simpa using ha), ih h.2]
    · have hl : ∀ b ∈ l, ¬ key b ≤ hi := fun b hb hbi => ha ((h.1 b hb).trans hbi)
      rw [List.takeWhile_cons_of_neg (by simpa using ha), List.filter_cons_of_neg (by simpa using ha), eq_comm,
        List.filter_eq_nil_iff]
      simpa using hl

/-- The entries from the first with a key of `lo` or more, up to the last of
`hi` or less, are those of the window. -/
theorem takeWhile_drop_partitionPoint {key : A → Int} {l : List A} (h : l.Pairwise fun a b => key a ≤ key b)
    (lo hi : Int) :
    (l.drop (partitionPoint (fun a => key a < lo) l)).takeWhile (fun a => key a ≤ hi) =
      l.filter fun a => lo ≤ key a && key a ≤ hi := by
  induction l with
  | nil => rfl
  | cons a l ih =>
    rw [List.pairwise_cons] at h
    by_cases hlo : key a < lo
    · have hp : partitionPoint (fun a => key a < lo) (a :: l) = partitionPoint (fun a => key a < lo) l + 1 := by
        simp [partitionPoint, List.findIdx_cons, hlo]
      rw [hp, List.drop_succ_cons, ih h.2, List.filter_cons_of_neg (by simp [hlo])]
    · have hp : partitionPoint (fun a => key a < lo) (a :: l) = 0 := by
        simp [partitionPoint, List.findIdx_cons, hlo]
      have hge : ∀ b ∈ a :: l, lo ≤ key b := by
        intro b hb
        rcases List.mem_cons.mp hb with rfl | hb
        · exact not_lt.mp hlo
        · exact (not_lt.mp hlo).trans (h.1 b hb)
      rw [hp, List.drop_zero, takeWhile_eq_filter (List.pairwise_cons.mpr h)]
      exact List.filter_congr fun b hb => by simp [hge b hb]

/-- Up to `n` elements of a set, those of the least keys first. -/
structure Nearest {K : Type} [LinearOrder K] (key : A → K) (s : Set A) (n : Nat) (res : List A) : Prop where
  length : res.length = min n s.ncard
  nodup : res.Nodup
  mem : ∀ a ∈ res, a ∈ s
  ascending : res.Pairwise fun a b => key a ≤ key b
  nearest : ∀ a ∈ res, ∀ b ∈ s, b ∉ res → key a ≤ key b

/-- Without equal keys there is one such list. -/
theorem Nearest.unique {K : Type} [LinearOrder K] {key : A → K} {s : Set A} {n : Nat} {res res' : List A}
    (hkey : Function.Injective key) (h : Nearest key s n res) (h' : Nearest key s n res') : res = res' := by
  classical
  have hsub : ∀ {res res' : List A}, Nearest key s n res → Nearest key s n res' → res ⊆ res' := by
    intro res res' h h' a ha
    by_contra hnot
    -- `res'` is no shorter, so it has an element that `res` lacks
    obtain ⟨b, hb, hbnot⟩ : ∃ b ∈ res', b ∉ res := by
      by_contra hall
      simp only [not_exists, not_and, not_not] at hall
      have hsub : (res'.toFinset ⊂ res.toFinset) := by
        refine Finset.ssubset_iff_subset_ne.mpr ⟨fun b hb => ?_, fun he => hnot ?_⟩
        · exact List.mem_toFinset.mpr (hall b (List.mem_toFinset.mp hb))
        · rw [← List.mem_toFinset, he]
          exact List.mem_toFinset.mpr ha
      have hlt := Finset.card_lt_card hsub
      rw [List.toFinset_card_of_nodup h.nodup, List.toFinset_card_of_nodup h'.nodup, h.length, h'.length] at hlt
      exact lt_irrefl _ hlt
    have hab := h.nearest a ha b (h'.mem b hb) hbnot
    have hba := h'.nearest b hb a (h.mem a ha) hnot
    exact hbnot (hkey (le_antisymm hab hba) ▸ ha)
  have hperm : res.Perm res' :=
    (List.perm_ext_iff_of_nodup h.nodup h'.nodup).mpr fun a => ⟨@hsub _ _ h h' a, @hsub _ _ h' h a⟩
  exact List.Perm.eq_of_pairwise (fun a b _ _ hab hba => hkey (le_antisymm hab hba)) h.ascending h'.ascending hperm

/-- The first entries of a sorted list without duplicates. -/
theorem nearest_take {K : Type} [LinearOrder K] {key : A → K} {s : Set A} {l : List A} (hmem : ∀ a, a ∈ l ↔ a ∈ s)
    (hn : l.Nodup) (h : l.Pairwise fun a b => key a ≤ key b) (n : Nat) : Nearest key s n (l.take n) := by
  classical
  have hcard : s.ncard = l.length := by
    have hs : s = (l.toFinset : Set A) := Set.ext fun a => by simp [hmem]
    rw [hs, Set.ncard_coe_finset, List.toFinset_card_of_nodup hn]
  refine ⟨by rw [List.length_take, hcard], hn.sublist (List.take_sublist _ _), ?_, h.sublist (List.take_sublist _ _), ?_⟩
  · intro a ha
    exact (hmem a).mp (List.mem_of_mem_take ha)
  · intro a ha b hb hnot
    rw [← List.take_append_drop n l, List.pairwise_append] at h
    have hsplit : b ∈ l.take n ++ l.drop n := by
      rw [List.take_append_drop]
      exact (hmem b).mpr hb
    exact h.2.2 a ha b ((List.mem_append.mp hsplit).resolve_left hnot)

end OV
