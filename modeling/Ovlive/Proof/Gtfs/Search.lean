import Ovlive.Framework.Lists
import Ovlive.Framework.Sorted
import Ovlive.Impl.Gtfs.Search
import Ovlive.Proof.Gtfs.Grid

/-!
# What a search finds

The names of the first pass are the `Nearest` of the names that match, by
`nameRank` (`nearest_keep`), and the second pass has every quay of these names, in
the order of `stopRank` (`search_eq`). Both depend on what the store has and not on
the order of its map (`search_congr`).
-/

namespace OV.Impl

/-- The boardable quays of a store. -/
def GtfsStore.boardable (store : GtfsStore) : Set StopInfo :=
  {stop | store.stops.lookup stop.stopId = some stop ∧ stop.isQuay = true}

namespace StopNames

variable (lower : String → String) (store : GtfsStore) (q : String)

/-- The names of quays that contain a query. -/
def matching : Set String := {n | (∃ s ∈ store.boardable, s.name = n) ∧ Text.contains (lower n).toList q.toList = true}

/-- The order of the names: those that start with the query first. -/
def nameRank (n : String) : Bool ×ₗ String := toLex (notPrefix q (lower n), n)

/-- The order of the stops: that of their names, then of their ids. -/
def stopRank (s : StopInfo) : Bool ×ₗ String ×ₗ String := toLex (notPrefix q (lower s.name), toLex (s.name, s.stopId))

variable {lower store q} {limit : Nat}

theorem nameRank_injective : Function.Injective (nameRank lower q) := by
  intro n n' h
  exact (Prod.mk.inj (toLex_inj.mp h)).2

/-- Stops in order have their names in order. -/
theorem nameRank_le {s t : StopInfo} (h : stopRank lower q s ≤ stopRank lower q t) :
    nameRank lower q s.name ≤ nameRank lower q t.name := by
  rw [stopRank, stopRank, Prod.Lex.toLex_le_toLex] at h
  rw [nameRank, nameRank, Prod.Lex.toLex_le_toLex]
  refine h.imp_right fun ⟨heq, hle⟩ => ⟨heq, ?_⟩
  rw [Prod.Lex.toLex_le_toLex] at hle
  exact hle.elim le_of_lt fun hle => hle.1.le

/-! ## The slots -/

/-- The quays of a store, in the order of its map. -/
def quays (store : GtfsStore) : List StopInfo := (Map.values store.stops).filter StopInfo.isQuay

theorem build_eq (lower : String → String) (store : GtfsStore) :
    (build lower store).store = store ∧
      (build lower store).stopSlots = (quays store).map fun s => (s.stopId, lower s.name) := by
  have hall : ∀ stops : List StopInfo,
      stops.foldl (add lower) { store := store } =
        { store := store
          stopSlots := (stops.filter StopInfo.isQuay).map fun s => (s.stopId, lower s.name) } := by
    intro stops
    induction stops using List.reverseRecOn with
    | nil => rfl
    | append_singleton stops stop ih =>
      rw [List.foldl_append, ih, List.foldl_cons, List.foldl_nil, add, List.filter_append, List.map_append]
      cases hq : stop.isQuay <;> simp [hq]
  rw [build, hall]
  exact ⟨rfl, rfl⟩

theorem mem_quays (hk : store.StopsKeyed) {s : StopInfo} : s ∈ quays store ↔ s ∈ store.boardable := by
  rw [quays, List.mem_filter, Map.mem_values]
  constructor
  · rintro ⟨⟨id, hid⟩, hq⟩
    exact ⟨(hk id s hid).symm ▸ hid, hq⟩
  · rintro ⟨hs, hq⟩
    exact ⟨⟨_, hs⟩, hq⟩

theorem nodup_quays (hk : store.StopsKeyed) : ((quays store).map StopInfo.stopId).Nodup :=
  (Map.nodup_map_values hk).sublist (List.filter_sublist.map _)

/-! ## The names -/

/-- The names of the first pass after some quays: those that match, each once and
with its rank. -/
structure Named (lower : String → String) (q : String) (l : List StopInfo) (names : List (Bool × String)) : Prop where
  nodup : (names.map Prod.snd).Nodup
  mem : ∀ n, n ∈ names.map Prod.snd ↔ (∃ s ∈ l, s.name = n) ∧ Text.contains (lower n).toList q.toList = true
  ranked : ∀ p ∈ names, p.1 = notPrefix q (lower p.2)

theorem Named.addName {l : List StopInfo} {names : List (Bool × String)} (h : Named lower q l names) {s : StopInfo}
    {idx : StopNames} (hs : idx.store.stops.lookup s.stopId = some s) :
    Named lower q (l ++ [s]) (idx.addName q names (s.stopId, lower s.name)) := by
  have hmem : ∀ n, (∃ t ∈ l ++ [s], t.name = n) ↔ (∃ t ∈ l, t.name = n) ∨ s.name = n := by
    intro n
    simp only [List.mem_append, List.mem_singleton, or_and_right, exists_or, exists_eq_left]
  unfold StopNames.addName
  rw [hs]
  split
  · rename_i hno
    refine ⟨h.nodup, fun n => ?_, h.ranked⟩
    rw [h.mem, hmem]
    refine ⟨fun ⟨hn, hc⟩ => ⟨.inl hn, hc⟩, fun ⟨hn, hc⟩ => ⟨hn.resolve_right ?_, hc⟩⟩
    rintro rfl
    rw [Bool.not_eq_true', hc] at hno
    cases hno
  · rename_i hyes
    have hyes : Text.contains (lower s.name).toList q.toList = true := by simpa using hyes
    simp only
    split
    · rename_i hseen
      refine ⟨h.nodup, fun n => ?_, h.ranked⟩
      rw [h.mem, hmem]
      refine ⟨fun ⟨hn, hc⟩ => ⟨.inl hn, hc⟩, fun ⟨hn, hc⟩ => ⟨hn.elim id ?_, hc⟩⟩
      rintro rfl
      exact ((h.mem s.name).mp hseen).1
    · rename_i hnew
      refine ⟨?_, fun n => ?_, fun p hp => ?_⟩
      · rw [List.map_append, List.nodup_append]
        refine ⟨h.nodup, List.nodup_singleton _, fun a ha b hb he => hnew ?_⟩
        rw [he, List.mem_singleton.mp hb] at ha
        exact ha
      · rw [List.map_append, List.mem_append, h.mem, hmem]
        simp only [List.map_cons, List.map_nil, List.mem_singleton]
        constructor
        · rintro (⟨hn, hc⟩ | rfl)
          · exact ⟨.inl hn, hc⟩
          · exact ⟨.inr rfl, hyes⟩
        · rintro ⟨hn | rfl, hc⟩
          · exact .inl ⟨hn, hc⟩
          · exact .inr rfl
      · rcases List.mem_append.mp hp with hp | hp
        · exact h.ranked p hp
        · rw [List.mem_singleton.mp hp]

theorem named_foldl {idx : StopNames} {l : List StopInfo} (hl : ∀ s ∈ l, idx.store.stops.lookup s.stopId = some s) :
    Named lower q l ((l.map fun s => (s.stopId, lower s.name)).foldl (idx.addName q) []) := by
  induction l using List.reverseRecOn with
  | nil => exact ⟨.nil, fun n => by simp, fun p hp => absurd hp List.not_mem_nil⟩
  | append_singleton l s ih =>
    rw [List.map_append, List.foldl_append]
    exact (ih fun t ht => hl t (List.mem_append_left _ ht)).addName
      (hl s (List.mem_append_right _ (List.mem_singleton_self s)))

/-- The names kept are the first of those that match. -/
theorem nearest_keep (hk : store.StopsKeyed) (lower : String → String) (q : String) (limit : Nat) :
    Nearest (nameRank lower q) (matching lower store q) limit ((build lower store).keep q limit) := by
  obtain ⟨hstore, hslots⟩ := build_eq lower store
  have hnamed : Named lower q (quays store) ((build lower store).stopSlots.foldl ((build lower store).addName q) []) := by
    rw [hslots]
    refine named_foldl fun s hs => ?_
    rw [hstore]
    exact ((mem_quays hk).mp hs).1
  set names := (build lower store).stopSlots.foldl ((build lower store).addName q) []
  have hperm := List.perm_insertionSort (fun a b : Bool × String => toLex a ≤ toLex b) names
  have : IsTrans (Bool × String) fun a b => toLex a ≤ toLex b := ⟨fun _ _ _ => le_trans⟩
  have : Std.Total fun a b : Bool × String => toLex a ≤ toLex b := ⟨fun _ _ => le_total _ _⟩
  have hsorted := List.pairwise_insertionSort (fun a b : Bool × String => toLex a ≤ toLex b) names
  rw [keep, List.map_take]
  refine nearest_take (fun n => ?_) ((hperm.map _).nodup_iff.mpr hnamed.nodup) ?_ limit
  · rw [(hperm.map Prod.snd).mem_iff, hnamed.mem]
    simp only [mem_quays hk]
    exact Iff.rfl
  · rw [List.pairwise_map]
    refine hsorted.imp_of_mem fun {p r} hp hr hle => ?_
    have hp := hnamed.ranked p (hperm.mem_iff.mp hp)
    have hr := hnamed.ranked r (hperm.mem_iff.mp hr)
    rw [nameRank, nameRank, ← hp, ← hr]
    exact hle

/-! ## The stops -/

/-- The lowercased query of a search. -/
def lowered (lower : String → String) (query : String) : String := lower (String.ofList (Text.trim query.toList))

/-- A search has the quays whose name is kept, sorted. -/
theorem search_eq (hk : store.StopsKeyed) (lower : String → String) {query : String} (hq : lowered lower query ≠ "")
    (limit : Nat) :
    (build lower store).search lower query limit =
      ((quays store).filter fun s => s.name ∈ (build lower store).keep (lowered lower query) limit).insertionSort
        fun s t => stopRank lower (lowered lower query) s ≤ stopRank lower (lowered lower query) t := by
  obtain ⟨hstore, hslots⟩ := build_eq lower store
  set q := lowered lower query with hqdef
  have hhits : (build lower store).stopSlots.filterMap ((build lower store).hit q ((build lower store).keep q limit)) =
      ((quays store).filter fun s => s.name ∈ (build lower store).keep q limit).map fun s =>
        (stopRank lower q s, s) := by
    rw [hslots, List.filterMap_map, ← List.filterMap_eq_map, List.filterMap_filter]
    refine List.filterMap_congr fun s hs => ?_
    simp only [Function.comp_apply, hit, hstore, ((mem_quays hk).mp hs).1, decide_eq_true_eq]
    rfl
  have hsort (l : List StopInfo) : ((l.map fun s => (stopRank lower q s, s)).insertionSort fun a b => a.1 ≤ b.1) =
      (l.insertionSort fun s t => stopRank lower q s ≤ stopRank lower q t).map fun s => (stopRank lower q s, s) := by
    symm
    apply List.map_insertionSort
    exact fun _ _ _ _ => Iff.rfl
  have hempty : q.isEmpty = false := by simpa using hq
  unfold search
  rw [show lower (String.ofList (Text.trim query.toList)) = q from rfl]
  simp only [hempty, Bool.false_eq_true, if_false, hhits, hsort, List.map_map]
  exact List.map_id _

/-- What a search answers: all the quays of the first names that match, in order. -/
structure Answers (lower : String → String) (store : GtfsStore) (q : String) (limit : Nat) (names : List String)
    (stops : List StopInfo) : Prop where
  first : Nearest (nameRank lower q) (matching lower store q) limit names
  ascending : stops.Pairwise fun s t => stopRank lower q s < stopRank lower q t
  mem : ∀ s, s ∈ stops ↔ s ∈ store.boardable ∧ s.name ∈ names

theorem answers_search (hk : store.StopsKeyed) (lower : String → String) {query : String} (hq : lowered lower query ≠ "")
    (limit : Nat) :
    Answers lower store (lowered lower query) limit ((build lower store).keep (lowered lower query) limit)
      ((build lower store).search lower query limit) := by
  rw [search_eq hk lower hq]
  set q := lowered lower query
  set l := (quays store).filter fun s => s.name ∈ (build lower store).keep q limit
  have hperm := List.perm_insertionSort (fun s t => stopRank lower q s ≤ stopRank lower q t) l
  have : IsTrans StopInfo fun s t => stopRank lower q s ≤ stopRank lower q t := ⟨fun _ _ _ => le_trans⟩
  have : Std.Total fun s t => stopRank lower q s ≤ stopRank lower q t := ⟨fun _ _ => le_total _ _⟩
  have hids : (l.map StopInfo.stopId).Nodup := (nodup_quays hk).sublist (List.filter_sublist.map _)
  have hdistinct := List.pairwise_map.mp ((hperm.map StopInfo.stopId).nodup_iff.mpr hids)
  refine ⟨nearest_keep hk lower q limit, ?_, fun s => ?_⟩
  · refine ((List.pairwise_insertionSort _ l).and hdistinct).imp fun {s t} hst => lt_of_le_of_ne hst.1 fun he => hst.2 ?_
    exact (Prod.mk.inj (toLex_inj.mp (Prod.mk.inj (toLex_inj.mp he)).2)).2
  · rw [hperm.mem_iff, List.mem_filter, mem_quays hk, decide_eq_true_eq]

/-- There is one answer, whatever the order of the map. -/
theorem Answers.unique {names names' : List String} {stops stops' : List StopInfo} {store' : GtfsStore}
    (hsame : ∀ id, store'.stops.lookup id = store.stops.lookup id) (h : Answers lower store q limit names stops)
    (h' : Answers lower store' q limit names' stops') : names' = names ∧ stops' = stops := by
  have hboard : store'.boardable = store.boardable := by
    unfold GtfsStore.boardable
    simp only [hsame]
  have hmatching : matching lower store' q = matching lower store q := by
    unfold matching
    rw [hboard]
  have hnames : names' = names := by
    have h1 := h'.first
    rw [hmatching] at h1
    exact h1.unique nameRank_injective h.first
  have : Std.Irrefl fun s t => stopRank lower q s < stopRank lower q t := ⟨fun _ => lt_irrefl _⟩
  have : Std.Asymm fun s t => stopRank lower q s < stopRank lower q t := ⟨fun _ _ h => lt_asymm h⟩
  refine ⟨hnames, h'.ascending.eq_of_mem_iff h.ascending fun s => ?_⟩
  rw [h'.mem, h.mem, hnames, hboard]

end StopNames

end OV.Impl
