import Ovlive.Impl.Api.StopSearch
import Ovlive.Proof.Gtfs.Search
import Ovlive.Proof.Gtfs.Stops

/-!
# The groups of the stop search

Adding stops one after the other groups them by name, in the order in which the
names first occur (`foldl_addStop`). As the stops of a search are in order, these
are the names it kept: `stopsSearch_groups`.
-/

namespace OV.Impl

/-- The group of a name. -/
def groupOf (l : List StopInfo) (n : String) : StopSearchResult where
  stopName := n
  stops := (l.filter fun s => s.name = n).map StopSearchStop.from_

@[simp] theorem groupOf_stopName (l : List StopInfo) (n : String) : (groupOf l n).stopName = n := rfl

theorem groupOf_snoc_of_ne (l : List StopInfo) {s : StopInfo} {n : String} (h : s.name ≠ n) :
    groupOf (l ++ [s]) n = groupOf l n := by
  simp [groupOf, h]

theorem groupOf_snoc (l : List StopInfo) (s : StopInfo) :
    groupOf (l ++ [s]) s.name =
      { stopName := s.name, stops := (groupOf l s.name).stops ++ [StopSearchStop.from_ s] } := by
  simp [groupOf]

/-- A stop of a name that has a group goes there. -/
theorem addStop_of_mem (l : List StopInfo) {s : StopInfo} {ns : List String} (hn : ns.Nodup) (h : s.name ∈ ns) :
    addStop s (ns.map (groupOf l)) = ns.map (groupOf (l ++ [s])) := by
  induction ns with
  | nil => cases h
  | cons n ns ih =>
    rw [List.nodup_cons] at hn
    rw [List.map_cons, List.map_cons, addStop, groupOf_stopName]
    by_cases hs : n = s.name
    · have htail : ns.map (groupOf l) = ns.map (groupOf (l ++ [s])) :=
        List.map_congr_left fun m hm => (groupOf_snoc_of_ne l fun he => hn.1 (hs ▸ he ▸ hm)).symm
      rw [if_pos hs, htail, hs, groupOf_snoc]
    · rw [if_neg hs, ih hn.2 ((List.mem_cons.mp h).resolve_left fun he => hs he.symm), groupOf_snoc_of_ne l (Ne.symm hs)]

/-- A stop of a new name makes a new group, at the end. -/
theorem addStop_of_notMem (l : List StopInfo) {s : StopInfo} {ns : List String} (h : s.name ∉ ns) :
    addStop s (ns.map (groupOf l)) =
      ns.map (groupOf (l ++ [s])) ++ [{ stopName := s.name, stops := [StopSearchStop.from_ s] }] := by
  induction ns with
  | nil => rfl
  | cons n ns ih =>
    rw [List.mem_cons, not_or] at h
    rw [List.map_cons, List.map_cons, addStop, groupOf_stopName, if_neg (Ne.symm h.1), ih h.2, groupOf_snoc_of_ne l h.1]
    rfl

theorem foldl_addStop (l : List StopInfo) :
    l.foldl (fun groups s => addStop s groups) [] = (firsts (l.map StopInfo.name)).map (groupOf l) := by
  induction l using List.reverseRecOn with
  | nil => rfl
  | append_singleton l s ih =>
    rw [List.foldl_append, ih, List.foldl_cons, List.foldl_nil, List.map_append, List.map_singleton, firsts_snoc]
    split
    · rename_i hmem
      exact addStop_of_mem l (nodup_firsts _) hmem
    · rename_i hnew
      have hnone : l.filter (fun t => t.name = s.name) = [] := by
        rw [List.filter_eq_nil_iff]
        intro t ht hname
        exact hnew (mem_firsts.mpr (of_decide_eq_true hname ▸ List.mem_map_of_mem ht))
      rw [addStop_of_notMem l hnew, List.map_append, List.map_singleton, groupOf_snoc]
      simp [groupOf, hnone]

/-- Groups with every quay of some names, each once. -/
structure Grouped (store : GtfsStore) (names : List String) (groups : List StopSearchResult) : Prop where
  names : groups.map StopSearchResult.stopName = names
  ids : ∀ g ∈ groups, (g.stops.map StopSearchStop.stopId).Nodup
  stops : ∀ g ∈ groups, ∀ e, e ∈ g.stops ↔ ∃ s ∈ store.boardable, s.name = g.stopName ∧ StopSearchStop.from_ s = e

namespace StopNames

variable {lower : String → String} {store : GtfsStore} {q : String} {limit : Nat} {names : List String}
  {stops : List StopInfo}

/-- The names of an answer, where they first occur, are the names kept. -/
theorem Answers.firsts_eq (h : Answers lower store q limit names stops) : firsts (stops.map StopInfo.name) = names := by
  have hmem : ∀ n, n ∈ firsts (stops.map StopInfo.name) ↔ n ∈ names := by
    intro n
    rw [mem_firsts, List.mem_map]
    constructor
    · rintro ⟨s, hs, rfl⟩
      exact ((h.mem s).mp hs).2
    · intro hn
      obtain ⟨⟨s, hs, rfl⟩, -⟩ := h.first.mem n hn
      exact ⟨s, (h.mem s).mpr ⟨hs, hn⟩, rfl⟩
  have hascending : (firsts (stops.map StopInfo.name)).Pairwise fun a b =>
      nameRank lower q a ≤ nameRank lower q b := by
    refine List.Pairwise.sublist (firsts_sublist _) (List.pairwise_map.mpr ?_)
    exact h.ascending.imp fun hst => nameRank_le hst.le
  refine List.Perm.eq_of_pairwise (fun a b _ _ hab hba => nameRank_injective (le_antisymm hab hba)) hascending
    h.first.ascending ?_
  exact (List.perm_ext_iff_of_nodup (nodup_firsts _) h.first.nodup).mpr hmem

theorem Answers.nodup (h : Answers lower store q limit names stops) : stops.Nodup := by
  refine List.Pairwise.imp (S := fun s t => s ≠ t) ?_ h.ascending
  intro s t hst he
  rw [he] at hst
  exact lt_irrefl _ hst

theorem Answers.eq_of_stopId (h : Answers lower store q limit names stops) {s t : StopInfo} (hs : s ∈ stops)
    (ht : t ∈ stops) (hid : s.stopId = t.stopId) : s = t := by
  have hs := ((h.mem s).mp hs).1.1
  rw [hid, ((h.mem t).mp ht).1.1] at hs
  exact (Option.some.inj hs).symm

theorem Answers.grouped (h : Answers lower store q limit names stops) :
    Grouped store names (stops.foldl (fun groups s => addStop s groups) []) := by
  rw [foldl_addStop, h.firsts_eq]
  refine ⟨?_, ?_, ?_⟩
  · rw [List.map_map]
    exact List.map_id _
  · intro g hg
    obtain ⟨n, -, rfl⟩ := List.mem_map.mp hg
    rw [groupOf, List.map_map]
    refine List.Nodup.map_on (fun s hs t ht hid => ?_) (h.nodup.filter _)
    exact h.eq_of_stopId (List.mem_of_mem_filter hs) (List.mem_of_mem_filter ht) hid
  · intro g hg e
    obtain ⟨n, hn, rfl⟩ := List.mem_map.mp hg
    simp only [groupOf, List.mem_map, List.mem_filter, decide_eq_true_eq, h.mem]
    constructor
    · rintro ⟨s, ⟨⟨hs, -⟩, hname⟩, rfl⟩
      exact ⟨s, hs, hname, rfl⟩
    · rintro ⟨s, hs, hname, rfl⟩
      exact ⟨s, ⟨⟨hs, hname ▸ hn⟩, hname⟩, rfl⟩

/-- A query of two characters or more, in lower case. -/
theorem lowered_ne_empty (hlower : ∀ s, s ≠ "" → lower s ≠ "") {query : String}
    (hq : 2 ≤ (Text.trim query.toList).length) : lowered lower query ≠ "" := by
  refine hlower _ fun he => ?_
  have hnil := congrArg String.toList he
  rw [String.toList_ofList] at hnil
  rw [hnil] at hq
  exact absurd hq (by decide)

/-- The endpoint answers with the groups of the stops of the search. -/
theorem stopsSearch_eq (lower : String → String) (store : GtfsStore) {query : String}
    (hq : 2 ≤ (Text.trim query.toList).length) :
    stopsSearch lower (some (build lower store)) (some query) =
      .ok (((build lower store).search lower query STOP_SEARCH_NAME_LIMIT).foldl (fun groups s => addStop s groups) []) := by
  have htrim : (build lower store).search lower (String.ofList (Text.trim query.toList)) STOP_SEARCH_NAME_LIMIT =
      (build lower store).search lower query STOP_SEARCH_NAME_LIMIT := by
    simp only [search, String.toList_ofList, Text.trim_trim]
  simp only [stopsSearch, Option.getD_some, if_neg (Nat.not_lt.mpr hq), htrim]

/-- The search has the quays of the first names that match, in order and whatever
the order of the map, and the endpoint groups them by these names. -/
theorem stopsSearch_groups (lower : String → String) (hlower : ∀ s, s ≠ "" → lower s ≠ "") (store : GtfsStore)
    (hk : store.StopsKeyed) (query : String) (hq : 2 ≤ (Text.trim query.toList).length) :
    (∀ limit, ∃ names, Answers lower store (lowered lower query) limit names
      ((build lower store).search lower query limit)) ∧
    (∃ names groups, stopsSearch lower (some (build lower store)) (some query) = .ok groups ∧ groups.length ≤ 20 ∧
      Nearest (nameRank lower (lowered lower query)) (matching lower store (lowered lower query)) 20 names ∧
      Grouped store names groups) ∧
    ∀ store', (∀ id, store'.stops.lookup id = store.stops.lookup id) →
      (∀ limit, (build lower store').search lower query limit = (build lower store).search lower query limit) ∧
        stopsSearch lower (some (build lower store')) (some query) =
          stopsSearch lower (some (build lower store)) (some query) := by
  have hne := lowered_ne_empty hlower hq
  have hanswers := fun limit => answers_search hk lower hne limit
  refine ⟨fun limit => ⟨_, hanswers limit⟩, ?_, fun store' hsame => ?_⟩
  · have hgrouped := (hanswers STOP_SEARCH_NAME_LIMIT).grouped
    have hfirst := (hanswers STOP_SEARCH_NAME_LIMIT).first
    refine ⟨_, _, stopsSearch_eq lower store hq, ?_, hfirst, hgrouped⟩
    rw [← List.length_map StopSearchResult.stopName, hgrouped.names, hfirst.length]
    exact Nat.min_le_left _ _
  · have hk' : store'.StopsKeyed := fun id stop h => hk id stop (hsame id ▸ h)
    have hsearch : ∀ limit, (build lower store').search lower query limit = (build lower store).search lower query limit :=
      fun limit => ((hanswers limit).unique hsame (answers_search hk' lower hne limit)).2
    refine ⟨hsearch, ?_⟩
    rw [stopsSearch_eq lower store' hq, stopsSearch_eq lower store hq, hsearch]

/-- Two quays of one name, one of another, one that does not match, and a station. -/
def quaysStore : GtfsStore where
  stops := Map.insertAll StopInfo.stopId id
    [{ nightStop with stopId := "R2" }, { nightStop with stopId := "B1", name := "Rotterdam Blaak" }, nightStop,
      { nightStop with stopId := "U1", name := "Utrecht Centraal" },
      { nightStop with stopId := "stoparea:R", locationType := 1 }] ∅

theorem stopsSearch_groups_night :
    (stopsSearch id (some (build id quaysStore)) (some " Rotterdam")).toOption.map
        (·.map fun g => (g.stopName, g.stops.map StopSearchStop.stopId)) =
      some [("Rotterdam Blaak", ["B1"]), ("Rotterdam Centraal", ["R1", "R2"])] ∧
    ∃ names groups, stopsSearch id (some (build id quaysStore)) (some " Rotterdam") = .ok groups ∧
      groups.length ≤ 20 ∧ Nearest (nameRank id (lowered id " Rotterdam"))
        (matching id quaysStore (lowered id " Rotterdam")) 20 names ∧ Grouped quaysStore names groups := by
  have hk : quaysStore.StopsKeyed := Map.forall_insertAll (fun _ _ => rfl) fun _ _ h => by cases h
  exact ⟨by decide +kernel, (stopsSearch_groups id (fun _ h => h) quaysStore hk " Rotterdam" (by decide)).2.1⟩

end StopNames

end OV.Impl
