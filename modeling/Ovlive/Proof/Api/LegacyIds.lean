import Ovlive.Impl.Api.Legacy
import Ovlive.Proof.Ingest.Steps

/-!
# The ids of the old API

An old id is handed out for any live trip, and resolved through the index, which
has the positioned ones, the last of them where several have the id. The ids of
the vehicles do not get in the way: they have one colon, and an old id that is
none of them has two or more (`ColonFree.lookup`). So all ids round-trip exactly
if every trip with an old id of its own is positioned, and no other that is has
the same (`ids_roundTrip_iff`).
-/

namespace OV.Impl

/-! ## The keys of a run -/

section

variable [Platform] {s t : Server} {as : List ServerAction}

/-- An event leaves the trip of its vehicle. -/
theorem eventTrip_key {delays : Option TrainDelays} {en : Enricher} {e : PosEvent} {o : Option LiveTrip} {t : LiveTrip}
    (h : LiveState.eventTrip delays en e o = some t) : t.key = e.key ∨ ∃ u, o = some u ∧ t.key = u.key := by
  obtain ⟨-, rfl⟩ := eventTrip_of_some h
  rw [anchorToSchedule_key, askedTrip_key, baseTrip]
  split
  · exact .inl rfl
  · cases o with
    | none => exact .inl rfl
    | some u => exact .inr ⟨u, rfl, rfl⟩

/-- Every live trip is under the id of its key. -/
def Server.Keyed (s : Server) : Prop := ∀ v t, s.trip v = some t → t.key.id = v

theorem Server.Keyed.act (h : s.Keyed) (a : ServerAction) : (s.act a).Keyed := by
  intro v t ht
  cases a with
  | position e =>
    rw [trip_act_position] at ht
    split at ht
    · rename_i hv
      rcases eventTrip_key ht with hkey | ⟨u, hu, hkey⟩
      · rw [hkey, hv]
      · rw [hkey, h v u hu]
    · exact h v t ht
  | sweep now =>
    rw [trip_act_sweep, Option.filter_eq_some_iff] at ht
    exact h v t ht.1
  | rit u now => exact h v t ht
  | upkeep cutoff => exact h v t ht
  | restore snap => exact h v t ht
  | swap store => exact h v t ht

theorem Server.keyed_of_run {staleAfterSecs : Int} {delays : Option TrainDelays} {gtfs : GtfsService}
    (h : Run Server.Step (Server.start staleAfterSecs delays gtfs) as s) : s.Keyed := by
  refine h.inv (fun s a t hstep hs => ?_) fun v t ht => ?_
  · obtain rfl := hstep
    exact hs.act a
  · cases ht

end

namespace Legacy

/-- The data owners and the vehicle numbers of the live trips have no colons. -/
def ColonFree (live : LiveState) : Prop :=
  ∀ v t, live.trips.lookup v = some t → ':' ∉ t.key.dataowner.toList ∧ ':' ∉ t.key.vehicleNumber.toList

variable {live : LiveState} {v : String} {t : LiveTrip}

theorem count_id {k : VehicleKey} (h : ':' ∉ k.dataowner.toList ∧ ':' ∉ k.vehicleNumber.toList) :
    k.id.toList.count ':' = 1 := by
  rw [VehicleKey.id, String.toList_append, String.toList_append, List.count_append, List.count_append,
    List.count_eq_zero_of_not_mem h.1, List.count_eq_zero_of_not_mem h.2]
  rfl

theorem two_le_count_realtimeTripId {rt : String} (h : t.realtimeTripId = some rt) : 2 ≤ rt.toList.count ':' := by
  simp only [LiveTrip.realtimeTripId, Option.bind_eq_bind, Option.bind_eq_some_iff, Option.some.injEq] at h
  obtain ⟨line, -, journey, -, rfl⟩ := h
  simp only [String.toList_append, List.count_append]
  have hcolon : ":".toList.count ':' = 1 := rfl
  omega

/-- The ids of vehicles have one colon, so no old id that is none is among them. -/
theorem ColonFree.lookup {rt : String} (h : ColonFree live)
    (hkeyed : ∀ v t, live.trips.lookup v = some t → t.key.id = v) (hrt : t.realtimeTripId = some rt) :
    live.trips.lookup rt = none := by
  cases hu : live.trips.lookup rt with
  | none => rfl
  | some u =>
    have hone := count_id (h rt u hu)
    have htwo := two_le_count_realtimeTripId hrt
    rw [hkeyed rt u hu] at hone
    omega

/-! ## The index -/

theorem mem_buildIndex : t ∈ live.buildIndex.vehicles ↔ (∃ v, live.trips.lookup v = some t) ∧ t.hasPosition = true := by
  rw [LiveState.buildIndex, List.mem_filter, Map.mem_values]

theorem getByRealtimeTripId_some {idx : VehicleIndex} {rt : String} (h : idx.getByRealtimeTripId rt = some t) :
    t ∈ idx.vehicles ∧ t.realtimeTripId = some rt :=
  ⟨List.mem_reverse.mp (List.mem_of_find?_eq_some h), of_decide_eq_true (List.find?_some (p := fun t : LiveTrip =>
    decide (t.realtimeTripId = some rt)) h)⟩

theorem exists_getByRealtimeTripId {idx : VehicleIndex} {rt : String} (ht : t ∈ idx.vehicles)
    (hrt : t.realtimeTripId = some rt) : ∃ u, idx.getByRealtimeTripId rt = some u := by
  rw [← Option.isSome_iff_exists, VehicleIndex.getByRealtimeTripId, List.find?_isSome]
  exact ⟨t, List.mem_reverse.mpr ht, decide_eq_true hrt⟩

theorem mem_of_getAny {idx : VehicleIndex} {id : String} (h : idx.getAny id = some t) : t ∈ idx.vehicles := by
  unfold VehicleIndex.getAny at h
  split at h <;> rcases Option.or_eq_some_iff.mp h with h | ⟨-, h⟩
  · exact (getByRealtimeTripId_some h).1
  · exact (VehicleIndex.get_eq_some.mp h).1
  · exact (VehicleIndex.get_eq_some.mp h).1
  · exact (getByRealtimeTripId_some h).1

/-! ## The ids handed out -/

/-- Each endpoint answers an id as it answers the one of a vehicle. -/
structure LeadsBack (live : LiveState) (id v : String) : Prop where
  details : ∀ tz gtfs, details tz live live.buildIndex gtfs id = details tz live live.buildIndex gtfs v
  status : status live live.buildIndex id = status live live.buildIndex v
  journeyNumber : ∀ gtfs, journeyNumber live live.buildIndex gtfs id = journeyNumber live live.buildIndex gtfs v

/-- An id that resolves to the trip of a vehicle leads back to it. -/
theorem leadsBack_of_resolve {id : String} (hv : live.trips.lookup v = some t)
    (h : resolve live live.buildIndex id = some t) : LeadsBack live id v := by
  have hself : resolve live live.buildIndex v = some t := by rw [resolve, hv, Option.some_or]
  refine ⟨fun tz gtfs => ?_, ?_, fun gtfs => ?_⟩
  · simp only [details, h, hself]
  · simp only [status, h, hself]
  · simp only [journeyNumber, h, hself]

/-- The old id of every live trip resolves to the trip, and every id that
`find_id`, `trips` or `search` hands out leads back to the vehicle it is of. -/
structure RoundTrips (live : LiveState) : Prop where
  resolves : ∀ v t, live.trips.lookup v = some t → resolve live live.buildIndex (oldId t) = some t
  findId : ∀ number owner id, findId live number owner = .ok id →
    LeadsBack live id (owner.getD "" ++ ":" ++ number.getD "")
  trips : ∀ q maxArea maxResults answer, trips live.buildIndex maxArea maxResults q = .ok answer → ∀ s ∈ answer,
    ∃ v t, live.trips.lookup v = some t ∧ s = TripSummary.from_ t ∧ LeadsBack live s.id v
  search : ∀ gtfs q, ∀ item ∈ search live.buildIndex gtfs q,
    ∃ v t, live.trips.lookup v = some t ∧ item = searchItem gtfs t ∧ LeadsBack live item.id v

/-- The trips that have an old id other than that of their vehicle are
positioned, and no other positioned trip has it. -/
def OwnOldIds (live : LiveState) : Prop :=
  ∀ v t rt, live.trips.lookup v = some t → t.realtimeTripId = some rt →
    t.hasPosition = true ∧
      ∀ v' u, live.trips.lookup v' = some u → u.hasPosition = true → u.realtimeTripId = some rt → u = t

/-- What is in the viewport, and what is asked for beside it, is in the index. -/
theorem exists_of_mem_trips {idx : VehicleIndex} {q : ViewportQuery} {maxArea : Num} {maxResults : Nat}
    {answer : List TripSummary} (h : trips idx maxArea maxResults q = .ok answer) :
    ∀ s ∈ answer, ∃ t ∈ idx.vehicles, s = TripSummary.from_ t := by
  unfold trips at h
  split at h
  · cases h
  · cases h
    refine List.foldlRecOn (motive := fun answer => ∀ s ∈ answer, ∃ t ∈ idx.vehicles, s = TripSummary.from_ t)
      q.extra (appendTrip idx) ?_ fun trips ih id _ => ?_
    · intro s hs
      obtain ⟨t, ht, rfl⟩ := List.mem_map.mp hs
      exact ⟨t, VehicleIndex.mem_of_mem_query (List.mem_of_mem_take ht), rfl⟩
    · unfold appendTrip
      split
      · exact ih
      · rename_i t ht
        dsimp only
        split
        · exact ih
        · intro s hs
          rcases List.mem_append.mp hs with hs | hs
          · exact ih s hs
          · exact ⟨t, mem_of_getAny ht, List.mem_singleton.mp hs⟩

theorem exists_of_mem_search {idx : VehicleIndex} {gtfs : GtfsService} {q : Option String} {item : SearchItem}
    (h : item ∈ search idx gtfs q) : ∃ t ∈ idx.vehicles, item = searchItem gtfs t := by
  unfold search at h
  dsimp only at h
  split at h
  · cases h
  · obtain ⟨t, ht, rfl⟩ := List.mem_map.mp h
    exact ⟨t, (List.mem_filter.mp (List.mem_of_mem_take ht)).1, rfl⟩

/-- `find_id` hands out the old id of the trip of the vehicle. -/
theorem findId_eq_ok {number owner : Option String} {id : String} (h : findId live number owner = .ok id) :
    ∃ t, live.trips.lookup (owner.getD "" ++ ":" ++ number.getD "") = some t ∧ id = oldId t := by
  unfold findId at h
  dsimp only at h
  split at h
  · cases h
  · split at h
    · rename_i t ht
      exact ⟨t, ht, (Except.ok.inj h).symm⟩
    · cases h

/-- What resolves leads back, whoever hands it out. -/
theorem RoundTrips.of_resolves
    (h : ∀ v t, live.trips.lookup v = some t → resolve live live.buildIndex (oldId t) = some t) : RoundTrips live := by
  refine ⟨h, fun number owner id hid => ?_, fun q maxArea maxResults answer ha s hs => ?_, fun gtfs q item hitem => ?_⟩
  · obtain ⟨t, ht, rfl⟩ := findId_eq_ok hid
    exact leadsBack_of_resolve ht (h _ t ht)
  · obtain ⟨t, ht, rfl⟩ := exists_of_mem_trips ha s hs
    obtain ⟨⟨v, hv⟩, -⟩ := mem_buildIndex.mp ht
    exact ⟨v, t, hv, rfl, leadsBack_of_resolve hv (h v t hv)⟩
  · obtain ⟨t, ht, rfl⟩ := exists_of_mem_search hitem
    obtain ⟨⟨v, hv⟩, -⟩ := mem_buildIndex.mp ht
    exact ⟨v, t, hv, rfl, leadsBack_of_resolve hv (h v t hv)⟩

section

variable [Platform] {s : Server} {as : List ServerAction} {staleAfterSecs : Int} {delays : Option TrainDelays}
  {gtfs : GtfsService}

/-- In every state that a run leads to, old ids lead back to their trips exactly
if the trips that have one of their own are positioned, and no other shares it. -/
theorem ids_roundTrip_iff (h : Run Server.Step (Server.start staleAfterSecs delays gtfs) as s)
    (hfree : ColonFree s.live) : RoundTrips s.live ↔ OwnOldIds s.live := by
  have hkeyed := Server.keyed_of_run h
  have hresolve {v t rt} (hv : s.live.trips.lookup v = some t) (hrt : t.realtimeTripId = some rt) :
      resolve s.live s.live.buildIndex (oldId t) = s.live.buildIndex.getByRealtimeTripId rt := by
    rw [oldId, hrt, Option.getD_some, resolve, hfree.lookup hkeyed hrt, Option.none_or]
  constructor
  · intro hround v t rt hv hrt
    have ht := hround.resolves v t hv
    rw [hresolve hv hrt] at ht
    refine ⟨(mem_buildIndex.mp (getByRealtimeTripId_some ht).1).2, fun v' u hu _ hurt => ?_⟩
    have hback := hround.resolves v' u hu
    rw [hresolve hu hurt, ht] at hback
    exact (Option.some.inj hback).symm
  · intro hown
    refine .of_resolves fun v t hv => ?_
    cases hrt : t.realtimeTripId with
    | none =>
      have hid : t.id = v := s.live.own v t hv
      rw [oldId, hrt, Option.getD_none, hid, resolve, hv, Option.some_or]
    | some rt =>
      obtain ⟨hpos, hother⟩ := hown v t rt hv hrt
      obtain ⟨u, hu⟩ := exists_getByRealtimeTripId (mem_buildIndex.mpr ⟨⟨v, hv⟩, hpos⟩) hrt
      obtain ⟨hmem, hurt⟩ := getByRealtimeTripId_some hu
      obtain ⟨⟨v', hv'⟩, hupos⟩ := mem_buildIndex.mp hmem
      rw [hresolve hv hrt, hu, hother v' u hv' hupos hurt]

/-- After its first message a server has the vehicle of the message. -/
theorem colonFree_act_start {ev : PosEvent} (h : ':' ∉ ev.key.dataowner.toList ∧ ':' ∉ ev.key.vehicleNumber.toList) :
    ColonFree ((Server.start staleAfterSecs delays gtfs).act (.position ev)).live := by
  intro v t ht
  have ht : ((Server.start staleAfterSecs delays gtfs).act (.position ev)).trip v = some t := ht
  rw [trip_act_position] at ht
  split at ht
  · rcases eventTrip_key ht with hkey | ⟨u, hu, -⟩
    · rw [hkey]
      exact h
    · cases hu
  · cases ht

end

/-- The INIT of a metro, with its line and its journey. -/
def metroInit : PosEvent where
  key := { dataowner := "RET", vehicleNumber := "5601" }
  kind := .init
  linePlanningNumber := some "M1"
  journeyNumber := some "1001"
  timestamp := 0

/-- The metro with a fix. -/
def metroFix : PosEvent := { metroInit with lat := some (.fin 51.9), lon := some (.fin 4.5) }

/-- A second metro of the line with a fix, on some journey. -/
def secondFix (journeyNumber : String) : PosEvent :=
  { metroFix with key := { dataowner := "RET", vehicleNumber := "5602" }, journeyNumber := some journeyNumber }

/-- The server that heard of both metros. -/
def metros [Platform] (journeyNumber : String) : Server :=
  ((Server.start 240 none {}).act (.position metroFix)).act (.position (secondFix journeyNumber))

theorem run_metros [Platform] (journeyNumber : String) :
    Run Server.Step (Server.start 240 none {}) [.position metroFix, .position (secondFix journeyNumber)]
      (metros journeyNumber) := (Run.nil.snoc rfl).snoc rfl

/-- A server all of whose vehicles have names without a colon. -/
theorem colonFree_of_values {live : LiveState} (h : ∀ t ∈ Map.values live.trips,
    ':' ∉ t.key.dataowner.toList ∧ ':' ∉ t.key.vehicleNumber.toList) : ColonFree live :=
  fun v t ht => h t (Map.mem_values.mpr ⟨v, ht⟩)

/-- On journeys of their own the metros' ids lead back, and on one journey they
do not. -/
theorem ids_roundTrip_metro :
    let _ := plainPlatform
    RoundTrips (metros "1002").live ∧ ¬RoundTrips (metros "1001").live := by
  intro _
  constructor
  · have hown : ((Map.values (metros "1002").live.trips).map LiveTrip.realtimeTripId).Nodup := by decide +kernel
    have hpos : ∀ t ∈ Map.values (metros "1002").live.trips, t.hasPosition = true := by decide +kernel
    refine (ids_roundTrip_iff (run_metros "1002") (colonFree_of_values (by decide +kernel))).mpr fun v t rt hv hrt => ?_
    have ht := Map.mem_values.mpr ⟨v, hv⟩
    exact ⟨hpos t ht, fun v' u hu _ hurt =>
      List.inj_on_of_nodup_map hown (Map.mem_values.mpr ⟨v', hu⟩) ht (hurt.trans hrt.symm)⟩
  · intro hround
    have hown := (ids_roundTrip_iff (run_metros "1001") (colonFree_of_values (by decide +kernel))).mp hround
    have hfirst : ((metros "1001").trip "RET:5601").any fun t => t.realtimeTripId = some "RET:M1:1001" := by
      decide +kernel
    have hsecond : ((metros "1001").trip "RET:5602").any fun u =>
        u.hasPosition = true ∧ u.realtimeTripId = some "RET:M1:1001" := by decide +kernel
    obtain ⟨t, ht, hrt⟩ := (Option.any_eq_true _ _).mp hfirst
    obtain ⟨u, hu, hpos⟩ := (Option.any_eq_true _ _).mp hsecond
    obtain ⟨hpos, hurt⟩ := of_decide_eq_true hpos
    -- the one id would be of one trip
    have heq := (hown _ t _ ht (of_decide_eq_true hrt)).2 _ u hu hpos hurt
    have hids := ((metros "1001").live.own _ t ht).symm.trans (heq ▸ (metros "1001").live.own _ u hu)
    exact absurd hids (by decide)

/-- The old id of a metro without a position leads nowhere. -/
theorem ids_lost :
    let _ := plainPlatform
    ¬ ∀ (as : List ServerAction) (s : Server), Run Server.Step (Server.start 240 none {}) as s → ColonFree s.live →
      RoundTrips s.live := by
  intro _ h
  let s := (Server.start 240 none {}).act (.position metroInit)
  have hround := h [.position metroInit] s (Run.nil.snoc rfl) (colonFree_act_start (by decide))
  have hlive : (s.trip "RET:5601").any fun t => oldId t = "RET:M1:1001" := by decide +kernel
  obtain ⟨t, ht, hold⟩ := (Option.any_eq_true _ _).mp hlive
  have hback := hround.resolves _ t ht
  have hlost : resolve s.live s.live.buildIndex "RET:M1:1001" = none := by decide +kernel
  rw [of_decide_eq_true hold, hlost] at hback
  cases hback

end Legacy

end OV.Impl
