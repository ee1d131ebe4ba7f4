import Mathlib.Data.List.ProdSigma
import Ovlive.Framework.Sorted
import Ovlive.Proof.Gtfs.Grid

/-!
# The nearest stops of a box

A cell of the grid has its quays, each once and in the order of the store
(`stopsOf_build`), so the cells of a box have none twice (`nodup_hits`).
`inBbox_nearest` is what the lookup answers: of the quays in the box the ones
nearest its centre.
-/

namespace OV.Impl

/-- A box with finite bounds. -/
structure FiniteBox where
  minLat : ℚ
  minLon : ℚ
  maxLat : ℚ
  maxLon : ℚ
  lat_le : minLat ≤ maxLat
  lon_le : minLon ≤ maxLon

namespace FiniteBox

variable (b : FiniteBox)

def toBBox : BBox where
  minLat := .fin b.minLat
  minLon := .fin b.minLon
  maxLat := .fin b.maxLat
  maxLon := .fin b.maxLon

def centreLat : ℚ := (b.minLat + b.maxLat) / 2

def centreLon : ℚ := (b.minLon + b.maxLon) / 2

/-- The square of the distance of a point from the centre, with longitudes scaled
by `k`. -/
def squaredDistance (k lat lon : ℚ) : ℚ := (lat - b.centreLat) ^ 2 + ((lon - b.centreLon) * k) ^ 2

/-- The square of the distance of a stop, where it has coordinates. -/
def stopDistance (k : ℚ) (stop : StopInfo) : ℚ :=
  match stop.lat, stop.lon with
  | .fin lat, .fin lon => b.squaredDistance k lat lon
  | _, _ => 0

/-- The quays of a store with coordinates in the closed box. -/
def quays (store : GtfsStore) : Set StopInfo :=
  {stop | store.HasQuay stop ∧ ∃ lat lon, stop.lat = .fin lat ∧ stop.lon = .fin lon ∧
    (b.minLat ≤ lat ∧ lat ≤ b.maxLat) ∧ b.minLon ≤ lon ∧ lon ≤ b.maxLon}

end FiniteBox

namespace StopGrid

variable {store : GtfsStore} {stop : StopInfo} {b : BBox}

/-! ## The cells -/

/-- Whether a stop is one of those that are put in a cell. -/
def inCell (c : Int × Int) (stop : StopInfo) : Bool :=
  stop.isQuay && stop.lat.isFinite && stop.lon.isFinite && cell stop.lat stop.lon = c

/-- The slots of each cell are of its quays among some stops, in their order. -/
def Slots (stops : List StopInfo) (g : StopGrid) : Prop :=
  ∀ c, (Map.valuesAt g.grid c).map (fun n => g.stopSlots[n]?) =
    (stops.filter (inCell c)).map fun stop => some stop.stopId

theorem Slots.add {stops : List StopInfo} {g : StopGrid} (h : Slots stops g) (stop : StopInfo) :
    Slots (stops ++ [stop]) (g.add stop) := by
  intro c
  have hkept : ∀ n ∈ Map.valuesAt g.grid c, (g.stopSlots ++ [stop.stopId])[n]? = g.stopSlots[n]? := by
    intro n hn
    have hmem := List.mem_map_of_mem (f := fun n => g.stopSlots[n]?) hn
    rw [h c] at hmem
    obtain ⟨s, -, hs⟩ := List.mem_map.mp hmem
    rw [← hs]
    exact getElem?_append_of_eq_some hs.symm _
  rw [List.filter_append, List.map_append, ← h c]
  unfold StopGrid.add
  cases hquay : stop.isQuay with
  | false => simp [inCell, hquay]
  | true =>
    cases hfin : stop.lat.isFinite && stop.lon.isFinite with
    | false =>
      have hout : inCell c stop = false := by rw [inCell, hquay, Bool.true_and, hfin, Bool.false_and]
      simp only [if_true, Bool.false_eq_true, if_false]
      rw [List.map_congr_left hkept, List.filter_cons_of_neg (by simp [hout])]
      simp
    | true =>
      have hin : inCell c stop = decide (cell stop.lat stop.lon = c) := by
        rw [inCell, hquay, Bool.true_and, hfin, Bool.true_and]
      simp only [if_true]
      rw [Map.valuesAt_push, List.map_append, List.map_congr_left hkept]
      by_cases hc : cell stop.lat stop.lon = c
      · simp [hin, hc]
      · simp [hin, hc, Ne.symm hc]

theorem slots_build (store : GtfsStore) : Slots (Map.values store.stops) (build store) := by
  have hall : ∀ stops : List StopInfo, Slots stops (stops.foldl StopGrid.add { store := store }) := by
    intro stops
    induction stops using List.reverseRecOn with
    | nil => exact fun c => by simp [Map.valuesAt]
    | append_singleton stops stop ih =>
      rw [List.foldl_append]
      exact ih.add stop
  exact hall _

/-- The stops of a cell. -/
theorem stopsOf_build (hk : store.StopsKeyed) (c : Int × Int) :
    (build store).stopsOf c = (Map.values store.stops).filter (inCell c) := by
  have hslots := congrArg (List.filterMap fun id : Option String => id.bind fun id => store.stops.lookup id)
    (slots_build store c)
  rw [List.filterMap_map, List.filterMap_map] at hslots
  have hstore : (build store).store = store := (indexes_build store).store
  unfold stopsOf
  rw [hstore]
  refine hslots.trans ((List.filterMap_congr fun s hs => ?_).trans List.filterMap_some)
  obtain ⟨id, hid⟩ := Map.mem_values.mp (List.mem_of_mem_filter hs)
  show store.stops.lookup s.stopId = some s
  rw [hk id s hid, hid]

theorem nodup_rangeInclusive (lo hi : Int) : (rangeInclusive lo hi).Nodup :=
  List.nodup_range.map fun _ _ h => Int.ofNat_inj.mp (Int.add_left_cancel h)

/-- The quays with coordinates that are not outside of a box. -/
def inside (b : BBox) (stop : StopInfo) : Bool :=
  stop.isQuay && stop.lat.isFinite && stop.lon.isFinite && !outside b stop

/-- The cells of a box, in the order in which they are read. -/
def cells (b : BBox) : List (Int × Int) :=
  rangeInclusive (cell b.minLat b.minLon).1 (cell b.maxLat b.maxLon).1 ×ˢ
    rangeInclusive (cell b.minLat b.minLon).2 (cell b.maxLat b.maxLon).2

/-- What is found is found in the cells of the box. -/
theorem hits_cells (g : StopGrid) (b : BBox) :
    g.hits b = (cells b).flatMap fun c => (g.stopsOf c).filter fun stop => !outside b stop := by
  simp only [hits, cells, SProd.sprod, List.product, List.flatMap_assoc, List.flatMap_map]

/-- The hits are the stops inside of the box, cell by cell. -/
theorem hits_build (hk : store.StopsKeyed) (b : BBox) :
    (build store).hits b =
      (cells b).flatMap fun c => ((Map.values store.stops).filter (inside b)).filter fun s => cell s.lat s.lon = c := by
  have hcell : ∀ c, ((build store).stopsOf c).filter (fun stop => !outside b stop) =
      ((Map.values store.stops).filter (inside b)).filter fun s => cell s.lat s.lon = c := by
    intro c
    rw [stopsOf_build hk, List.filter_filter, List.filter_filter]
    refine List.filter_congr fun s _ => ?_
    simp only [inCell, inside]
    ac_rfl
  rw [hits_cells]
  exact List.flatMap_congr fun c _ => hcell c

/-- A stop is hit in one cell. -/
theorem nodup_hits (hk : store.StopsKeyed) (b : BBox) : ((build store).hits b).Nodup := by
  have hcells : (cells b).Nodup := (nodup_rangeInclusive _ _).product (nodup_rangeInclusive _ _)
  have hvalues : (Map.values store.stops).Nodup := (Map.nodup_map_values hk).of_map _
  rw [hits_build hk, (flatMap_filter_perm hcells _).nodup_iff]
  exact (hvalues.filter _).filter _

/-! ## The distance -/

/-- The distance that the lookup sorts by is the one of the box. -/
theorem distanceFrom_eq (b : FiniteBox) {cosDegrees : Num → Num} {k : ℚ} (hcos : cosDegrees (.fin b.centreLat) = .fin k)
    (hlat : stop.lat.isFinite = true) (hlon : stop.lon.isFinite = true) :
    distanceFrom cosDegrees b.toBBox stop = .fin (b.stopDistance k stop) := by
  obtain ⟨lat, hlat⟩ := Num.isFinite_iff.mp hlat
  obtain ⟨lon, hlon⟩ := Num.isFinite_iff.mp hlon
  have hcentre : (b.toBBox.minLat.add b.toBBox.maxLat).divBy 2 = .fin b.centreLat := by
    simp only [FiniteBox.toBBox, FiniteBox.centreLat, Num.add_fin, Num.divBy, Num.mul, div_eq_mul_inv]
  have hcentreLon : (b.toBBox.minLon.add b.toBBox.maxLon).divBy 2 = .fin b.centreLon := by
    simp only [FiniteBox.toBBox, FiniteBox.centreLon, Num.add_fin, Num.divBy, Num.mul, div_eq_mul_inv]
  simp only [distanceFrom, hcentre, hcentreLon, hcos, FiniteBox.stopDistance, FiniteBox.squaredDistance, hlat, hlon,
    Num.sub_fin, Num.add_fin, Num.mul, pow_two]

theorem contains_iff (b : FiniteBox) (hlat : stop.lat.isFinite = true) (hlon : stop.lon.isFinite = true) :
    b.toBBox.contains stop.lat stop.lon = true ↔
      ∃ lat lon, stop.lat = .fin lat ∧ stop.lon = .fin lon ∧ (b.minLat ≤ lat ∧ lat ≤ b.maxLat) ∧
        b.minLon ≤ lon ∧ lon ≤ b.maxLon := by
  obtain ⟨lat, hlat⟩ := Num.isFinite_iff.mp hlat
  obtain ⟨lon, hlon⟩ := Num.isFinite_iff.mp hlon
  simp [BBox.contains, FiniteBox.toBBox, hlat, hlon, and_assoc]

/-- What is hit in a finite box are the quays in it. -/
theorem mem_hits_iff (hk : store.StopsKeyed) (b : FiniteBox) :
    stop ∈ (build store).hits b.toBBox ↔ stop ∈ b.quays store := by
  constructor
  · intro h
    have hquay := hasQuay_of_mem_hits hk h
    have hout := outside_of_mem_hits h
    obtain ⟨lat, hlat⟩ := Num.isFinite_iff.mp hquay.lat
    obtain ⟨lon, hlon⟩ := Num.isFinite_iff.mp hquay.lon
    simp only [outside, FiniteBox.toBBox, hlat, hlon, Num.lt_fin, Bool.or_eq_false_iff, decide_eq_false_iff_not,
      not_lt] at hout
    exact ⟨hquay, lat, lon, hlat, hlon, ⟨hout.1.1.1, hout.1.1.2⟩, hout.1.2, hout.2⟩
  · rintro ⟨hquay, hin⟩
    exact mem_hits hquay ((contains_iff b hquay.lat hquay.lon).mpr hin)

/-- The lookup answers with the quays of the box that are nearest its centre. -/
theorem inBbox_nearest (store : GtfsStore) (hk : store.StopsKeyed) (b : FiniteBox) (cosDegrees : Num → Num) (k : ℚ)
    (hcos : cosDegrees (.fin b.centreLat) = .fin k) (limit : Nat) :
    Nearest (b.stopDistance k) (b.quays store) limit ((build store).inBbox cosDegrees b.toBBox limit) := by
  have hperm := List.perm_insertionSort (fun s t =>
    (distanceFrom cosDegrees b.toBBox s).totalLe (distanceFrom cosDegrees b.toBBox t)) ((build store).hits b.toBBox)
  have : IsTrans StopInfo fun s t =>
      (distanceFrom cosDegrees b.toBBox s).totalLe (distanceFrom cosDegrees b.toBBox t) = true :=
    ⟨fun _ _ _ => Num.totalLe_trans⟩
  have : Std.Total fun s t =>
      (distanceFrom cosDegrees b.toBBox s).totalLe (distanceFrom cosDegrees b.toBBox t) = true :=
    ⟨fun _ _ => Num.totalLe_total _ _⟩
  have hsorted := List.pairwise_insertionSort (fun s t =>
    (distanceFrom cosDegrees b.toBBox s).totalLe (distanceFrom cosDegrees b.toBBox t) = true)
      ((build store).hits b.toBBox)
  refine nearest_take (fun stop => hperm.mem_iff.trans (mem_hits_iff hk b)) (hperm.nodup_iff.mpr (nodup_hits hk _)) ?_ limit
  refine hsorted.imp_of_mem fun {s t} hs ht hst => ?_
  have hs := hasQuay_of_mem_hits hk (hperm.mem_iff.mp hs)
  have ht := hasQuay_of_mem_hits hk (hperm.mem_iff.mp ht)
  rw [distanceFrom_eq b hcos hs.lat hs.lon, distanceFrom_eq b hcos ht.lat ht.lon] at hst
  simpa [Num.totalLe] using hst

/-- Quays at a corner of the box, in it and outside of it, and a station in it. -/
def cornerStore : GtfsStore where
  stops :=
    let stop (stopId : String) (lat lon : ℚ) (locationType : Int32) : StopInfo :=
      { stopId, name := "Null Island", lat := .fin lat, lon := .fin lon, code := none, platformCode := none
        parentStation := none, locationType }
    Map.insertAll StopInfo.stopId id
      [stop "corner" (-1 / 8) (-1 / 4) 0, stop "near" 0 (1 / 16) 0, stop "edge" (1 / 8) 0 0, stop "out" (5 / 32) 0 0,
        stop "station" 0 0 1] ∅

def cornerBox : FiniteBox where
  minLat := -1 / 8
  minLon := -1 / 4
  maxLat := 1 / 8
  maxLon := 1 / 4
  lat_le := by norm_num
  lon_le := by norm_num

/-- Of the three quays in the box the two nearest its centre. -/
theorem inBbox_nearest_corner :
    let found := (build cornerStore).inBbox (fun _ => .fin 1) cornerBox.toBBox 2
    Nearest (cornerBox.stopDistance 1) (cornerBox.quays cornerStore) 2 found ∧
      found.map StopInfo.stopId = ["near", "edge"] ∧ ((build cornerStore).hits cornerBox.toBBox).length = 3 :=
  ⟨inBbox_nearest cornerStore (Map.forall_insertAll (fun _ _ => rfl) fun _ _ h => by cases h) cornerBox
    (fun _ => .fin 1) 1 rfl 2, by decide +kernel, by decide +kernel⟩

end StopGrid

end OV.Impl
