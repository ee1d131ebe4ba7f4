import Mathlib.Data.List.Induction
import Ovlive.Framework.Lists
import Ovlive.Impl.Api.Viewport
import Ovlive.Proof.Gtfs.Parse

/-!
# The stops of a viewport

Every boardable quay with coordinates is in its cell (`mem_stopsOf`), the cells of
a box have those of the quays in it (`mem_hits`), and an answer of the endpoint
that is not truncated has the quays of its box and no others
(`mem_stops_iff`). The stops of a parsed feed are under their ids
(`Gtfs.stopsKeyed_of_parse`).
-/

namespace OV.Impl

/-- The stops are under their ids, as the parser puts them. -/
def GtfsStore.StopsKeyed (store : GtfsStore) : Prop := ∀ id stop, store.stops.lookup id = some stop → stop.stopId = id

namespace Gtfs

theorem stopRow_keyed (s : GtfsStore) (row : Row) (h : s.StopsKeyed) : (stopRow s row).StopsKeyed := by
  unfold stopRow
  cases row.find "stop_id" with
  | none => exact h
  | some sid => exact Map.forall_insert rfl h

theorem foldl_stopRow_keyed (rows : List Row) {s : GtfsStore} (h : s.StopsKeyed) : (rows.foldl stopRow s).StopsKeyed := by
  induction rows generalizing s with
  | nil => exact h
  | cons row rows ih => exact ih (stopRow_keyed s row h)

/-- What a feed has from its stops: the rows before them leave the table empty,
and the rows after them leave it alone. -/
theorem feedOf_stops (rows : String → List Row) :
    ∃ s : GtfsStore, s.stops = ∅ ∧ (feedOf rows).stops = ((rows "stops.txt").foldl stopRow s).stops := by
  refine ⟨(rows "trips.txt").foldl tripRow (beforeTrips rows), ?_, ?_⟩
  · obtain ⟨-, -, -, hstops⟩ := beforeTrips_empty rows
    rw [foldl_frame GtfsStore.stops fun s row => (congrArg GtfsStore.stops (tripRow_frame s row)).trans rfl, hstops]
  · exact foldl_frame GtfsStore.stops (fun s row => (congrArg GtfsStore.stops (stopTimeRow_frame s row)).trans rfl) _ _

/-- The stops of a parsed feed are under their ids. -/
theorem stopsKeyed_of_parse {zip : List ZipEntry} {store : GtfsStore} (h : parseReader (some zip) = .ok store) :
    store.StopsKeyed := by
  obtain ⟨s, h0, hstops⟩ := feedOf_stops (rowsOf zip)
  have hs : s.StopsKeyed := by
    intro id stop hstop
    rw [h0, AList.lookup_empty] at hstop
    cases hstop
  rw [← eq_feedOf h] at hstops
  intro id stop hstop
  rw [hstops] at hstop
  exact foldl_stopRow_keyed _ hs id stop hstop

end Gtfs

/-- A boardable quay of the store with coordinates. -/
structure GtfsStore.HasQuay (store : GtfsStore) (stop : StopInfo) : Prop where
  stored : store.stops.lookup stop.stopId = some stop
  quay : stop.isQuay = true
  lat : stop.lat.isFinite = true
  lon : stop.lon.isFinite = true

theorem CELL_LAT_eq : CELL_LAT = 3602879701896397 / 2 ^ 56 := by decide +kernel

theorem CELL_LON_eq : CELL_LON = 5764607523034235 / 2 ^ 56 := by decide +kernel

namespace StopGrid

variable {store : GtfsStore} {stop : StopInfo} {b : BBox}

theorem mem_rangeInclusive {lo hi x : Int} : x ∈ rangeInclusive lo hi ↔ lo ≤ x ∧ x ≤ hi := by
  simp only [rangeInclusive, List.mem_map, List.mem_range]
  constructor
  · rintro ⟨n, hn, rfl⟩
    omega
  · intro h
    exact ⟨(x - lo).toNat, by omega, by omega⟩

/-! ## The grid -/

/-- What is kept of some stops: those that are quays with coordinates have a slot
in their cell, and every slot in the grid is one of a quay. -/
structure Indexes (store : GtfsStore) (stops : List StopInfo) (g : StopGrid) : Prop where
  store : g.store = store
  slot : ∀ stop ∈ stops, stop.isQuay = true → stop.lat.isFinite = true → stop.lon.isFinite = true →
    ∃ n ∈ Map.valuesAt g.grid (cell stop.lat stop.lon), g.stopSlots[n]? = some stop.stopId
  quay : ∀ c, ∀ n ∈ Map.valuesAt g.grid c, ∃ stop ∈ stops, g.stopSlots[n]? = some stop.stopId ∧
    stop.isQuay = true ∧ stop.lat.isFinite = true ∧ stop.lon.isFinite = true

theorem add_store (g : StopGrid) (stop : StopInfo) : (g.add stop).store = g.store := by
  unfold StopGrid.add
  split <;> rfl

/-- A quay takes the next slot. -/
theorem add_stopSlots (g : StopGrid) (stop : StopInfo) :
    (g.add stop).stopSlots = g.stopSlots ++ if stop.isQuay then [stop.stopId] else [] := by
  unfold StopGrid.add
  split
  · rfl
  · rw [List.append_nil]

/-- The slot of a quay with coordinates is in its cell. -/
theorem mem_add_grid {g : StopGrid} {c : Int × Int} {n : Nat} :
    n ∈ Map.valuesAt (g.add stop).grid c ↔ n ∈ Map.valuesAt g.grid c ∨
      n = g.stopSlots.length ∧ cell stop.lat stop.lon = c ∧
        stop.isQuay = true ∧ stop.lat.isFinite = true ∧ stop.lon.isFinite = true := by
  unfold StopGrid.add
  cases hquay : stop.isQuay with
  | false => simp
  | true =>
    cases hfin : stop.lat.isFinite && stop.lon.isFinite with
    | false =>
      have hnot : ¬ (stop.lat.isFinite = true ∧ stop.lon.isFinite = true) := by
        rw [← Bool.and_eq_true, hfin]
        exact Bool.false_ne_true
      simp [hnot]
    | true =>
      obtain ⟨hlat, hlon⟩ := Bool.and_eq_true_iff.mp hfin
      simp only [if_true, Map.valuesAt_push, List.mem_append, hlat, hlon, and_self, and_true]
      refine or_congr_right ?_
      split
      · rename_i hc
        rw [List.mem_singleton, and_iff_left hc.symm]
      · rename_i hc
        exact iff_of_false List.not_mem_nil fun h => hc h.2.symm

theorem Indexes.add {stops : List StopInfo} {g : StopGrid} (h : Indexes store stops g) (stop : StopInfo) :
    Indexes store (stops ++ [stop]) (g.add stop) := by
  have hkept {n : Nat} {id : String} (hid : g.stopSlots[n]? = some id) : (g.add stop).stopSlots[n]? = some id := by
    rw [add_stopSlots]
    exact getElem?_append_of_eq_some hid _
  refine ⟨(add_store g stop).trans h.store, fun s hs hq hla hlo => ?_, fun c n hn => ?_⟩
  · rcases List.mem_append.mp hs with hs | hs
    · obtain ⟨n, hn, hid⟩ := h.slot s hs hq hla hlo
      exact ⟨n, mem_add_grid.mpr (.inl hn), hkept hid⟩
    · obtain rfl := List.mem_singleton.mp hs
      refine ⟨g.stopSlots.length, mem_add_grid.mpr (.inr ⟨rfl, rfl, hq, hla, hlo⟩), ?_⟩
      rw [add_stopSlots, if_pos hq]
      simp
  · rcases mem_add_grid.mp hn with hold | ⟨rfl, -, hq, hfin⟩
    · obtain ⟨s, hs, hid, hq⟩ := h.quay c n hold
      exact ⟨s, List.mem_append_left _ hs, hkept hid, hq⟩
    · refine ⟨stop, List.mem_append_right _ (List.mem_singleton_self _), ?_, hq, hfin⟩
      rw [add_stopSlots, if_pos hq]
      simp

theorem indexes_build (store : GtfsStore) : Indexes store (Map.values store.stops) (build store) := by
  have hall : ∀ stops : List StopInfo, Indexes store stops (stops.foldl StopGrid.add { store := store }) := by
    intro stops
    induction stops using List.reverseRecOn with
    | nil =>
      refine ⟨rfl, fun _ hs => absurd hs List.not_mem_nil, fun c n hn => ?_⟩
      simp [Map.valuesAt] at hn
    | append_singleton stops stop ih =>
      rw [List.foldl_append]
      exact ih.add stop
  exact hall _

/-- The stops of a cell are quays of the store. -/
theorem hasQuay_of_mem_stopsOf (hk : store.StopsKeyed) {c : Int × Int} (h : stop ∈ (build store).stopsOf c) :
    store.HasQuay stop := by
  have H := indexes_build store
  obtain ⟨n, hn, hlookup⟩ := List.mem_filterMap.mp h
  obtain ⟨id, hid, hstop⟩ := Option.bind_eq_some_iff.mp hlookup
  obtain ⟨s, hs, hid', hq, hla, hlo⟩ := H.quay c n hn
  obtain ⟨k, hk'⟩ := Map.mem_values.mp hs
  obtain rfl := Option.some.inj (hid.symm.trans hid')
  rw [H.store, hk k s hk', hk'] at hstop
  obtain rfl := Option.some.inj hstop
  exact ⟨(hk k s hk').symm ▸ hk', hq, hla, hlo⟩

/-- A quay is in its cell. -/
theorem mem_stopsOf (h : store.HasQuay stop) : stop ∈ (build store).stopsOf (cell stop.lat stop.lon) := by
  have H := indexes_build store
  obtain ⟨n, hn, hid⟩ := H.slot stop (Map.mem_values.mpr ⟨_, h.stored⟩) h.quay h.lat h.lon
  refine List.mem_filterMap.mpr ⟨n, hn, ?_⟩
  rw [hid, Option.bind_some, H.store]
  exact h.stored

/-! ## The box -/

/-- Rows and columns grow with their coordinate. -/
theorem cell_lat_mono {lat lat' lon lon' : Num} (h : lat.le lat' = true) : (cell lat lon).1 ≤ (cell lat' lon').1 :=
  Num.toI32_floor_mono (Num.f64_mono (Num.divBy_mono (by rw [CELL_LAT_eq]; norm_num) h))

theorem cell_lon_mono {lat lat' lon lon' : Num} (h : lon.le lon' = true) : (cell lat lon).2 ≤ (cell lat' lon').2 :=
  Num.toI32_floor_mono (Num.f64_mono (Num.divBy_mono (by rw [CELL_LON_eq]; norm_num) h))

/-- A stop in the box is not left out of it. -/
theorem outside_of_contains (h : b.contains stop.lat stop.lon = true) : outside b stop = false := by
  simp only [BBox.contains, Bool.and_eq_true] at h
  obtain ⟨⟨⟨h1, h2⟩, h3⟩, h4⟩ := h
  rw [outside, Num.not_lt_of_le h1, Num.not_lt_of_le h2, Num.not_lt_of_le h3, Num.not_lt_of_le h4]
  rfl

/-- The cells of a box have the quays in it. -/
theorem mem_hits (h : store.HasQuay stop) (hb : b.contains stop.lat stop.lon = true) : stop ∈ (build store).hits b := by
  have hout := outside_of_contains hb
  simp only [BBox.contains, Bool.and_eq_true] at hb
  obtain ⟨⟨⟨h1, h2⟩, h3⟩, h4⟩ := hb
  refine List.mem_flatMap.mpr ⟨(cell stop.lat stop.lon).1, mem_rangeInclusive.mpr ?_, ?_⟩
  · exact ⟨cell_lat_mono h1, cell_lat_mono h2⟩
  refine List.mem_flatMap.mpr ⟨(cell stop.lat stop.lon).2, mem_rangeInclusive.mpr ?_, ?_⟩
  · exact ⟨cell_lon_mono h3, cell_lon_mono h4⟩
  · exact List.mem_filter.mpr ⟨mem_stopsOf h, by rw [hout]; rfl⟩

/-- What is hit is not outside of the box. -/
theorem outside_of_mem_hits (h : stop ∈ (build store).hits b) : outside b stop = false := by
  obtain ⟨y, -, hx⟩ := List.mem_flatMap.mp h
  obtain ⟨x, -, hstop⟩ := List.mem_flatMap.mp hx
  simpa using (List.mem_filter.mp hstop).2

/-- What is hit is a quay of the store. -/
theorem hasQuay_of_mem_hits (hk : store.StopsKeyed) (h : stop ∈ (build store).hits b) : store.HasQuay stop := by
  obtain ⟨y, -, hx⟩ := List.mem_flatMap.mp h
  obtain ⟨x, -, hstop⟩ := List.mem_flatMap.mp hx
  exact hasQuay_of_mem_stopsOf hk (List.mem_filter.mp hstop).1

/-- Below the limit nothing is cut off. -/
theorem mem_inBbox (cosDegrees : Num → Num) (g : StopGrid) {limit : Nat} (h : (g.inBbox cosDegrees b limit).length < limit) :
    stop ∈ g.inBbox cosDegrees b limit ↔ stop ∈ g.hits b := by
  unfold inBbox at h ⊢
  rw [List.take_of_length_le]
  · exact (List.perm_insertionSort _ _).mem_iff
  · rw [List.length_take] at h
    omega

end StopGrid

/-! ## The endpoint -/

/-- The bounds of a box whose area is a number are numbers. -/
theorem finite_of_area {b : BBox}
    (h : (((b.maxLon.sub b.minLon).f64.abs.mul (b.maxLat.sub b.minLat).f64.abs).f64).isFinite = true) :
    b.minLat.isFinite = true ∧ b.maxLat.isFinite = true ∧ b.minLon.isFinite = true ∧ b.maxLon.isFinite = true := by
  have hside {x y : Num} (hxy : (x.sub y).f64.abs.isFinite = true) : x.isFinite = true ∧ y.isFinite = true :=
    Num.isFinite_of_sub (Num.isFinite_of_f64 (Num.isFinite_of_abs hxy))
  obtain ⟨hlon, hlat⟩ := Num.isFinite_of_mul (Num.isFinite_of_f64 h)
  exact ⟨(hside hlat).2, (hside hlat).1, (hside hlon).2, (hside hlon).1⟩

section

variable {store : GtfsStore} {cosDegrees : Num → Num} {b : BBox} {limit : Nat} {res : StopsResponse}

/-- What an answer that is not truncated has, of a box whose bounds are numbers. -/
theorem stops_of_answer (h : stopsInViewport cosDegrees (some (StopGrid.build store)) (some b) (some limit) = .ok res)
    (ht : res.truncated = false) :
    (b.minLat.isFinite = true ∧ b.maxLat.isFinite = true ∧ b.minLon.isFinite = true ∧ b.maxLon.isFinite = true) ∧
      ∀ json, json ∈ res.stops ↔ ∃ stop ∈ (StopGrid.build store).hits b, StopJson.from_ stop = json := by
  simp only [stopsInViewport] at h
  split at h
  · cases h
  rename_i harea
  simp only [Bool.or_eq_true, Bool.not_eq_true', not_or, Bool.not_eq_false] at harea
  refine ⟨finite_of_area harea.1, fun json => ?_⟩
  obtain rfl := Except.ok.inj h
  have hlen := of_decide_eq_false ht
  rw [Nat.not_le, List.length_map] at hlen
  simp only [List.mem_map, StopGrid.mem_inBbox _ _ hlen]

/-- An answer that is not truncated has the quays of its box. -/
theorem mem_stops (h : stopsInViewport cosDegrees (some (StopGrid.build store)) (some b) (some limit) = .ok res)
    (ht : res.truncated = false) {stop : StopInfo} (hquay : store.HasQuay stop)
    (hb : b.contains stop.lat stop.lon = true) : StopJson.from_ stop ∈ res.stops :=
  ((stops_of_answer h ht).2 _).mpr ⟨stop, StopGrid.mem_hits hquay hb, rfl⟩

/-- Of the stops with coordinates it has only those in its box. -/
theorem contains_of_mem_stops (h : stopsInViewport cosDegrees (some (StopGrid.build store)) (some b) (some limit) = .ok res)
    (ht : res.truncated = false) {json : StopJson} (hjson : json ∈ res.stops) (hlat : json.lat.isFinite = true)
    (hlon : json.lon.isFinite = true) : b.contains json.lat json.lon = true := by
  obtain ⟨⟨hminLat, hmaxLat, hminLon, hmaxLon⟩, hmem⟩ := stops_of_answer h ht
  obtain ⟨stop, hstop, rfl⟩ := (hmem json).mp hjson
  have hout := StopGrid.outside_of_mem_hits hstop
  simp only [StopGrid.outside, Bool.or_eq_false_iff] at hout
  obtain ⟨⟨⟨h1, h2⟩, h3⟩, h4⟩ := hout
  simp only [BBox.contains, Bool.and_eq_true]
  exact ⟨⟨⟨Num.le_of_isFinite hminLat hlat h1, Num.le_of_isFinite hlat hmaxLat h2⟩, Num.le_of_isFinite hminLon hlon h3⟩,
    Num.le_of_isFinite hlon hmaxLon h4⟩

/-- An answer that is not truncated has the quays of its box, and no others. -/
theorem mem_stops_iff (hk : store.StopsKeyed)
    (h : stopsInViewport cosDegrees (some (StopGrid.build store)) (some b) (some limit) = .ok res)
    (ht : res.truncated = false) (json : StopJson) :
    json ∈ res.stops ↔ ∃ stop, store.HasQuay stop ∧ b.contains stop.lat stop.lon = true ∧ StopJson.from_ stop = json := by
  constructor
  · intro hjson
    obtain ⟨stop, hstop, rfl⟩ := ((stops_of_answer h ht).2 json).mp hjson
    have hquay := StopGrid.hasQuay_of_mem_hits hk hstop
    exact ⟨stop, hquay, contains_of_mem_stops h ht hjson hquay.lat hquay.lon, rfl⟩
  · rintro ⟨stop, hquay, hb, rfl⟩
    exact mem_stops h ht hquay hb

end

end OV.Impl
