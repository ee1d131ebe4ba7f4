import Ovlive.Impl.Api.Vehicles
import Ovlive.Impl.Api.Ws

/-!
# What a type filter lets through

Both decoders of a type filter drop what names no type, and the matcher takes an
empty list for no filter. So what a filter lets through has a type that it names
if it names one at all (`typed_iff`), and is not filtered by type otherwise
(`typesRead_eq_nil`); both requests are instances of that.
-/

namespace OV.Impl

/-- The filter without its types. -/
def Filters.untyped (f : Filters) : Filters := { f with vehicleTypes := [] }

section

variable {A : Type} {decode : A → Option VehicleType} {requested : List A} {f : Filters} {t : LiveTrip}

theorem typesRead_eq_nil (h : f.vehicleTypes = requested.filterMap decode)
    (hnone : ¬ ∃ x ∈ requested, (decode x).isSome) : f = f.untyped := by
  have hnil : requested.filterMap decode = [] := by
    refine List.filterMap_eq_nil_iff.mpr fun x hx => ?_
    by_contra hx'
    exact hnone ⟨x, hx, Option.isSome_iff_ne_none.mpr hx'⟩
  rw [Filters.untyped, ← hnil, ← h]

/-- A filter that names a type lets through only what it names. -/
theorem named_of_matches (h : f.vehicleTypes = requested.filterMap decode)
    (hsome : ∃ x ∈ requested, (decode x).isSome) (ht : f.matches t = true) :
    ∃ x ∈ requested, decode x = some t.vehicleType := by
  obtain ⟨x, hx, hdec⟩ := hsome
  obtain ⟨ty, hty⟩ := Option.isSome_iff_exists.mp hdec
  have hne : f.vehicleTypes.isEmpty = false := by
    rw [h, List.isEmpty_eq_false_iff]
    exact List.ne_nil_of_mem (List.mem_filterMap.mpr ⟨x, hx, hty⟩)
  simp only [Filters.matches, hne, Bool.false_or, Bool.and_eq_true, List.contains_iff_mem] at ht
  have hmem := ht.1.1
  rw [h, List.mem_filterMap] at hmem
  exact hmem

/-- Of some trips, a filter lets through only what it names, exactly if it names
a type, or its other conditions let nothing through. -/
theorem typed_iff (h : f.vehicleTypes = requested.filterMap decode) (ts : List LiveTrip) :
    (∀ t ∈ ts.filter f.matches, ∃ x ∈ requested, decode x = some t.vehicleType) ↔
      (∃ x ∈ requested, (decode x).isSome) ∨ ts.filter f.untyped.matches = [] := by
  by_cases hsome : ∃ x ∈ requested, (decode x).isSome
  · exact iff_of_true (fun t ht => named_of_matches h hsome (List.mem_filter.mp ht).2) (.inl hsome)
  · rw [← typesRead_eq_nil h hsome]
    constructor
    · intro hall
      refine .inr (List.eq_nil_iff_forall_not_mem.mpr fun t ht => hsome ?_)
      obtain ⟨x, hx, hdec⟩ := hall t ht
      exact ⟨x, hx, by rw [hdec]; rfl⟩
    · rintro (hsome' | hnil)
      · exact absurd hsome' hsome
      · rw [hnil]
        exact fun t ht => absurd ht List.not_mem_nil

end

/-! ## The stream -/

/-- A message that asks for a view. -/
def ClientMessage.view (msg : ClientMessage) : Option View :=
  match msg.payload with
  | some (.subscribe w) | some (.updateViewport w) => some w
  | _ => none

/-- What a message with a box and filters leaves, is subscribed to them. -/
theorem applyClientMsg_filters {msg : ClientMessage} {old : Option Subscription} {sub : Subscription} {w : View}
    {vp : Viewport} {f : PbFilters} (hw : msg.view = some w) (hvp : w.viewport = some vp) (hf : w.filters = some f)
    (h : (applyClientMsg msg old).1 = some sub) : sub.bbox = pbViewportToBBox vp ∧ sub.filters = pbFiltersToCore f := by
  unfold ClientMessage.view at hw
  split at hw
  · rename_i w' hp
    cases hw
    simp only [applyClientMsg, hp, hvp, hf, Option.some.injEq] at h
    rw [← h]
    exact ⟨rfl, rfl⟩
  · rename_i w' hp
    cases hw
    cases old with
    | none =>
      simp only [applyClientMsg, hp] at h
      cases h
    | some s =>
      simp only [applyClientMsg, hp, hvp, hf, Option.some.injEq] at h
      rw [← h]
      exact ⟨rfl, rfl⟩
  · cases hw

/-! ## The vehicles endpoint -/

/-- The vehicles of an answer are among the hits. -/
theorem exists_hit_of_mem {idx : VehicleIndex} {q : VehicleQuery} {v : VehicleJson}
    (h : v ∈ (listVehicles idx q).vehicles) : ∃ t ∈ q.hits idx, VehicleJson.from_ t = v := by
  simp only [listVehicles, List.mem_map] at h
  obtain ⟨t, ht, rfl⟩ := h
  refine ⟨t, ?_, rfl⟩
  have hranked : t ∈ if (buildFilters q).search.isEmpty then q.hits idx
      else (q.hits idx).insertionSort fun a b =>
        searchKey (Text.asciiLower (buildFilters q).search) a ≤ searchKey (Text.asciiLower (buildFilters q).search) b := by
    cases hl : q.limit with
    | none =>
      rw [hl] at ht
      exact ht
    | some n =>
      rw [hl] at ht
      exact List.mem_of_mem_take ht
  split at hranked
  · exact hranked
  · exact (List.mem_insertionSort _).mp hranked

/-- The parts of a list of type names. -/
def typeNames (types : String) : List (List Char) := Text.split ',' types.toList

theorem buildFilters_types {q : VehicleQuery} {types : String} (h : q.types = some types) :
    (buildFilters q).vehicleTypes = (typeNames types).filterMap parseType := by
  rw [buildFilters, h]
  rfl

/-- An answer has only the types that the query names, exactly if it names one,
or the query without its types has an empty answer. -/
theorem answer_typed_iff (idx : VehicleIndex) {q : VehicleQuery} {types : String} (h : q.types = some types) :
    (∀ v ∈ (listVehicles idx q).vehicles, ∃ x ∈ typeNames types, ∃ ty, parseType x = some ty ∧ v.vehicleType = typeStr ty) ↔
      (∃ x ∈ typeNames types, (parseType x).isSome) ∨ (listVehicles idx { q with types := none }).vehicles = [] := by
  by_cases hsome : ∃ x ∈ typeNames types, (parseType x).isSome
  · refine iff_of_true (fun v hv => ?_) (.inl hsome)
    obtain ⟨t, ht, rfl⟩ := exists_hit_of_mem hv
    have hmatch : (buildFilters q).matches t = true := by
      unfold VehicleQuery.hits at ht
      split at ht
      · exact (List.mem_filter.mp ht).2
      · exact (List.mem_filter.mp ht).2
    obtain ⟨x, hx, hdec⟩ := named_of_matches (buildFilters_types h) hsome hmatch
    exact ⟨x, hx, t.vehicleType, hdec, rfl⟩
  · have huntyped : buildFilters { q with types := none } = buildFilters q :=
      (typesRead_eq_nil (buildFilters_types h) hsome).symm
    have hsame : listVehicles idx { q with types := none } = listVehicles idx q := by
      unfold listVehicles VehicleQuery.hits
      rw [huntyped]
    rw [hsame]
    constructor
    · intro hall
      refine .inr (List.eq_nil_iff_forall_not_mem.mpr fun v hv => hsome ?_)
      obtain ⟨x, hx, ty, hdec, -⟩ := hall v hv
      exact ⟨x, hx, by rw [hdec]; rfl⟩
    · rintro (hsome' | hnil)
      · exact absurd hsome' hsome
      · rw [hnil]
        exact fun v hv => absurd hv List.not_mem_nil

/-- What a view's box shows, and what a query is answered with, has only the
types asked for, exactly if one of them is a type, or there is nothing to show
whatever the type. -/
theorem types_not_widened_iff (idx : VehicleIndex) :
    (∀ (msg : ClientMessage) (old : Option Subscription) (sub : Subscription) (w : View) (vp : Viewport) (f : PbFilters),
      msg.view = some w → w.viewport = some vp → w.filters = some f → f.vehicleTypes ≠ [] →
      (applyClientMsg msg old).1 = some sub →
        ((∀ t ∈ idx.query sub.bbox sub.filters, ∃ n ∈ f.vehicleTypes, pbTypeToCore n = some t.vehicleType) ↔
          (∃ n ∈ f.vehicleTypes, (pbTypeToCore n).isSome) ∨
            idx.query (pbViewportToBBox vp) (pbFiltersToCore f).untyped = [])) ∧
    ∀ (q : VehicleQuery) (types : String), q.types = some types →
      ((∀ v ∈ (listVehicles idx q).vehicles,
          ∃ x ∈ typeNames types, ∃ ty, parseType x = some ty ∧ v.vehicleType = typeStr ty) ↔
        (∃ x ∈ typeNames types, (parseType x).isSome) ∨ (listVehicles idx { q with types := none }).vehicles = []) := by
  refine ⟨fun msg old sub w vp f hw hvp hf _ hsub => ?_, fun q types h => answer_typed_iff idx h⟩
  obtain ⟨hbox, hfilters⟩ := applyClientMsg_filters hw hvp hf hsub
  rw [hbox, hfilters]
  exact typed_iff (f := pbFiltersToCore f) rfl _

/-- A bus in Utrecht. -/
def utrechtBus : LiveTrip :=
  { LiveTrip.new { dataowner := "QBUZZ", vehicleNumber := "4201" } 0 with
    vehicleType := .bus, lat := .fin 52.1, lon := .fin 5.1 }

/-- Asked for a type of a later version of the protocol, or for submarines, it
is a bus. -/
theorem types_widened :
    (¬ ∀ (idx : VehicleIndex) (msg : ClientMessage) (old : Option Subscription) (sub : Subscription) (w : View)
        (vp : Viewport) (f : PbFilters), msg.view = some w → w.viewport = some vp → w.filters = some f →
      f.vehicleTypes ≠ [] → (applyClientMsg msg old).1 = some sub →
        ∀ t ∈ idx.query sub.bbox sub.filters, ∃ n ∈ f.vehicleTypes, pbTypeToCore n = some t.vehicleType) ∧
    ¬ ∀ (idx : VehicleIndex) (q : VehicleQuery) (types : String), q.types = some types →
      ∀ v ∈ (listVehicles idx q).vehicles,
        ∃ x ∈ typeNames types, ∃ ty, parseType x = some ty ∧ v.vehicleType = typeStr ty := by
  let idx : VehicleIndex := { vehicles := [utrechtBus], positioned := by decide, distinct := by decide }
  constructor
  · intro h
    let vp : Viewport := { minLat := .fin 52, minLon := .fin 5, maxLat := .fin 53, maxLon := .fin 6, zoom := 12 }
    let f : PbFilters := { vehicleTypes := [6], dataowners := [], search := "" }
    let w : View := { viewport := some vp, filters := some f, pinned := [] }
    have hshown : utrechtBus ∈ idx.query (pbViewportToBBox vp) (pbFiltersToCore f) :=
      List.mem_filter.mpr ⟨List.mem_filter.mpr ⟨List.mem_singleton_self _, by decide +kernel⟩, by decide +kernel⟩
    obtain ⟨n, hn, hty⟩ := h idx { payload := some (.subscribe w) } none _ w vp f rfl rfl rfl (by decide) rfl _ hshown
    rw [List.mem_singleton.mp hn] at hty
    cases hty
  · intro h
    let q : VehicleQuery := { types := some "submarine" }
    obtain ⟨x, hx, ty, hty, -⟩ := h idx q "submarine" rfl (VehicleJson.from_ utrechtBus) List.mem_cons_self
    have hnone : (typeNames "submarine").all fun x => (parseType x).isNone := by decide +kernel
    have hx' := List.all_eq_true.mp hnone x hx
    rw [hty] at hx'
    cases hx'

end OV.Impl
