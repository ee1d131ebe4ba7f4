import Ovlive.Impl.Client.StopLayer
import Ovlive.Proof.Gtfs.Grid

/-!
# What the stop layer draws

The stops drawn are those of the box loaded (`Loaded`), so that the layer covers
the view at rest exactly in the runs in which every answer that arrives in the view
of the layer is for a box with the view's quays (`covered_iff`). It is unless a move
since the request was skipped for the box loaded before (`covered_of_no_skip`).
-/

namespace OV.Impl.Client

namespace StopLayer

variable {cosDegrees : Num → Num} {store : GtfsStore} {s t : StopLayer} {a : StopAction}

/-- The layer is on, and the zoom high enough for it. -/
def Visible (s : StopLayer) : Prop := s.showStops = true ∧ STOPS_ZOOM ≤ s.zoom

/-- The box has the quays of the view. -/
def ViewIn (store : GtfsStore) (s : StopLayer) (box : BBox) : Prop :=
  ∀ stop, store.HasQuay stop → s.view.contains stop.lat stop.lon = true → box.contains stop.lat stop.lon = true

/-- At rest the drawn stops include every quay in the view. -/
def Covered (store : GtfsStore) (s : StopLayer) : Prop :=
  s.request = none → s.Visible → ∀ stop, store.HasQuay stop → s.view.contains stop.lat stop.lon = true →
    stopFeature (StopJson.from_ stop) ∈ s.stops

/-- The layer as it is mounted. -/
def start (showStops : Bool) (zoom : ℚ) (view : BBox) : StopLayer :=
  StopLayer.loadStops { showStops := showStops, zoom := zoom, view := view }

/-- No request fails and no answer is truncated. -/
def succeeds (cosDegrees : Num → Num) (store : GtfsStore) (s : StopLayer) : StopAction → Prop
  | .answer => ∀ box res, s.request = some box →
      stopsInViewport cosDegrees (some (StopGrid.build store)) (some box) (some STOPS_LIMIT) = .ok res →
      res.truncated = false
  | .fail => False
  | _ => True

/-- The steps of the layer over the quays of a store, without failures. -/
def Smooth (cosDegrees : Num → Num) (store : GtfsStore) : StopLayer → StopAction → StopLayer → Prop :=
  Guarded (succeeds cosDegrees store) (Step cosDegrees (some (StopGrid.build store)))

/-- An answer that arrives while the layer is visible is for a box with the view's
quays. -/
def answersView (store : GtfsStore) (s : StopLayer) : StopAction → Prop
  | .answer => s.Visible → ∀ box, s.request = some box → s.ViewIn store box
  | _ => True

/-! ## Steps -/

/-- Loading asks for nothing, is covered, or asks for the padded view. -/
theorem loadStops_cases (s : StopLayer) :
    s.loadStops = s ∧ ¬ s.Visible ∨ s.loadStops = s ∧ covers s.stopsBox s.view = true ∨
      s.loadStops = { s with request := some (padBBox s.view STOPS_PAD) } ∧ covers s.stopsBox s.view = false := by
  unfold loadStops
  split
  · rename_i hout
    refine .inl ⟨rfl, fun hvis => ?_⟩
    rcases hout with hoff | hlow
    · exact absurd (hvis.1.symm.trans hoff) (by decide)
    · exact absurd hvis.2 (not_le.mpr hlow)
  · split
    · exact .inr (.inl ⟨rfl, ‹_›⟩)
    · exact .inr (.inr ⟨rfl, eq_false_of_ne_true ‹_›⟩)

/-- What a step does. -/
theorem step_inv (hs : Smooth cosDegrees store s a t) :
    match a with
    | .move view zoom => t = StopLayer.loadStops { s with view := view, zoom := zoom }
    | .toggle on => on = true ∧ t = StopLayer.loadStops { s with showStops := true } ∨
        on = false ∧ t = { s with showStops := false }
    | .answer => ∃ box res, s.request = some box ∧ res.truncated = false ∧ t = s.arrive box res ∧
        stopsInViewport cosDegrees (some (StopGrid.build store)) (some box) (some STOPS_LIMIT) = .ok res
    | .fail => False := by
  obtain ⟨hok, hs⟩ := hs
  cases a with
  | move view zoom => exact (Option.some.inj hs).symm
  | toggle on =>
    cases on with
    | true => exact .inl ⟨rfl, (Option.some.inj hs).symm⟩
    | false => exact .inr ⟨rfl, (Option.some.inj hs).symm⟩
  | answer =>
    simp only [Step, step] at hs
    split at hs
    · rename_i box hbox
      split at hs
      · rename_i res hres
        exact ⟨box, res, hbox, hok box res hbox hres, (Option.some.inj hs).symm, hres⟩
      · cases hs
    · cases hs
  | fail => exact hok

/-! ## What is drawn -/

/-- The stops drawn are those of the box loaded. -/
def Loaded (store : GtfsStore) (s : StopLayer) : Prop :=
  ∀ box, s.stopsBox = some box → ∀ stop, store.HasQuay stop → box.contains stop.lat stop.lon = true →
    stopFeature (StopJson.from_ stop) ∈ s.stops

theorem loaded_loadStops (h : s.Loaded store) : s.loadStops.Loaded store := by
  rcases loadStops_cases s with ⟨he, -⟩ | ⟨he, -⟩ | ⟨he, -⟩
  · rwa [he]
  · rwa [he]
  · rw [he]
    exact h

/-- A view that the loaded box covers has no other quays. -/
theorem contains_of_covers {box view : BBox} (h : covers (some box) view = true) {lat lon : Num}
    (hv : view.contains lat lon = true) : box.contains lat lon = true := by
  simp only [covers, Option.any_some, Bool.and_eq_true] at h
  simp only [BBox.contains, Bool.and_eq_true] at hv ⊢
  obtain ⟨⟨⟨h1, h2⟩, h3⟩, h4⟩ := h
  obtain ⟨⟨⟨v1, v2⟩, v3⟩, v4⟩ := hv
  exact ⟨⟨⟨Num.le_trans h1 v1, Num.le_trans v2 h3⟩, Num.le_trans h2 v3⟩, Num.le_trans v4 h4⟩

theorem covered_loadStops (h : s.Loaded store) : s.loadStops.Covered store := by
  intro hrest hvis stop hquay hview
  rcases loadStops_cases s with ⟨he, hout⟩ | ⟨he, hcovers⟩ | ⟨he, -⟩
  · exact absurd (he ▸ hvis) hout
  · rw [he] at hview ⊢
    cases hbox : s.stopsBox with
    | none =>
      rw [hbox] at hcovers
      cases hcovers
    | some box => exact h box hbox stop hquay (contains_of_covers (hbox ▸ hcovers) hview)
  · rw [he] at hrest
    cases hrest

/-- What is drawn of an answer. -/
theorem mem_arrive_iff {box : BBox} {res : StopsResponse} (ht : res.truncated = false)
    (hres : stopsInViewport cosDegrees (some (StopGrid.build store)) (some box) (some STOPS_LIMIT) = .ok res)
    {stop : StopInfo} (hquay : store.HasQuay stop) :
    stopFeature (StopJson.from_ stop) ∈ (s.arrive box res).stops ↔ box.contains stop.lat stop.lon = true := by
  constructor
  · intro hdrawn
    obtain ⟨json, hjson, hsame⟩ := List.mem_map.mp hdrawn
    have hlat : json.lat = stop.lat := congrArg StopFeature.lat hsame
    have hlon : json.lon = stop.lon := congrArg StopFeature.lon hsame
    rw [← hlat, ← hlon]
    exact contains_of_mem_stops hres ht hjson (hlat ▸ hquay.lat) (hlon ▸ hquay.lon)
  · intro hbox
    exact List.mem_map_of_mem (mem_stops hres ht hquay hbox)

/-- A step leaves the view covered exactly if it answers the view. -/
theorem covered_step_iff (h : s.Loaded store)
    (hs : Smooth cosDegrees store s a t) : (t.Covered store ↔ s.answersView store a) ∧ t.Loaded store := by
  cases a with
  | move view zoom =>
    have ht : t = _ := step_inv hs
    subst ht
    have hmoved : Loaded store { s with view := view, zoom := zoom } := h
    exact ⟨⟨fun _ => trivial, fun _ => covered_loadStops hmoved⟩, loaded_loadStops hmoved⟩
  | toggle on =>
    have hon : Loaded store { s with showStops := true } := h
    rcases step_inv hs with ⟨-, rfl⟩ | ⟨-, rfl⟩
    · exact ⟨⟨fun _ => trivial, fun _ => covered_loadStops hon⟩, loaded_loadStops hon⟩
    · exact ⟨⟨fun _ => trivial, fun _ _ hvis => absurd hvis.1 Bool.false_ne_true⟩, h⟩
  | answer =>
    obtain ⟨box, res, hbox, htrunc, rfl, hres⟩ := step_inv hs
    refine ⟨⟨fun hcov hvis box' hbox' stop hquay hview => ?_, fun hok _ hvis stop hquay hview => ?_⟩, ?_⟩
    · obtain rfl := Option.some.inj (hbox.symm.trans hbox')
      exact (mem_arrive_iff htrunc hres hquay).mp (hcov rfl hvis stop hquay hview)
    · exact (mem_arrive_iff htrunc hres hquay).mpr (hok hvis box hbox stop hquay hview)
    · intro box' hbox' stop hquay hin
      have hkept : (if res.truncated then none else some box) = some box' := hbox'
      rw [htrunc, if_neg (by decide)] at hkept
      obtain rfl := Option.some.inj hkept
      exact (mem_arrive_iff htrunc hres hquay).mpr hin
  | fail => exact absurd (step_inv hs) id

/-- Before the first answer there is no box. -/
theorem loaded_of_none (h : s.stopsBox = none) : s.Loaded store := by
  intro box hbox
  rw [h] at hbox
  cases hbox

theorem loaded_start (showStops : Bool) (zoom : ℚ) (view : BBox) : (start showStops zoom view).Loaded store :=
  loaded_loadStops (loaded_of_none rfl)

/-! ## Runs -/

/-- The view is covered at rest when the layer is mounted, and then, in a run without
failures, in every state exactly if every answer that arrives while the layer is
visible is for a box with the quays of the view. -/
theorem covered_iff (cosDegrees : Num → Num) (store : GtfsStore) (showStops : Bool) (zoom : ℚ) (view : BBox)
    (as : List StopAction) (s : StopLayer) :
    (start showStops zoom view).Covered store ∧
      (Run (Ensured (fun _ _ t => t.Covered store) (Smooth cosDegrees store)) (start showStops zoom view) as s ↔
        Run (Guarded (answersView store) (Smooth cosDegrees store)) (start showStops zoom view) as s) := by
  refine ⟨covered_loadStops (loaded_of_none rfl), ?_⟩
  refine Run.ensured_iff (P := Loaded store) (fun u e v hu hv => ?_) (loaded_start showStops zoom view)
  obtain ⟨hiff, hloaded⟩ := covered_step_iff hu hv
  exact ⟨hiff, fun _ => hloaded⟩

/-! ## Moves that are skipped -/

/-- A box padded on each side has what is between its sides. -/
theorem le_pad {a b : Num} {q : ℚ} (h : a.le (.fin q) = true) (h' : (Num.fin q).le b = true) :
    (a.sub ((b.sub a).mul STOPS_PAD)).le (.fin q) = true ∧ (Num.fin q).le (b.add ((b.sub a).mul STOPS_PAD)) = true := by
  have hpad : ¬(7 / 20 : ℚ) = 0 ∧ (0 : ℚ) < 7 / 20 := by norm_num
  cases a with
  | nan | posInf => cases h
  | negInf =>
    cases b with
    | nan | negInf => cases h'
    | posInf | fin r => simp [STOPS_PAD, Num.sub, Num.neg, Num.add, Num.mul, Num.le, hpad]
  | fin p =>
    cases b with
    | nan | negInf => cases h'
    | posInf => simp [STOPS_PAD, Num.sub, Num.neg, Num.add, Num.mul, Num.le, hpad]
    | fin r =>
      have hp : p ≤ q := of_decide_eq_true h
      have hr : q ≤ r := of_decide_eq_true h'
      simp only [STOPS_PAD, Num.sub_fin, Num.mul, Num.add_fin, Num.le_fin, decide_eq_true_eq]
      constructor <;> linarith

theorem contains_padBBox {b : BBox} {stop : StopInfo} (hquay : store.HasQuay stop)
    (h : b.contains stop.lat stop.lon = true) : (padBBox b STOPS_PAD).contains stop.lat stop.lon = true := by
  obtain ⟨lat, hlat⟩ := Num.isFinite_iff.mp hquay.lat
  obtain ⟨lon, hlon⟩ := Num.isFinite_iff.mp hquay.lon
  rw [hlat, hlon] at h ⊢
  simp only [BBox.contains, Bool.and_eq_true] at h ⊢
  obtain ⟨⟨⟨h1, h2⟩, h3⟩, h4⟩ := h
  exact ⟨⟨⟨(le_pad h1 h2).1, (le_pad h1 h2).2⟩, (le_pad h3 h4).1⟩, (le_pad h3 h4).2⟩

/-- No move or toggle is skipped, for the box loaded covers the view, while a request
is out. -/
def noSkip (s : StopLayer) : StopAction → Prop
  | .move view zoom =>
    Visible { s with view := view, zoom := zoom } → covers s.stopsBox view = true → s.request = none
  | .toggle on => on = true → covers s.stopsBox s.view = true → s.request = none
  | _ => True

/-- The request that is out is for a box with the view's quays. -/
def Awaits (store : GtfsStore) (s : StopLayer) : Prop := s.Visible → ∀ box, s.request = some box → s.ViewIn store box

theorem awaits_loadStops (h : s.Visible → covers s.stopsBox s.view = true → s.request = none) :
    s.loadStops.Awaits store := by
  intro hvis box hbox stop hquay hview
  rcases loadStops_cases s with ⟨he, hout⟩ | ⟨he, hcovers⟩ | ⟨he, -⟩
  · exact absurd (he ▸ hvis) hout
  · rw [he] at hvis hbox
    rw [h hvis hcovers] at hbox
    cases hbox
  · rw [he] at hbox hview
    obtain rfl := Option.some.inj hbox
    exact contains_padBBox hquay hview

/-- In a run without failures in which no move is skipped while a request is out the
view is covered at rest. -/
theorem covered_of_no_skip {showStops : Bool} {zoom : ℚ} {view : BBox} {as : List StopAction}
    (h : Run (Guarded noSkip (Smooth cosDegrees store)) (start showStops zoom view) as s) : s.Covered store := by
  suffices hall : s.Loaded store ∧ s.Covered store ∧ s.Awaits store from hall.2.1
  have hstart : (start showStops zoom view).Loaded store ∧ (start showStops zoom view).Covered store ∧
      (start showStops zoom view).Awaits store :=
    ⟨loaded_start showStops zoom view, covered_loadStops (loaded_of_none rfl), awaits_loadStops fun _ _ => rfl⟩
  refine h.inv (P := fun u => u.Loaded store ∧ u.Covered store ∧ u.Awaits store) (fun u a v huv hu => ?_) hstart
  obtain ⟨hskip, huv⟩ := huv
  obtain ⟨hloaded, hcovered, hawaits⟩ := hu
  obtain ⟨hiff, hloaded'⟩ := covered_step_iff hloaded huv
  have hanswers : u.answersView store a := by
    cases a with
    | answer => exact hawaits
    | move view zoom => trivial
    | toggle on => trivial
    | fail => trivial
  refine ⟨hloaded', hiff.mpr hanswers, ?_⟩
  cases a with
  | move view zoom =>
    have ht : v = _ := step_inv huv
    subst ht
    exact awaits_loadStops hskip
  | toggle on =>
    rcases step_inv huv with ⟨rfl, rfl⟩ | ⟨-, rfl⟩
    · exact awaits_loadStops fun _ => hskip rfl
    · exact fun hvis => absurd hvis.1 Bool.false_ne_true
  | answer =>
    obtain ⟨box, res, -, -, rfl, -⟩ := step_inv huv
    exact fun _ box' hbox' => nomatch hbox'
  | fail => exact absurd (step_inv huv) id

/-- A store with one quay. -/
def oneQuay : StopInfo where
  stopId := "ut"
  name := "Utrecht, Neude"
  lat := .fin (5201 / 100)
  lon := .fin (501 / 100)
  code := none
  platformCode := none
  parentStation := none
  locationType := 0

def quayStore : GtfsStore where
  stops := AList.insert "ut" oneQuay ∅

theorem hasQuay_oneQuay : quayStore.HasQuay oneQuay where
  stored := AList.lookup_insert _
  quay := by decide
  lat := rfl
  lon := rfl

/-- A view around a latitude. -/
def viewAt (lat : ℚ) : BBox where
  minLat := .fin lat
  minLon := .fin 5
  maxLat := .fin (lat + 1 / 50)
  maxLon := .fin (5 + 1 / 50)

/-- A step without failures, computed. -/
def smoothStep (cosDegrees : Num → Num) (store : GtfsStore) (s : StopLayer) (a : StopAction) : Option StopLayer :=
  let grid := some (StopGrid.build store)
  match a with
  | .answer => (s.request.bind fun box => (stopsInViewport cosDegrees grid (some box) (some STOPS_LIMIT)).toOption).bind
      fun res => if res.truncated then none else s.step cosDegrees grid .answer
  | .fail => none
  | a => s.step cosDegrees grid a

theorem smooth_of_smoothStep (h : smoothStep cosDegrees store s a = some t) : Smooth cosDegrees store s a t := by
  cases a with
  | move view zoom => exact ⟨trivial, h⟩
  | toggle on => exact ⟨trivial, h⟩
  | answer =>
    obtain ⟨res, hres, ht⟩ := Option.bind_eq_some_iff.mp h
    split at ht
    · cases ht
    · refine ⟨fun box res' hbox hres' => ?_, ht⟩
      rw [hbox, Option.bind_some, hres'] at hres
      obtain rfl := Option.some.inj hres
      exact eq_false_of_ne_true ‹_›
  | fail => cases h

/-- Away from the quay and back, before the answer for the other view is there. -/
def thereAndBack : List StopAction := [.answer, .move (viewAt 53) 15, .move (viewAt 52) 15, .answer]

/-- The view is moved away from the quay and back, so that the answer for the other
view takes the quay off the map. -/
theorem not_covered :
    ¬ ∀ as s, Run (Smooth id quayStore) (start true 15 (viewAt 52)) as s → s.Covered quayStore := by
  intro hall
  have hexec : (exec (smoothStep id quayStore) (start true 15 (viewAt 52)) thereAndBack).map
      (fun s => (s.request, s.showStops, s.zoom, s.view, s.stops)) = some (none, true, 15, viewAt 52, []) := by
    decide +kernel
  obtain ⟨s, hs, hseen⟩ := Option.map_eq_some_iff.mp hexec
  injection hseen with hrest hseen
  injection hseen with hon hseen
  injection hseen with hzoom hseen
  injection hseen with hview hstops
  have hvis : s.Visible := ⟨hon, by rw [hzoom]; decide +kernel⟩
  have hin : s.view.contains oneQuay.lat oneQuay.lon = true := by
    rw [hview]
    decide +kernel
  have hdrawn := hall thereAndBack s ((Run.of_exec hs).mono fun _ _ _ => smooth_of_smoothStep) hrest hvis oneQuay
    hasQuay_oneQuay hin
  rw [hstops] at hdrawn
  cases hdrawn

end StopLayer

end OV.Impl.Client
