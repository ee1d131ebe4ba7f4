import Ovlive.Impl.Api.Vehicles

/-!
# What a box parameter reads as

`parse_bbox` reads the parts of its text that are numbers, and counts those. So
it reads a text that is no box exactly if four of its parts are numbers and
others are not, or one of the four is not finite (`parseBbox_iff`). What it does
not read is refused by the stops endpoint and taken for no box by the vehicles
endpoint (`hits_of_not_read`), so the parameter has one reading in both exactly
if it is well formed.
-/

namespace OV.Impl

/-- The parts of a box parameter, as numbers. -/
def boxParts (s : String) : List (Option Num) := (Text.split ',' s.toList).map fun x => Text.parseF64? (Text.trim x)

/-- Four finite numbers. -/
def BBox.Finite (b : BBox) : Prop :=
  b.minLon.isFinite = true ∧ b.minLat.isFinite = true ∧ b.maxLon.isFinite = true ∧ b.maxLat.isFinite = true

theorem BBox.Finite.exists_fin {b : BBox} (h : b.Finite) :
    ∃ p q r s : ℚ, b.minLon = .fin p ∧ b.minLat = .fin q ∧ b.maxLon = .fin r ∧ b.maxLat = .fin s := by
  obtain ⟨h1, h2, h3, h4⟩ := h
  obtain ⟨p, hp⟩ := Num.isFinite_iff.mp h1
  obtain ⟨q, hq⟩ := Num.isFinite_iff.mp h2
  obtain ⟨r, hr⟩ := Num.isFinite_iff.mp h3
  obtain ⟨s, hs⟩ := Num.isFinite_iff.mp h4
  exact ⟨p, q, r, s, hp, hq, hr, hs⟩

/-- A text is four finite numbers, in this order. -/
def ReadsBox (s : String) (b : BBox) : Prop :=
  boxParts s = [some b.minLon, some b.minLat, some b.maxLon, some b.maxLat] ∧ b.Finite

def WellFormedBox (s : String) : Prop := ∃ b, ReadsBox s b

/-- Four of the parts are numbers, but there are others, or one of the four is
not finite. -/
def Misread (s : String) : Prop :=
  ((boxParts s).filterMap id).length = 4 ∧
    (none ∈ boxParts s ∨ ∃ x, some x ∈ boxParts s ∧ x.isFinite = false)

variable {s : String} {b : BBox}

theorem parseBbox_eq_some :
    parseBbox s = some b ↔ (boxParts s).filterMap id = [b.minLon, b.minLat, b.maxLon, b.maxLat] := by
  have hparts : (boxParts s).filterMap id = (Text.split ',' s.toList).filterMap fun x => Text.parseF64? (Text.trim x) := by
    rw [boxParts, List.filterMap_map]
    rfl
  rw [hparts, parseBbox]
  split
  · rename_i minLon minLat maxLon maxLat heq
    rw [heq, Option.some.injEq]
    constructor
    · rintro rfl
      rfl
    · intro h
      simp only [List.cons.injEq, and_true] at h
      obtain ⟨rfl, rfl, rfl, rfl⟩ := h
      rfl
  · rename_i hne
    exact iff_of_false (by simp) fun heq => hne _ _ _ _ heq

/-- Without others the parts are the numbers among them. -/
theorem map_some_filterMap {A : Type} {l : List (Option A)} (h : none ∉ l) : (l.filterMap id).map some = l := by
  induction l with
  | nil => rfl
  | cons x l ih =>
    rw [List.mem_cons, not_or] at h
    cases x with
    | none => exact absurd rfl h.1
    | some a =>
      show some a :: (l.filterMap id).map some = _
      rw [ih h.2]

theorem parseBbox_of_reads (h : ReadsBox s b) : parseBbox s = some b := by
  rw [parseBbox_eq_some, h.1]
  rfl

/-- Every text reads as the box that it is, and no other, exactly if it is not misread. -/
theorem parseBbox_iff (s : String) : (∀ b, parseBbox s = some b ↔ ReadsBox s b) ↔ ¬ Misread s := by
  constructor
  · rintro h ⟨hlen, hbad⟩
    obtain ⟨minLon, minLat, maxLon, maxLat, heq⟩ := List.length_eq_four.mp hlen
    let b : BBox := { minLon := minLon, minLat := minLat, maxLon := maxLon, maxLat := maxLat }
    obtain ⟨hparts, hfin⟩ := (h b).mp (parseBbox_eq_some.mpr heq)
    rw [hparts] at hbad
    rcases hbad with hnone | ⟨x, hx, hinf⟩
    · simp at hnone
    · obtain ⟨h1, h2, h3, h4⟩ := hfin
      have hfinite : x.isFinite = true := by
        simp only [List.mem_cons, Option.some.injEq, List.not_mem_nil, or_false] at hx
        rcases hx with rfl | rfl | rfl | rfl <;> assumption
      rw [hfinite] at hinf
      cases hinf
  · intro h b
    refine ⟨fun hb => ?_, parseBbox_of_reads⟩
    have hnums := parseBbox_eq_some.mp hb
    have hlen : ((boxParts s).filterMap id).length = 4 := by rw [hnums]; rfl
    have hparts : boxParts s = [some b.minLon, some b.minLat, some b.maxLon, some b.maxLat] := by
      rw [← map_some_filterMap fun hnone => h ⟨hlen, .inl hnone⟩, hnums]
      rfl
    have hfinite (x : Num) (hx : some x ∈ boxParts s) : x.isFinite = true := by
      by_contra hinf
      exact h ⟨hlen, .inr ⟨x, hx, Bool.eq_false_iff.mpr hinf⟩⟩
    rw [hparts] at hfinite
    exact ⟨hparts, hfinite _ (by simp), hfinite _ (by simp), hfinite _ (by simp), hfinite _ (by simp)⟩

/-! ## The two endpoints -/

/-- A query whose box is not read has the whole index for an answer. -/
theorem hits_of_not_read {q : VehicleQuery} (hq : q.bbox = some s) (h : parseBbox s = none) (idx : VehicleIndex) :
    q.hits idx = idx.all (buildFilters q) := by
  rw [VehicleQuery.hits, hq, Option.bind_some, h]

/-- The box parameter has one reading: as the box that it is; what is none is
refused by the stops endpoint, and the vehicles endpoint does not answer it with
the vehicles of the whole country. -/
structure OneReading (s : String) : Prop where
  box : ∀ b, parseBbox s = some b ↔ ReadsBox s b
  stops : ¬ WellFormedBox s → ∀ cosDegrees idx limit, ∃ e, stopsInViewport cosDegrees idx (parseBbox s) limit = .error e
  vehicles : ¬ WellFormedBox s → ∀ (idx : VehicleIndex) (q : VehicleQuery), q.bbox = some s →
    idx.all (buildFilters q) ≠ [] → q.hits idx ≠ idx.all (buildFilters q)

/-- A train near Gouda. -/
def goudaTrain : LiveTrip :=
  { LiveTrip.new { dataowner := "IFF", vehicleNumber := "8743" } 0 with
    vehicleType := .train, lat := .fin 52, lon := .fin 4.7 }

def goudaIndex : VehicleIndex where
  vehicles := [goudaTrain]
  positioned := by decide
  distinct := by decide

/-- What is no box is taken for one, or for no parameter at all. -/
theorem oneReading_iff (s : String) : OneReading s ↔ WellFormedBox s := by
  constructor
  · intro h
    by_contra hbad
    cases hp : parseBbox s with
    | some b => exact hbad ⟨b, (h.box b).mp hp⟩
    | none =>
      let q : VehicleQuery := { bbox := some s }
      have hall : goudaIndex.all (buildFilters q) = [goudaTrain] := rfl
      exact h.vehicles hbad goudaIndex q rfl (by rw [hall]; exact List.cons_ne_nil _ _) (hits_of_not_read rfl hp _)
  · rintro ⟨b, hb⟩
    refine ⟨fun b' => ⟨fun h => ?_, parseBbox_of_reads⟩, fun h => absurd ⟨b, hb⟩ h, fun h => absurd ⟨b, hb⟩ h⟩
    rw [parseBbox_of_reads hb, Option.some.injEq] at h
    exact h ▸ hb

/-- A text reads as the box that it is exactly if it is not misread, and has one
reading at both endpoints exactly if it is a box. -/
theorem bbox_reading_iff (s : String) :
    ((∀ b, parseBbox s = some b ↔ ReadsBox s b) ↔ ¬ Misread s) ∧ (OneReading s ↔ WellFormedBox s) :=
  ⟨parseBbox_iff s, oneReading_iff s⟩

/-- A fifth part that is no number is skipped, and without its commas a box is
no box. -/
theorem bbox_misread : ¬ OneReading "5.1,52.0,?,5.2,52.1" ∧ ¬ OneReading "5.1;52.0;5.2;52.1" := by
  constructor
  · intro h
    obtain ⟨b, hb⟩ : ∃ b, parseBbox "5.1,52.0,?,5.2,52.1" = some b := Option.isSome_iff_exists.mp (by decide +kernel)
    have hfive : (boxParts "5.1,52.0,?,5.2,52.1").length = 5 := by decide +kernel
    rw [((h.box b).mp hb).1] at hfive
    cases hfive
  · intro h
    have hlen : (boxParts "5.1;52.0;5.2;52.1").length = 1 := by decide +kernel
    have hbad : ¬ WellFormedBox "5.1;52.0;5.2;52.1" := by
      rintro ⟨b, hb, -⟩
      rw [hb] at hlen
      cases hlen
    let q : VehicleQuery := { bbox := some "5.1;52.0;5.2;52.1" }
    have hall : goudaIndex.all (buildFilters q) = [goudaTrain] := rfl
    exact h.vehicles hbad goudaIndex q rfl (by rw [hall]; exact List.cons_ne_nil _ _)
      (hits_of_not_read rfl (by decide +kernel) _)

end OV.Impl
