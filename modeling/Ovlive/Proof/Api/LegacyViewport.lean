import Ovlive.Impl.Api.Legacy
import Ovlive.Proof.Api.BoxParam

/-!
# What the old viewport lets through

`parse_viewport` rejects by comparisons, and none of them holds of NaN. So a
viewport with a NaN in it passes, unless the bounds that are numbers fail
already; and where the area has no finite limit, a viewport without end passes
too (`viewport_proper_iff`). Nothing else does: bounds in order have a positive
difference, and an infinite difference makes an infinite area (`finite_of_area`).
-/

namespace OV.Impl

/-- The area that `parse_viewport` limits. -/
def BBox.area (b : BBox) : Num := (b.maxLat.sub b.minLat).mul (b.maxLon.sub b.minLon)

/-- A box of finite bounds in order, of the area allowed. -/
structure BBox.Proper (maxArea : Num) (b : BBox) : Prop where
  finite : b.Finite
  lat : b.minLat.lt b.maxLat = true
  lon : b.minLon.lt b.maxLon = true
  area : b.area.le maxArea = true

def BBox.NoNan (b : BBox) : Prop := b.minLon ≠ .nan ∧ b.minLat ≠ .nan ∧ b.maxLon ≠ .nan ∧ b.maxLat ≠ .nan

theorem BBox.Finite.noNan {b : BBox} (h : b.Finite) : b.NoNan := by
  obtain ⟨p, q, r, s, hp, hq, hr, hs⟩ := h.exists_fin
  rw [NoNan, hp, hq, hr, hs]
  exact ⟨Num.noConfusion, Num.noConfusion, Num.noConfusion, Num.noConfusion⟩

theorem BBox.noNan_of_area {b : BBox} (h : b.area ≠ .nan) : b.NoNan := by
  refine ⟨?_, ?_, ?_, ?_⟩ <;> intro hnan <;> exact h (by rw [area, hnan]; simp)

/-- Bounds in order, of an area below a finite limit, are finite. -/
theorem BBox.finite_of_area {b : BBox} {m : ℚ} (hlat : b.minLat.lt b.maxLat = true)
    (hlon : b.minLon.lt b.maxLon = true) (harea : (Num.fin m).lt b.area = false) : b.Finite := by
  have hinf (h : b.area = .posInf) : b.Finite := by
    rw [h] at harea
    cases harea
  rcases Num.sub_of_lt hlat with hlat | ⟨p, q, hp, hq, hpq⟩
  · rcases Num.sub_of_lt hlon with hlon | ⟨r, s, hr, hs, hrs⟩
    · exact hinf (by rw [area, hlat, hlon]; rfl)
    · have hpos : 0 < s - r := sub_pos.mpr hrs
      exact hinf (by rw [area, hlat, hr, hs, Num.sub_fin, Num.posInf_mul_fin hpos])
  · rcases Num.sub_of_lt hlon with hlon | ⟨r, s, hr, hs, hrs⟩
    · have hpos : 0 < q - p := sub_pos.mpr hpq
      exact hinf (by rw [area, hlon, hp, hq, Num.sub_fin, Num.fin_mul_posInf hpos])
    · rw [Finite, hp, hq, hr, hs]
      exact ⟨rfl, rfl, rfl, rfl⟩

namespace Legacy

variable {q : ViewportQuery} {b : BBox} {maxArea : Num}

/-- The four texts are numbers, the bounds of a box. -/
structure ReadsFields (q : ViewportQuery) (b : BBox) : Prop where
  neLat : viewportField "neLat" q.neLat = .ok b.maxLat
  neLon : viewportField "neLon" q.neLon = .ok b.maxLon
  swLat : viewportField "swLat" q.swLat = .ok b.minLat
  swLon : viewportField "swLon" q.swLon = .ok b.minLon

/-- The bounds that `parse_viewport` rejects. -/
def WrongBounds (b : BBox) : Prop := b.maxLat.le b.minLat = true ∨ b.maxLon.le b.minLon = true

/-- No bound is NaN, and none is infinite unless the area has a finite limit. -/
def Sound (maxArea : Num) (b : BBox) : Prop := b.NoNan ∧ (maxArea = .posInf → b.Finite)

/-- What passes: four numbers that no comparison rejects. -/
theorem parseViewport_eq_ok (hmax : (Num.fin 0).lt maxArea = true) :
    parseViewport q maxArea = .ok b ↔ ReadsFields q b ∧ ¬ WrongBounds b ∧ maxArea.lt b.area = false := by
  constructor
  · intro h
    unfold parseViewport at h
    cases hneLat : viewportField "neLat" q.neLat with
    | error e => rw [hneLat] at h; cases h
    | ok neLat =>
    cases hneLon : viewportField "neLon" q.neLon with
    | error e => rw [hneLat, hneLon] at h; cases h
    | ok neLon =>
    cases hswLat : viewportField "swLat" q.swLat with
    | error e => rw [hneLat, hneLon, hswLat] at h; cases h
    | ok swLat =>
    cases hswLon : viewportField "swLon" q.swLon with
    | error e => rw [hneLat, hneLon, hswLat, hswLon] at h; cases h
    | ok swLon =>
    rw [hneLat, hneLon, hswLat, hswLon] at h
    simp only [bind, Except.bind, hmax, Bool.true_and] at h
    split at h
    · cases h
    · rename_i hbounds
      split at h
      · cases h
      · rename_i harea
        cases h
        rw [Bool.or_eq_true] at hbounds
        exact ⟨⟨hneLat, hneLon, hswLat, hswLon⟩, hbounds, Bool.eq_false_iff.mpr harea⟩
  · rintro ⟨⟨hneLat, hneLon, hswLat, hswLon⟩, hbounds, harea⟩
    unfold parseViewport
    rw [hneLat, hneLon, hswLat, hswLon]
    simp only [bind, Except.bind, hmax, Bool.true_and]
    rw [WrongBounds, ← Bool.or_eq_true] at hbounds
    rw [if_neg hbounds]
    exact if_neg (Bool.eq_false_iff.mp harea)

/-- An area above the limit is a number, and there is a limit. -/
theorem sound_of_large (h : maxArea.lt b.area = true) : Sound maxArea b := by
  constructor
  · refine BBox.noNan_of_area fun hnan => ?_
    rw [hnan] at h
    cases maxArea <;> cases h
  · rintro rfl
    cases harea : b.area <;> rw [harea] at h <;> cases h

/-- A proper box passes. -/
theorem passes_of_proper (h : b.Proper maxArea) : ¬ WrongBounds b ∧ maxArea.lt b.area = false := by
  refine ⟨fun hwrong => ?_, Num.not_lt_of_le h.area⟩
  rcases hwrong with hlat | hlon
  · rw [Num.not_le_of_lt h.lat] at hlat
    cases hlat
  · rw [Num.not_le_of_lt h.lon] at hlon
    cases hlon

/-- Where no bound is NaN, nor infinite without a limit, only proper boxes pass. -/
theorem proper_of_passes (hmax : (Num.fin 0).lt maxArea = true) (hb : ¬ WrongBounds b)
    (harea : maxArea.lt b.area = false) (hs : Sound maxArea b) : b.Proper maxArea := by
  obtain ⟨⟨h1, h2, h3, h4⟩, hinf⟩ := hs
  rw [WrongBounds, not_or, Bool.not_eq_true, Bool.not_eq_true] at hb
  have hlat := Num.lt_of_not_le h2 h4 hb.1
  have hlon := Num.lt_of_not_le h1 h3 hb.2
  have hfin : b.Finite := by
    cases maxArea with
    | nan | negInf => cases hmax
    | posInf => exact hinf rfl
    | fin m => exact BBox.finite_of_area hlat hlon harea
  have hnan : b.area ≠ .nan := by
    obtain ⟨p, q, r, s, hp, hq, hr, hs⟩ := hfin.exists_fin
    rw [BBox.area, hp, hq, hr, hs, Num.sub_fin, Num.sub_fin]
    exact Num.noConfusion
  have hmaxNan : maxArea ≠ .nan := by
    rintro rfl
    cases hmax
  exact ⟨hfin, hlat, hlon, Num.le_of_not_lt hnan hmaxNan harea⟩

/-- The viewport accepted is the proper box that the texts say, and all else is
rejected, exactly if the box that they say has wrong bounds, or no bound of NaN
and no infinite one without a limit on the area. -/
theorem viewport_proper_iff (hmax : (Num.fin 0).lt maxArea = true) (q : ViewportQuery) :
    (∀ b, parseViewport q maxArea = .ok b ↔ ReadsFields q b ∧ b.Proper maxArea) ↔
      ∀ b, ReadsFields q b → WrongBounds b ∨ Sound maxArea b := by
  constructor
  · intro h b hq
    by_cases hb : WrongBounds b
    · exact .inl hb
    · refine .inr ?_
      cases harea : maxArea.lt b.area with
      | false =>
        have hproper := ((h b).mp ((parseViewport_eq_ok hmax).mpr ⟨hq, hb, harea⟩)).2
        exact ⟨hproper.finite.noNan, fun _ => hproper.finite⟩
      | true => exact sound_of_large harea
  · intro h b
    rw [parseViewport_eq_ok hmax]
    refine and_congr_right fun hq => ⟨fun hpass => ?_, passes_of_proper⟩
    exact proper_of_passes hmax hpass.1 hpass.2 ((h b hq).resolve_left hpass.1)

/-- A viewport over Utrecht. -/
theorem viewport_proper_utrecht :
    let q : ViewportQuery := { neLat := some "52.1", neLon := some "5.2", swLat := some "52.0", swLon := some "5.1" }
    ∀ b, parseViewport q (.fin 2) = .ok b ↔ ReadsFields q b ∧ b.Proper (.fin 2) := by
  intro q
  refine (viewport_proper_iff (by decide) q).mpr fun b hq => .inr ⟨?_, fun h => Num.noConfusion h⟩
  have hneLat : viewportField "neLat" q.neLat = .ok (Num.f64 (.fin 52.1)) := by decide +kernel
  have hneLon : viewportField "neLon" q.neLon = .ok (Num.f64 (.fin 5.2)) := by decide +kernel
  have hswLat : viewportField "swLat" q.swLat = .ok (Num.f64 (.fin 52)) := by decide +kernel
  have hswLon : viewportField "swLon" q.swLon = .ok (Num.f64 (.fin 5.1)) := by decide +kernel
  rw [BBox.NoNan, ← Except.ok.inj (hswLon.symm.trans hq.swLon), ← Except.ok.inj (hswLat.symm.trans hq.swLat),
    ← Except.ok.inj (hneLon.symm.trans hq.neLon), ← Except.ok.inj (hneLat.symm.trans hq.neLat)]
  exact ⟨Num.f64_ne_nan _, Num.f64_ne_nan _, Num.f64_ne_nan _, Num.f64_ne_nan _⟩

/-- The bound to the north of this one is no number, and it passes. -/
theorem viewport_nan_passes :
    let q : ViewportQuery := { neLat := some "NaN", neLon := some "6", swLat := some "52", swLon := some "5" }
    ¬ ∀ b, parseViewport q (.fin 2) = .ok b ↔ ReadsFields q b ∧ b.Proper (.fin 2) := by
  intro q h
  let b : BBox := { minLat := .fin 52, minLon := .fin 5, maxLat := .nan, maxLon := .fin 6 }
  have hpasses : parseViewport q (.fin 2) = .ok b := by decide +kernel
  have hlat := ((h b).mp hpasses).2.lat
  cases hlat

end Legacy

end OV.Impl
