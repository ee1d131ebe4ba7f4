import Ovlive.Proof.Gtfs.Enriched

/-!
# Enrichment fills gaps

What one call of the enricher leaves of a trip (`GapsFilled`): the fields that
were known, the feed's own fields, and of a train the line of its match. It is
followed through the two halves of the call, the match (`gapsFilled_matchTrip`)
and what the matched trip and route fill in (`gapsFilled_fillTrip`); the second
half does nothing when it is done again (`fillTrip_fillTrip`), and the first
does nothing on a matched trip, so neither does the whole.
-/

namespace OV.Impl

/-- `y` is `x`, unless `x` is missing. -/
def Remains {α : Type} (x y : Option α) : Prop := ∀ a, x = some a → y = some a

theorem remains_or {α : Type} (x y : Option α) : Remains x (x.or y) := by
  rintro a rfl
  rfl

theorem or_or_self {α : Type} (x y : Option α) : (x.or y).or y = x.or y := by
  cases x <;> cases y <;> rfl

theorem Remains.refl {α : Type} (x : Option α) : Remains x x := fun _ h => h

theorem Remains.trans {α : Type} {x y z : Option α} (h₁ : Remains x y) (h₂ : Remains y z) : Remains x z := fun a h =>
  h₂ a (h₁ a h)

/-- The route of the match of a trip. -/
def GtfsStore.matchedRoute (s : GtfsStore) (t : LiveTrip) : Option RouteInfo :=
  (t.matchedTripId.bind s.trips.lookup).bind fun info => s.routes.lookup info.routeId

/-- `u` is `t` with only gaps filled: a field that was known stays as it was,
and a field that no schedule tells is not touched. A train's line is also
replaced, by the match of the call that makes it, and the text's colour is
written with the missing colour of its line. -/
structure GapsFilled [Platform] (s : GtfsStore) (t u : LiveTrip) : Prop where
  vehicleType : t.vehicleType ≠ .unknown → u.vehicleType = t.vehicleType
  operatorName : Remains t.operatorName u.operatorName
  agencyId : Remains t.agencyId u.agencyId
  linePublicNumber : Remains t.linePublicNumber u.linePublicNumber
  operatingDay : Remains t.operatingDay u.operatingDay
  blockCode : Remains t.blockCode u.blockCode
  destination : Remains t.destination u.destination
  matchedTripId : Remains t.matchedTripId u.matchedTripId
  lineColor : Remains t.lineColor u.lineColor
  lineTextColor : u.lineTextColor = t.lineTextColor ∨
    t.lineColor = none ∧ ∃ r, s.matchedRoute u = some r ∧ u.lineColor = r.color ∧ u.lineTextColor = r.textColor
  linePlanningNumber : u.linePlanningNumber = t.linePlanningNumber ∨
    t.key.dataowner = TRAIN_DATAOWNER ∧ t.matchedTripId = none ∧
      ∃ m, s.trainMatch t = some m ∧ u.matchedTripId = some m.1.tripId ∧ u.linePlanningNumber = some m.1.lineCode
  scheduled : Scheduled t u

namespace GtfsStore

variable [Platform] {s : GtfsStore} {t u : LiveTrip}

theorem gapsFilled_refl (s : GtfsStore) (t : LiveTrip) : GapsFilled s t t where
  vehicleType _ := rfl
  operatorName := .refl _
  agencyId := .refl _
  linePublicNumber := .refl _
  operatingDay := .refl _
  blockCode := .refl _
  destination := .refl _
  matchedTripId := .refl _
  lineColor := .refl _
  lineTextColor := .inl rfl
  linePlanningNumber := .inl rfl
  scheduled := rfl

/-- The match, of a trip that has none yet. -/
theorem gapsFilled_matchTrip (s : GtfsStore) (t : LiveTrip) : GapsFilled s t (s.matchTrip t) := by
  have hnew (hnone : t.matchedTripId = none) (y : Option String) : Remains t.matchedTripId y := by
    rw [hnone]
    exact fun a ha => nomatch ha
  unfold matchTrip
  split_ifs with hm htrain
  · exact gapsFilled_refl s t
  · have hnone : t.matchedTripId = none := Option.not_isSome_iff_eq_none.mp hm
    rw [matchTrainTrip_eq]
    cases hmatch : s.trainMatch t with
    | none =>
      exact { gapsFilled_refl s t with
        matchedTripId := hnew hnone _
        lineTextColor := .inl rfl
        linePlanningNumber := .inl rfl
        scheduled := rfl }
    | some m =>
      exact { gapsFilled_refl s t with
        linePublicNumber := remains_or _ _
        operatingDay := remains_or _ _
        matchedTripId := hnew hnone _
        lineTextColor := .inl rfl
        linePlanningNumber := .inr ⟨htrain, hnone, m, hmatch, rfl, rfl⟩
        scheduled := rfl }
  · have hnone : t.matchedTripId = none := Option.not_isSome_iff_eq_none.mp hm
    exact { gapsFilled_refl s t with
      matchedTripId := hnew hnone _
      lineTextColor := .inl rfl
      linePlanningNumber := .inl rfl
      scheduled := rfl }

/-- The two colours are read before the route writes them. -/
theorem matchTrip_colors (s : GtfsStore) (t : LiveTrip) :
    (s.matchTrip t).lineColor = t.lineColor ∧ (s.matchTrip t).lineTextColor = t.lineTextColor := by
  unfold matchTrip
  split_ifs
  · exact ⟨rfl, rfl⟩
  · rw [matchTrainTrip_eq]
    cases s.trainMatch t <;> exact ⟨rfl, rfl⟩
  · exact ⟨rfl, rfl⟩

/-- What the matched trip and its route fill in, after the match. -/
theorem gapsFilled_fillTrip {info : TripInfo} (h : GapsFilled s t u) (hcolor : u.lineColor = t.lineColor)
    (htext : u.lineTextColor = t.lineTextColor) (hinfo : u.matchedTripId.bind s.trips.lookup = some info) :
    GapsFilled s t (s.fillTrip info u) := by
  have hframe : Scheduled t (s.fillTrip info u) := by
    rw [Scheduled, fillTrip_eq, h.scheduled]
  unfold fillTrip at hframe ⊢
  cases hr : s.routes.lookup info.routeId with
  | none =>
    simp only [hr] at hframe ⊢
    exact { h with
      destination := h.destination.trans (remains_or _ _)
      blockCode := h.blockCode.trans (remains_or _ _)
      lineTextColor := .inl htext
      scheduled := hframe }
  | some r =>
    simp only [hr] at hframe ⊢
    refine { h with
      vehicleType := fun hv => ?_
      operatorName := h.operatorName.trans (remains_or _ _)
      agencyId := h.agencyId.trans (remains_or _ _)
      linePublicNumber := h.linePublicNumber.trans (remains_or _ _)
      destination := h.destination.trans (remains_or _ _)
      blockCode := h.blockCode.trans (remains_or _ _)
      lineColor := h.lineColor.trans (remains_or _ _)
      lineTextColor := ?_
      linePlanningNumber := h.linePlanningNumber
      scheduled := hframe }
    · -- a known type is not the unknown one that the route replaces
      have hkept := h.vehicleType hv
      simp only [fillRoute, hkept, if_neg hv]
    · simp only [fillRoute, hcolor]
      cases hline : t.lineColor with
      | some c => exact .inl htext
      | none => exact .inr ⟨rfl, r, by rw [matchedRoute, hinfo, Option.bind_some, hr], rfl, rfl⟩

theorem gapsFilled_enrichTrip (s : GtfsStore) (t : LiveTrip) : GapsFilled s t (s.enrichTrip t) := by
  obtain ⟨hcolor, htext⟩ := matchTrip_colors s t
  simp only [enrichTrip]
  cases hinfo : (s.matchTrip t).matchedTripId.bind s.trips.lookup with
  | none => exact gapsFilled_matchTrip s t
  | some info => exact gapsFilled_fillTrip (gapsFilled_matchTrip s t) hcolor htext hinfo

/-! ## Once is enough -/

omit [Platform] in
theorem fillRoute_fillRoute (s : GtfsStore) (r : RouteInfo) (t : LiveTrip) :
    s.fillRoute r (s.fillRoute r t) = s.fillRoute r t := by
  have htype : (if (if t.vehicleType = .unknown then r.vehicleType else t.vehicleType) = .unknown then r.vehicleType
      else (if t.vehicleType = .unknown then r.vehicleType else t.vehicleType)) =
        if t.vehicleType = .unknown then r.vehicleType else t.vehicleType := by
    split_ifs <;> rfl
  have htext : (if (t.lineColor.or r.color).isNone then r.textColor
      else if t.lineColor.isNone then r.textColor else t.lineTextColor) =
        if t.lineColor.isNone then r.textColor else t.lineTextColor := by
    cases t.lineColor with
    | some c => rfl
    | none => exact ite_self _
  simp only [fillRoute, or_or_self, LiveTrip.mk.injEq, true_and, and_true]
  exact ⟨htype, htext⟩

omit [Platform] in
theorem fillTrip_fillTrip (s : GtfsStore) (info : TripInfo) (t : LiveTrip) :
    s.fillTrip info (s.fillTrip info t) = s.fillTrip info t := by
  unfold fillTrip
  cases s.routes.lookup info.routeId with
  | none => simp only [or_or_self]
  | some r =>
    -- the route leaves the two texts of the trip
    have htexts (u : LiveTrip) (hd : u.destination.or (nonEmpty info.headsign) = u.destination)
        (hb : u.blockCode.or info.blockId = u.blockCode) :
        { s.fillRoute r u with
          destination := (s.fillRoute r u).destination.or (nonEmpty info.headsign)
          blockCode := (s.fillRoute r u).blockCode.or info.blockId } = s.fillRoute r u := by
      simp only [fillRoute, hd, hb]
    simp only
    rw [htexts _ (or_or_self _ _) (or_or_self _ _), fillRoute_fillRoute]

/-- A matched trip is not matched again. -/
theorem matchTrip_of_isSome (h : t.matchedTripId.isSome) : s.matchTrip t = t := by
  rw [matchTrip, if_pos h]

theorem enrichTrip_of_match {tid : String} (h : (s.matchTrip t).matchedTripId = some tid) :
    s.enrichTrip t = (s.trips.lookup tid).elim (s.matchTrip t) fun info => s.fillTrip info (s.matchTrip t) := by
  simp only [enrichTrip, h, Option.bind_some]
  cases s.trips.lookup tid <;> rfl

theorem enrichTrip_enrichTrip (s : GtfsStore) (t : LiveTrip) : s.enrichTrip (s.enrichTrip t) = s.enrichTrip t := by
  have hid := enrichTrip_matchedTripId s t
  cases hmatch : t.matchedTripId.or (s.matchOf t) with
  | none =>
    obtain ⟨hm, hof⟩ := Option.or_eq_none_iff.mp hmatch
    rw [enrichTrip_of_none hm hof, enrichTrip_of_none hm hof]
  | some tid =>
    rw [hmatch] at hid
    have hfirst : (s.matchTrip t).matchedTripId = some tid := (matchTrip_matchedTripId s t).trans hmatch
    have hagain : s.matchTrip (s.enrichTrip t) = s.enrichTrip t := matchTrip_of_isSome (by rw [hid]; rfl)
    rw [enrichTrip_of_match (hagain ▸ hid), hagain, enrichTrip_of_match hfirst]
    cases s.trips.lookup tid with
    | none => rfl
    | some info => exact s.fillTrip_fillTrip info _

/-- Enriching is idempotent, and fills gaps only. -/
theorem enrich_fills_gaps (s : GtfsStore) (t : LiveTrip) :
    s.enrichTrip (s.enrichTrip t) = s.enrichTrip t ∧ GapsFilled s t (s.enrichTrip t) :=
  ⟨enrichTrip_enrichTrip s t, gapsFilled_enrichTrip s t⟩

end GtfsStore

end OV.Impl
