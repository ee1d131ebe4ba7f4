import Ovlive.Proof.Gtfs.Resolve

/-!
# Trains after midnight

A train is resolved on the date of its fix first, and on the day before it only
if its number does not run on that date (`operatingDay_yesterday`). Most numbers
run every day, so a train that is still on yesterday's run at half past midnight
is taken for today's, whatever the schedules of the two say
(`not_resolved_to_yesterday`).
-/

namespace OV.Impl

namespace GtfsStore

variable [Platform] (store : GtfsStore)

/-- The instants of the calls of a trip's run on a service date. -/
def callInstants (tid : String) (date : NaiveDate) : List Instant :=
  match store.stopTimes.lookup tid, localMidnightUtc date Platform.amsterdam with
  | some times, some midnight =>
    times.flatMap fun st => [midnight + st.arrival.toInt * nanos, midnight + st.departure.toInt * nanos]
  | _, _ => []

/-- An instant within the span of a run: between two of its calls. -/
def InSpan (tid : String) (date : NaiveDate) (t : Instant) : Prop :=
  (∃ a ∈ store.callInstants tid date, a ≤ t) ∧ ∃ b ∈ store.callInstants tid date, t ≤ b

/-- A train with a fix after midnight, on a day on which its number runs again:
one candidate runs on the day and one on the day before it, their spans have no
instant in common, and the fix lies in the span of the run of the day before. -/
structure AfterMidnight (number : String) (yesterday day : NaiveDate) (before after : TrainTrip)
    (trip : LiveTrip) : Prop where
  pred : day.predOpt = some yesterday
  runs : ∃ candidates, store.trainTrips.lookup number = some candidates ∧
    (candidates.filter fun c => store.tripRunsOn c.tripId (dateKey yesterday)) = [before] ∧
    (candidates.filter fun c => store.tripRunsOn c.tripId (dateKey day)) = [after]
  disjoint : ∀ t, ¬ (store.InSpan before.tripId yesterday t ∧ store.InSpan after.tripId day t)
  train : trip.key.dataowner = TRAIN_DATAOWNER
  journey : trip.journeyNumber = some number
  unknown : trip.operatingDay = none
  fix : Platform.amsterdam.date trip.lastUpdate = day
  inSpan : store.InSpan before.tripId yesterday trip.lastUpdate

variable {store} {number : String} {yesterday day : NaiveDate} {before after : TrainTrip} {trip : LiveTrip}

omit [Platform] in
theorem predOpt_ne {d e : NaiveDate} (h : d.predOpt = some e) : e ≠ d := by
  unfold NaiveDate.predOpt at h
  split at h
  · cases h
  · rintro rfl
    have hdays := congrArg NaiveDate.days (Option.some.inj h)
    simp only at hdays
    omega

/-- A train with no known day is put on the day before its fix only if no
candidate for its number runs on the day of the fix. -/
theorem operatingDay_yesterday (hunknown : trip.operatingDay = none)
    (hpred : (Platform.amsterdam.date trip.lastUpdate).predOpt = some yesterday)
    (h : (store.enrichTrip trip).operatingDay = some yesterday.formatDashed) :
    ∃ number candidates, trip.journeyNumber = some number ∧ store.trainTrips.lookup number = some candidates ∧
      store.trainTripOn candidates (Platform.amsterdam.date trip.lastUpdate) = none := by
  rw [enrichTrip_operatingDay, hunknown, Option.none_or, foundDay] at h
  split_ifs at h
  obtain ⟨⟨c, found⟩, hmatch, htext⟩ := Option.map_eq_some_iff.mp h
  obtain ⟨number, hnumber, hres⟩ := Option.bind_eq_some_iff.mp hmatch
  have hdate : trainDate trip = Platform.amsterdam.date trip.lastUpdate := by simp [trainDate, hunknown]
  rw [hdate] at hres
  obtain ⟨candidates, hc, -, hfound | ⟨hnone, -⟩⟩ := store.resolveTrainTrip_eq_some hres
  · have hsame : yesterday = Platform.amsterdam.date trip.lastUpdate :=
      (NaiveDate.formatDashed_injective htext).symm.trans hfound
    exact absurd hsame (predOpt_ne hpred)
  · exact ⟨number, candidates, hnumber, hc, hnone⟩

/-- A train after midnight whose number runs again on the day is never put on
yesterday's run, in whose span it is. -/
theorem not_resolved_to_yesterday (h : store.AfterMidnight number yesterday day before after trip) :
    ¬ ((store.enrichTrip trip).operatingDay = some yesterday.formatDashed ∧
      (store.enrichTrip trip).matchedTripId = some before.tripId) := by
  rintro ⟨hday, -⟩
  have hpred : (Platform.amsterdam.date trip.lastUpdate).predOpt = some yesterday := h.fix ▸ h.pred
  obtain ⟨n, candidates, hn, hc, hnone⟩ := operatingDay_yesterday h.unknown hpred hday
  obtain ⟨candidates', hc', -, htoday⟩ := h.runs
  obtain rfl : number = n := Option.some.inj (h.journey.symm.trans hn)
  obtain rfl : candidates' = candidates := Option.some.inj (hc'.symm.trans hc)
  rw [h.fix, trainTripOn, Option.map_eq_none_iff, List.find?_eq_none] at hnone
  obtain ⟨hmem, hruns⟩ := List.mem_filter.mp (htoday ▸ List.mem_singleton_self after)
  exact hnone after hmem hruns

/-- A night train that runs every day, from 23:50 to 00:40. -/
def nightly : GtfsStore where
  trips := AList.insert "T"
    { tripId := "T", routeId := "R1", headsign := "", blockId := none, shapeId := none, serviceId := "S"
      longName := "", realtimeTripId := none } ∅
  serviceDates := AList.insert "S" [20260727, 20260728] ∅
  trainTrips := AList.insert "3548" [{ tripId := "T", lineCode := "IC" }] ∅
  stopTimes := AList.insert "T"
    [{ stopId := "ut", stopSequence := 1, arrival := 85800, departure := 85800 },
      { stopId := "gd", stopSequence := 2, arrival := 88800, departure := 88800 }] ∅

/-- Train 3548, seen at 00:30 on 28 July. -/
def seenAtHalfPastMidnight : LiveTrip :=
  { LiveTrip.new { dataowner := TRAIN_DATAOWNER, vehicleNumber := "3548" } (1785198600 * nanos) with
    journeyNumber := some "3548" }

omit [Platform] in
theorem nightly_afterMidnight :
    let _ := plainPlatform
    nightly.AfterMidnight "3548" ⟨20661⟩ ⟨20662⟩ ⟨"T", "IC"⟩ ⟨"T", "IC"⟩ seenAtHalfPastMidnight := by
  intro _
  have hfirst : nightly.callInstants "T" ⟨20661⟩ =
      [1785196200, 1785196200, 1785199200, 1785199200].map (· * nanos) := by decide +kernel
  have hsecond : nightly.callInstants "T" ⟨20662⟩ =
      [1785282600, 1785282600, 1785285600, 1785285600].map (· * nanos) := by decide +kernel
  have hruns : nightly.tripRunsOn "T" (dateKey ⟨20661⟩) = true ∧ nightly.tripRunsOn "T" (dateKey ⟨20662⟩) = true := by
    decide +kernel
  exact {
    pred := by decide
    runs := ⟨[⟨"T", "IC"⟩], rfl, by simp [hruns.1], by simp [hruns.2]⟩
    disjoint := by
      rintro t ⟨⟨-, b, hb, hbt⟩, ⟨a, ha, hat⟩, -⟩
      rw [hfirst] at hb
      rw [hsecond] at ha
      simp only [List.map_cons, List.map_nil, List.mem_cons, List.not_mem_nil, or_false, nanos] at ha hb
      have hlt : b < a := by rcases ha with rfl | rfl | rfl | rfl <;> rcases hb with rfl | rfl | rfl | rfl <;> decide
      exact absurd (hlt.trans_le hat) (not_lt.mpr hbt)
    train := rfl
    journey := rfl
    unknown := rfl
    fix := by decide +kernel
    inSpan := by
      refine ⟨⟨1785196200 * nanos, ?_, by decide⟩, 1785199200 * nanos, ?_, by decide⟩ <;> rw [hfirst] <;> decide }

omit [Platform] in
theorem not_resolved_to_yesterday_nightly :
    let _ := plainPlatform
    ¬ ((nightly.enrichTrip seenAtHalfPastMidnight).operatingDay = some (NaiveDate.mk 20661).formatDashed ∧
      (nightly.enrichTrip seenAtHalfPastMidnight).matchedTripId = some "T") := by
  intro _
  exact not_resolved_to_yesterday nightly_afterMidnight

omit [Platform] in
/-- The night train of the 27th is taken for that of the 28th. -/
theorem resolved_to_today :
    let _ := plainPlatform
    ¬ ∀ (store : GtfsStore) (number : String) (yesterday day : NaiveDate) (before after : TrainTrip) (trip : LiveTrip),
      store.AfterMidnight number yesterday day before after trip →
        (store.enrichTrip trip).operatingDay = some yesterday.formatDashed ∧
          (store.enrichTrip trip).matchedTripId = some before.tripId := by
  intro _ h
  obtain ⟨hday, -⟩ := h nightly "3548" ⟨20661⟩ ⟨20662⟩ ⟨"T", "IC"⟩ ⟨"T", "IC"⟩ seenAtHalfPastMidnight
    nightly_afterMidnight
  have htoday : (nightly.enrichTrip seenAtHalfPastMidnight).operatingDay = some (NaiveDate.mk 20662).formatDashed := by
    decide +kernel
  have hsame := NaiveDate.formatDashed_injective (Option.some.inj (hday.symm.trans htoday))
  exact absurd hsame (by decide)

end GtfsStore

end OV.Impl
