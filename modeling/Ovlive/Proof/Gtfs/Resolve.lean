import Ovlive.Framework.Dates
import Ovlive.Proof.Ingest.Steps

/-!
# What a store matches a trip to

`GtfsStore.matchOf` is the match a store gives a trip: by line and journey, or
for a train by number and day (`trainMatch`). A trip without a match gets this
one and a trip with one keeps it (`enrichTrip_matchedTripId`); what the match
fills in of a train does not change the match (`matchOf_enrichTrip`).
-/

namespace OV.Impl

namespace GtfsStore

variable (s : GtfsStore)

theorem trainTripOn_eq_some {candidates : List TrainTrip} {day : NaiveDate} {c : TrainTrip} {d : NaiveDate} :
    s.trainTripOn candidates day = some (c, d) ↔
      d = day ∧ candidates.find? (fun c => s.tripRunsOn c.tripId (dateKey day)) = some c := by
  simp only [trainTripOn, Option.map_eq_some_iff, Prod.mk.injEq]
  constructor
  · rintro ⟨_, h, rfl, rfl⟩
    exact ⟨rfl, h⟩
  · rintro ⟨rfl, h⟩
    exact ⟨c, h, rfl, rfl⟩

/-- A train that resolves at all runs on the date, or on the day before it when
no candidate runs on the date. -/
theorem resolveTrainTrip_eq_some {number : String} {date day : NaiveDate} {c : TrainTrip}
    (h : s.resolveTrainTrip number date = some (c, day)) :
    ∃ candidates, s.trainTrips.lookup number = some candidates ∧ s.trainTripOn candidates day = some (c, day) ∧
      (day = date ∨ s.trainTripOn candidates date = none ∧ date.predOpt = some day) := by
  simp only [resolveTrainTrip, Option.bind_eq_bind, Option.bind_eq_some_iff] at h
  obtain ⟨candidates, hc, h⟩ := h
  refine ⟨candidates, hc, ?_⟩
  cases ho : s.trainTripOn candidates date with
  | some r =>
    simp only [ho, Option.some.injEq] at h
    subst h
    obtain ⟨rfl, -⟩ := (s.trainTripOn_eq_some).mp ho
    exact ⟨ho, .inl rfl⟩
  | none =>
    simp only [ho, Option.bind_eq_some_iff] at h
    obtain ⟨pred, hpred, h⟩ := h
    obtain ⟨rfl, -⟩ := (s.trainTripOn_eq_some).mp h
    exact ⟨h, .inr ⟨rfl, hpred⟩⟩

/-- The day a train resolves on is one it runs on. -/
theorem runs_of_resolveTrainTrip {number : String} {date day : NaiveDate} {c : TrainTrip}
    (h : s.resolveTrainTrip number date = some (c, day)) : s.tripRunsOn c.tripId (dateKey day) = true := by
  obtain ⟨candidates, -, hday, -⟩ := s.resolveTrainTrip_eq_some h
  have hruns := List.find?_some (p := fun c : TrainTrip => s.tripRunsOn c.tripId (dateKey day))
    ((s.trainTripOn_eq_some).mp hday).2
  exact hruns

/-- On the day it resolves on, a train resolves to the same. -/
theorem resolveTrainTrip_again {number : String} {date day : NaiveDate} {c : TrainTrip}
    (h : s.resolveTrainTrip number date = some (c, day)) : s.resolveTrainTrip number day = some (c, day) := by
  obtain ⟨candidates, hc, hday, -⟩ := s.resolveTrainTrip_eq_some h
  simp only [resolveTrainTrip, hc, Option.bind_eq_bind, Option.bind_some, hday]

variable [Platform]

/-- The date a train is resolved for: its operating day, or that of its fix. -/
def trainDate (t : LiveTrip) : NaiveDate :=
  (t.operatingDay.bind NaiveDate.parseDashed).getD (Platform.amsterdam.date t.lastUpdate)

/-- The candidate a train is matched to, and the day it runs on. -/
def trainMatch (t : LiveTrip) : Option (TrainTrip × NaiveDate) :=
  t.journeyNumber.bind fun number => s.resolveTrainTrip number (trainDate t)

/-- What a store matches a trip to, whatever it is matched to. -/
def matchOf (t : LiveTrip) : Option String :=
  if t.key.dataowner = TRAIN_DATAOWNER then (s.trainMatch t).map fun m => m.1.tripId else s.matchTripId t

theorem matchTrainTrip_eq (t : LiveTrip) :
    s.matchTrainTrip t =
      match s.trainMatch t with
      | none => (t, none)
      | some (matched, day) =>
        ({ t with
           linePlanningNumber := some matched.lineCode
           linePublicNumber := t.linePublicNumber.or (some matched.lineCode)
           operatingDay := t.operatingDay.or (some day.formatDashed) },
          some matched.tripId) := rfl

variable {s} {t u : LiveTrip}

theorem matchTrip_matchedTripId (s : GtfsStore) (t : LiveTrip) :
    (s.matchTrip t).matchedTripId = t.matchedTripId.or (s.matchOf t) := by
  unfold matchTrip matchOf
  cases hm : t.matchedTripId with
  | some tid => simp [hm]
  | none =>
    simp only [Option.isSome_none, Bool.false_eq_true, if_false, Option.none_or]
    split
    · rw [matchTrainTrip_eq]
      cases s.trainMatch t <;> rfl
    · rfl

theorem enrichTrip_matchedTripId (s : GtfsStore) (t : LiveTrip) :
    (s.enrichTrip t).matchedTripId = t.matchedTripId.or (s.matchOf t) := by
  rw [← matchTrip_matchedTripId]
  simp only [enrichTrip]
  split
  · exact (fillTrip_frame _ _).2.2.1
  · rfl

/-- The day a match finds out: a train's, when it has no match yet. -/
def foundDay (s : GtfsStore) (t : LiveTrip) : Option String :=
  if t.matchedTripId.isNone ∧ t.key.dataowner = TRAIN_DATAOWNER then (s.trainMatch t).map fun m => m.2.formatDashed
  else none

theorem matchTrip_operatingDay (s : GtfsStore) (t : LiveTrip) :
    (s.matchTrip t).operatingDay = t.operatingDay.or (s.foundDay t) := by
  unfold matchTrip foundDay
  cases hm : t.matchedTripId with
  | some tid => simp
  | none =>
    by_cases htrain : t.key.dataowner = TRAIN_DATAOWNER
    · simp only [htrain, Option.isSome_none, Bool.false_eq_true, if_false, if_true, Option.isNone_none, and_self]
      rw [matchTrainTrip_eq]
      cases s.trainMatch t with
      | none => exact (Option.or_none).symm
      | some m => rfl
    · simp [htrain]

theorem enrichTrip_operatingDay (s : GtfsStore) (t : LiveTrip) :
    (s.enrichTrip t).operatingDay = t.operatingDay.or (s.foundDay t) := by
  rw [← matchTrip_operatingDay]
  simp only [enrichTrip]
  split
  · rw [fillTrip_eq]
  · rfl

/-- The match of a trip depends on its key, line, journey, day and fix time. -/
theorem matchOf_congr (hkey : u.key = t.key) (hline : u.linePlanningNumber = t.linePlanningNumber)
    (hjourney : u.journeyNumber = t.journeyNumber) (hday : u.operatingDay = t.operatingDay)
    (hlast : u.lastUpdate = t.lastUpdate) : s.matchOf u = s.matchOf t := by
  cases t
  cases u
  simp only at hkey hline hjourney hday hlast
  subst hkey hline hjourney hday hlast
  rfl

/-- The day a match fills in is matched to the same. -/
theorem trainMatch_filled {m : TrainTrip × NaiveDate} (h : s.trainMatch t = some m)
    (hjourney : u.journeyNumber = t.journeyNumber) (hlast : u.lastUpdate = t.lastUpdate)
    (hday : u.operatingDay = t.operatingDay.or (some m.2.formatDashed)) : s.trainMatch u = some m := by
  obtain ⟨c, day⟩ := m
  simp only [trainMatch, hjourney] at h ⊢
  obtain ⟨number, hnumber, hres⟩ := Option.bind_eq_some_iff.mp h
  rw [hnumber, Option.bind_some]
  cases hd : t.operatingDay with
  | some text =>
    have hdate : trainDate u = trainDate t := by simp [trainDate, hday, hd, hlast]
    rw [hdate, hres]
  | none =>
    have hdate : trainDate u = (NaiveDate.parseDashed day.formatDashed).getD (trainDate t) := by
      simp [trainDate, hday, hd, hlast]
    cases hp : NaiveDate.parseDashed day.formatDashed with
    | none => rw [hdate, hp, Option.getD_none, hres]
    | some e => rw [hdate, hp, Option.getD_some, NaiveDate.eq_of_parseDashed hp, s.resolveTrainTrip_again hres]

theorem matchOf_matchTrip (s : GtfsStore) (t : LiveTrip) : s.matchOf (s.matchTrip t) = s.matchOf t := by
  unfold matchTrip
  split_ifs with hm htrain
  · rfl
  · rw [matchTrainTrip_eq]
    cases hmatch : s.trainMatch t with
    | none => exact matchOf_congr rfl rfl rfl rfl rfl
    | some m =>
      have hu := trainMatch_filled hmatch (u := { t with
        linePlanningNumber := some m.1.lineCode, linePublicNumber := t.linePublicNumber.or (some m.1.lineCode)
        operatingDay := t.operatingDay.or (some m.2.formatDashed), matchedTripId := some m.1.tripId }) rfl rfl rfl
      simp only [matchOf, htrain, if_true, hmatch]
      rw [hu]
  · exact matchOf_congr rfl rfl rfl rfl rfl

theorem matchOf_enrichTrip (s : GtfsStore) (t : LiveTrip) : s.matchOf (s.enrichTrip t) = s.matchOf t := by
  refine Eq.trans ?_ (matchOf_matchTrip s t)
  simp only [enrichTrip]
  split
  · rw [fillTrip_eq]
    exact matchOf_congr rfl rfl rfl rfl rfl
  · rfl

end GtfsStore

/-- A known operating day is kept. -/
theorem enrich_operatingDay [Platform] (g : GtfsService) {t : LiveTrip} {day : String}
    (h : t.operatingDay = some day) : (g.enricher.enrich t).operatingDay = some day := by
  unfold GtfsService.enricher
  cases g.store with
  | none => exact h
  | some store => exact (store.enrichTrip_operatingDay t).trans (by rw [h, Option.some_or])

end OV.Impl
