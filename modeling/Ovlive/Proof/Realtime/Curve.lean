import Mathlib.Data.List.Find
import Ovlive.Framework.Least
import Ovlive.Impl.Realtime.NsRit
import Ovlive.Proof.Ingest.Days
import Ovlive.Proof.Realtime.Documents

/-!
# The delay curve of a RitInfo document

A document is its stations, each with its times, among elements of other names.
`Station.call` is what a station's own times make of it, the departure's or else
the arrival's, and `delayAt` what calls say at an instant, in whatever order:
the delay of the next one, or else of the last. `parseNsRit_curve` says that
this is what a store tells after the document.
-/

namespace OV.Impl

namespace NsRit

/-- The element that a document is cut at. -/
def cuts : List String := ["LogischeRitDeelStation"]

/-- One station of the journey, with its times and names. -/
structure Station where
  attributes : List (String × String) := []
  content : List Content
  flat : ∀ c ∈ content, c.Avoids cuts

/-- A document is stations, and the leaves and tags around them. -/
inductive Item
  | station (st : Station)
  | own (c : Content) (h : c.Avoids cuts)

def Station.events (st : Station) : List XmlEvent :=
  .start "LogischeRitDeelStation" st.attributes ::
    (st.content.flatMap Content.events ++ [.end_ "LogischeRitDeelStation"])

def Item.events : Item → List XmlEvent
  | .station st => st.events
  | .own c _ => c.events

/-- The texts of an item, with their tags. -/
def Item.values : Item → List Value
  | .station st => valuesOf st.content
  | .own c _ => valuesOf [c]

def Item.station? : Item → Option Station
  | .station st => some st
  | .own _ _ => none

/-- The train number of a document: the first that is not blank. -/
def numberOf (values : List Value) : Option String :=
  values.findSome? fun v => if v.name = "TreinNummer" then nonBlank v.text else none

/-- What happened or is planned to happen at a station. -/
structure Call where
  planned : Instant
  actual : Instant

/-- The seconds a call is late, towards zero. -/
def Call.delay (c : Call) : Int := (c.actual - c.planned).tdiv nanos

/-- What calls say at an instant: the delay of the next one, or else of the last. -/
def delayAt (calls : List Call) (now : Instant) : Option Int :=
  ((least Call.actual (calls.filter fun c => now ≤ c.actual)).or (greatest Call.actual calls)).map Call.delay

/-- Which time it is: of the departure or the arrival, and the actual or the planned one. -/
structure Variant where
  departure : Bool
  actual : Bool
  deriving DecidableEq

/-- Whether a tag is marked as the actual time. -/
def isActual (attributes : List (String × String)) : Bool := attr attributes "InfoStatus" == some "Actueel"

/-- Whether a time element is of a departure, if it is one. -/
def departure? (name : String) : Option Bool :=
  if name = "VertrekTijd" then some true else if name = "AankomstTijd" then some false else none

section

variable [Feed]

/-- A time element that can be read. -/
def timeOf (v : Value) : Option (Variant × Instant) := do
  let departure ← departure? v.name
  let t ← (nonBlank v.text).bind ts
  some (⟨departure, isActual v.attributes⟩, t)

/-- The times of a station, in order. -/
def timesIn (values : List Value) : List (Variant × Instant) := values.filterMap timeOf

/-- The first time of a variant. -/
def slot (times : List (Variant × Instant)) (k : Variant) : Option Instant :=
  (times.find? fun t => t.1 = k).map Prod.snd

/-- A planned and an actual time, if there are both. -/
def pairOf (times : List (Variant × Instant)) (departure : Bool) : Option Call := do
  let planned ← slot times ⟨departure, false⟩
  let actual ← slot times ⟨departure, true⟩
  some ⟨planned, actual⟩

/-- The call that some times make: the departure, or else the arrival. -/
def callOf (times : List (Variant × Instant)) : Option Call := (pairOf times true).or (pairOf times false)

def Station.times (st : Station) : List (Variant × Instant) := timesIn (valuesOf st.content)

/-- The calls of a document. -/
def callsOf (doc : List Item) : List Call := (doc.filterMap Item.station?).filterMap fun st => callOf st.times

/-! ## One station -/

/-- The slots that times fill. -/
def stationTimes (times : List (Variant × Instant)) : StationTimes where
  plannedDep := slot times ⟨true, false⟩
  actualDep := slot times ⟨true, true⟩
  plannedArr := slot times ⟨false, false⟩
  actualArr := slot times ⟨false, true⟩

omit [Feed] in
theorem slot_snoc (times : List (Variant × Instant)) (t : Variant × Instant) (k : Variant) :
    slot (times ++ [t]) k = (slot times k).or (if t.1 = k then some t.2 else none) := by
  rw [slot, List.find?_append, Option.map_or, ← slot]
  congr 1
  by_cases h : t.1 = k <;> simp [h]

omit [Feed] in
/-- One more time. -/
theorem stationTimes_snoc (times : List (Variant × Instant)) (departure actual : Bool) (t : Instant) :
    stationTimes (times ++ [(⟨departure, actual⟩, t)]) = (stationTimes times).record departure actual t := by
  cases departure <;> cases actual <;> simp [stationTimes, slot_snoc, StationTimes.record]

/-- The point of a call. -/
def Call.point (c : Call) : DelayPoint := { at_ := c.actual, delaySeconds := delayOf c.planned c.actual }

omit [Feed] in
theorem point_stationTimes (times : List (Variant × Instant)) :
    (stationTimes times).point = (callOf times).map Call.point := by
  simp only [StationTimes.point, stationTimes, callOf, pairOf, pointOf]
  cases slot times ⟨true, false⟩ <;> cases slot times ⟨true, true⟩ <;>
    cases slot times ⟨false, false⟩ <;> cases slot times ⟨false, true⟩ <;> rfl

omit [Feed] in
/-- Without two times of one variant, their order makes no difference. -/
theorem slot_perm {times times' : List (Variant × Instant)} (hn : (times.map Prod.fst).Nodup) (hp : times.Perm times')
    (k : Variant) : slot times k = slot times' k := by
  rw [slot, slot, List.find?_eq_find?_of_perm hp]
  intro t ht u hu
  have htk : t.1 = k := by simpa using ht.2
  have huk : u.1 = k := by simpa using hu.2
  exact List.inj_on_of_nodup_map hn ht.1 hu.1 (htk.trans huk.symm)

omit [Feed] in
theorem callOf_perm {times times' : List (Variant × Instant)} (hn : (times.map Prod.fst).Nodup)
    (hp : times.Perm times') : callOf times = callOf times' := by
  simp only [callOf, pairOf, slot_perm hn hp]

/-! ## Reading a document -/

/-- What is not followed: the operating day, the line code, and the tag it is in. -/
structure Loose where
  operatingDay : Option String := none
  lineCode : Option String := none
  field : Option String := none
  actual : Bool := false

/-- The decoder after some texts and points, and perhaps in a station with some times. -/
def scan (values : List Value) (points : List DelayPoint) (times : Option (List (Variant × Instant))) (r : Loose) : Scan where
  number := numberOf values
  operatingDay := r.operatingDay
  lineCode := r.lineCode
  points := points
  field := r.field
  actual := r.actual
  station := times.map stationTimes
  inStationBlock := times.isSome

omit [Feed] in
theorem numberOf_snoc (values : List Value) (v : Value) :
    numberOf (values ++ [v]) = (numberOf values).or (if v.name = "TreinNummer" then nonBlank v.text else none) := by
  rw [numberOf, List.findSome?_append, ← numberOf, List.findSome?_singleton]

variable {values : List Value} {points : List DelayPoint} {times : Option (List (Variant × Instant))}

/-- A start tag but a station's is remembered. -/
theorem step_start {name : String} (h : name ∉ cuts) (attributes : List (String × String)) (r : Loose) :
    ∃ r' : Loose, step (scan values points times r) (.start name attributes) = scan values points times r' ∧
      r'.field = some name ∧ ((departure? name).isSome → r'.actual = isActual attributes) := by
  simp only [step]
  split
  · exact absurd (by decide) h
  · exact ⟨{ r with lineCode := _, field := _, actual := false }, rfl, rfl, fun hd => by simp [departure?] at hd⟩
  · exact ⟨{ r with field := _, actual := _ }, rfl, rfl, fun _ => rfl⟩
  · exact ⟨{ r with field := _, actual := _ }, rfl, rfl, fun _ => rfl⟩
  · rename_i hdep harr
    refine ⟨{ r with field := _, actual := false }, rfl, rfl, fun hd => ?_⟩
    rw [departure?, if_neg hdep, if_neg harr] at hd
    cases hd

/-- A time that can be read is one more of the station's, if it is in one. -/
theorem time_scan (departure : Bool) (w : String) (r : Loose) :
    (scan values points times r).time departure w =
      scan values points (times.map fun l => l ++ ((ts w).map fun t => (⟨departure, r.actual⟩, t)).toList) r := by
  cases times with
  | none => rfl
  | some l =>
    cases ht : ts w with
    | none => simp [Scan.time, scan, ht]
    | some t => simp [Scan.time, scan, ht, stationTimes_snoc]

theorem timeOf_blank {v : Value} (h : nonBlank v.text = none) : timeOf v = none := by
  rw [timeOf, h]
  cases departure? v.name <;> rfl

theorem timeOf_nonBlank {v : Value} {w : String} (h : nonBlank v.text = some w) :
    timeOf v = (departure? v.name).bind fun d => (ts w).map fun t => (⟨d, isActual v.attributes⟩, t) := by
  rw [timeOf, h, Option.bind_some]
  cases ts w <;> rfl

/-- A text is one more under the tag it is in: perhaps the number, and in a station
perhaps a time. -/
theorem step_text {name : String} {attributes : List (String × String)} {r : Loose} (hf : r.field = some name)
    (ha : (departure? name).isSome → r.actual = isActual attributes) (val : Option String) :
    let v : Value := ⟨name, attributes, Feed.unescaped val⟩
    ∃ r' : Loose, step (scan values points times r) (.text val) =
      scan (values ++ [v]) points (times.map fun ts => ts ++ (timeOf v).toList) r' := by
  intro v
  have hfield : (scan values points times r).field = some name := hf
  simp only [step, hfield]
  by_cases hv : (Feed.trimmed (Feed.unescaped val)).isEmpty = true
  · have hnone : nonBlank v.text = none := if_pos hv
    refine ⟨r, ?_⟩
    rw [if_pos hv, scan, scan, numberOf_snoc, hnone, ite_self, Option.or_none, timeOf_blank hnone]
    cases times <;> simp
  · have hsome : nonBlank v.text = some (Feed.trimmed (Feed.unescaped val)) := if_neg hv
    have htime := timeOf_nonBlank hsome
    have hother : departure? name = none → times.map (fun l => l ++ (timeOf v).toList) = times := by
      intro hd
      rw [htime, hd]
      cases times <;> simp
    rw [if_neg hv]
    unfold Scan.leaf
    split
    · refine ⟨r, ?_⟩
      rw [hother rfl, scan, scan, numberOf_snoc, if_pos rfl, hsome]
    · refine ⟨{ r with operatingDay := r.operatingDay.or (some (Feed.trimmed (Feed.unescaped val))) }, ?_⟩
      rw [hother rfl, scan, scan, numberOf_snoc, if_neg (show "TreinDatum" ≠ "TreinNummer" by decide), Option.or_none]
    · refine ⟨r, ?_⟩
      rw [time_scan, htime, ha rfl, scan, scan, numberOf_snoc, if_neg (show "VertrekTijd" ≠ "TreinNummer" by decide),
        Option.or_none]
      rfl
    · refine ⟨r, ?_⟩
      rw [time_scan, htime, ha rfl, scan, scan, numberOf_snoc, if_neg (show "AankomstTijd" ≠ "TreinNummer" by decide),
        Option.or_none]
      rfl
    · rename_i hnumber _ hdep harr
      refine ⟨r, ?_⟩
      have hd : departure? name = none := by rw [departure?, if_neg hdep, if_neg harr]
      rw [hother hd, scan, scan, numberOf_snoc, if_neg hnumber, Option.or_none]

theorem step_end {name : String} (h : name ∉ cuts) (r : Loose) :
    step (scan values points times r) (.end_ name) = scan values points times { r with field := none } :=
  if_neg fun hn => h (List.mem_singleton.mpr hn)

theorem timesIn_snoc (values : List Value) (v : Value) : timesIn (values ++ [v]) = timesIn values ++ (timeOf v).toList := by
  rw [timesIn, List.filterMap_append]
  cases h : timeOf v <;> simp [timesIn, h]

/-- In a station, its times are kept, and the number is as anywhere. -/
theorem reads_station (before : List Value) (points : List DelayPoint) :
    ReadsTexts step cuts fun values r => scan (before ++ values) points (some (timesIn values)) r where
  start values r name attributes h := by
    obtain ⟨r', hstep, hf, ha⟩ := step_start h attributes r
    refine ⟨r', hstep, fun val => ?_⟩
    obtain ⟨r'', htext⟩ := step_text hf ha val
    exact ⟨r'', by rw [htext, List.append_assoc, timesIn_snoc]; rfl⟩
  end_ values r name h := ⟨_, step_end h r⟩
  other values r := ⟨r, rfl⟩

/-- Around the stations, of the texts the number is kept. -/
theorem reads_own (before : List Value) (points : List DelayPoint) :
    ReadsTexts step cuts fun values r => scan (before ++ values) points none r where
  start values r name attributes h := by
    obtain ⟨r', hstep, hf, ha⟩ := step_start h attributes r
    refine ⟨r', hstep, fun val => ?_⟩
    obtain ⟨r'', htext⟩ := step_text hf ha val
    exact ⟨r'', by rw [htext, List.append_assoc]; rfl⟩
  end_ values r name h := ⟨_, step_end h r⟩
  other values r := ⟨r, rfl⟩

theorem foldl_item (before : List Item) (r : Loose) (i : Item) :
    ∃ r', i.events.foldl step (scan (before.flatMap Item.values) ((callsOf before).map Call.point) none r) =
      scan ((before ++ [i]).flatMap Item.values) ((callsOf (before ++ [i])).map Call.point) none r' := by
  have hvalues : (before ++ [i]).flatMap Item.values = before.flatMap Item.values ++ i.values := by simp
  rw [hvalues]
  cases i with
  | own c h =>
    have hcalls : callsOf (before ++ [.own c h]) = callsOf before := by
      simp [callsOf, List.filterMap_append, List.filterMap_cons, Item.station?]
    obtain ⟨r', h'⟩ := (reads_own (before.flatMap Item.values) ((callsOf before).map Call.point)).content h [] r
    rw [List.append_nil, List.nil_append] at h'
    exact ⟨r', by rw [hcalls]; exact h'⟩
  | station st =>
    have hcalls : callsOf (before ++ [.station st]) = callsOf before ++ (callOf st.times).toList := by
      cases h : callOf st.times <;> simp [callsOf, List.filterMap_append, Item.station?, h]
    let all := before.flatMap Item.values
    let points := (callsOf before).map Call.point
    obtain ⟨r', h'⟩ := (reads_station all points).foldl st.flat [] r
    have hstart : step (scan all points none r) (.start "LogischeRitDeelStation" st.attributes) =
        scan all points (some []) r := rfl
    refine ⟨{ r' with field := none }, ?_⟩
    have hpoint : ((stationTimes st.times).point).toList = (callOf st.times).toList.map Call.point := by
      rw [point_stationTimes]
      cases callOf st.times <;> rfl
    rw [List.append_nil, List.nil_append] at h'
    rw [Item.events, Station.events, List.foldl_cons, hstart, List.foldl_append]
    rw [show scan all points (some []) r = scan all points (some (timesIn [])) r from rfl, h', hcalls, List.map_append,
      ← hpoint]
    rfl

/-- A document with a number is parsed to its calls. -/
theorem parseNsRit_eq {xml : String} {doc : List Item} (h : Feed.read xml = doc.flatMap Item.events) :
    ∃ day line, parseNsRit xml = (numberOf (doc.flatMap Item.values)).map fun number =>
      { number := number, operatingDay := day, lineCode := line, points := (callsOf doc).map Call.point } := by
  obtain ⟨r, hr⟩ := foldl_flatMap_state (l := doc) (fun before r i _ => foldl_item before r i) [] {}
  have hrun : (Feed.read xml).foldl step {} = scan (doc.flatMap Item.values) ((callsOf doc).map Call.point) none r := by
    rw [h]
    exact hr
  refine ⟨r.operatingDay, r.lineCode, ?_⟩
  rw [parseNsRit, hrun]
  rfl

end

/-! ## What a store tells -/

/-- The calls of a document without equal actual times, and with delays of 32 bits. -/
structure Proper (calls : List Call) : Prop where
  distinct : (calls.map Call.actual).Nodup
  fits : ∀ c ∈ calls, -2 ^ 31 ≤ c.delay ∧ c.delay < 2 ^ 31

theorem Proper.perm {calls calls' : List Call} (h : Proper calls) (hp : calls.Perm calls') : Proper calls' where
  distinct := (hp.map Call.actual).nodup_iff.mp h.distinct
  fits c hc := h.fits c (hp.mem_iff.mpr hc)

theorem delayAt_eq_none_iff {calls : List Call} {now : Instant} : delayAt calls now = none ↔ calls = [] := by
  rw [delayAt, Option.map_eq_none_iff, Option.or_eq_none_iff, greatest, least_eq_none_iff, least_eq_none_iff]
  constructor
  · exact fun h => h.2
  · rintro rfl
    exact ⟨rfl, rfl⟩

theorem delayAt_perm {calls calls' : List Call} (hn : (calls.map Call.actual).Nodup) (hp : calls.Perm calls')
    (now : Instant) : delayAt calls' now = delayAt calls now := by
  have hnf : ((calls.filter fun c => now ≤ c.actual).map Call.actual).Nodup :=
    hn.sublist (List.filter_sublist.map _)
  rw [delayAt, delayAt, least_perm hnf (hp.filter _), greatest_perm hn hp]

/-- A curve of calls says what the calls say. -/
theorem at_curve {calls : List Call} (h : Proper calls) (c : TrainDelay)
    (hc : c.points = (calls.map Call.point).mergeSort fun p q => p.at_ ≤ q.at_) (now : Instant) :
    c.at now = delayAt calls now := by
  have hsorted : c.points.Pairwise fun p q => p.at_ ≤ q.at_ := by
    rw [hc]
    exact (List.pairwise_mergeSort (fun a b c hab hbc => by simp at *; exact hab.trans hbc)
      (fun a b => by simpa using le_total _ _) _).imp of_decide_eq_true
  have hperm : c.points.Perm (calls.map Call.point) := hc ▸ List.mergeSort_perm _ _
  have hn : ((calls.map Call.point).map DelayPoint.at_).Nodup := by
    rw [List.map_map]
    exact h.distinct
  have hdelay : ∀ o : Option Call, (∀ d, o = some d → d ∈ calls) →
      (o.map Call.point).map DelayPoint.delaySeconds = o.map Call.delay := by
    rintro (_ | d) hd
    · rfl
    · obtain ⟨hlo, hhi⟩ := h.fits d (hd d rfl)
      exact congrArg some (Int32.toInt_ofInt_of_le hlo hhi)
  rw [TrainDelay.at, find?_eq_least hsorted hperm hn, getLast?_eq_greatest hsorted hperm hn, List.filter_map,
    least_map, greatest_map, ← Option.map_or, hdelay]
  · rfl
  · intro d hd
    rcases Option.or_eq_some_iff.mp hd with hd | ⟨-, hd⟩
    · exact (List.mem_filter.mp (mem_of_least hd)).1
    · exact mem_of_greatest hd

/-- What happens to a store between two revisions of a train: a prune, or a restart
from a snapshot, whatever was in the store it is restored into. -/
inductive Upkeep
  | prune (cutoff : Instant)
  | restart (into : TrainDelays)

def Upkeep.run (s : TrainDelays) : Upkeep → TrainDelays
  | .prune cutoff => s.prune cutoff
  | .restart into => into.restore s.snapshot

/-- Upkeep that keeps a curve received at an instant. -/
def Upkeep.Keeps (received : Instant) : Upkeep → Prop
  | .prune cutoff => cutoff ≤ received
  | .restart _ => True

/-- The curve a store has for a train after its update and some upkeep. -/
def curveAfter (s : TrainDelays) (received : Instant) (us : List Upkeep) (u : TrainUpdate) : Option TrainDelay :=
  (us.foldl Upkeep.run (s.apply u received)).get u.number

theorem get_run {s : TrainDelays} {number : String} {c : TrainDelay} {o : Upkeep} (h : s.get number = some c)
    (ho : o.Keeps c.updatedAt) : (Upkeep.run s o).get number = some c := by
  cases o with
  | prune cutoff =>
    have hcutoff : cutoff ≤ c.updatedAt := ho
    rw [Upkeep.run, get_prune, h, Option.filter_some, if_pos (decide_eq_true hcutoff)]
  | restart into =>
    rw [Upkeep.run, get_restore]
    show (s.get number).or _ = _
    rw [h, Option.some_or]

/-- The curve kept is that of the update. -/
theorem curveAfter_eq (s : TrainDelays) {received : Instant} {us : List Upkeep} (u : TrainUpdate)
    (h : ∀ o ∈ us, o.Keeps received) :
    curveAfter s received us u = some
      { points := u.points.mergeSort fun p q => p.at_ ≤ q.at_, operatingDay := u.operatingDay, lineCode := u.lineCode,
        updatedAt := received } := by
  induction us using List.reverseRecOn with
  | nil => exact AList.lookup_insert _
  | append_singleton us o ih =>
    rw [curveAfter, List.foldl_append, List.foldl_cons, List.foldl_nil]
    exact get_run (ih fun o ho => h o (List.mem_append_left _ ho))
      (h o (List.mem_append_right _ (List.mem_singleton_self o)))

section

variable [Feed]

/-- Two stations with the same times, in another order only if no variant is there twice. -/
def Station.Rearranged (st st' : Station) : Prop :=
  st.times = st'.times ∨ st.times.Perm st'.times ∧ (st.times.map Prod.fst).Nodup

/-- Two documents with the same stations in another order, each perhaps with its times in
another order. -/
def Rearranged (doc doc' : List Item) : Prop :=
  ∃ stations, (doc.filterMap Item.station?).Perm stations ∧
    List.Forall₂ Station.Rearranged stations (doc'.filterMap Item.station?)

theorem Station.Rearranged.call {st st' : Station} (h : st.Rearranged st') : callOf st.times = callOf st'.times := by
  rcases h with h | ⟨hp, hn⟩
  · rw [h]
  · exact callOf_perm hn hp

/-- Their calls are the same, in another order. -/
theorem Rearranged.calls {doc doc' : List Item} (h : Rearranged doc doc') : (callsOf doc).Perm (callsOf doc') := by
  obtain ⟨stations, hp, hst⟩ := h
  have hcalls : stations.filterMap (fun st => callOf st.times) = callsOf doc' := by
    rw [callsOf]
    clear hp
    generalize doc'.filterMap Item.station? = stations' at hst
    induction hst with
    | nil => rfl
    | cons hst _ ih => rw [List.filterMap_cons, List.filterMap_cons, hst.call, ih]
  exact hcalls ▸ hp.filterMap _

/-- What a store says of a train after a document with these calls. -/
theorem at_of_parse {xml : String} {doc : List Item} (hread : Feed.read xml = doc.flatMap Item.events)
    (h : Proper (callsOf doc)) {u : TrainUpdate} (hu : parseNsRit xml = some u) (s : TrainDelays) {received : Instant}
    {us : List Upkeep} (hus : ∀ o ∈ us, o.Keeps received) :
    ∃ c, curveAfter s received us u = some c ∧ ∀ now, c.at now = delayAt (callsOf doc) now := by
  obtain ⟨day, line, hparse⟩ := parseNsRit_eq hread
  rw [hu] at hparse
  obtain ⟨number, -, rfl⟩ := Option.map_eq_some_iff.mp hparse.symm
  exact ⟨_, curveAfter_eq s _ hus, at_curve h _ rfl⟩

end

end NsRit

/-- After a document of a train, whatever keeps its curve, the store says at every instant
the delay of the next call, or else of the last, and nothing exactly if there is none.
The order of the stations makes no difference, nor does that of a station's
times unless a variant is there twice. -/
theorem parseNsRit_curve [Feed] (s : TrainDelays) (received : Instant) (us : List NsRit.Upkeep)
    (hus : ∀ o ∈ us, o.Keeps received) :
    (∀ (doc : List NsRit.Item) (xml number : String), Feed.read xml = doc.flatMap NsRit.Item.events →
      NsRit.numberOf (doc.flatMap NsRit.Item.values) = some number → NsRit.Proper (NsRit.callsOf doc) →
      ∃ u c, parseNsRit xml = some u ∧ u.number = number ∧ NsRit.curveAfter s received us u = some c ∧
        ∀ now, c.at now = NsRit.delayAt (NsRit.callsOf doc) now ∧ (c.at now = none ↔ NsRit.callsOf doc = [])) ∧
    ∀ (doc doc' : List NsRit.Item) (xml xml' : String) (u u' : TrainUpdate),
      Feed.read xml = doc.flatMap NsRit.Item.events → Feed.read xml' = doc'.flatMap NsRit.Item.events →
      NsRit.Rearranged doc doc' → NsRit.Proper (NsRit.callsOf doc) → parseNsRit xml = some u → parseNsRit xml' = some u' →
      ∃ c c', NsRit.curveAfter s received us u = some c ∧ NsRit.curveAfter s received us u' = some c' ∧
        ∀ now, c'.at now = c.at now := by
  constructor
  · intro doc xml number hread hnumber hproper
    obtain ⟨day, line, hparse⟩ := NsRit.parseNsRit_eq hread
    rw [hnumber, Option.map_some] at hparse
    obtain ⟨c, hc, hat⟩ := NsRit.at_of_parse hread hproper hparse s hus
    exact ⟨_, c, hparse, rfl, hc, fun now => ⟨hat now, by rw [hat, NsRit.delayAt_eq_none_iff]⟩⟩
  · intro doc doc' xml xml' u u' hread hread' hdocs hproper hu hu'
    obtain ⟨c, hc, hat⟩ := NsRit.at_of_parse hread hproper hu s hus
    obtain ⟨c', hc', hat'⟩ := NsRit.at_of_parse hread' (hproper.perm hdocs.calls) hu' s hus
    exact ⟨c, c', hc, hc', fun now => by rw [hat, hat', NsRit.delayAt_perm hproper.distinct hdocs.calls]⟩

/-- A time of the first hour, by its minute. -/
def stamp (m : String) : String := "1970-01-01T00:" ++ m ++ ":00Z"

/-- A station that a train departs from. -/
def departure (planned actual : String) : NsRit.Item :=
  .station
    { content :=
        [.leaf { name := "StationCode", text := some (some "VL") },
          .leaf { name := "VertrekTijd", attributes := [("InfoStatus", "Gepland")], text := some (some (stamp planned)) },
          .leaf { name := "VertrekTijd", attributes := [("InfoStatus", "Actueel")], text := some (some (stamp actual)) }]
      flat := by simp [Content.Avoids, Content.name?, NsRit.cuts] }

def departureXml (planned actual : String) : String :=
  "<LogischeRitDeelStation><StationCode>VL</StationCode><VertrekTijd InfoStatus='Gepland'>" ++ stamp planned ++
    "</VertrekTijd><VertrekTijd InfoStatus='Actueel'>" ++ stamp actual ++ "</VertrekTijd></LogischeRitDeelStation>"

/-- A train of two stations. -/
def journey (stations : List NsRit.Item) : List NsRit.Item :=
  .own (.open_ "RitInfo" []) (by decide) :: .own (.leaf { name := "TreinNummer", text := some (some "3548") }) (by decide) ::
    (stations ++ [.own (.close "RitInfo") (by decide)])

def journeyXml (stations : String) : String := "<RitInfo><TreinNummer>3548</TreinNummer>" ++ stations ++ "</RitInfo>"

/-- Two minutes late, and then three. -/
def inOrder : List NsRit.Item := journey [departure "00" "02", departure "10" "13"]

def inOrderXml : String := journeyXml (departureXml "00" "02" ++ departureXml "10" "13")

def swapped : List NsRit.Item := journey [departure "10" "13", departure "00" "02"]

def swappedXml : String := journeyXml (departureXml "10" "13" ++ departureXml "00" "02")

/-- What the packages make of the journey, with its stations in either order. -/
@[reducible] def journeyFeed : Feed where
  read xml :=
    if xml = inOrderXml then inOrder.flatMap NsRit.Item.events
    else if xml = swappedXml then swapped.flatMap NsRit.Item.events
    else []
  parseFromRfc3339 t :=
    if t = stamp "00" then some 0
    else if t = stamp "02" then some (120 * nanos)
    else if t = stamp "10" then some (600 * nanos)
    else if t = stamp "13" then some (780 * nanos)
    else none

/-- Five minutes in, three minutes are told, also after a restart. -/
theorem parseNsRit_curve_restart :
    let _ := journeyFeed
    ∃ u u' c c', parseNsRit inOrderXml = some u ∧ parseNsRit swappedXml = some u' ∧ u.number = "3548" ∧
      NsRit.curveAfter {} 0 [.prune (-1), .restart {}] u = some c ∧
      NsRit.curveAfter {} 0 [.prune (-1), .restart {}] u' = some c' ∧
      c.at (300 * nanos) = some 180 ∧ c'.at (300 * nanos) = some 180 := by
  intro _
  have hne : swappedXml ≠ inOrderXml := by decide +kernel
  have hread : journeyFeed.read inOrderXml = inOrder.flatMap NsRit.Item.events := if_pos rfl
  have hread' : journeyFeed.read swappedXml = swapped.flatMap NsRit.Item.events := (if_neg hne).trans (if_pos rfl)
  have hkeeps : ∀ o ∈ [NsRit.Upkeep.prune (-1), .restart {}], o.Keeps 0 := by
    intro o ho
    rcases List.mem_cons.mp ho with rfl | ho
    · exact (by decide : (-1 : Int) ≤ 0)
    · rw [List.mem_singleton.mp ho]
      trivial
  have hproper : NsRit.Proper (NsRit.callsOf inOrder) := ⟨by decide +kernel, by decide +kernel⟩
  have hrearranged : NsRit.Rearranged inOrder swapped :=
    ⟨_, List.Perm.swap _ _ _, .cons (.inl rfl) (.cons (.inl rfl) .nil)⟩
  obtain ⟨u, c, hu, hnumber, hc, hat⟩ :=
    (parseNsRit_curve {} 0 _ hkeeps).1 inOrder inOrderXml "3548" hread (by decide +kernel) hproper
  obtain ⟨u', hu'⟩ : ∃ u', parseNsRit swappedXml = some u' :=
    Option.isSome_iff_exists.mp (by decide +kernel)
  obtain ⟨c₁, c', hc₁, hc', hsame⟩ :=
    (parseNsRit_curve {} 0 _ hkeeps).2 _ _ _ _ u u' hread hread' hrearranged hproper hu hu'
  obtain rfl := Option.some.inj (hc₁.symm.trans hc)
  have hthree : NsRit.delayAt (NsRit.callsOf inOrder) (300 * nanos) = some 180 := by decide +kernel
  exact ⟨u, u', c₁, c', hu, hu', hnumber, hc, hc', (hat _).1.trans hthree, (hsame _).trans ((hat _).1.trans hthree)⟩

end OV.Impl
