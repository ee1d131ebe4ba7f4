import Ovlive.Framework.Least
import Ovlive.Framework.Lists
import Ovlive.Impl.Realtime.Ns
import Ovlive.Proof.Core.Heard
import Ovlive.Proof.Ingest.Steps
import Ovlive.Proof.Realtime.Documents

/-!
# The leading unit of an NS train

A snapshot is a list of trains, each with leaves of its own and material parts
with theirs, among elements of other names. `Train.event` is what a train's own
number and its parts make of it: the first of the usable parts with the lowest
order places it (`endPart_lead`). `parseNsTreinposities_leading` says that a
snapshot is parsed to the events of its trains, whatever the order of their
parts, and that a sweep at the same time keeps them.
-/

namespace OV.Impl

namespace Ns

/-- The elements that a snapshot is cut at. -/
def cuts : List String := ["TreinLocation", "TreinMaterieelDelen"]

/-- A piece of a train: a leaf or tag of its own, or a material part. -/
inductive Piece
  | own (c : Content) (h : c.Avoids cuts)
  | part (attributes : List (String × String)) (content : List Content) (flat : ∀ c ∈ content, c.Avoids cuts)

structure Train where
  attributes : List (String × String) := []
  pieces : List Piece

/-- A snapshot is trains, and the events of other elements around them. -/
inductive Item
  | train (t : Train)
  | foreign (x : XmlEvent) (h : ∀ name ∈ cuts, (∀ attributes, x ≠ .start name attributes) ∧ x ≠ .end_ name)

def Piece.events : Piece → List XmlEvent
  | .own c _ => c.events
  | .part attributes content _ =>
    .start "TreinMaterieelDelen" attributes :: (content.flatMap Content.events ++ [.end_ "TreinMaterieelDelen"])

def Train.events (t : Train) : List XmlEvent :=
  .start "TreinLocation" t.attributes :: (t.pieces.flatMap Piece.events ++ [.end_ "TreinLocation"])

def Item.events : Item → List XmlEvent
  | .train t => t.events
  | .foreign x _ => [x]

/-- Where a part stands in the train: without an order, last. -/
def Part.rank (p : Part) : Int := (p.order.getD Int32.maxValue).toInt

/-- What a train has outside its parts. -/
def ownOf (pieces : List Piece) : List Content :=
  pieces.filterMap fun
    | .own c _ => some c
    | .part .. => none

section

variable [Feed]

/-- The fix that the leaves of a part give. -/
def partOf (leaves : List (String × String)) : Part where
  order := (lastValue "Materieelvolgnummer" leaves).bind fun v => Text.parseI32? v.toList
  lat := (lastValue "Latitude" leaves).bind fun v => Text.parseF64? v.toList
  lon := (lastValue "Longitude" leaves).bind fun v => Text.parseF64? v.toList
  speed := (lastValue "Snelheid" leaves).bind fun v => Text.parseF64? v.toList
  course := (lastValue "Richting" leaves).bind fun v => Text.parseF32? v.toList
  timestamp := (lastValue "GpsDatumTijd" leaves).bind Feed.parseFromRfc3339

/-- The parts of a train, in order. -/
def partsOf (pieces : List Piece) : List Part :=
  pieces.filterMap fun
    | .own .. => none
    | .part _ content _ => some (partOf (leavesOf content))

/-- The number of a train. -/
def numberOf (pieces : List Piece) : Option String := lastValue "TreinNummer" (leavesOf (ownOf pieces))

/-- The part that places a train: of the usable ones the first with the lowest order. -/
def leadOf (now : Instant) (maxAge : Int) (pieces : List Piece) : Option Part :=
  least Part.rank ((partsOf pieces).filter fun p => p.usable now maxAge)

/-- The event of a train, if it has a number and a usable part. -/
def Train.event (now : Instant) (maxAge : Int) (t : Train) : Option PosEvent := do
  let number ← numberOf t.pieces
  let lead ← leadOf now maxAge t.pieces
  some (eventFor number lead now)

def Item.event (now : Instant) (maxAge : Int) : Item → Option PosEvent
  | .train t => t.event now maxAge
  | .foreign .. => none

/-! ## One part -/

/-- One more leaf. -/
theorem partOf_snoc (leaves : List (String × String)) (f v : String) :
    partOf (leaves ++ [(f, v)]) = (partOf leaves).set f v := by
  unfold Part.set
  by_cases hv : (Feed.trimmed v).isEmpty = true
  · have hnone : nonBlank v = none := if_pos hv
    rw [if_pos hv]
    simp only [partOf, lastValue_snoc, hnone, ite_self, Option.none_or]
  · have hsome : nonBlank v = some (Feed.trimmed v) := if_neg hv
    rw [if_neg hv]
    -- the names are compared before the fields are opened
    split <;> simp only [partOf, lastValue_snoc, hsome]
    case h_7 => simp_all
    all_goals simp

omit [Feed] in
theorem rank_le (p : Part) : p.rank ≤ Int32.maxValue.toInt := Int32.toInt_le _

omit [Feed] in
/-- A part that replaces the best one so far is usable, and before it. -/
theorem better_some {p b : Part} {now : Instant} {maxAge : Int} :
    p.better (some b) now maxAge = true ↔ p.usable now maxAge = true ∧ p.rank < b.rank := by
  unfold Part.better
  cases ho : p.order with
  | none =>
    have hp : p.rank = Int32.maxValue.toInt := by rw [Part.rank, ho]; rfl
    simp [hp, rank_le b]
  | some o =>
    have hp : p.rank = o.toInt := by rw [Part.rank, ho]; rfl
    rw [hp]
    simp only [Bool.and_eq_true, decide_eq_true_eq, Int32.lt_iff_toInt_lt, Part.rank]

omit [Feed] in
/-- The part that ends is the best one so far if it is usable, and before the others. -/
theorem endPart_lead (p : Part) (parts : List Part) (now : Instant) (maxAge : Int) :
    (if p.better (least Part.rank (parts.filter fun q => q.usable now maxAge)) now maxAge then some p
      else least Part.rank (parts.filter fun q => q.usable now maxAge)) =
      least Part.rank ((parts ++ [p]).filter fun q => q.usable now maxAge) := by
  rw [List.filter_append]
  cases hu : p.usable now maxAge with
  | false =>
    have hno : ∀ best, p.better best now maxAge = false := by
      intro best
      cases best with
      | none => exact hu
      | some b =>
        refine Bool.eq_false_iff.mpr fun h => ?_
        rw [(better_some.mp h).1] at hu
        cases hu
    have hdrop : [p].filter (fun q => q.usable now maxAge) = [] := by simp [hu]
    rw [hno, hdrop, List.append_nil]
    rfl
  | true =>
    have hkeep : [p].filter (fun q => q.usable now maxAge) = [p] := by simp [hu]
    rw [hkeep, least_snoc]
    cases hbest : least Part.rank (parts.filter fun q => q.usable now maxAge) with
    | none => exact if_pos hu
    | some b =>
      by_cases hlt : p.rank < b.rank
      · rw [if_pos (better_some.mpr ⟨hu, hlt⟩), leastStep, if_pos hlt]
      · rw [if_neg fun h => hlt (better_some.mp h).2, leastStep, if_neg hlt]

/-! ## Reading a snapshot -/

variable {now : Instant} {maxAge : Int}

theorem step_start (s : Scan) {name : String} (h : name ∉ cuts) (attributes : List (String × String)) :
    step now maxAge s (.start name attributes) = { s with field := some name } := by
  simp only [step]
  split
  · exact absurd (by decide) h
  · exact absurd (by decide) h
  · rfl

theorem step_end (s : Scan) {name : String} (h : name ∉ cuts) :
    step now maxAge s (.end_ name) = { s with field := none } := by
  simp only [step]
  split
  · exact absurd (by decide) h
  · exact absurd (by decide) h
  · rfl

/-- Outside the parts, a text is the number or nothing. -/
theorem step_text (events : List PosEvent) (train : Option String) (best : Option Part) (field val : Option String) :
    step now maxAge ⟨events, train, best, none, field⟩ (.text val) =
      ⟨events, (if field = some "TreinNummer" then nonBlank (Feed.unescaped val) else none).or train, best, none,
        field⟩ := by
  by_cases hf : field = some "TreinNummer"
  · subst hf
    simp only [step, nonBlank, if_true]
    split <;> rfl
  · rw [if_neg hf, Option.none_or]
    simp only [step]
    split
    · contradiction
    · exact absurd rfl hf
    · rfl

/-- In a part, each leaf sets its field. -/
theorem reads_part (now : Instant) (maxAge : Int) (s : Scan) :
    ReadsTexts (step now maxAge) cuts fun values (field : Option String) =>
      { s with part := some (partOf (pairs values)), field := field } where
  start values field name attributes h :=
    ⟨some name, step_start _ h attributes, fun val => ⟨some name, by rw [pairs_snoc, partOf_snoc]; rfl⟩⟩
  end_ values field name h := ⟨none, step_end _ h⟩
  other values field := ⟨field, rfl⟩

/-- Outside the parts, the number is kept. -/
theorem reads_own (now : Instant) (maxAge : Int) (events : List PosEvent) (best : Option Part) :
    ReadsTexts (step now maxAge) cuts fun values (field : Option String) =>
      ⟨events, lastValue "TreinNummer" (pairs values), best, none, field⟩ where
  start values field name attributes h :=
    ⟨some name, step_start _ h attributes, fun val =>
      ⟨some name, by rw [step_text, pairs_snoc, lastValue_snoc]; simp only [Option.some.injEq]⟩⟩
  end_ values field name h := ⟨none, step_end _ h⟩
  other values field := ⟨field, rfl⟩

/-- A train, read up to some of its pieces. -/
def within (now : Instant) (maxAge : Int) (events : List PosEvent) (pieces : List Piece) (field : Option String) : Scan :=
  ⟨events, numberOf pieces, leadOf now maxAge pieces, none, field⟩

theorem foldl_piece (now : Instant) (maxAge : Int) (events : List PosEvent) (before : List Piece)
    (field : Option String) (p : Piece) :
    ∃ field', p.events.foldl (step now maxAge) (within now maxAge events before field) =
      within now maxAge events (before ++ [p]) field' := by
  cases p with
  | own c h =>
    obtain ⟨field', h'⟩ := (reads_own now maxAge events (leadOf now maxAge before)).content h (valuesOf (ownOf before)) field
    have hown : ownOf (before ++ [.own c h]) = ownOf before ++ [c] := by simp [ownOf, List.filterMap_append]
    have hlead : leadOf now maxAge (before ++ [.own c h]) = leadOf now maxAge before := by
      simp [leadOf, partsOf, List.filterMap_append]
    refine ⟨field', ?_⟩
    rw [within, within, numberOf, numberOf, hown, hlead, leavesOf, leavesOf, valuesOf_append]
    exact h'
  | part attributes content flat =>
    have hown : ownOf (before ++ [.part attributes content flat]) = ownOf before := by
      simp [ownOf, List.filterMap_append]
    have hparts : partsOf (before ++ [.part attributes content flat]) = partsOf before ++ [partOf (leavesOf content)] := by
      simp [partsOf, List.filterMap_append]
    obtain ⟨field', h'⟩ := (reads_part now maxAge (within now maxAge events before field)).foldl flat [] none
    have hstart : step now maxAge (within now maxAge events before field) (.start "TreinMaterieelDelen" attributes) =
        { within now maxAge events before field with part := some (partOf []), field := none } := rfl
    refine ⟨none, ?_⟩
    rw [Piece.events, List.foldl_cons, hstart, List.foldl_append]
    rw [pairs_nil, List.nil_append] at h'
    rw [h', within, within, numberOf, numberOf, leadOf, leadOf, hown, hparts, ← endPart_lead]
    rfl

/-- A train that ends leaves its event. -/
theorem endTrain_within (events : List PosEvent) (t : Train) (field : Option String) :
    (within now maxAge events t.pieces field).endTrain now =
      ⟨events ++ (t.event now maxAge).toList, none, none, none, field⟩ := by
  simp only [Scan.endTrain, within, Train.event]
  cases numberOf t.pieces with
  | none => simp
  | some number => cases leadOf now maxAge t.pieces <;> simp

/-- The trains of a snapshot, read one after the other. What is left behind of a
number or a tag is not followed. -/
theorem foldl_item (now : Instant) (maxAge : Int) (before : List Item) (r : Option String × Option String) (i : Item) :
    ∃ r' : Option String × Option String,
      i.events.foldl (step now maxAge) ⟨before.filterMap (Item.event now maxAge), r.1, none, none, r.2⟩ =
        ⟨(before ++ [i]).filterMap (Item.event now maxAge), r'.1, none, none, r'.2⟩ := by
  rw [List.filterMap_append]
  cases i with
  | train t =>
    let events := before.filterMap (Item.event now maxAge)
    obtain ⟨field, h⟩ := foldl_flatMap_state (l := t.pieces)
      (fun pieces field p _ => foldl_piece now maxAge events pieces field p) [] none
    have hstart : step now maxAge ⟨events, r.1, none, none, r.2⟩ (.start "TreinLocation" t.attributes) =
        within now maxAge events [] none := rfl
    refine ⟨(none, none), ?_⟩
    have hend : [Item.train t].filterMap (Item.event now maxAge) = (t.event now maxAge).toList := by
      cases he : t.event now maxAge <;> simp [Item.event, he]
    rw [Item.events, Train.events, List.foldl_cons, hstart, List.foldl_append, h, hend]
    exact congrArg (fun s : Scan => { s with field := none }) (endTrain_within events t field)
  | foreign x h =>
    rw [Item.events, List.foldl_cons, List.foldl_nil]
    have hnone : [Item.foreign x h].filterMap (Item.event now maxAge) = [] := rfl
    rw [hnone, List.append_nil]
    cases x with
    | start name attributes =>
      have hname : name ∉ cuts := fun hn => (h name hn).1 attributes rfl
      exact ⟨(r.1, some name), step_start _ hname attributes⟩
    | text val => exact ⟨(_, r.2), step_text _ r.1 none r.2 val⟩
    | end_ name =>
      have hname : name ∉ cuts := fun hn => (h name hn).2 rfl
      exact ⟨(r.1, none), step_end _ hname⟩
    | other => exact ⟨r, rfl⟩

end

end Ns

/-- A snapshot is parsed to the events of its trains. -/
theorem parseNsTreinposities_eq [Feed] {xml : String} {doc : List Ns.Item} (h : Feed.read xml = doc.flatMap Ns.Item.events)
    (now : Instant) (maxAge : Int) :
    parseNsTreinposities xml now maxAge = doc.filterMap (Ns.Item.event now maxAge) := by
  obtain ⟨r, hr⟩ := foldl_flatMap_state (l := doc) (fun before r i _ => Ns.foldl_item now maxAge before r i) [] (none, none)
  have hrun : (Feed.read xml).foldl (Ns.step now maxAge) {} =
      ⟨doc.filterMap (Ns.Item.event now maxAge), r.1, none, none, r.2⟩ := by
    rw [h]
    exact hr
  rw [parseNsTreinposities, hrun]

namespace Ns

variable {now : Instant} {maxAge : Int}

/-- A usable part has coordinates in the feed's area, and a time in the window. -/
theorem usable_iff {p : Part} :
    p.usable now maxAge = true ↔ ∃ lat lon ts, p.lat = some lat ∧ p.lon = some lon ∧ p.timestamp = some ts ∧
      inRange 50 54 lat = true ∧ inRange 3 (15 / 2) lon = true ∧
      now - maxAge ≤ ts ∧ ts ≤ now + MAX_CLOCK_SKEW * nanos := by
  unfold Part.usable
  split
  · rename_i lat lon ts hlat hlon hts
    simp only [hlat, hlon, hts, Option.some.injEq]
    cases hin : inRange 50 54 lat <;> cases hin' : inRange 3 (15 / 2) lon <;> simp [hin, hin']
  · rename_i hnone
    refine iff_of_false Bool.false_ne_true ?_
    rintro ⟨lat, lon, ts, hlat, hlon, hts, -⟩
    exact hnone lat lon ts hlat hlon hts

variable [Feed]

/-- An event of a train is made of one usable part. -/
theorem exists_usable_of_event {i : Item} {e : PosEvent} (h : i.event now maxAge = some e) :
    ∃ number p, e = eventFor number p now ∧ p.usable now maxAge = true := by
  cases i with
  | foreign x hx => cases h
  | train t =>
    simp only [Item.event, Train.event, Option.bind_eq_bind, Option.bind_eq_some_iff] at h
    obtain ⟨number, -, lead, hlead, h⟩ := h
    exact ⟨number, lead, (Option.some.inj h).symm, (List.mem_filter.mp (mem_of_least hlead)).2⟩

/-- Two trains of one number whose parts are the same but for their order, where no two
usable parts have one order number. Elements of other names may differ. -/
def Rearranged (now : Instant) (maxAge : Int) : Item → Item → Prop
  | .train t, .train u =>
    numberOf t.pieces = numberOf u.pieces ∧ (partsOf t.pieces).Perm (partsOf u.pieces) ∧
      (((partsOf t.pieces).filter fun p => p.usable now maxAge).map Part.rank).Nodup
  | .foreign .., .foreign .. => True
  | _, _ => False

theorem event_rearranged {i j : Item} (h : Rearranged now maxAge i j) : i.event now maxAge = j.event now maxAge := by
  cases i with
  | foreign x hx =>
    cases j with
    | foreign y hy => rfl
    | train u => exact h.elim
  | train t =>
    cases j with
    | foreign y hy => exact h.elim
    | train u =>
      obtain ⟨hnumber, hparts, hranks⟩ := h
      have hlead : leadOf now maxAge t.pieces = leadOf now maxAge u.pieces :=
        (least_perm hranks (hparts.filter _)).symm
      rw [Item.event, Item.event, Train.event, Train.event, hnumber, hlead]

end Ns

/-! ## Sweeping a snapshot -/

variable [Platform]

/-- A vehicle on the map that a sweep leaves there. -/
def KeptBySweep (live : LiveState) (now : Instant) (id : String) : Prop :=
  ∃ t, live.trips.lookup id = some t ∧ (live.pruneStale now).1.trips.lookup id = some t ∧ id ∉ (live.pruneStale now).2

/-- The live state after some events. -/
def LiveState.applyAll (live : LiveState) (g : GtfsService) (es : List PosEvent) : LiveState :=
  es.foldl (fun s e => (s.apply e g.enricher).1) live

theorem applyAll_staleAfter (live : LiveState) (g : GtfsService) (es : List PosEvent) :
    (live.applyAll g es).staleAfter = live.staleAfter := by
  induction es using List.reverseRecOn with
  | nil => rfl
  | append_singleton es e ih =>
    rw [LiveState.applyAll, List.foldl_append]
    exact ((live.applyAll g es).apply_staleAfter e g.enricher).1.trans ih

/-- The vehicles of events that start or go on with a trip were last updated at one of them. -/
theorem lookup_applyAll (live : LiveState) (g : GtfsService) {es : List PosEvent} (h : ∀ e ∈ es, e.kind ≠ .end_) :
    ∀ e ∈ es, ∃ t, (live.applyAll g es).trips.lookup e.key.id = some t ∧ ∃ e' ∈ es, t.lastUpdate = e'.timestamp := by
  induction es using List.reverseRecOn with
  | nil => exact fun e he => absurd he List.not_mem_nil
  | append_singleton es e ih =>
    have hlast : live.applyAll g (es ++ [e]) = ((live.applyAll g es).apply e g.enricher).1 := List.foldl_append
    intro e₁ he₁
    rw [hlast, LiveState.lookup_apply]
    by_cases hid : e₁.key.id = e.key.id
    · rw [if_pos hid]
      have hne := h e (List.mem_append_right _ (List.mem_singleton_self e))
      refine ⟨_, eventTrip_reported hne, e, List.mem_append_right _ (List.mem_singleton_self e), ?_⟩
      obtain ⟨-, u, hu, hm⟩ := eventTrip_eq_some (eventTrip_reported (g := g) hne)
      rw [hm, hu]
      exact reported_lastUpdate
    · rw [if_neg hid]
      have hmem : e₁ ∈ es := by
        rcases List.mem_append.mp he₁ with hmem | hmem
        · exact hmem
        · exact absurd (congrArg (fun e : PosEvent => e.key.id) (List.mem_singleton.mp hmem)) hid
      obtain ⟨t, ht, e', he', hts⟩ := ih (fun e he => h e (List.mem_append_left _ he)) e₁ hmem
      exact ⟨t, ht, e', List.mem_append_left _ he', hts⟩

theorem keptBySweep_applyAll (live : LiveState) (g : GtfsService) {es : List PosEvent} {now : Instant}
    (h : ∀ e ∈ es, e.kind ≠ .end_ ∧ now - live.staleAfter ≤ e.timestamp) :
    ∀ e ∈ es, KeptBySweep (live.applyAll g es) now e.key.id := by
  intro e he
  obtain ⟨t, ht, e', he', hts⟩ := lookup_applyAll live g (fun e he => (h e he).1) e he
  have hnew : now - (live.applyAll g es).staleAfter ≤ t.lastUpdate := by
    rw [applyAll_staleAfter, hts]
    exact (h e' he').2
  refine ⟨t, ht, ?_, fun hmem => ?_⟩
  · rw [LiveState.lookup_pruneStale, ht, Option.filter_some, if_pos (decide_eq_true hnew)]
  · obtain ⟨u, hu, hold⟩ := (Logged.mem_pruneStale _ _ _).mp hmem
    obtain rfl := Option.some.inj (ht.symm.trans hu)
    exact absurd hnew (not_le.mpr hold)

/-- A snapshot is parsed to one event for each train with a number and a usable part,
made of its leading unit. The order of the parts makes no difference, and a sweep at
the time of the snapshot keeps every vehicle its events were applied to, unless
it allows them less age than the decoder did. -/
theorem parseNsTreinposities_leading [Feed] (now : Instant) (maxAge : Int) :
    (∀ (doc : List Ns.Item) (xml : String), Feed.read xml = doc.flatMap Ns.Item.events →
      parseNsTreinposities xml now maxAge = doc.filterMap (Ns.Item.event now maxAge)) ∧
    (∀ (doc doc' : List Ns.Item) (xml xml' : String), Feed.read xml = doc.flatMap Ns.Item.events →
      Feed.read xml' = doc'.flatMap Ns.Item.events → List.Forall₂ (Ns.Rearranged now maxAge) doc doc' →
      parseNsTreinposities xml' now maxAge = parseNsTreinposities xml now maxAge) ∧
    ∀ (doc : List Ns.Item) (xml : String) (live : LiveState) (g : GtfsService) (es : List PosEvent),
      Feed.read xml = doc.flatMap Ns.Item.events → (∀ e ∈ es, e ∈ parseNsTreinposities xml now maxAge) →
      maxAge ≤ live.staleAfter → ∀ e ∈ es, KeptBySweep (live.applyAll g es) now e.key.id := by
  refine ⟨fun doc xml h => parseNsTreinposities_eq h now maxAge, ?_, ?_⟩
  · intro doc doc' xml xml' h h' hdocs
    rw [parseNsTreinposities_eq h, parseNsTreinposities_eq h']
    clear h h'
    induction hdocs with
    | nil => rfl
    | cons hij _ ih => rw [List.filterMap_cons, List.filterMap_cons, Ns.event_rearranged hij, ih]
  · intro doc xml live g es h hes hage
    refine keptBySweep_applyAll live g fun e he => ?_
    have hmem := hes e he
    rw [parseNsTreinposities_eq h] at hmem
    obtain ⟨i, -, hi⟩ := List.mem_filterMap.mp hmem
    obtain ⟨number, p, rfl, hp⟩ := Ns.exists_usable_of_event hi
    obtain ⟨_, _, ts, -, -, hts, -, -, hnew, -⟩ := Ns.usable_iff.mp hp
    have hdate : (Ns.eventFor number p now).timestamp = ts := by rw [Ns.eventFor, hts]; rfl
    refine ⟨fun hk => (by cases hk), ?_⟩
    rw [hdate]
    linarith

/-- A unit of a train. -/
def unit (order lat : String) : Ns.Piece :=
  .part []
    [.leaf { name := "Materieelvolgnummer", text := some (some order) },
      .leaf { name := "GpsDatumTijd", text := some (some "1970-01-01T00:00:00Z") },
      .leaf { name := "Longitude", text := some (some "4.5") },
      .leaf { name := "Latitude", text := some (some lat) }]
    (by simp [Content.Avoids, Content.name?, Ns.cuts])

def unitXml (order lat : String) : String :=
  "<TreinMaterieelDelen><Materieelvolgnummer>" ++ order ++ "</Materieelvolgnummer>" ++
    "<GpsDatumTijd>1970-01-01T00:00:00Z</GpsDatumTijd><Longitude>4.5</Longitude><Latitude>" ++ lat ++
    "</Latitude></TreinMaterieelDelen>"

/-- A train of two units. -/
def coupled (units : List Ns.Piece) : List Ns.Item :=
  [.train { pieces := .own (.leaf { name := "TreinNummer", text := some (some "8743") }) (by decide) :: units }]

def coupledXml (units : String) : String :=
  "<TreinLocation><TreinNummer>8743</TreinNummer>" ++ units ++ "</TreinLocation>"

/-- What the packages make of the train, with its units in either order. -/
@[reducible] def coupledFeed : Feed where
  read xml :=
    if xml = coupledXml (unitXml "2" "52.1" ++ unitXml "1" "52") then
      (coupled [unit "2" "52.1", unit "1" "52"]).flatMap Ns.Item.events
    else if xml = coupledXml (unitXml "1" "52" ++ unitXml "2" "52.1") then
      (coupled [unit "1" "52", unit "2" "52.1"]).flatMap Ns.Item.events
    else []
  parseFromRfc3339 t := if t = "1970-01-01T00:00:00Z" then some 0 else none

omit [Platform] in
theorem parseNsTreinposities_coupled :
    let _ := coupledFeed
    let _ := plainPlatform
    let xml := coupledXml (unitXml "2" "52.1" ++ unitXml "1" "52")
    let xml' := coupledXml (unitXml "1" "52" ++ unitXml "2" "52.1")
    let events := parseNsTreinposities xml 0 (120 * nanos)
    events.map (fun e => (e.key.id, e.lat)) = [("IFF:8743", some (Num.fin 52))] ∧
    events = (coupled [unit "2" "52.1", unit "1" "52"]).filterMap (Ns.Item.event 0 (120 * nanos)) ∧
    parseNsTreinposities xml' 0 (120 * nanos) = events ∧
    ∃ e ∈ events, KeptBySweep ((LiveState.new 240).applyAll {} events) 0 e.key.id := by
  intro _ _ xml xml' events
  have hne : xml' ≠ xml := by decide +kernel
  have hread : coupledFeed.read xml = (coupled [unit "2" "52.1", unit "1" "52"]).flatMap Ns.Item.events := if_pos rfl
  have hread' : coupledFeed.read xml' = (coupled [unit "1" "52", unit "2" "52.1"]).flatMap Ns.Item.events :=
    (if_neg hne).trans (if_pos rfl)
  have hmap : events.map (fun e => (e.key.id, e.lat)) = [("IFF:8743", some (Num.fin 52))] := by decide +kernel
  obtain ⟨e, hevents, -⟩ := List.map_eq_singleton_iff.mp hmap
  have he : e ∈ events := hevents ▸ List.mem_singleton_self e
  refine ⟨hmap, (parseNsTreinposities_leading 0 _).1 _ _ hread, ?_, e, he, ?_⟩
  · refine (parseNsTreinposities_leading 0 _).2.1 _ _ _ _ hread hread' (.cons ⟨rfl, List.Perm.swap _ _ _, ?_⟩ .nil)
    decide +kernel
  · exact (parseNsTreinposities_leading 0 _).2.2 _ _ _ {} events hread (fun _ he => he) (by decide) e he

end OV.Impl
