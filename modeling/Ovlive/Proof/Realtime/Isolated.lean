import Ovlive.Proof.Realtime.Documents
import Ovlive.Proof.Realtime.Records

/-!
# The records of a KV6 document, each on its own

A document is a list of records with flat leaves, among elements of other names.
`Element.event` is what a record's own leaves make of it, and
`parseKv6_document` says that a document is parsed to the events of its records.
-/

namespace OV.Impl

namespace Kv6

/-- A record of a document: no element in it has its name. -/
structure Element where
  name : String
  kind : MessageKind
  named : kindFrom name = some kind
  attributes : List (String × String) := []
  content : List Content
  flat : ∀ c ∈ content, c.Avoids [name]

/-- A document is records, and the events of other elements around them. -/
inductive Item
  | record (e : Element)
  | foreign (x : XmlEvent) (h : ∀ name attributes, x = .start name attributes → kindFrom name = none)

namespace Element

variable (e : Element)

/-- The leaves of a record, by element name. -/
def leaves : List (String × String) := leavesOf e.content

/-- The events of a record. -/
def events : List XmlEvent := .start e.name e.attributes :: (e.content.flatMap Content.events ++ [.end_ e.name])

/-- The first value of a block code that is not blank, under either of its names. -/
def blockCode (leaves : List (String × String)) : Option String :=
  leaves.findSome? fun l => if l.1 = "blockcode" ∨ l.1 = "omloopnumber" then nonBlank l.2 else none

/-- The event of a record, when the clock shows `now`. A record without a time that
can be read is dated by the clock. -/
def event [Feed] (now : Instant) : Option PosEvent := do
  let dataowner ← lastValue "dataownercode" e.leaves
  let vehicleNumber ← lastValue "vehiclenumber" e.leaves
  if vehicleNumber = "0" then none
  else
    some
      { key := { dataowner := dataowner, vehicleNumber := vehicleNumber }
        kind := e.kind
        linePlanningNumber := lastValue "lineplanningnumber" e.leaves
        journeyNumber := lastValue "journeynumber" e.leaves
        operatingDay := lastValue "operatingday" e.leaves
        blockCode := blockCode e.leaves
        rdX := ((lastValue "rd-x" e.leaves).bind fun v => Text.parseF64? v.toList).filter fun x => (Num.fin 0).lt x
        rdY := ((lastValue "rd-y" e.leaves).bind fun v => Text.parseF64? v.toList).filter fun y => (Num.fin 0).lt y
        punctuality := (lastValue "punctuality" e.leaves).bind fun v => (Text.parseI32? v.toList).map Int32.toInt
        userStopCode := lastValue "userstopcode" e.leaves
        timestamp := ((lastValue "timestamp" e.leaves).bind Feed.parseFromRfc3339).getD now }

end Element

/-- The events of an item, and of a document. -/
def Item.events : Item → List XmlEvent
  | .record e => e.events
  | .foreign x _ => [x]

/-- The record of an item. -/
def Item.element? : Item → Option Element
  | .record e => some e
  | .foreign _ _ => none

/-! ## The leaves of a record -/

theorem blockCode_snoc (leaves : List (String × String)) (l : String × String) :
    Element.blockCode (leaves ++ [l]) =
      (Element.blockCode leaves).or (if l.1 = "blockcode" ∨ l.1 = "omloopnumber" then nonBlank l.2 else none) := by
  rw [Element.blockCode, List.findSome?_append, ← Element.blockCode, List.findSome?_singleton]

/-- A block code that is kept is not blank. -/
theorem blockCode_getD (leaves : List (String × String)) :
    ((Element.blockCode leaves).getD "").isEmpty = (Element.blockCode leaves).isNone := by
  cases h : Element.blockCode leaves with
  | none => rfl
  | some v =>
    obtain ⟨l, -, hl⟩ := List.exists_of_findSome?_eq_some h
    split at hl
    · unfold nonBlank at hl
      split at hl
      · cases hl
      · rename_i hne
        obtain rfl := Option.some.inj hl
        simpa using hne
    · cases hl

section

variable [Feed]

/-- The fields that leaves set. -/
def fieldsOf (kind : MessageKind) (leaves : List (String × String)) : Builder where
  kind := some kind
  dataowner := lastValue "dataownercode" leaves
  vehicleNumber := lastValue "vehiclenumber" leaves
  line := lastValue "lineplanningnumber" leaves
  journey := lastValue "journeynumber" leaves
  operatingDay := lastValue "operatingday" leaves
  blockCode := Element.blockCode leaves
  userStopCode := lastValue "userstopcode" leaves
  punctuality := (lastValue "punctuality" leaves).bind fun v => (Text.parseI32? v.toList).map Int32.toInt
  rdX := ((lastValue "rd-x" leaves).bind fun v => Text.parseF64? v.toList).filter fun x => (Num.fin 0).lt x
  rdY := ((lastValue "rd-y" leaves).bind fun v => Text.parseF64? v.toList).filter fun y => (Num.fin 0).lt y
  timestamp := (lastValue "timestamp" leaves).bind Feed.parseFromRfc3339

/-- One more leaf. -/
theorem fieldsOf_snoc (kind : MessageKind) (leaves : List (String × String)) (f v : String) :
    fieldsOf kind (leaves ++ [(f, v)]) = (fieldsOf kind leaves).set f v := by
  unfold Builder.set
  by_cases hv : (Feed.trimmed v).isEmpty = true
  · have hnone : nonBlank v = none := if_pos hv
    rw [if_pos hv]
    simp only [fieldsOf, lastValue_snoc, blockCode_snoc, hnone, ite_self, Option.none_or, Option.or_none]
  · have hsome : nonBlank v = some (Feed.trimmed v) := if_neg hv
    rw [if_neg hv]
    -- the names are compared before the fields are opened
    split <;> simp only [fieldsOf, lastValue_snoc, blockCode_snoc, hsome]
    -- under either of its names
    case h_6 | h_7 =>
      simp only [blockCode_getD]
      cases Element.blockCode leaves <;> simp
    case h_13 => simp_all
    all_goals simp

/-- The fields of a record are those that its leaves set. -/
theorem builder_eq (ρ : Record) : ρ.builder = fieldsOf ρ.kind ρ.leaves := by
  obtain ⟨kind, leaves⟩ := ρ
  induction leaves using List.reverseRecOn with
  | nil => rfl
  | append_singleton leaves l ih =>
    obtain ⟨f, v⟩ := l
    simp only [Record.builder] at ih ⊢
    rw [List.foldl_append, ih, fieldsOf_snoc]
    rfl

/-- What a document's record is cut to. -/
def Element.record (e : Element) : Record := ⟨e.kind, e.leaves⟩

theorem event_record (now : Instant) (e : Element) : e.record.event now = e.event now := by
  rw [Record.event, builder_eq]
  rfl

end

/-! ## Cutting a document -/

/-- The element name of a message type. -/
def tag : MessageKind → String
  | .init => "INIT"
  | .arrival => "ARRIVAL"
  | .onStop => "ONSTOP"
  | .departure => "DEPARTURE"
  | .onRoute => "ONROUTE"
  | .delay => "DELAY"
  | .offroute => "OFFROUTE"
  | .end_ => "END"

theorem eq_tag {name : String} {kind : MessageKind} (h : kindFrom name = some kind) : name = tag kind := by
  unfold kindFrom at h
  split at h <;> first | (cases h; rfl) | cases h

/-- An element that a record's own tags do not name does not end it. -/
theorem kindFrom_ne (e : Element) {name : String} (h : name ≠ e.name) : kindFrom name ≠ some e.kind :=
  fun hk => h ((eq_tag hk).trans (eq_tag e.named).symm)

/-- In a record, a leaf is kept under its name, and a tag is not. -/
theorem reads_record (e : Element) (records : List Record) :
    ReadsTexts Cut.step [e.name] fun values (field : Option String) => ⟨records, some ⟨e.kind, pairs values⟩, field⟩ where
  start values field name attributes _ :=
    ⟨some name, rfl, fun val => ⟨some name, by rw [pairs_snoc]; rfl⟩⟩
  end_ values field name h := ⟨none, if_neg (kindFrom_ne e fun he => h (List.mem_singleton.mpr he))⟩
  other values field := ⟨field, rfl⟩

/-- A record is cut whole, and leaves nothing behind. -/
theorem foldl_element (e : Element) (records : List Record) :
    e.events.foldl Cut.step ⟨records, none, none⟩ = ⟨records ++ [e.record], none, none⟩ := by
  obtain ⟨field, h⟩ := (reads_record e records).foldl e.flat [] none
  have hstart : Cut.step ⟨records, none, none⟩ (.start e.name e.attributes) = ⟨records, some ⟨e.kind, []⟩, none⟩ := by
    simp only [Cut.step, e.named]
  rw [Element.events, List.foldl_cons, List.foldl_append, hstart]
  rw [pairs_nil, List.nil_append] at h
  rw [h]
  simp [Cut.step, e.named, Element.record, Element.leaves, leavesOf]

theorem foldl_items (doc : List Item) (records : List Record) :
    (doc.flatMap Item.events).foldl Cut.step ⟨records, none, none⟩ =
      ⟨records ++ (doc.filterMap Item.element?).map Element.record, none, none⟩ := by
  induction doc generalizing records with
  | nil => simp
  | cons item doc ih =>
    rw [List.flatMap_cons, List.foldl_append]
    cases item with
    | record e =>
      rw [Item.events, foldl_element, ih]
      simp [Item.element?]
    | foreign x h =>
      -- outside a record nothing is set
      have hx : Cut.step ⟨records, none, none⟩ x = ⟨records, none, none⟩ := by
        cases x with
        | start name attributes => simp [Cut.step, h name attributes rfl]
        | _ => rfl
      rw [Item.events, List.foldl_cons, List.foldl_nil, hx, ih]
      simp [Item.element?, List.filterMap_cons]

/-- The records behind only grow. -/
theorem foldl_behind (records : List Record) (xs : List XmlEvent) :
    (xs.foldl Cut.step ⟨records, none, none⟩).records = records ++ (xs.foldl Cut.step {}).records := by
  let behind (c : Cut) : Cut := { c with records := records ++ c.records }
  have hstep : ∀ c x, Cut.step (behind c) x = behind (c.step x) := by
    intro c x
    obtain ⟨before, cur, field⟩ := c
    cases x with
    | start name attributes => cases cur <;> cases hk : kindFrom name <;> simp [behind, Cut.step, hk]
    | text val => cases cur <;> cases field <;> simp [behind, Cut.step]
    | end_ name =>
      cases cur with
      | none => rfl
      | some ρ => by_cases hk : kindFrom name = some ρ.kind <;> simp [behind, Cut.step, hk]
    | other => rfl
  have hrun : xs.foldl Cut.step (behind {}) = behind (xs.foldl Cut.step {}) := List.foldl_hom behind hstep
  have hstart : behind {} = ⟨records, none, none⟩ := by simp [behind]
  rw [← hstart, hrun]

variable [Feed]

theorem records_document {xml : String} {doc : List Item} (h : Feed.read xml = doc.flatMap Item.events) :
    records xml = (doc.filterMap Item.element?).map Element.record := by
  rw [records, h, show ({} : Cut) = ⟨[], none, none⟩ from rfl, foldl_items, List.nil_append]

/-- A document's records stand before those of the events that follow it. -/
theorem records_followed {xml : String} {doc : List Item} {tail : List XmlEvent}
    (h : Feed.read xml = doc.flatMap Item.events ++ tail) :
    records xml = (doc.filterMap Item.element?).map Element.record ++ (tail.foldl Cut.step {}).records := by
  rw [records, h, List.foldl_append, show ({} : Cut) = ⟨[], none, none⟩ from rfl, foldl_items, List.nil_append,
    foldl_behind]

/-- The events of a document's records. -/
def documentEvents (now : Instant) (doc : List Item) : List PosEvent :=
  (doc.filterMap Item.element?).filterMap fun e => e.event now

theorem filterMap_record (now : Instant) (doc : List Item) :
    ((doc.filterMap Item.element?).map Element.record).filterMap (Record.event now) = documentEvents now doc := by
  rw [List.filterMap_map]
  exact List.filterMap_congr fun e _ => event_record now e

end Kv6

/-- A document is parsed to the events of its records, each made of the record's own
leaves. A document after another is parsed as if it stood alone, and whatever
events follow a document, those of its records stay as they are. -/
theorem parseKv6_document [Feed] (now : Instant) :
    (∀ (doc : List Kv6.Item) (xml : String), Feed.read xml = doc.flatMap Kv6.Item.events →
      parseKv6 now xml = Kv6.documentEvents now doc) ∧
    (∀ (doc : List Kv6.Item) (x₁ x₂ xml : String), Feed.read x₁ = doc.flatMap Kv6.Item.events →
      Feed.read xml = Feed.read x₁ ++ Feed.read x₂ → parseKv6 now xml = parseKv6 now x₁ ++ parseKv6 now x₂) ∧
    ∀ (doc : List Kv6.Item) (tail : List XmlEvent) (xml : String),
      Feed.read xml = doc.flatMap Kv6.Item.events ++ tail → Kv6.documentEvents now doc <+: parseKv6 now xml := by
  refine ⟨?_, ?_, ?_⟩
  · intro doc xml h
    rw [parseKv6_eq, Kv6.records_document h, Kv6.filterMap_record]
  · intro doc x₁ x₂ xml h₁ h
    have hboth : Kv6.records xml = Kv6.records x₁ ++ Kv6.records x₂ := by
      rw [Kv6.records_followed (h₁ ▸ h), Kv6.records_document h₁, ← Kv6.records]
    rw [parseKv6_eq, parseKv6_eq, parseKv6_eq, hboth, List.filterMap_append]
  · intro doc tail xml h
    rw [parseKv6_eq, Kv6.records_followed h, List.filterMap_append, Kv6.filterMap_record]
    exact List.prefix_append _ _

/-- A metro that reports its block before it is cut off in the next record. -/
def metro : Kv6.Element where
  name := "ONROUTE"
  kind := .onRoute
  named := rfl
  content :=
    [.leaf { name := "dataownercode", text := some (some "RET") },
      .leaf { name := "vehiclenumber", text := some (some "1001") },
      .leaf { name := "reinforcementnumber", text := some (some "0") },
      .leaf { name := "omloopnumber", text := some (some "77") },
      .leaf { name := "blockcode", text := some (some "78") }]
  flat := by decide

def metroXml : String :=
  "<ONROUTE><dataownercode>RET</dataownercode><vehiclenumber>1001</vehiclenumber>" ++
    "<reinforcementnumber>0</reinforcementnumber><omloopnumber>77</omloopnumber><blockcode>78</blockcode></ONROUTE>"

def tailXml : String := "<ARRIVAL><dataownercode>RET</ARRIVAL>"

def tailEvents : List XmlEvent := [.start "ARRIVAL" [], .start "dataownercode" [], .text (some "RET")]

/-- What the packages make of them. -/
@[reducible] def metroFeed : Feed where
  read xml :=
    if xml = metroXml then metro.events
    else if xml = tailXml then tailEvents
    else if xml = metroXml ++ tailXml then metro.events ++ tailEvents
    else []
  parseFromRfc3339 _ := none

theorem parseKv6_document_cut :
    let _ := metroFeed
    (parseKv6 0 metroXml).map (fun e => (e.key.id, e.blockCode)) = [("RET:1001", some "77")] ∧
    parseKv6 0 metroXml = Kv6.documentEvents 0 [.record metro] ∧
    parseKv6 0 (metroXml ++ tailXml) = parseKv6 0 metroXml ++ parseKv6 0 tailXml ∧
    Kv6.documentEvents 0 [.record metro] <+: parseKv6 0 (metroXml ++ tailXml) := by
  intro _
  have hne : tailXml ≠ metroXml ∧ metroXml ++ tailXml ≠ metroXml ∧ metroXml ++ tailXml ≠ tailXml := by decide +kernel
  have hmetro : metroFeed.read metroXml = [Kv6.Item.record metro].flatMap Kv6.Item.events := if_pos rfl
  have htail : metroFeed.read tailXml = tailEvents := (if_neg hne.1).trans (if_pos rfl)
  have hcut : metroFeed.read (metroXml ++ tailXml) = [Kv6.Item.record metro].flatMap Kv6.Item.events ++ tailEvents :=
    (if_neg hne.2.1).trans ((if_neg hne.2.2).trans (if_pos rfl))
  have hboth : metroFeed.read (metroXml ++ tailXml) = metroFeed.read metroXml ++ metroFeed.read tailXml := by
    rw [hcut, hmetro, htail]
  exact ⟨by decide +kernel, (parseKv6_document 0).1 _ _ hmetro, (parseKv6_document 0).2.1 _ _ _ _ hmetro hboth,
    (parseKv6_document 0).2.2 _ _ _ hcut⟩

end OV.Impl
