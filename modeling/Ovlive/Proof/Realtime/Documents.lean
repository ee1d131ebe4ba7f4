import Ovlive.Framework.Latest
import Ovlive.Framework.Lists
import Ovlive.Impl.Realtime.Reader

/-!
# The events of a document

A document as the reader reports it, cut into leaves, each with one text at most,
and the tags around them (`Content`). Whatever elements there are, and however
they nest, their events are such a sequence. A decoder whose state is one of the
texts so far, each with its tag, goes through a content by `ReadsTexts.foldl`. The
values that the decoders take from leaves are the ones that are not blank
(`nonBlank`), and the last of them (`lastValue`) where a later one replaces an
earlier one.
-/

namespace OV.Impl

/-- An element with one text, or none. -/
structure Leaf where
  name : String
  attributes : List (String × String) := []
  /-- Its text; `some none` if that does not unescape. -/
  text : Option (Option String) := none

/-- A leaf, or a tag of an element around leaves, or what every decoder skips. -/
inductive Content
  | leaf (l : Leaf)
  | open_ (name : String) (attributes : List (String × String))
  | close (name : String)
  | other

namespace Content

/-- The name of the element, if it is one. -/
def name? : Content → Option String
  | .leaf l => some l.name
  | .open_ name _ => some name
  | .close name => some name
  | .other => none

/-- The events of an item. -/
def events : Content → List XmlEvent
  | .leaf l => .start l.name l.attributes :: ((l.text.map XmlEvent.text).toList ++ [.end_ l.name])
  | .open_ name attributes => [.start name attributes]
  | .close name => [.end_ name]
  | .other => [.other]

/-- An item that is not of some elements. -/
def Avoids (names : List String) (c : Content) : Prop := ∀ n ∈ names, c.name? ≠ some n

instance (names : List String) (c : Content) : Decidable (c.Avoids names) :=
  inferInstanceAs (Decidable (∀ n ∈ names, c.name? ≠ some n))

end Content

/-- A text, and the tag it stands in. -/
structure Value where
  name : String
  attributes : List (String × String)
  text : String

/-- The text of a leaf, where it has one. -/
def Leaf.value (l : Leaf) : Option Value := l.text.map fun t => ⟨l.name, l.attributes, Feed.unescaped t⟩

/-- The texts of a content. -/
def valuesOf (content : List Content) : List Value :=
  content.filterMap fun
    | .leaf l => l.value
    | _ => none

/-- The texts of some values, by element name. -/
def pairs (values : List Value) : List (String × String) := values.map fun v => (v.name, v.text)

/-- The leaves of a content with their texts. -/
def leavesOf (content : List Content) : List (String × String) := pairs (valuesOf content)

@[simp] theorem pairs_nil : pairs [] = [] := rfl

theorem pairs_snoc (values : List Value) (v : Value) : pairs (values ++ [v]) = pairs values ++ [(v.name, v.text)] :=
  List.map_append

theorem valuesOf_append (l₁ l₂ : List Content) : valuesOf (l₁ ++ l₂) = valuesOf l₁ ++ valuesOf l₂ :=
  List.filterMap_append

/-- A value without the blanks around it, if anything is left. -/
def nonBlank (v : String) : Option String := if (Feed.trimmed v).isEmpty then none else some (Feed.trimmed v)

/-- The last value of a field that is not blank. -/
def lastValue (field : String) (leaves : List (String × String)) : Option String :=
  latest (fun l => if l.1 = field then nonBlank l.2 else none) leaves

theorem lastValue_snoc (field : String) (leaves : List (String × String)) (l : String × String) :
    lastValue field (leaves ++ [l]) = (if l.1 = field then nonBlank l.2 else none).or (lastValue field leaves) :=
  latest_snoc _ _ _

/-! ## Reading a content -/

variable {S R : Type} {step : S → XmlEvent → S} {names : List String} {state : List Value → R → S}

/-- A decoder among elements of other names: its state is one of the texts so far, but
for a part `R` that is not followed, such as the tag it is in. -/
structure ReadsTexts (step : S → XmlEvent → S) (names : List String) (state : List Value → R → S) : Prop where
  start (values : List Value) (r : R) (name : String) (attributes : List (String × String)) : name ∉ names →
    ∃ r', step (state values r) (.start name attributes) = state values r' ∧
      ∀ val, ∃ r'', step (state values r') (.text val) =
        state (values ++ [⟨name, attributes, Feed.unescaped val⟩]) r''
  end_ (values : List Value) (r : R) (name : String) : name ∉ names →
    ∃ r', step (state values r) (.end_ name) = state values r'
  other (values : List Value) (r : R) : ∃ r', step (state values r) .other = state values r'

/-- It takes one item after the other. -/
theorem ReadsTexts.content (hr : ReadsTexts step names state) {c : Content} (h : c.Avoids names) (values : List Value) (r : R) :
    ∃ r', c.events.foldl step (state values r) = state (values ++ valuesOf [c]) r' := by
  have hname : ∀ name, c.name? = some name → name ∉ names := fun name hc hn => h name hn hc
  cases c with
  | leaf l =>
    obtain ⟨r₁, h₁, htext⟩ := hr.start values r l.name l.attributes (hname _ rfl)
    rw [Content.events, List.foldl_cons, h₁, List.foldl_append]
    cases ht : l.text with
    | none =>
      obtain ⟨r₂, h₂⟩ := hr.end_ values r₁ l.name (hname _ rfl)
      exact ⟨r₂, by simpa [valuesOf, Leaf.value, ht] using h₂⟩
    | some val =>
      obtain ⟨r₂, h₂⟩ := htext val
      obtain ⟨r₃, h₃⟩ := hr.end_ (values ++ [⟨l.name, l.attributes, Feed.unescaped val⟩]) r₂ l.name (hname _ rfl)
      exact ⟨r₃, by simpa [valuesOf, Leaf.value, ht, h₂] using h₃⟩
  | open_ name attributes =>
    obtain ⟨r', h', -⟩ := hr.start values r name attributes (hname _ rfl)
    exact ⟨r', by simpa [Content.events, valuesOf] using h'⟩
  | close name =>
    obtain ⟨r', h'⟩ := hr.end_ values r name (hname _ rfl)
    exact ⟨r', by simpa [Content.events, valuesOf] using h'⟩
  | other =>
    obtain ⟨r', h'⟩ := hr.other values r
    exact ⟨r', by simpa [Content.events, valuesOf] using h'⟩

theorem ReadsTexts.foldl (hr : ReadsTexts step names state) {content : List Content} (h : ∀ c ∈ content, c.Avoids names)
    (values : List Value) (r : R) :
    ∃ r', (content.flatMap Content.events).foldl step (state values r) = state (values ++ valuesOf content) r' := by
  have hstep : ∀ before r, ∀ c ∈ content, ∃ r', c.events.foldl step (state (values ++ valuesOf before) r) =
      state (values ++ valuesOf (before ++ [c])) r' := by
    intro before r c hc
    obtain ⟨r', h'⟩ := hr.content (h c hc) (values ++ valuesOf before) r
    exact ⟨r', by rw [h', List.append_assoc, valuesOf_append]⟩
  obtain ⟨r', h'⟩ := foldl_flatMap_state hstep [] r
  refine ⟨r', ?_⟩
  simpa [valuesOf] using h'

end OV.Impl
