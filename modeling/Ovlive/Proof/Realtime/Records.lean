import Mathlib.Data.List.Induction
import Ovlive.Impl.Realtime.Kv6

/-!
# The records of a KV6 payload

`Kv6.records` cuts a document into its records: an element whose name is a
message type, outside any other, with the leaves up to its end tag.
`parseKv6_eq` says that `parseKv6` is the events of these records, and
`Record.event_eq_some` what a record's event has from its leaves: in
particular the last value of its `timestamp` element dates it.
-/

namespace OV.Impl

namespace Kv6

/-- A record: its message type, and its leaves by element name, in order. -/
structure Record where
  kind : MessageKind
  leaves : List (String × String) := []

/-- A document cut at its records, and the record and the leaf it is in. -/
structure Cut where
  records : List Record := []
  cur : Option Record := none
  field : Option String := none

def Cut.step (c : Cut) : XmlEvent → Cut
  | .start name _ =>
    match c.cur, kindFrom name with
    | none, some kind => { c with cur := some { kind := kind }, field := none }
    | none, none => c
    | some _, _ => { c with field := some name }
  | .text val =>
    match c.cur, c.field with
    | some ρ, some f => { c with cur := some { ρ with leaves := ρ.leaves ++ [(f, Feed.unescaped val)] } }
    | _, _ => c
  | .end_ name =>
    match c.cur with
    | some ρ =>
      if kindFrom name = some ρ.kind then { records := c.records ++ [ρ], cur := none, field := none }
      else { c with field := none }
    | none => { c with field := none }
  | .other => c

variable [Feed]

/-- The records of a payload. -/
def records (xml : String) : List Record := ((Feed.read xml).foldl Cut.step {}).records

namespace Record

/-- The fields a record sets. -/
def builder (ρ : Record) : Builder := ρ.leaves.foldl (fun b l => b.set l.1 l.2) { kind := some ρ.kind }

/-- The event of a record read when the clock shows `now`. -/
def event (now : Instant) (ρ : Record) : Option PosEvent := ρ.builder.build now

/-- Whether a leaf is a `timestamp` with a value. -/
def isDate (l : String × String) : Bool := l.1 = "timestamp" && !(Feed.trimmed l.2).isEmpty

/-- The time a record's last `timestamp` states, if it can be read. -/
def dated (ρ : Record) : Option Instant :=
  (ρ.leaves.filter isDate).getLast?.bind fun l => Feed.parseFromRfc3339 (Feed.trimmed l.2)

end Record

theorem set_kind (b : Builder) (f v : String) : (b.set f v).kind = b.kind := by
  simp only [Builder.set]
  split
  · rfl
  · split <;> first | rfl | (split <;> rfl)

theorem set_timestamp (b : Builder) (l : String × String) :
    (b.set l.1 l.2).timestamp =
      if Record.isDate l then Feed.parseFromRfc3339 (Feed.trimmed l.2) else b.timestamp := by
  obtain ⟨f, v⟩ := l
  simp only [Builder.set]
  by_cases hv : (Feed.trimmed v).isEmpty
  · simp [Record.isDate, hv]
  by_cases hf : f = "timestamp"
  · subst hf
    simp [Record.isDate, hv]
  · have hd : Record.isDate (f, v) = false := by simp [Record.isDate, hf]
    rw [if_neg hv, hd, if_neg Bool.false_ne_true]
    -- a block code has two element names, and the first value of either is kept
    split <;> first | (split <;> rfl) | rfl | exact (hf rfl).elim

namespace Record

theorem builder_kind (ρ : Record) : ρ.builder.kind = some ρ.kind := by
  have h : ∀ (ls : List (String × String)) (b : Builder),
      (ls.foldl (fun b l => b.set l.1 l.2) b).kind = b.kind := by
    intro ls
    induction ls with
    | nil => intro b; rfl
    | cons l ls ih => intro b; rw [List.foldl_cons, ih, set_kind]
  exact h _ _

theorem builder_timestamp (ρ : Record) : ρ.builder.timestamp = ρ.dated := by
  obtain ⟨kind, leaves⟩ := ρ
  simp only [builder, dated]
  induction leaves using List.reverseRecOn with
  | nil => rfl
  | append_singleton ls l ih =>
    rw [List.foldl_append, List.foldl_cons, List.foldl_nil, set_timestamp, List.filter_append]
    split
    · rename_i h
      rw [List.filter_cons_of_pos h, List.filter_nil, List.getLast?_concat, Option.bind_some]
    · rename_i h
      rw [List.filter_cons_of_neg h, List.filter_nil, List.append_nil, ih]

/-- A record's event has its kind, and is dated by its timestamp or else by the
clock. -/
theorem event_eq_some {now : Instant} {ρ : Record} {e : PosEvent} (h : ρ.event now = some e) :
    e.kind = ρ.kind ∧ e.timestamp = ρ.dated.getD now := by
  simp only [event, Builder.build, Option.bind_eq_bind, Option.bind_eq_some_iff, builder_kind,
    builder_timestamp] at h
  obtain ⟨owner, -, number, -, h⟩ := h
  split at h
  · cases h
  · simp only [Option.bind_some, Option.some.injEq] at h
    subst h
    exact ⟨rfl, rfl⟩

end Record

/-- A cut document as the decoder's state: the records behind are their events. -/
def Cut.scan (now : Instant) (c : Cut) : Scan where
  events := c.records.filterMap (Record.event now)
  cur := c.cur.map Record.builder
  field := c.field

theorem step_scan (now : Instant) (c : Cut) (x : XmlEvent) : step now (c.scan now) x = (c.step x).scan now := by
  obtain ⟨records, cur, field⟩ := c
  cases x with
  | start name attributes =>
    cases cur <;> cases hk : kindFrom name <;> simp [step, Cut.step, Cut.scan, hk, Record.builder]
  | text val =>
    cases cur <;> cases field <;> simp [step, Cut.step, Cut.scan, Record.builder]
  | end_ name =>
    cases cur with
    | none => rfl
    | some ρ =>
      by_cases hk : kindFrom name = some ρ.kind
      · simp [step, Cut.step, Cut.scan, Record.builder_kind, hk, Record.event, List.filterMap_cons]
        cases ρ.builder.build now <;> rfl
      · simp [step, Cut.step, Cut.scan, Record.builder_kind, hk]
  | other => rfl

end Kv6

/-- The events of a payload are those of its records. -/
theorem parseKv6_eq [Feed] (now : Instant) (xml : String) :
    parseKv6 now xml = (Kv6.records xml).filterMap (Kv6.Record.event now) := by
  have h : (Feed.read xml).foldl (Kv6.step now) (Kv6.Cut.scan now {}) = ((Feed.read xml).foldl Kv6.Cut.step {}).scan now :=
    List.foldl_hom (Kv6.Cut.scan now) fun c x => Kv6.step_scan now c x
  rw [parseKv6, Kv6.records]
  exact congrArg Kv6.Scan.events h

end OV.Impl
