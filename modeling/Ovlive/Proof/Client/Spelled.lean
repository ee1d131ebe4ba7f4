import Ovlive.Proof.Client.Wired

/-!
# What the server's messages spell

A client decodes from the bytes of an encoder the object of the message
(`Encodes.decodeServer`). There is such an encoder (`encodes_plain`): the fields
of a message in the order of their numbers and without defaults are of the types
that the contract declares (`typed_plainFields`), and they spell the message
(`ofFields_plainFields`). A frame shorter than 4 GiB has only lengths that fit
(`Spells`).
-/

namespace OV.Impl

open Wire

attribute [ext] VehicleState VehicleMove

variable {kind : Nat → Option Kind} {a b fs : List Field} {k : Nat}

/-- A frame whose lengths all fit 32 bits. -/
def Short (fs : List Field) : Prop := (render fs).length < 2 ^ 32

/-- In a short frame the fields are of their types. -/
def Spells (kind : Nat → Option Kind) (fs : List Field) : Prop := Short fs → TypedBy kind fs

theorem TypedBy.append (ha : TypedBy kind a) (hb : TypedBy kind b) : TypedBy kind (a ++ b) := fun f hf =>
  (List.mem_append.mp hf).elim (ha f) (hb f)

theorem Short.left (h : Short (a ++ b)) : Short a := by
  rw [Short, render_append, List.length_append] at h
  exact (Nat.le_add_right _ _).trans_lt h

theorem Short.right (h : Short (a ++ b)) : Short b := by
  rw [Short, render_append, List.length_append] at h
  exact (Nat.le_add_left _ _).trans_lt h

/-- The payload of a field of a short frame is short. -/
theorem Short.payload {f : Field} (h : Short fs) (hf : f ∈ fs) : f.payload.length < 2 ^ 32 :=
  (length_render_le hf).trans_lt h

theorem Short.len {bs : Bytes} (h : Short fs) (hf : .len k bs ∈ fs) : bs.length < 2 ^ 32 := by
  have := h.payload hf
  rw [Field.payload, delimited, List.length_append] at this
  omega

theorem Short.msg {ms : List Field} (h : Short fs) (hf : .msg k ms ∈ fs) : Short ms := by
  have := h.payload hf
  rw [Field.payload, delimited, List.length_append] at this
  exact (Nat.le_add_left _ _).trans_lt this

namespace Spells

theorem append (ha : Spells kind a) (hb : Spells kind b) : Spells kind (a ++ b) := fun h =>
  (ha h.left).append (hb h.right)

/-- One field of its type. -/
theorem single {f : Field} {kd : Kind} (h : kind f.num = some kd) (his : f.Is kd) (hok : Short [f] → f.Ok) :
    Spells kind [f] := by
  intro hs g hg
  obtain rfl := List.mem_singleton.mp hg
  refine ⟨hok hs, fun kd' hkd => ?_⟩
  obtain rfl : kd = kd' := Option.some.inj (h.symm.trans hkd)
  exact his

theorem nil : Spells kind [] := by simp [Spells, TypedBy]

theorem len {s : String} (h : kind k = some .string) (hk : k < 2 ^ 29) : Spells kind [.len k (utf8 s)] :=
  single h ⟨s, rfl⟩ fun hs => ⟨hk, hs.len (List.mem_singleton_self _)⟩

theorem text {s : String} (h : kind k = some .string) (hk : k < 2 ^ 29) : Spells kind (putText k s) := by
  rw [putText]
  split
  · exact nil
  · exact len h hk

theorem int {v : Int} (hv : FitsI32 v) (h : kind k = some .int32) (hk : k < 2 ^ 29) : Spells kind (putInt k v) := by
  rw [putInt]
  split
  · exact nil
  · refine single h ?_ fun _ => ⟨hk, ofI32_lt v⟩
    obtain ⟨hlo, hhi⟩ := hv
    simp only [Field.Is, ofI32]
    omega

theorem bool {x : Bool} (h : kind k = some .bool) (hk : k < 2 ^ 29) : Spells kind (putBool k x) := by
  cases x
  · exact nil
  · exact single h (Nat.le_refl 1) fun _ => ⟨hk, by decide⟩

theorem double {x : Num} (h : kind k = some .double) (hk : k < 2 ^ 29) : Spells kind (putDouble k x) := by
  rw [putDouble]
  split
  · exact nil
  · exact single h trivial fun _ => ⟨hk, length_leBytes 8 _⟩

theorem float {x : Num} (h : kind k = some .float) (hk : k < 2 ^ 29) : Spells kind (putFloat k x) := by
  rw [putFloat]
  split
  · exact nil
  · exact single h trivial fun _ => ⟨hk, length_leBytes 4 _⟩

end Spells

namespace VehicleState

def plainFields (m : VehicleState) : List Field :=
  putText 1 m.id ++ putText 2 m.dataowner ++ putText 3 m.vehicleNumber ++ putText 4 m.linePublicNumber ++
  putInt 5 m.vehicleType ++ putText 6 m.operatorName ++ putDouble 7 m.lat ++ putDouble 8 m.lon ++
  putFloat 9 m.bearing ++ putInt 10 m.delaySeconds ++ putText 11 m.destination ++ putText 12 m.blockCode ++
  putText 13 m.journeyNumber ++ putBool 14 m.atStop ++ putText 15 m.currentStopId ++ putText 16 m.lineColor ++
  putText 17 m.lineTextColor ++ putBool 21 m.delayKnown ++ putBool 22 m.schedulePositioned ++
  putFloat 23 m.speedKmh ++ putBool 24 m.speedKnown

theorem typed_plainFields {m : VehicleState} (h : m.Exact) : Short m.plainFields → Typed m.plainFields :=
  (Spells.text (by rfl) (by decide))
    |>.append (.text (by rfl) (by decide))
    |>.append (.text (by rfl) (by decide))
    |>.append (.text (by rfl) (by decide))
    |>.append (.int h.vehicleType (by rfl) (by decide))
    |>.append (.text (by rfl) (by decide))
    |>.append (.double (by rfl) (by decide))
    |>.append (.double (by rfl) (by decide))
    |>.append (.float (by rfl) (by decide))
    |>.append (.int h.delaySeconds (by rfl) (by decide))
    |>.append (.text (by rfl) (by decide))
    |>.append (.text (by rfl) (by decide))
    |>.append (.text (by rfl) (by decide))
    |>.append (.bool (by rfl) (by decide))
    |>.append (.text (by rfl) (by decide))
    |>.append (.text (by rfl) (by decide))
    |>.append (.text (by rfl) (by decide))
    |>.append (.bool (by rfl) (by decide))
    |>.append (.bool (by rfl) (by decide))
    |>.append (.float (by rfl) (by decide))
    |>.append (.bool (by rfl) (by decide))

theorem ofFields_plainFields {m : VehicleState} (h : m.Exact) : ofFields m.plainFields = m := by
  generalize hfs : m.plainFields = fs
  apply VehicleState.ext
  all_goals
    rw [ofFields, ← hfs]
    unfold plainFields
    simp (disch := decide) only [scalar_append, scalar_putText_ne, scalar_putInt_ne, scalar_putBool_ne,
      scalar_putDouble_ne, scalar_putFloat_ne, scalar_putText, scalar_putBool,
      scalar_putInt h.vehicleType, scalar_putInt h.delaySeconds, scalar_putDouble h.lat, scalar_putDouble h.lon,
      scalar_putFloat h.bearing, scalar_putFloat h.speedKmh]

end VehicleState

namespace VehicleMove

def plainFields (m : VehicleMove) : List Field :=
  putText 1 m.id ++ putDouble 2 m.lat ++ putDouble 3 m.lon ++ putFloat 4 m.bearing ++ putInt 5 m.delaySeconds ++
  putBool 6 m.atStop ++ putText 7 m.currentStopId ++ putBool 8 m.delayKnown ++ putBool 9 m.schedulePositioned ++
  putFloat 10 m.speedKmh ++ putBool 11 m.speedKnown

theorem typed_plainFields {m : VehicleMove} (h : m.Exact) : Short m.plainFields → Typed m.plainFields :=
  (Spells.text (by rfl) (by decide))
    |>.append (.double (by rfl) (by decide))
    |>.append (.double (by rfl) (by decide))
    |>.append (.float (by rfl) (by decide))
    |>.append (.int h.delaySeconds (by rfl) (by decide))
    |>.append (.bool (by rfl) (by decide))
    |>.append (.text (by rfl) (by decide))
    |>.append (.bool (by rfl) (by decide))
    |>.append (.bool (by rfl) (by decide))
    |>.append (.float (by rfl) (by decide))
    |>.append (.bool (by rfl) (by decide))

theorem ofFields_plainFields {m : VehicleMove} (h : m.Exact) : ofFields m.plainFields = m := by
  generalize hfs : m.plainFields = fs
  apply VehicleMove.ext
  all_goals
    rw [ofFields, ← hfs]
    unfold plainFields
    simp (disch := decide) only [scalar_append, scalar_putText_ne, scalar_putInt_ne, scalar_putBool_ne,
      scalar_putDouble_ne, scalar_putFloat_ne, scalar_putText, scalar_putBool,
      scalar_putInt h.delaySeconds, scalar_putDouble h.lat, scalar_putDouble h.lon,
      scalar_putFloat h.bearing, scalar_putFloat h.speedKmh]

end VehicleMove

/-! ## Embedded messages -/

section

variable {α : Type} {fields : α → List Field} {as : List α} {P : List Field → Prop}

/-- Messages under a number that no value has. -/
theorem typedBy_map_msg (h : kind k = none) (hk : k < 2 ^ 29) (hs : Short (as.map fun v => Field.msg k (fields v))) :
    TypedBy kind (as.map fun v => Field.msg k (fields v)) := by
  intro f hf
  obtain ⟨v, -, rfl⟩ := List.mem_map.mp hf
  refine ⟨⟨hk, hs.msg hf⟩, fun kd hkd => ?_⟩
  rw [Field.num, h] at hkd
  cases hkd

/-- Texts, whether empty or not. -/
theorem typedBy_map_len {ss : List String} (h : kind k = some .string) (hk : k < 2 ^ 29)
    (hs : Short (ss.map fun s => Field.len k (utf8 s))) : TypedBy kind (ss.map fun s => Field.len k (utf8 s)) := by
  intro f hf
  obtain ⟨s, -, rfl⟩ := List.mem_map.mp hf
  refine ⟨⟨hk, hs.len hf⟩, fun kd hkd => ?_⟩
  obtain rfl : Kind.string = kd := Option.some.inj (h.symm.trans hkd)
  exact ⟨s, rfl⟩

theorem Embeds.append (ha : Embeds k P a) (hb : Embeds k P b) : Embeds k P (a ++ b) := fun f hf =>
  (List.mem_append.mp hf).elim (ha f) (hb f)

theorem Embeds.of_num {j : Nat} (h : ∀ f ∈ fs, f.num = j) (hj : j ≠ k) : Embeds k P fs := fun f hf hn =>
  absurd ((h f hf).symm.trans hn) hj

theorem Embeds.map_msg (h : ∀ v ∈ as, Short (fields v) → P (fields v))
    (hs : Short (as.map fun v => Field.msg k (fields v))) : Embeds k P (as.map fun v => Field.msg k (fields v)) := by
  intro f hf _
  obtain ⟨v, hv, rfl⟩ := List.mem_map.mp hf
  exact ⟨_, rfl, h v hv (hs.msg hf)⟩

theorem num_of_mem_map {field : α → Field} {j : Nat} (h : ∀ v, (field v).num = j) : ∀ f ∈ as.map field, f.num = j := by
  intro f hf
  obtain ⟨v, -, rfl⟩ := List.mem_map.mp hf
  exact h v

section

variable {β : Type} {get : Field → β} {d : β} {field : α → Field} {j : Nat}

theorem repeated_map (h : ∀ v, (field v).num = k) : repeated k get (as.map field) = as.map fun v => get (field v) := by
  rw [repeated, List.filter_eq_self.mpr, List.map_map]
  · rfl
  · intro f hf
    simpa using num_of_mem_map h f hf

/-- Values read back from the fields of each. -/
theorem repeated_map_self {get : Field → α} (hnum : ∀ v, (field v).num = k) (h : ∀ v ∈ as, get (field v) = v) :
    repeated k get (as.map field) = as := by
  rw [repeated_map hnum, List.map_congr_left h, List.map_id']

theorem repeated_of_num (h : ∀ f ∈ fs, f.num = j) (hj : j ≠ k) : repeated k get fs = [] :=
  repeated_of_ne fun f hf => h f hf ▸ hj

theorem last?_of_num (h : ∀ f ∈ fs, f.num = j) (hj : j ≠ k) : last? k fs = none :=
  last?_of_ne fun f hf => h f hf ▸ hj

theorem scalar_of_num (h : ∀ f ∈ fs, f.num = j) (hj : j ≠ k) : scalar k get d fs = d :=
  scalar_of_ne fun f hf => h f hf ▸ hj

end

end

namespace Update

def plainFields (m : Update) : List Field :=
  m.entered.map (fun v => .msg 1 v.plainFields) ++ m.moved.map (fun v => .msg 2 v.plainFields) ++
  m.left.map (fun id => .len 3 (utf8 id)) ++ putBool 4 m.isSnapshot

theorem typed_plainFields {m : Update} (h : m.Exact) (hs : Short m.plainFields) : Typed m.plainFields := by
  refine ⟨.append (.append (.append ?_ ?_) ?_) ?_, .append (.append (.append ?_ ?_) ?_) ?_,
    .append (.append (.append ?_ ?_) ?_) ?_⟩
  · exact typedBy_map_msg rfl (by decide) hs.left.left.left
  · exact typedBy_map_msg rfl (by decide) hs.left.left.right
  · exact typedBy_map_len rfl (by decide) hs.left.right
  · exact Spells.bool rfl (by decide) hs.right
  · exact .map_msg (fun v hv => VehicleState.typed_plainFields (h.entered v hv)) hs.left.left.left
  · exact .of_num (num_of_mem_map fun _ => rfl) (by decide : 2 ≠ 1)
  · exact .of_num (num_of_mem_map fun _ => rfl) (by decide : 3 ≠ 1)
  · exact .of_num num_of_mem_putBool (by decide)
  · exact .of_num (num_of_mem_map fun _ => rfl) (by decide : 1 ≠ 2)
  · exact .map_msg (fun v hv => VehicleMove.typed_plainFields (h.moved v hv)) hs.left.left.right
  · exact .of_num (num_of_mem_map fun _ => rfl) (by decide : 3 ≠ 2)
  · exact .of_num num_of_mem_putBool (by decide)

theorem ofFields_plainFields {m : Update} (h : m.Exact) : ofFields m.plainFields = m := by
  have h1 : ∀ f ∈ m.entered.map fun v => Field.msg 1 v.plainFields, f.num = 1 := num_of_mem_map fun _ => rfl
  have h2 : ∀ f ∈ m.moved.map fun v => Field.msg 2 v.plainFields, f.num = 2 := num_of_mem_map fun _ => rfl
  have h3 : ∀ f ∈ m.left.map fun id => Field.len 3 (utf8 id), f.num = 3 := num_of_mem_map fun _ => rfl
  have h4 : ∀ f ∈ putBool 4 m.isSnapshot, f.num = 4 := num_of_mem_putBool
  have hentered : repeated 1 (fun f => VehicleState.ofFields f.fields) (m.entered.map fun v => Field.msg 1 v.plainFields)
      = m.entered := repeated_map_self (fun _ => rfl) fun v hv => VehicleState.ofFields_plainFields (h.entered v hv)
  have hmoved : repeated 2 (fun f => VehicleMove.ofFields f.fields) (m.moved.map fun v => Field.msg 2 v.plainFields)
      = m.moved := repeated_map_self (fun _ => rfl) fun v hv => VehicleMove.ofFields_plainFields (h.moved v hv)
  have hleft : repeated 3 Field.text (m.left.map fun id => Field.len 3 (utf8 id)) = m.left :=
    repeated_map_self (fun _ => rfl) fun id _ => text_utf8 3 id
  rw [ofFields, plainFields]
  simp only [repeated_append, scalar_append]
  rw [hentered, repeated_of_num h2 (by decide), repeated_of_num h3 (by decide), repeated_of_num h4 (by decide),
    repeated_of_num h1 (by decide), hmoved, repeated_of_num h3 (by decide), repeated_of_num h4 (by decide),
    repeated_of_num h1 (by decide), repeated_of_num h2 (by decide), hleft, repeated_of_num h4 (by decide),
    scalar_of_num h1 (by decide), scalar_of_num h2 (by decide), scalar_of_num h3 (by decide), scalar_putBool]
  simp only [List.append_nil, List.nil_append]

end Update

namespace ServerMessage

def plainFields : ServerMessage → List Field
  | update u => [.msg 1 u.plainFields]
  | pong => [.varint 2 1]

theorem typed_plainFields {m : ServerMessage} (h : m.Exact) (hs : Short m.plainFields) : ServerObject.Typed m.plainFields := by
  cases m with
  | update u =>
    have hs1 : Short ([u].map fun u => Field.msg 1 u.plainFields) := hs
    have hnum : ∀ f ∈ [Field.msg 1 u.plainFields], f.num = 1 := by simp [Field.num]
    refine ⟨typedBy_map_msg rfl (by decide) hs1, .map_msg (fun v hv => ?_) hs1, .of_num hnum (by decide), by
      simp [AtMostOne, plainFields, Field.num]⟩
    obtain rfl := List.mem_singleton.mp hv
    exact Update.typed_plainFields h
  | pong =>
    have hnum : ∀ f ∈ [Field.varint 2 1], f.num = 2 := by simp [Field.num]
    exact ⟨Spells.bool (x := true) rfl (by decide) hs, .of_num hnum (by decide), .of_num hnum (by decide), by
      simp [AtMostOne, plainFields, Field.num]⟩

theorem ofFields_plainFields {m : ServerMessage} (h : m.Exact) : ServerObject.ofFields m.plainFields = m.object := by
  cases m with
  | update u =>
    have hu := Update.ofFields_plainFields h
    simp [ServerObject.ofFields, plainFields, object, last?_singleton, repeated_singleton, Field.num, Field.fields, hu]
  | pong => simp [ServerObject.ofFields, plainFields, object, last?_singleton, Field.num, Field.bool, Field.nat]

end ServerMessage

/-- The fields that say something, in the order of their numbers. -/
def plain (m : ServerMessage) : Bytes := render m.plainFields

theorem encodes_plain : Encodes plain := fun m hm hshort =>
  ⟨m.plainFields, rfl, ServerMessage.typed_plainFields hm hshort, ServerMessage.ofFields_plainFields hm⟩

/-- A client decodes from the bytes of a message of the server the object of the message. -/
theorem Encodes.decodeServer [Codec] {encode : ServerMessage → Bytes} (henc : Encodes encode) {m : ServerMessage}
    (hm : m.Exact) (hshort : (encode m).length < 2 ^ 32) : decodeServer (encode m) = some m.object := by
  obtain ⟨fs, hencode, htyped, hspells⟩ := henc m hm hshort
  rw [hencode, OV.Impl.decodeServer, ServerObject.decode_buffer htyped, Option.map_some, hspells]

end OV.Impl
