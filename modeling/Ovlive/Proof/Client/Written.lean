import Ovlive.Proof.Client.Spelled

/-!
# What the clients write

The bytes a client sends for a message are those of fields (`written`) of the
types the contract declares, and these spell the message. `encodeClient`
writes them exactly when every vehicle type the message names is one of the
enum's, and refuses the message otherwise (`encodeClient_spells_iff`).
-/

namespace OV.Impl

open Wire

attribute [ext] Viewport PbFilters View ClientMessage

variable [Codec] {q : Nat}

/-- Encoders nest three deep. -/
theorem guardEncode_eq {b : Option Bytes} (h : q ≤ 3) : guardEncode q b = b := by
  have := Codec.le_recursionLimit
  exact if_neg (by omega)

omit [Codec] in
/-- A member read back from a message that has it once. -/
theorem member_eq {α : Type} {of : List Field → α} {w : α → List Field} {o : Option α} {k : Nat} {fs : List Field}
    (hlast : last? k fs = o.map fun v => .msg k (w v))
    (hfields : repeated k Field.fields fs = o.toList.map w) (h : ∀ v, o = some v → of (w v) = v) :
    ((last? k fs).map fun _ => of (repeated k Field.fields fs).flatten) = o := by
  rw [hlast, hfields]
  cases o with
  | none => rfl
  | some v => simp [h v rfl]

namespace Viewport

/-- Every field, its default too. -/
def written (m : Viewport) : List Field :=
  [.i64 1 (Codec.writeDouble m.minLat), .i64 2 (Codec.writeDouble m.minLon), .i64 3 (Codec.writeDouble m.maxLat),
    .i64 4 (Codec.writeDouble m.maxLon), .varint 5 m.zoom]

variable {m : Viewport}

theorem encode_eq (h : m.Exact) (hq : q ≤ 3) : encode m q = some (render (written m)) := by
  rw [encode, guardEncode_eq hq]
  simp only [Codec.writeUint32_eq (by decide : 9 < 2 ^ 32), Codec.writeUint32_eq (by decide : 17 < 2 ^ 32),
    Codec.writeUint32_eq (by decide : 25 < 2 ^ 32), Codec.writeUint32_eq (by decide : 33 < 2 ^ 32),
    Codec.writeUint32_eq (by decide : 40 < 2 ^ 32), Codec.writeUint32_eq h.zoom]
  simp [written, render, Field.payload, Field.tag, Field.num, Field.wireType]

theorem typed_written (h : m.Exact) : Typed (written m) := by
  have hlen {x : Num} (hx : Ieee.Has Ieee.binary64 x) : (Codec.writeDouble x).length = 8 := (Codec.writeDouble_spec hx).1
  intro f hf
  simp only [written, List.mem_cons, List.not_mem_nil, or_false] at hf
  rcases hf with rfl | rfl | rfl | rfl | rfl
  · exact ⟨⟨by decide, hlen h.minLat⟩, fun _ hk => by cases hk; trivial⟩
  · exact ⟨⟨by decide, hlen h.minLon⟩, fun _ hk => by cases hk; trivial⟩
  · exact ⟨⟨by decide, hlen h.maxLat⟩, fun _ hk => by cases hk; trivial⟩
  · exact ⟨⟨by decide, hlen h.maxLon⟩, fun _ hk => by cases hk; trivial⟩
  · exact ⟨⟨by decide, h.zoom.trans (by decide)⟩, fun _ hk => by cases hk; exact h.zoom⟩

theorem ofFields_written (h : m.Exact) : ofFields (written m) = m := by
  have hget {x : Num} (hx : Ieee.Has Ieee.binary64 x) : Ieee.value Ieee.binary64 (leNat (Codec.writeDouble x)) = x :=
    (Codec.writeDouble_spec hx).2
  ext1
  all_goals
    simp [ofFields, written, scalar_cons, Field.num, Field.double, Field.nat, hget h.minLat, hget h.minLon,
      hget h.maxLat, hget h.maxLon]

end Viewport

namespace PbFilters

/-- The packed payload of vehicle types. -/
def pack (vs : List Int) : Bytes := vs.flatMap fun v => varint (ofI32 v)

def writtenTypes (vs : List Int) : List Field := if vs = [] then [] else [.len 1 (pack vs)]

def written (m : PbFilters) : List Field :=
  writtenTypes m.vehicleTypes ++ (m.dataowners.map fun s => .len 2 (utf8 s)) ++ [.len 3 (utf8 m.search)]

variable {m : PbFilters}

omit [Codec] in
theorem num_of_mem_writtenTypes {vs : List Int} : ∀ f ∈ writtenTypes vs, f.num = 1 := by
  rw [writtenTypes]
  split <;> simp [Field.num]

omit [Codec] in
/-- Packed numbers are read back, whatever the number of passes beyond their bytes. -/
theorem unpack_pack {vs : List Int} (h : ∀ v ∈ vs, FitsI32 v) {passes : Nat} (hpasses : (pack vs).length ≤ passes) :
    unpack passes (pack vs) = vs := by
  induction vs generalizing passes with
  | nil => cases passes <;> rfl
  | cons v vs ih =>
    have hbytes : pack (v :: vs) = varint (ofI32 v) ++ pack vs := rfl
    have hpos := List.length_pos_of_ne_nil (varint_ne_nil (ofI32 v))
    rw [hbytes, List.length_append] at hpasses
    obtain ⟨passes, rfl⟩ : ∃ p, passes = p + 1 := ⟨passes - 1, by omega⟩
    rw [hbytes, unpack, readVarint_varint (ofI32_lt v)]
    show toI32 (ofI32 v) :: unpack passes (pack vs) = v :: vs
    rw [toI32_ofI32 (h v List.mem_cons_self), ih (fun w hw => h w (List.mem_cons_of_mem _ hw)) (by omega)]

theorem writeInt32_pack {vs : List Int} (h : ∀ v ∈ vs, FitsI32 v) : vs.flatMap Codec.writeInt32 = pack vs :=
  List.flatMap_congr fun v hv => Codec.writeInt32_eq (h v hv)

theorem encode_eq (h : ∀ v ∈ m.vehicleTypes, FitsI32 v) (hs : Short (written m)) (hq : q ≤ 3) :
    encode m q = some (render (written m)) := by
  have htypes : (if m.vehicleTypes = [] then []
      else Codec.writeUint32 10 ++ Codec.ldelim (m.vehicleTypes.flatMap Codec.writeInt32)) =
      render (writtenTypes m.vehicleTypes) := by
    by_cases hnil : m.vehicleTypes = []
    · rw [if_pos hnil, writtenTypes, if_pos hnil, render]
    · have hlen := hs.left.left
      rw [writtenTypes, if_neg hnil] at hlen
      rw [if_neg hnil, writtenTypes, if_neg hnil, writeInt32_pack h, Codec.ldelim_eq (hlen.len (List.mem_singleton_self _)),
        Codec.writeUint32_eq (by decide), render_singleton]
      rfl
  have howners : (m.dataowners.flatMap fun s => Codec.writeUint32 18 ++ Codec.writeString s) =
      render (m.dataowners.map fun s => .len 2 (utf8 s)) := by
    rw [render_map]
    refine List.flatMap_congr fun s hs' => ?_
    rw [Codec.writeUint32_eq (by decide), Codec.writeString_eq (hs.left.right.len (List.mem_map_of_mem hs'))]
    rfl
  have hsearch : Codec.writeUint32 26 ++ Codec.writeString m.search = render [.len 3 (utf8 m.search)] := by
    rw [Codec.writeUint32_eq (by decide), Codec.writeString_eq (hs.right.len (List.mem_singleton_self _)),
      render_singleton]
    rfl
  rw [encode, guardEncode_eq hq, htypes, howners, hsearch, written, render_append, render_append]

omit [Codec] in
theorem typed_written (h : ∀ v ∈ m.vehicleTypes, FitsI32 v) (hs : Short (written m)) : Typed (written m) := by
  have htypes : ∀ f ∈ writtenTypes m.vehicleTypes, f.Ok ∧ IsNumbers f := by
    have hlen := hs.left.left
    intro f hf
    rw [writtenTypes] at hf hlen
    split at hf
    · cases hf
    · rename_i hnil
      obtain rfl := List.mem_singleton.mp hf
      rw [if_neg hnil] at hlen
      exact ⟨⟨by decide, hlen.len (List.mem_singleton_self _)⟩, .inr ⟨m.vehicleTypes, h, rfl⟩⟩
  refine ⟨.append (.append (fun f hf => ⟨(htypes f hf).1, ?_⟩) (typedBy_map_len rfl (by decide) hs.left.right))
    (Spells.len rfl (by decide) hs.right), fun f hf hnum => ?_⟩
  · rw [num_of_mem_writtenTypes f hf]
    exact fun _ hk => by cases hk
  · rw [written, List.mem_append, List.mem_append] at hf
    rcases hf with (hf | hf) | hf
    · exact (htypes f hf).2
    · rw [num_of_mem_map (j := 2) (fun _ => rfl) f hf] at hnum
      cases hnum
    · rw [List.mem_singleton.mp hf] at hnum
      cases hnum

omit [Codec] in
theorem ofFields_written (h : ∀ v ∈ m.vehicleTypes, FitsI32 v) : ofFields (written m) = m := by
  have h1 : ∀ f ∈ writtenTypes m.vehicleTypes, f.num = 1 := num_of_mem_writtenTypes
  have h2 : ∀ f ∈ m.dataowners.map fun s => Field.len 2 (utf8 s), f.num = 2 := num_of_mem_map fun _ => rfl
  have h3 : ∀ f ∈ [Field.len 3 (utf8 m.search)], f.num = 3 := by simp [Field.num]
  have htypes : (repeated 1 numbers (writtenTypes m.vehicleTypes)).flatten = m.vehicleTypes := by
    rw [writtenTypes]
    split
    · simp [*]
    · simp [repeated_singleton, Field.num, numbers, unpack_pack h]
  have howners : repeated 2 Field.text (m.dataowners.map fun s => Field.len 2 (utf8 s)) = m.dataowners :=
    repeated_map_self (fun _ => rfl) fun s _ => text_utf8 2 s
  have hsearch (d : String) : scalar 3 Field.text d [.len 3 (utf8 m.search)] = m.search := by
    rw [scalar_singleton (k := 3) rfl, text_utf8]
  rw [ofFields, written]
  simp only [repeated_append, scalar_append, List.flatten_append]
  rw [htypes, repeated_of_num h2 (by decide), repeated_of_num h3 (by decide), repeated_of_num h1 (by decide), howners,
    repeated_of_num h3 (by decide), hsearch]
  simp only [List.append_nil, List.nil_append, List.flatten_nil]

end PbFilters

namespace View

def written (m : View) : List Field :=
  (m.viewport.toList.map fun v => .msg 1 v.written) ++ (m.filters.toList.map fun f => .msg 2 f.written) ++
  (m.pinned.map fun s => .len 3 (utf8 s))

variable {m : View}

theorem encode_eq (h : m.Exact) (htypes : ∀ v ∈ m.types, FitsI32 v) (hs : Short (written m)) (hq : q ≤ 2) :
    encode m q = some (render (written m)) := by
  have hviewport : (m.viewport.elim (some []) fun v =>
      (v.encode (q + 1)).map fun b => Codec.writeUint32 10 ++ Codec.ldelim b) =
      some (render (m.viewport.toList.map fun v => .msg 1 v.written)) := by
    cases hv : m.viewport with
    | none => rfl
    | some v =>
      have hlen := hs.left.left
      rw [hv] at hlen
      rw [Option.elim_some, Viewport.encode_eq (h v hv) (by omega), Option.map_some, Codec.writeUint32_eq (by decide),
        Codec.ldelim_eq (hlen.msg (List.mem_singleton_self _)), Option.toList_some, List.map_singleton, render_singleton]
      rfl
  have hfilters : (m.filters.elim (some []) fun f =>
      (f.encode (q + 1)).map fun b => Codec.writeUint32 18 ++ Codec.ldelim b) =
      some (render (m.filters.toList.map fun f => .msg 2 f.written)) := by
    cases hf : m.filters with
    | none => rfl
    | some f =>
      have hlen := hs.left.right
      rw [hf] at hlen
      have hshort : Short f.written := hlen.msg (List.mem_singleton_self _)
      rw [types, hf] at htypes
      rw [Option.elim_some, PbFilters.encode_eq htypes hshort (by omega), Option.map_some,
        Codec.writeUint32_eq (by decide), Codec.ldelim_eq hshort, Option.toList_some, List.map_singleton,
        render_singleton]
      rfl
  have hpinned : (m.pinned.flatMap fun s => Codec.writeUint32 26 ++ Codec.writeString s) =
      render (m.pinned.map fun s => .len 3 (utf8 s)) := by
    rw [render_map]
    refine List.flatMap_congr fun s hs' => ?_
    rw [Codec.writeUint32_eq (by decide), Codec.writeString_eq (hs.right.len (List.mem_map_of_mem hs'))]
    rfl
  rw [encode, guardEncode_eq (by omega), hviewport, hfilters, hpinned, written, render_append, render_append]
  rfl

theorem typed_written (h : m.Exact) (htypes : ∀ v ∈ m.types, FitsI32 v) (hs : Short (written m)) : Typed (written m) := by
  have h1 : ∀ f ∈ m.viewport.toList.map fun v => Field.msg 1 v.written, f.num = 1 := num_of_mem_map fun _ => rfl
  have h2 : ∀ f ∈ m.filters.toList.map fun v => Field.msg 2 v.written, f.num = 2 := num_of_mem_map fun _ => rfl
  have h3 : ∀ f ∈ m.pinned.map fun s => Field.len 3 (utf8 s), f.num = 3 := num_of_mem_map fun _ => rfl
  refine ⟨.append (.append ?_ ?_) ?_, .append (.append ?_ ?_) ?_, .append (.append ?_ ?_) ?_⟩
  · exact typedBy_map_msg rfl (by decide) hs.left.left
  · exact typedBy_map_msg rfl (by decide) hs.left.right
  · exact typedBy_map_len rfl (by decide) hs.right
  · exact .map_msg (fun v hv _ => Viewport.typed_written (h v (Option.mem_toList.mp hv))) hs.left.left
  · exact .of_num h2 (by decide)
  · exact .of_num h3 (by decide)
  · exact .of_num h1 (by decide)
  · refine .map_msg (fun f hf hshort => PbFilters.typed_written ?_ hshort) hs.left.right
    rw [types, Option.mem_toList.mp hf] at htypes
    exact htypes
  · exact .of_num h3 (by decide)

theorem ofFields_written (h : m.Exact) (htypes : ∀ v ∈ m.types, FitsI32 v) : ofFields (written m) = m := by
  have h1 : ∀ f ∈ m.viewport.toList.map fun v => Field.msg 1 v.written, f.num = 1 := num_of_mem_map fun _ => rfl
  have h2 : ∀ f ∈ m.filters.toList.map fun v => Field.msg 2 v.written, f.num = 2 := num_of_mem_map fun _ => rfl
  have h3 : ∀ f ∈ m.pinned.map fun s => Field.len 3 (utf8 s), f.num = 3 := num_of_mem_map fun _ => rfl
  have hpinned : repeated 3 Field.text (m.pinned.map fun s => .len 3 (utf8 s)) = m.pinned :=
    repeated_map_self (fun _ => rfl) fun s _ => text_utf8 3 s
  ext1
  · refine member_eq (w := Viewport.written) ?_ ?_ fun v hv => Viewport.ofFields_written (h v hv)
    · rw [written, last?_append, last?_append, last?_of_num h3 (by decide), last?_of_num h2 (by decide)]
      cases m.viewport <;> simp [last?_singleton, Field.num]
    · rw [written, repeated_append, repeated_append, repeated_of_num h3 (by decide), repeated_of_num h2 (by decide)]
      cases m.viewport <;> simp [repeated_singleton, Field.num, Field.fields]
  · refine member_eq (w := PbFilters.written) ?_ ?_ fun f hf => PbFilters.ofFields_written ?_
    · rw [written, last?_append, last?_append, last?_of_num h3 (by decide), last?_of_num h1 (by decide)]
      cases m.filters <;> simp [last?_singleton, Field.num]
    · rw [written, repeated_append, repeated_append, repeated_of_num h3 (by decide), repeated_of_num h1 (by decide)]
      cases m.filters <;> simp [repeated_singleton, Field.num, Field.fields]
    · rw [types, hf] at htypes
      exact htypes
  · show repeated 3 Field.text (written m) = m.pinned
    rw [written, repeated_append, repeated_append, repeated_of_num h1 (by decide), repeated_of_num h2 (by decide),
      hpinned]
    rfl

end View

namespace ClientMessage

def written (m : ClientMessage) : List Field :=
  match m.payload with
  | none => []
  | some (.subscribe s) => [.msg 1 s.written]
  | some (.updateViewport u) => [.msg 2 u.written]
  | some (.ping b) => [.varint 3 b.toNat]

variable {m : ClientMessage}

theorem encode_eq (h : m.Exact) (htypes : ∀ v ∈ m.types, FitsI32 v) (hs : Short (written m)) :
    encode m 0 = some (render (written m)) := by
  obtain ⟨p⟩ := m
  rw [encode, guardEncode_eq (by omega)]
  match p with
  | none => rfl
  | some (.subscribe s) =>
    have hshort : Short s.written := hs.msg (List.mem_singleton_self _)
    simp only
    rw [View.encode_eq (h s rfl) htypes hshort (by omega), Option.map_some, Codec.writeUint32_eq (by decide),
      Codec.ldelim_eq hshort, written, render_singleton]
    rfl
  | some (.updateViewport u) =>
    have hshort : Short u.written := hs.msg (List.mem_singleton_self _)
    simp only
    rw [View.encode_eq (h u rfl) htypes hshort (by omega), Option.map_some, Codec.writeUint32_eq (by decide),
      Codec.ldelim_eq hshort, written, render_singleton]
    rfl
  | some (.ping b) =>
    simp only
    rw [Codec.writeUint32_eq (by decide), Codec.writeBool_eq, written, render_singleton]
    rfl

theorem typed_written (h : m.Exact) (htypes : ∀ v ∈ m.types, FitsI32 v) (hs : Short (written m)) : Typed (written m) := by
  obtain ⟨p⟩ := m
  match p with
  | none => exact ⟨by simp [TypedBy, written], by simp [Embeds, written], by simp [Embeds, written], by simp [AtMostOne, written]⟩
  | some (.subscribe s) =>
    have hs1 : Short ([s].map fun s => Field.msg 1 s.written) := hs
    have hnum : ∀ f ∈ [Field.msg 1 s.written], f.num = 1 := by simp [Field.num]
    refine ⟨typedBy_map_msg rfl (by decide) hs1, .map_msg (fun v hv => ?_) hs1, .of_num hnum (by decide), by
      simp [AtMostOne, written, Field.num]⟩
    obtain rfl := List.mem_singleton.mp hv
    exact View.typed_written (h v rfl) htypes
  | some (.updateViewport u) =>
    have hs1 : Short ([u].map fun u => Field.msg 2 u.written) := hs
    have hnum : ∀ f ∈ [Field.msg 2 u.written], f.num = 2 := by simp [Field.num]
    refine ⟨typedBy_map_msg rfl (by decide) hs1, .of_num hnum (by decide), .map_msg (fun v hv => ?_) hs1, by
      simp [AtMostOne, written, Field.num]⟩
    obtain rfl := List.mem_singleton.mp hv
    exact View.typed_written (h v rfl) htypes
  | some (.ping b) =>
    have hnum : ∀ f ∈ [Field.varint 3 b.toNat], f.num = 3 := by simp [Field.num]
    refine ⟨fun f hf => ?_, .of_num hnum (by decide), .of_num hnum (by decide), by simp [AtMostOne, written, Field.num]⟩
    obtain rfl := List.mem_singleton.mp hf
    have hle := b.toNat_le
    exact ⟨⟨by decide, by omega⟩, fun _ hk => by cases hk; exact hle⟩

theorem ofFields_written (h : m.Exact) (htypes : ∀ v ∈ m.types, FitsI32 v) : ofFields (written m) = m := by
  obtain ⟨p⟩ := m
  match p with
  | none => simp [ofFields, written]
  | some (.subscribe s) =>
    have hview := View.ofFields_written (h s rfl) htypes
    simp [ofFields, written, last?_singleton, repeated_singleton, Field.num, Field.fields, hview]
  | some (.updateViewport u) =>
    have hview := View.ofFields_written (h u rfl) htypes
    simp [ofFields, written, last?_singleton, repeated_singleton, Field.num, Field.fields, hview]
  | some (.ping b) => cases b <;> simp [ofFields, written, last?_singleton, Field.num, Field.bool, Field.nat]

end ClientMessage

/-! ## Verification -/

/-- A number of the enum. -/
def IsVehicleType (v : Int) : Prop := 0 ≤ v ∧ v ≤ 5

omit [Codec] in
theorem IsVehicleType.fits {v : Int} (h : IsVehicleType v) : FitsI32 v := by
  obtain ⟨hlo, hhi⟩ := h
  exact ⟨by omega, by omega⟩

/-- Verification nests three deep. -/
theorem guardVerify_eq {α : Type} {long : Nat} {a b : α} (h : long ≤ 3) :
    (if Codec.recursionLimit < long then a else b) = b := by
  have := Codec.le_recursionLimit
  exact if_neg (by omega)

theorem PbFilters.verify_eq_none {m : PbFilters} {long : Nat} (h : long ≤ 3) :
    m.verify long = none ↔ ∀ v ∈ m.vehicleTypes, IsVehicleType v := by
  rw [verify, guardVerify_eq h]
  simp [IsVehicleType]

theorem View.verify_eq_none {m : View} {long : Nat} (h : long ≤ 2) :
    m.verify long = none ↔ ∀ v ∈ m.types, IsVehicleType v := by
  have hviewport : (m.viewport.bind fun v => (v.verify (long + 1)).map ("viewport." ++ ·)) = none := by
    cases m.viewport with
    | none => rfl
    | some v => rw [Option.bind_some, Viewport.verify, guardVerify_eq (by omega), Option.map_none]
  rw [verify, guardVerify_eq (by omega), hviewport, types]
  cases m.filters with
  | none => simp
  | some f => simpa using PbFilters.verify_eq_none (m := f) (by omega : long + 1 ≤ 3)

theorem ClientMessage.verify_eq_none {m : ClientMessage} : m.verify 0 = none ↔ ∀ v ∈ m.types, IsVehicleType v := by
  obtain ⟨p⟩ := m
  rw [verify, guardVerify_eq (by omega)]
  match p with
  | none => simp [types, asked]
  | some (.subscribe s) => simpa [types, asked] using View.verify_eq_none (m := s) (by omega : 0 + 1 ≤ 2)
  | some (.updateViewport u) => simpa [types, asked] using View.verify_eq_none (m := u) (by omega : 0 + 1 ≤ 2)
  | some (.ping b) => simp [types, asked]

omit [Codec] in
theorem ClientMessage.fromObject_eq {m : ClientMessage} (h : m.Exact) : m.fromObject = m := by
  have hview {v : View} (hv : v.Exact) : v.fromObject = v := by
    obtain ⟨viewport, filters, pinned⟩ := v
    cases viewport with
    | none => rfl
    | some p =>
      have hp : p.fromObject = p := by rw [Viewport.fromObject, Nat.mod_eq_of_lt (hv p rfl).zoom]
      simp [View.fromObject, hp]
  obtain ⟨p⟩ := m
  match p with
  | none => rfl
  | some (.subscribe s) => simp [fromObject, hview (h s rfl)]
  | some (.updateViewport u) => simp [fromObject, hview (h u rfl)]
  | some (.ping b) => rfl

theorem encodeClient_written {m : ClientMessage} (h : m.Exact) (hs : Short m.written)
    (htypes : ∀ v ∈ m.types, IsVehicleType v) : encodeClient m = .ok (render m.written) := by
  rw [encodeClient, ClientMessage.verify_eq_none.mpr htypes]
  simp only
  rw [ClientMessage.fromObject_eq h, ClientMessage.encode_eq h (fun v hv => (htypes v hv).fits) hs]

theorem encodeClient_spells {m : ClientMessage} (h : m.Exact) (hs : Short m.written)
    (htypes : ∀ v ∈ m.types, IsVehicleType v) :
    ∃ fs, encodeClient m = .ok (render fs) ∧ ClientMessage.Typed fs ∧ ClientMessage.ofFields fs = m :=
  have hfits : ∀ v ∈ m.types, FitsI32 v := fun v hv => (htypes v hv).fits
  ⟨m.written, encodeClient_written h hs htypes, ClientMessage.typed_written h hfits hs,
    ClientMessage.ofFields_written h hfits⟩

/-- With another type it throws. -/
theorem encodeClient_throws {m : ClientMessage} (h : ¬∀ v ∈ m.types, IsVehicleType v) :
    ∃ err, encodeClient m = .error err := by
  cases hv : m.verify 0 with
  | none => exact absurd (ClientMessage.verify_eq_none.mp hv) h
  | some err => exact ⟨"ClientMessage: " ++ err, by rw [encodeClient, hv]⟩

/-- A client sends a message, as bytes that spell it, exactly when every
vehicle type it names is one of the enum's, and else it throws. -/
theorem encodeClient_spells_iff {m : ClientMessage} (h : m.Exact) (hs : Short m.written) :
    ((∃ fs, encodeClient m = .ok (render fs) ∧ ClientMessage.Typed fs ∧ ClientMessage.ofFields fs = m) ↔
      ∀ v ∈ m.types, 0 ≤ v ∧ v ≤ 5) ∧
    ((∃ v ∈ m.types, ¬(0 ≤ v ∧ v ≤ 5)) → ∃ err, encodeClient m = .error err) := by
  have hthrows : (¬∀ v ∈ m.types, IsVehicleType v) → ∃ err, encodeClient m = .error err := encodeClient_throws
  refine ⟨⟨?_, encodeClient_spells h hs⟩, fun ⟨v, hv, hnot⟩ => hthrows fun htypes => hnot (htypes v hv)⟩
  rintro ⟨fs, hok, -⟩
  by_contra htypes
  obtain ⟨err, herr⟩ := hthrows htypes
  rw [herr] at hok
  cases hok

/-- A view of some vehicle types. -/
def typedView (types : List Int) : ClientMessage where
  payload := some (.updateViewport
    { viewport := none, filters := some { vehicleTypes := types, dataowners := ["RET"], search := "" }, pinned := ["RET:1"] })

omit [Codec] in
theorem encodeClient_spells_iff_typedView :
    (∃ fs, @encodeClient standard (typedView [1, 5]) = .ok (render fs) ∧ ClientMessage.Typed fs ∧
      ClientMessage.ofFields fs = typedView [1, 5]) ∧
    ∃ err, @encodeClient standard (typedView [1, 6]) = .error err := by
  have hexact (types : List Int) : (typedView types).Exact := fun v hv p hp => by cases hv; cases hp
  constructor
  · exact (@encodeClient_spells_iff standard _ (hexact _) (by decide +kernel : _ < _)).1.mpr (by decide)
  · exact (@encodeClient_spells_iff standard _ (hexact _) (by decide +kernel : _ < _)).2 (by decide)

end OV.Impl
