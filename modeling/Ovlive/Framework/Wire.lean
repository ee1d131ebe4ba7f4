import Ovlive.Framework.Ieee
import Ovlive.Framework.Wrap

/-!
# The protobuf wire format

Messages as bytes: a message is a sequence of fields, each a tag (a number and
a wire type) and a payload. `Field` is a field with its payload read as far as
the format alone can tell, `render` its bytes. `last?` and `repeated` are what
the fields of a message say of a field number, whatever their order and
whatever other fields stand between them: of a field given twice the last one
counts, a repeated one collects.

`Codec` is a library of readers and writers of primitive values, with what its
documentation promises: each writer writes what the format says, each reader
takes such a value off the front of the buffer, and leaves the rest. `decode`
is the loop of a generated decoder over such a library, and `decode_render`
the rule every decoder's proof goes through: if a pass of the loop takes what
the fields before it say to what they say with one more, then the loop over a
message's bytes ends with what all of its fields say.
-/

namespace OV.Wire

abbrev Bytes := List UInt8

/-- What a read takes off the front of a buffer, unless it throws. -/
abbrev Read (α : Type) := Bytes → Option (α × Bytes)

/-! ## Bytes -/

/-- The number of little-endian bytes. -/
def leNat : Bytes → Nat
  | [] => 0
  | b :: bs => b.toNat + 256 * leNat bs

/-- The `w` little-endian bytes of a number. -/
def leBytes : Nat → Nat → Bytes
  | 0, _ => []
  | w + 1, n => (n % 256).toUInt8 :: leBytes w (n / 256)

/-- Seven bits a byte, lowest first, at most `k` of them with another byte after. -/
def varintOf : Nat → Nat → Bytes
  | 0, n => [n.toUInt8]
  | k + 1, n => if n < 128 then [n.toUInt8] else (n % 128 + 128).toUInt8 :: varintOf k (n / 128)

/-- A number of 64 bits as a varint. -/
def varint (n : Nat) : Bytes := varintOf 9 n

/-- The low 32 bits of a number, as a signed one. -/
def toI32 (n : Nat) : Int := if n % 2 ^ 32 < 2 ^ 31 then n % 2 ^ 32 else n % 2 ^ 32 - 2 ^ 32

/-- The number whose varint stands for a signed one: its two's complement in 64 bits. -/
def ofI32 (v : Int) : Nat := (v % 2 ^ 64).toNat

def utf8 (s : String) : Bytes := s.toUTF8.data.toList

/-- Bytes behind their number. -/
def delimited (b : Bytes) : Bytes := varint b.length ++ b

theorem toNat_toUInt8 {n : Nat} (h : n < 256) : n.toUInt8.toNat = n := by
  rw [Nat.toUInt8_eq, UInt8.toNat_ofNat', Nat.mod_eq_of_lt h]

theorem length_leBytes (w n : Nat) : (leBytes w n).length = w := by
  induction w generalizing n with
  | zero => rfl
  | succ w ih => rw [leBytes, List.length_cons, ih]

theorem leNat_leBytes {w n : Nat} (h : n < 256 ^ w) : leNat (leBytes w n) = n := by
  induction w generalizing n with
  | zero => rw [pow_zero] at h; rw [leBytes, leNat]; omega
  | succ w ih =>
    have hdiv : n / 256 < 256 ^ w := Nat.div_lt_of_lt_mul (by rwa [pow_succ', ] at h)
    rw [leBytes, leNat, ih hdiv, toNat_toUInt8 (Nat.mod_lt _ (by decide))]
    omega

theorem toI32_ofI32 {v : Int} (h : FitsI32 v) : toI32 (ofI32 v) = v := by
  obtain ⟨hlo, hhi⟩ := h
  rw [toI32, ofI32]
  omega

theorem varint_ne_nil (n : Nat) : varint n ≠ [] := by
  rw [varint, varintOf]
  split <;> exact List.cons_ne_nil _ _

/-! ## Fields -/

/-- A field: its number, and its payload. -/
inductive Field
  | varint (num n : Nat)
  | i64 (num : Nat) (b : Bytes)
  | len (num : Nat) (b : Bytes)
  | msg (num : Nat) (fs : List Field)
  | i32 (num : Nat) (b : Bytes)

namespace Field

def num : Field → Nat
  | varint k _ | i64 k _ | len k _ | msg k _ | i32 k _ => k

def wireType : Field → Nat
  | varint _ _ => 0
  | i64 _ _ => 1
  | len _ _ | msg _ _ => 2
  | i32 _ _ => 5

def tag (f : Field) : Nat := 8 * f.num + f.wireType

end Field

mutual

/-- The bytes of a field after its tag. -/
def Field.payload : Field → Bytes
  | .varint _ n => Wire.varint n
  | .i64 _ b => b
  | .len _ b => delimited b
  | .msg _ fs => delimited (render fs)
  | .i32 _ b => b

/-- The bytes of a message. -/
def render : List Field → Bytes
  | [] => []
  | f :: fs => Wire.varint f.tag ++ f.payload ++ render fs

end

namespace Field

/-- What the format asks of any field: its number fits a tag, its payload the wire type. -/
def Ok : Field → Prop
  | varint k n => k < 2 ^ 29 ∧ n < 2 ^ 64
  | i64 k b => k < 2 ^ 29 ∧ b.length = 8
  | len k b => k < 2 ^ 29 ∧ b.length < 2 ^ 32
  | msg k fs => k < 2 ^ 29 ∧ (render fs).length < 2 ^ 32
  | i32 k b => k < 2 ^ 29 ∧ b.length = 4

theorem wireType_lt (f : Field) : f.wireType < 8 := by cases f <;> simp [wireType]

theorem tag_div (f : Field) : f.tag / 8 = f.num := by
  have := f.wireType_lt
  rw [tag]
  omega

theorem tag_mod (f : Field) : f.tag % 8 = f.wireType := by
  have := f.wireType_lt
  rw [tag]
  omega

theorem Ok.tag_lt {f : Field} (h : f.Ok) : f.tag < 2 ^ 32 := by
  cases f <;> obtain ⟨hk, -⟩ := h <;> simp only [tag, num, wireType] <;> omega

/-! What a payload says, read as each type of value. -/

def nat : Field → Nat
  | varint _ n => n
  | _ => 0

def int (f : Field) : Int := toI32 f.nat

def bool (f : Field) : Bool := f.nat ≠ 0

def text : Field → String
  | len _ b => (String.fromUTF8? ⟨b.toArray⟩).getD ""
  | _ => ""

def double : Field → Num
  | i64 _ b => Ieee.value Ieee.binary64 (leNat b)
  | _ => .fin 0

def float : Field → Num
  | i32 _ b => Ieee.value Ieee.binary32 (leNat b)
  | _ => .fin 0

def fields : Field → List Field
  | msg _ fs => fs
  | _ => []

end Field

/-- The types of value that a schema gives the payloads. -/
inductive Kind
  | uint32 | int32 | bool | string | double | float

/-- The payload is one of that type. -/
def Field.Is : Kind → Field → Prop
  | .uint32, .varint _ n => n < 2 ^ 32
  | .int32, .varint _ n => n < 2 ^ 31 ∨ 2 ^ 64 - 2 ^ 31 ≤ n
  | .bool, .varint _ n => n ≤ 1
  | .string, .len _ b => ∃ s, b = utf8 s
  | .double, .i64 _ _ => True
  | .float, .i32 _ _ => True
  | _, _ => False

/-- The last field with a number. -/
@[irreducible] def last? (k : Nat) (fs : List Field) : Option Field := fs.findRev? fun f => f.num = k

/-- What the last field with a number says, or the default. -/
@[irreducible] def scalar {α : Type} (k : Nat) (get : Field → α) (d : α) (fs : List Field) : α := ((last? k fs).map get).getD d

/-- What all fields with a number say, in order. -/
@[irreducible] def repeated {α : Type} (k : Nat) (get : Field → α) (fs : List Field) : List α := (fs.filter fun f => f.num = k).map get

theorem fromUTF8?_utf8 (s : String) : String.fromUTF8? ⟨(utf8 s).toArray⟩ = some s := by
  have hbytes : (⟨(utf8 s).toArray⟩ : ByteArray) = s.toByteArray := rfl
  rw [hbytes, String.fromUTF8?, dif_pos s.isValidUTF8]
  rfl

theorem text_utf8 (k : Nat) (s : String) : (Field.len k (utf8 s)).text = s := by
  rw [Field.text, fromUTF8?_utf8, Option.getD_some]

section

variable {α : Type} {k : Nat} {get : Field → α} {d : α} {fs : List Field} {f : Field}

theorem last?_concat : last? k (fs ++ [f]) = if f.num = k then some f else last? k fs := by
  simp only [last?, List.findRev?_eq_find?_reverse, List.reverse_append, List.reverse_singleton,
    List.singleton_append, List.find?_cons]
  by_cases h : f.num = k <;> simp [h]

theorem scalar_concat : scalar k get d (fs ++ [f]) = if f.num = k then get f else scalar k get d fs := by
  rw [scalar, last?_concat]
  by_cases h : f.num = k
  · rw [if_pos h, if_pos h, Option.map_some, Option.getD_some]
  · rw [if_neg h, if_neg h, scalar]

theorem repeated_concat : repeated k get (fs ++ [f]) = if f.num = k then repeated k get fs ++ [get f] else repeated k get fs := by
  simp only [repeated, List.filter_append, List.map_append]
  by_cases h : f.num = k <;> simp [h]

@[simp] theorem last?_nil : last? k [] = none := by
  rw [last?, List.findRev?]

@[simp] theorem scalar_nil : scalar k get d [] = d := by
  rw [scalar, last?_nil, Option.map_none, Option.getD_none]

theorem scalar_singleton (h : f.num = k) : scalar k get d [f] = get f := by
  rw [← List.nil_append [f], scalar_concat, if_pos h]

theorem last?_singleton : last? k [f] = if f.num = k then some f else none := by
  rw [← List.nil_append [f], last?_concat, last?_nil]

@[simp] theorem repeated_nil : repeated k get [] = [] := by
  rw [repeated, List.filter_nil, List.map_nil]

theorem repeated_singleton : repeated k get [f] = if f.num = k then [get f] else [] := by
  rw [← List.nil_append [f], repeated_concat, repeated_nil, List.nil_append]

/-- What the first fields say is the default of the others. -/
theorem scalar_append (fs' : List Field) : scalar k get d (fs ++ fs') = scalar k get (scalar k get d fs) fs' := by
  induction fs' using List.reverseRecOn with
  | nil => rw [List.append_nil, scalar_nil]
  | append_singleton fs' f ih => rw [← List.append_assoc, scalar_concat, scalar_concat, ih]

/-- What the first field says is the default of the others. -/
theorem scalar_cons (fs' : List Field) :
    scalar k get d (f :: fs') = scalar k get (if f.num = k then get f else d) fs' := by
  rw [← List.singleton_append, scalar_append, ← List.nil_append [f], scalar_concat, scalar_nil]

theorem repeated_append (fs' : List Field) : repeated k get (fs ++ fs') = repeated k get fs ++ repeated k get fs' := by
  simp only [repeated, List.filter_append, List.map_append]

theorem last?_append (fs' : List Field) : last? k (fs ++ fs') = (last? k fs').or (last? k fs) := by
  simp only [last?, List.findRev?_eq_find?_reverse, List.reverse_append, List.find?_append]

/-- Fields of other numbers say nothing of a number. -/
theorem scalar_of_ne (h : ∀ f ∈ fs, f.num ≠ k) : scalar k get d fs = d := by
  induction fs using List.reverseRecOn with
  | nil => exact scalar_nil
  | append_singleton fs f ih =>
    rw [scalar_concat, if_neg (h f (by simp)), ih fun g hg => h g (List.mem_append_left _ hg)]

theorem repeated_of_ne (h : ∀ f ∈ fs, f.num ≠ k) : repeated k get fs = [] := by
  rw [repeated, List.filter_eq_nil_iff.mpr (by simpa using h), List.map_nil]

theorem last?_of_ne (h : ∀ f ∈ fs, f.num ≠ k) : last? k fs = none := by
  rw [last?, List.findRev?_eq_find?_reverse, List.find?_eq_none]
  simpa using h

end

theorem render_append (fs fs' : List Field) : render (fs ++ fs') = render fs ++ render fs' := by
  induction fs with
  | nil => simp [render]
  | cons f fs ih => simp [render, ih]

theorem render_singleton (f : Field) : render [f] = varint f.tag ++ f.payload := by
  simp [render]

theorem render_map {α : Type} {field : α → Field} (as : List α) :
    render (as.map field) = as.flatMap fun v => varint (field v).tag ++ (field v).payload := by
  induction as with
  | nil => rfl
  | cons v as ih => rw [List.map_cons, render, ih, List.flatMap_cons]

theorem length_render_le {f : Field} {fs : List Field} (h : f ∈ fs) : f.payload.length ≤ (render fs).length := by
  induction fs with
  | nil => cases h
  | cons g fs ih =>
    rw [render, List.length_append, List.length_append]
    rcases List.mem_cons.mp h with rfl | h
    · omega
    · have := ih h
      omega

/-! ## Fields for values

What an encoder writes for a value: nothing for the default. -/

def putText (k : Nat) (s : String) : List Field := if s = "" then [] else [.len k (utf8 s)]

def putInt (k : Nat) (v : Int) : List Field := if v = 0 then [] else [.varint k (ofI32 v)]

def putBool (k : Nat) (b : Bool) : List Field := if b then [.varint k 1] else []

def putDouble (k : Nat) (x : Num) : List Field :=
  if x = .fin 0 then [] else [.i64 k (leBytes 8 (Ieee.bits Ieee.binary64 x))]

def putFloat (k : Nat) (x : Num) : List Field :=
  if x = .fin 0 then [] else [.i32 k (leBytes 4 (Ieee.bits Ieee.binary32 x))]

section

variable {α : Type} {k j : Nat} {get : Field → α} {d : α}

theorem ofI32_lt (v : Int) : ofI32 v < 2 ^ 64 := by
  rw [ofI32]
  omega

theorem num_of_mem_putText {s : String} : ∀ f ∈ putText k s, f.num = k := by
  rw [putText]
  split <;> simp [Field.num]

theorem num_of_mem_putInt {v : Int} : ∀ f ∈ putInt k v, f.num = k := by
  rw [putInt]
  split <;> simp [Field.num]

theorem num_of_mem_putBool {b : Bool} : ∀ f ∈ putBool k b, f.num = k := by
  rw [putBool]
  split <;> simp [Field.num]

theorem num_of_mem_putDouble {x : Num} : ∀ f ∈ putDouble k x, f.num = k := by
  rw [putDouble]
  split <;> simp [Field.num]

theorem num_of_mem_putFloat {x : Num} : ∀ f ∈ putFloat k x, f.num = k := by
  rw [putFloat]
  split <;> simp [Field.num]

/-! A value put under one number is not what another number says. -/

@[simp] theorem scalar_putText_ne {s : String} (h : k ≠ j) : scalar j get d (putText k s) = d :=
  scalar_of_ne fun f hf => num_of_mem_putText f hf ▸ h

@[simp] theorem scalar_putInt_ne {v : Int} (h : k ≠ j) : scalar j get d (putInt k v) = d :=
  scalar_of_ne fun f hf => num_of_mem_putInt f hf ▸ h

@[simp] theorem scalar_putBool_ne {b : Bool} (h : k ≠ j) : scalar j get d (putBool k b) = d :=
  scalar_of_ne fun f hf => num_of_mem_putBool f hf ▸ h

@[simp] theorem scalar_putDouble_ne {x : Num} (h : k ≠ j) : scalar j get d (putDouble k x) = d :=
  scalar_of_ne fun f hf => num_of_mem_putDouble f hf ▸ h

@[simp] theorem scalar_putFloat_ne {x : Num} (h : k ≠ j) : scalar j get d (putFloat k x) = d :=
  scalar_of_ne fun f hf => num_of_mem_putFloat f hf ▸ h

/-! And under its own number it is. -/

@[simp] theorem scalar_putText (s : String) : scalar k Field.text "" (putText k s) = s := by
  rw [putText]
  split
  · simp [*]
  · rw [scalar_singleton (k := k) rfl, text_utf8]

theorem scalar_putInt {v : Int} (h : FitsI32 v) : scalar k Field.int 0 (putInt k v) = v := by
  rw [putInt]
  split
  · simp [*]
  · rw [scalar_singleton (k := k) rfl]
    exact toI32_ofI32 h

@[simp] theorem scalar_putBool (b : Bool) : scalar k Field.bool false (putBool k b) = b := by
  cases b
  · exact scalar_nil
  · exact scalar_singleton rfl

theorem scalar_putDouble {x : Num} (h : Ieee.Has Ieee.binary64 x) : scalar k Field.double (.fin 0) (putDouble k x) = x := by
  rw [putDouble]
  split
  · simp [*]
  · rw [scalar_singleton (k := k) rfl, Field.double,
      leNat_leBytes (h.bits.1.trans_le (by decide)), h.bits.2]

theorem scalar_putFloat {x : Num} (h : Ieee.Has Ieee.binary32 x) : scalar k Field.float (.fin 0) (putFloat k x) = x := by
  rw [putFloat]
  split
  · simp [*]
  · rw [scalar_singleton (k := k) rfl, Field.float,
      leNat_leBytes (h.bits.1.trans_le (by decide)), h.bits.2]

end

/-! ## Readers and writers -/

/-- A library that reads and writes values of the format. -/
class Codec where
  /-- The bytes a writer appends. -/
  writeUint32 : Nat → Bytes
  writeInt32 : Int → Bytes
  writeBool : Bool → Bytes
  writeString : String → Bytes
  writeDouble : Num → Bytes
  ldelim : Bytes → Bytes
  uint32 : Read Nat
  int32 : Read Int
  bool : Read Bool
  string : Read String
  double : Read Num
  float : Read Num
  /-- Skip a payload of a wire type, at a nesting depth. -/
  skipType : Nat → Nat → Read Unit
  recursionLimit : Nat
  writeUint32_eq {n : Nat} : n < 2 ^ 32 → writeUint32 n = varint n
  writeInt32_eq {v : Int} : FitsI32 v → writeInt32 v = varint (ofI32 v)
  writeBool_eq (b : Bool) : writeBool b = varint b.toNat
  writeString_eq {s : String} : (utf8 s).length < 2 ^ 32 → writeString s = delimited (utf8 s)
  writeDouble_spec {x : Num} : Ieee.Has Ieee.binary64 x →
    (writeDouble x).length = 8 ∧ Ieee.value Ieee.binary64 (leNat (writeDouble x)) = x
  ldelim_eq {b : Bytes} : b.length < 2 ^ 32 → ldelim b = delimited b
  uint32_varint {n : Nat} (rest : Bytes) : n < 2 ^ 32 → uint32 (varint n ++ rest) = some (n, rest)
  uint32_shortens {b rest : Bytes} {n : Nat} : uint32 b = some (n, rest) → rest.length < b.length
  int32_varint {n : Nat} (rest : Bytes) : (n < 2 ^ 31 ∨ 2 ^ 64 - 2 ^ 31 ≤ n ∧ n < 2 ^ 64) →
    int32 (varint n ++ rest) = some (toI32 n, rest)
  bool_varint (b : Bool) (rest : Bytes) : bool (varint b.toNat ++ rest) = some (b, rest)
  string_delimited {s : String} (rest : Bytes) : (utf8 s).length < 2 ^ 32 →
    string (delimited (utf8 s) ++ rest) = some (s, rest)
  double_bytes {b : Bytes} (rest : Bytes) : b.length = 8 →
    double (b ++ rest) = some (Ieee.value Ieee.binary64 (leNat b), rest)
  float_bytes {b : Bytes} (rest : Bytes) : b.length = 4 →
    float (b ++ rest) = some (Ieee.value Ieee.binary32 (leNat b), rest)
  skipType_varint {n : Nat} (depth : Nat) (rest : Bytes) : n < 2 ^ 64 → skipType 0 depth (varint n ++ rest) = some ((), rest)
  skipType_i64 {b : Bytes} (depth : Nat) (rest : Bytes) : b.length = 8 → skipType 1 depth (b ++ rest) = some ((), rest)
  skipType_delimited {b : Bytes} (depth : Nat) (rest : Bytes) : b.length < 2 ^ 32 →
    skipType 2 depth (delimited b ++ rest) = some ((), rest)
  skipType_i32 {b : Bytes} (depth : Nat) (rest : Bytes) : b.length = 4 → skipType 5 depth (b ++ rest) = some ((), rest)
  le_recursionLimit : 16 ≤ recursionLimit

/-- A read whose value is put to use. -/
def into {α M : Type} (r : Read α) (f : α → M) : Read M := fun b => (r b).map fun x => (f x.1, x.2)

theorem into_eq {α M : Type} {r : Read α} {a : α} {g : α → M} {b rest : Bytes} (h : r b = some (a, rest)) :
    into r g b = some (g a, rest) := by
  rw [into, h, Option.map_some]

section

variable [Codec] {M : Type}

/-- `while (reader.pos < end)`: reads a tag and has `step` read what follows, as
long as more than `stop` bytes are left. A tag takes a byte, so that there is a
pass for each byte, and none left only at the end of the buffer, where reading
a tag throws. -/
def loop (step : Nat → M → Read M) (stop : Int) : Nat → M → Read M
  | 0, m, b => if stop < b.length then none else some (m, b)
  | passes + 1, m, b =>
    if stop < b.length then
      (Codec.uint32 b).bind fun t => (step t.1 m t.2).bind fun x => loop step stop passes x.1 x.2
    else some (m, b)

/-- A generated `decode`, of a message of the given length or of the whole buffer. -/
def decode (step : Nat → M → Read M) (init : M) (length : Option Nat) : Read M := fun b =>
  loop step (match length with
    | none => 0
    | some n => (b.length : Int) - n) b.length init b

/-- `X.decode(reader, reader.uint32())`. -/
def embedded (dec : Option Nat → Read M) : Read M := fun b =>
  (Codec.uint32 b).bind fun n => dec (some n.1) n.2

variable {step : Nat → M → Read M} {of : List Field → M} {fs : List Field}

theorem loop_render (hok : ∀ f ∈ fs, f.Ok)
    (hstep : ∀ pre f post rest, fs = pre ++ f :: post →
      step f.tag (of pre) (f.payload ++ rest) = some (of (pre ++ [f]), rest))
    (rest : Bytes) {passes : Nat} (hpasses : (render fs).length ≤ passes) :
    loop step rest.length passes (of []) (render fs ++ rest) = some (of fs, rest) := by
  suffices h : ∀ post pre passes, fs = pre ++ post → (render post).length ≤ passes →
      loop step rest.length passes (of pre) (render post ++ rest) = some (of fs, rest) from
    h fs [] passes rfl hpasses
  intro post
  induction post with
  | nil =>
    intro pre passes hfs _
    obtain rfl : fs = pre := by rw [hfs, List.append_nil]
    cases passes <;> simp [loop, render]
  | cons f post ih =>
    intro pre passes hfs hlen
    have hne := List.length_pos_of_ne_nil (varint_ne_nil f.tag)
    have hbytes : render (f :: post) = varint f.tag ++ f.payload ++ render post := by rw [render]
    rw [hbytes, List.length_append, List.length_append] at hlen
    obtain ⟨passes, rfl⟩ : ∃ p, passes = p + 1 := ⟨passes - 1, by omega⟩
    have hf := hok f (hfs ▸ List.mem_append_right _ List.mem_cons_self)
    have hmore : ((rest.length : Nat) : Int) < (render (f :: post) ++ rest).length := by
      simp only [hbytes, List.length_append]
      omega
    rw [loop, if_pos hmore, hbytes, List.append_assoc, List.append_assoc,
      Codec.uint32_varint _ hf.tag_lt, Option.bind_some, hstep pre f post _ hfs, Option.bind_some]
    exact ih (pre ++ [f]) passes (by rw [hfs, List.append_assoc, List.singleton_append]) (by omega)

/-- A message inside a buffer. -/
theorem decode_render (hok : ∀ f ∈ fs, f.Ok)
    (hstep : ∀ pre f post rest, fs = pre ++ f :: post →
      step f.tag (of pre) (f.payload ++ rest) = some (of (pre ++ [f]), rest)) (rest : Bytes) :
    decode step (of []) (some (render fs).length) (render fs ++ rest) = some (of fs, rest) := by
  have hstop : (((render fs ++ rest).length : Nat) : Int) - (render fs).length = rest.length := by
    rw [List.length_append]
    omega
  simp only [decode, hstop]
  exact loop_render hok hstep rest (by rw [List.length_append]; omega)

/-- A message that is the buffer. -/
theorem decode_buffer (hok : ∀ f ∈ fs, f.Ok)
    (hstep : ∀ pre f post rest, fs = pre ++ f :: post →
      step f.tag (of pre) (f.payload ++ rest) = some (of (pre ++ [f]), rest)) :
    decode step (of []) none (render fs) = some (of fs, []) := by
  have h := loop_render hok hstep [] le_rfl
  rwa [List.append_nil] at h

/-- An embedded message is read behind its length. -/
theorem embedded_delimited {dec : Option Nat → Read M} {b rest : Bytes} (h : b.length < 2 ^ 32) :
    embedded dec (delimited b ++ rest) = dec (some b.length) (b ++ rest) := by
  rw [embedded, delimited, List.append_assoc, Codec.uint32_varint _ h, Option.bind_some]

/-- An embedded message that its decoder reads. -/
theorem embedded_msg {dec : Option Nat → Read M} {ms : List Field} {m : M} {rest : Bytes} (h : (render ms).length < 2 ^ 32)
    (hdec : dec (some (render ms).length) (render ms ++ rest) = some (m, rest)) (k : Nat) :
    embedded dec ((Field.msg k ms).payload ++ rest) = some (m, rest) := by
  rw [Field.payload, embedded_delimited h, hdec]

/-! A payload of a type is read as what it says, and any payload can be skipped. -/

variable {f : Field} {rest : Bytes}

theorem read_int32 (hok : f.Ok) (h : f.Is .int32) : Codec.int32 (f.payload ++ rest) = some (f.int, rest) := by
  cases f with
  | varint k n => exact Codec.int32_varint rest (h.imp_right fun hn => ⟨hn, hok.2⟩)
  | _ => cases h

theorem read_bool (h : f.Is .bool) : Codec.bool (f.payload ++ rest) = some (f.bool, rest) := by
  cases f with
  | varint k n =>
    obtain rfl | rfl : n = 0 ∨ n = 1 := by
      have hn : n ≤ 1 := h
      omega
    · exact Codec.bool_varint false rest
    · exact Codec.bool_varint true rest
  | _ => cases h

theorem read_string (hok : f.Ok) (h : f.Is .string) : Codec.string (f.payload ++ rest) = some (f.text, rest) := by
  cases f with
  | len k b =>
    obtain ⟨s, rfl⟩ := h
    rw [text_utf8]
    exact Codec.string_delimited rest hok.2
  | _ => cases h

theorem read_double (hok : f.Ok) (h : f.Is .double) : Codec.double (f.payload ++ rest) = some (f.double, rest) := by
  cases f with
  | i64 k b => exact Codec.double_bytes rest hok.2
  | _ => cases h

theorem read_float (hok : f.Ok) (h : f.Is .float) : Codec.float (f.payload ++ rest) = some (f.float, rest) := by
  cases f with
  | i32 k b => exact Codec.float_bytes rest hok.2
  | _ => cases h

theorem read_uint32 (h : f.Is .uint32) : Codec.uint32 (f.payload ++ rest) = some (f.nat, rest) := by
  cases f with
  | varint k n => exact Codec.uint32_varint rest h
  | _ => cases h

theorem skip_payload (hok : f.Ok) (depth : Nat) : Codec.skipType f.wireType depth (f.payload ++ rest) = some ((), rest) := by
  cases f with
  | varint k n => exact Codec.skipType_varint depth rest hok.2
  | i64 k b => exact Codec.skipType_i64 depth rest hok.2
  | len k b => exact Codec.skipType_delimited depth rest hok.2
  | msg k fs => exact Codec.skipType_delimited depth rest hok.2
  | i32 k b => exact Codec.skipType_i32 depth rest hok.2

end

/-! ## A library of the format -/

/-- A varint of at most `k` bytes and one. -/
def readVarintOf : Nat → Read Nat
  | _, [] => none
  | 0, b :: bs => if b.toNat < 128 then some (b.toNat, bs) else none
  | k + 1, b :: bs =>
    if b.toNat < 128 then some (b.toNat, bs)
    else (readVarintOf k bs).map fun x => (b.toNat - 128 + 128 * x.1, x.2)

def readVarint : Read Nat := readVarintOf 9

/-- The next `n` bytes. -/
def takeBytes (n : Nat) : Read Bytes := fun b => if n ≤ b.length then some (b.take n, b.drop n) else none

def readDelimited : Read Bytes := fun b => (readVarint b).bind fun x => takeBytes x.1 x.2

theorem readVarintOf_varintOf {k n : Nat} (h : n < 128 ^ (k + 1)) (rest : Bytes) :
    readVarintOf k (varintOf k n ++ rest) = some (n, rest) := by
  induction k generalizing n with
  | zero =>
    have hn : n < 128 := by simpa using h
    rw [varintOf, List.singleton_append, readVarintOf, toNat_toUInt8 (by omega), if_pos hn]
  | succ k ih =>
    rw [varintOf]
    by_cases hn : n < 128
    · rw [if_pos hn, List.singleton_append, readVarintOf, toNat_toUInt8 (by omega), if_pos hn]
    · have hdiv : n / 128 < 128 ^ (k + 1) := Nat.div_lt_of_lt_mul (by rwa [pow_succ'] at h)
      rw [if_neg hn, List.cons_append, readVarintOf, toNat_toUInt8 (by omega), if_neg (by omega), ih hdiv, Option.map_some]
      congr 2
      omega

theorem readVarint_varint {n : Nat} (h : n < 2 ^ 64) (rest : Bytes) : readVarint (varint n ++ rest) = some (n, rest) :=
  readVarintOf_varintOf (h.trans (by decide)) rest

theorem readVarintOf_shortens {k n : Nat} {b rest : Bytes} (h : readVarintOf k b = some (n, rest)) : rest.length < b.length := by
  induction k generalizing b n with
  | zero =>
    cases b with
    | nil => cases h
    | cons x b =>
      simp only [readVarintOf, Option.ite_none_right_eq_some, Option.some.injEq, Prod.mk.injEq] at h
      rw [← h.2.2, List.length_cons]
      omega
  | succ k ih =>
    cases b with
    | nil => cases h
    | cons x b =>
      rw [readVarintOf] at h
      split at h
      · cases h
        exact Nat.lt_succ_self _
      · obtain ⟨y, hy, heq⟩ := Option.map_eq_some_iff.mp h
        cases heq
        exact (ih hy).trans (Nat.lt_succ_self _)

theorem takeBytes_append {n : Nat} {b : Bytes} (h : b.length = n) (rest : Bytes) : takeBytes n (b ++ rest) = some (b, rest) := by
  rw [takeBytes, if_pos (by rw [List.length_append]; omega), List.take_left' h, List.drop_left' h]

theorem readDelimited_delimited {b : Bytes} (h : b.length < 2 ^ 32) (rest : Bytes) :
    readDelimited (delimited b ++ rest) = some (b, rest) := by
  rw [readDelimited, delimited, List.append_assoc, readVarint_varint (h.trans (by decide)), Option.bind_some,
    takeBytes_append rfl]

/-- Skip a payload of a wire type; groups, which only the older syntax has, are not read. -/
def skipPayload : Nat → Read Unit
  | 0 => into readVarint fun _ => ()
  | 1 => into (takeBytes 8) fun _ => ()
  | 2 => into readDelimited fun _ => ()
  | 5 => into (takeBytes 4) fun _ => ()
  | _ => fun _ => none

/-- The format read and written as it is documented. -/
@[reducible] def standard : Codec where
  writeUint32 := varint
  writeInt32 v := varint (ofI32 v)
  writeBool b := varint b.toNat
  writeString s := delimited (utf8 s)
  writeDouble x := leBytes 8 (Ieee.bits Ieee.binary64 x)
  ldelim := delimited
  uint32 := into readVarint fun n => n % 2 ^ 32
  int32 := into readVarint toI32
  bool := into readVarint fun n => decide (n ≠ 0)
  string b := (readDelimited b).bind fun x => (String.fromUTF8? ⟨x.1.toArray⟩).map fun s => (s, x.2)
  double := into (takeBytes 8) fun b => Ieee.value Ieee.binary64 (leNat b)
  float := into (takeBytes 4) fun b => Ieee.value Ieee.binary32 (leNat b)
  skipType wireType _ := skipPayload wireType
  recursionLimit := 100
  writeUint32_eq _ := rfl
  writeInt32_eq _ := rfl
  writeBool_eq _ := rfl
  writeString_eq _ := rfl
  writeDouble_spec h :=
    ⟨length_leBytes _ _, by rw [leNat_leBytes (h.bits.1.trans_le (by decide)), h.bits.2]⟩
  ldelim_eq _ := rfl
  uint32_varint rest h := by rw [into_eq (readVarint_varint (h.trans (by decide)) rest), Nat.mod_eq_of_lt h]
  uint32_shortens h := by
    obtain ⟨x, hx, heq⟩ := Option.map_eq_some_iff.mp h
    cases heq
    exact readVarintOf_shortens hx
  int32_varint rest h := into_eq (readVarint_varint (by omega) rest)
  bool_varint b rest := by cases b <;> rfl
  string_delimited rest h := by rw [readDelimited_delimited h, Option.bind_some, fromUTF8?_utf8, Option.map_some]
  double_bytes rest h := into_eq (takeBytes_append h rest)
  float_bytes rest h := into_eq (takeBytes_append h rest)
  skipType_varint _ rest h := into_eq (g := fun _ => ()) (readVarint_varint h rest)
  skipType_i64 _ rest h := into_eq (g := fun _ => ()) (takeBytes_append h rest)
  skipType_delimited _ rest h := into_eq (g := fun _ => ()) (readDelimited_delimited h rest)
  skipType_i32 _ rest h := into_eq (g := fun _ => ()) (takeBytes_append h rest)
  le_recursionLimit := by decide

end OV.Wire
