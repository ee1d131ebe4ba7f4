import Ovlive.Framework.Text

/-!
# Internet addresses

IPv4 and IPv6 addresses, blocks of them in prefix notation (`IpBlock`), and
`IpAddr.parse?`, the reading of an address from text: dotted decimal without
leading zeros, or groups of hexadecimal digits in which one `::` stands for
groups of zeros and the last two groups may be a dotted address.
-/

namespace OV

inductive IpAddr
  | v4 (a b c d : UInt8)
  | v6 (a b c d e f g h : UInt16)
  deriving DecidableEq

namespace IpAddr

/-- The address as one number. -/
def toNat : IpAddr → Nat
  | v4 a b c d => ((a.toNat * 256 + b.toNat) * 256 + c.toNat) * 256 + d.toNat
  | v6 a b c d e f g h =>
    ((((((a.toNat * 65536 + b.toNat) * 65536 + c.toNat) * 65536 + d.toNat) * 65536 + e.toNat) * 65536 + f.toNat) *
      65536 + g.toNat) * 65536 + h.toNat

/-! ## Reading -/

/-- The value of a digit of the radix. -/
def digit? (radix : Nat) (c : Char) : Option Nat :=
  let v := if c.isDigit then some (Text.digitVal c)
    else if 'a' ≤ Text.lower c && Text.lower c ≤ 'f' then some ((Text.lower c).toNat - 'a'.toNat + 10)
    else none
  v.filter fun n => n < radix

/-- A number below `bound` at the front: one digit at least and `width` at most. -/
def scanNumber (radix width bound : Nat) (zeroPrefix : Bool) (s : List Char) : Option (Nat × List Char) :=
  let ds := s.takeWhile fun c => (digit? radix c).isSome
  let n := ds.foldl (fun n c => n * radix + (digit? radix c).getD 0) 0
  if ds.isEmpty || width < ds.length || bound ≤ n || (!zeroPrefix && ds.head? = some '0' && 1 < ds.length) then none
  else some (n, s.drop ds.length)

/-- Behind the first item, an item has a separator before it. -/
def separated {A : Type} (sep : Char) (i : Nat) (scan : List Char → Option A) (s : List Char) : Option A :=
  if i = 0 then scan s
  else
    match s with
    | c :: r => if c = sep then scan r else none
    | [] => none

/-- Four numbers below 256 with dots between them. -/
def scanV4 (s : List Char) : Option ((Nat × Nat × Nat × Nat) × List Char) := do
  let (a, s) ← scanNumber 10 3 256 false s
  let (b, s) ← separated '.' 1 (scanNumber 10 3 256 false) s
  let (c, s) ← separated '.' 2 (scanNumber 10 3 256 false) s
  let (d, s) ← separated '.' 3 (scanNumber 10 3 256 false) s
  some ((a, b, c, d), s)

/-- At most `left` groups from the `i`-th on, and whether they end in a dotted
address, which takes the place of two. -/
def scanGroups : (left i : Nat) → List Char → List Nat × Bool × List Char
  | 0, _, s => ([], false, s)
  | left + 1, i, s =>
    match if 0 < left then separated ':' i scanV4 s else none with
    | some ((a, b, c, d), r) => ([a * 256 + b, c * 256 + d], true, r)
    | none =>
      match separated ':' i (scanNumber 16 4 65536 true) s with
      | some (n, r) =>
        let (ns, dotted, r) := scanGroups left (i + 1) r
        (n :: ns, dotted, r)
      | none => ([], false, s)

/-- The address of eight groups. -/
def ofGroups (ns : List Nat) : Option IpAddr :=
  match ns.map UInt16.ofNat with
  | [a, b, c, d, e, f, g, h] => some (v6 a b c d e f g h)
  | _ => none

def scanV6 (s : List Char) : Option (IpAddr × List Char) :=
  let (front, dotted, r) := scanGroups 8 0 s
  if front.length = 8 then (ofGroups front).map fun ip => (ip, r)
  else if dotted then none
  else
    match r with
    | ':' :: ':' :: r =>
      let (back, _, r) := scanGroups (7 - front.length) 0 r
      (ofGroups (front ++ List.replicate (8 - front.length - back.length) 0 ++ back)).map fun ip => (ip, r)
    | _ => none

/-- `parse::<IpAddr>`. -/
def parse? (s : List Char) : Option IpAddr :=
  let read :=
    match scanV4 s with
    | some ((a, b, c, d), r) => some (v4 (.ofNat a) (.ofNat b) (.ofNat c) (.ofNat d), r)
    | none => scanV6 s
  (read.filter fun p => p.2.isEmpty).map Prod.fst

example : parse? "2001:DB8::8:192.0.2.1".toList = some (.v6 0x2001 0xDB8 0 0 0 8 0xC000 0x201) := by decide +kernel

end IpAddr

/-! ## Blocks -/

/-- The addresses that share the first `len` bits of one of them. -/
structure IpBlock where
  net : IpAddr
  len : Nat

/-- Whether an address is in a block. -/
def IpBlock.has (b : IpBlock) (ip : IpAddr) : Bool :=
  match b.net, ip with
  | .v4 .., .v4 .. => ip.toNat / 2 ^ (32 - b.len) = b.net.toNat / 2 ^ (32 - b.len)
  | .v6 .., .v6 .. => ip.toNat / 2 ^ (128 - b.len) = b.net.toNat / 2 ^ (128 - b.len)
  | _, _ => false

namespace IpBlock

variable {a b c d p q r s : UInt8} {len : Nat}

theorem has_v4 : IpBlock.has ⟨.v4 p q r s, len⟩ (.v4 a b c d) = true ↔
    (IpAddr.v4 a b c d).toNat / 2 ^ (32 - len) = (IpAddr.v4 p q r s).toNat / 2 ^ (32 - len) := by
  simp [has]

theorem has_v6 {a b c d e f g h p q r s t u v w : UInt16} :
    IpBlock.has ⟨.v6 p q r s t u v w, len⟩ (.v6 a b c d e f g h) = true ↔
      (IpAddr.v6 a b c d e f g h).toNat / 2 ^ (128 - len) = (IpAddr.v6 p q r s t u v w).toNat / 2 ^ (128 - len) := by
  simp [has]

theorem not_has_v4_v6 {a b c d e f g h : UInt16} : IpBlock.has ⟨.v4 p q r s, len⟩ (.v6 a b c d e f g h) = false := rfl

theorem not_has_v6_v4 {p q r s t u v w : UInt16} : IpBlock.has ⟨.v6 p q r s t u v w, len⟩ (.v4 a b c d) = false := rfl

end IpBlock

end OV
