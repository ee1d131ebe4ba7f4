import Mathlib.Data.List.Basic
import Mathlib.Data.List.DropRight
import Mathlib.Data.List.TakeWhile
import Ovlive.Framework.Rounding

/-!
# Text

Rust's reading of text, on lists of characters: `trim`, `split`, ASCII case,
and `parse` for the integer types and for floats, which are read as the nearest
number of their format.
-/

namespace OV.Text

/-- `char::is_whitespace`. -/
def isWhite (c : Char) : Bool :=
  let n := c.toNat
  (9 ≤ n && n ≤ 13) || n == 32 || n == 0x85 || n == 0xA0 || n == 0x1680 || (0x2000 ≤ n && n ≤ 0x200A) ||
    n == 0x2028 || n == 0x2029 || n == 0x202F || n == 0x205F || n == 0x3000

def trimStart (s : List Char) : List Char := s.dropWhile isWhite
def trimEnd (s : List Char) : List Char := (s.reverse.dropWhile isWhite).reverse
def trim (s : List Char) : List Char := trimEnd (trimStart s)

theorem trim_of_no_white {s : List Char} (h : ∀ c ∈ s, isWhite c = false) : trim s = s := by
  have hdrop : ∀ l : List Char, (∀ c ∈ l, isWhite c = false) → l.dropWhile isWhite = l := by
    intro l hl
    cases l with
    | nil => rfl
    | cons c l => rw [List.dropWhile_cons_of_neg (by simp [hl c (by simp)])]
  rw [trim, trimStart, hdrop s h, trimEnd, hdrop s.reverse (fun c hc => h c (by simpa using hc)), List.reverse_reverse]

/-- What is trimmed stays as it is. -/
theorem trim_trim (s : List Char) : trim (trim s) = trim s := by
  have hstart : (s.dropWhile isWhite).dropWhile isWhite = s.dropWhile isWhite := List.dropWhile_idempotent _ _
  have hpre : trim s <+: s.dropWhile isWhite := List.rdropWhile_prefix isWhite _
  have hhead : (trim s).dropWhile isWhite = trim s := by
    rw [List.dropWhile_eq_self_iff] at hstart ⊢
    intro hl
    rw [hpre.getElem hl]
    exact hstart (hl.trans_le hpre.length_le)
  have hend : trimEnd (trim s) = trim s := List.rdropWhile_idempotent isWhite (s.dropWhile isWhite)
  rw [trim, trimStart, hhead, hend]

/-- `char::to_ascii_lowercase`. -/
def lower (c : Char) : Char := if 'A' ≤ c && c ≤ 'Z' then Char.ofNat (c.toNat + 32) else c

/-- `to_ascii_lowercase`. -/
def asciiLower (s : String) : List Char := s.toList.map lower

/-- `eq_ignore_ascii_case`. -/
def eqIgnoreCase (a b : String) : Bool := asciiLower a = asciiLower b

/-- `contains`, for a string. -/
def contains (s sub : List Char) : Bool := s.tails.any sub.isPrefixOf

/-- `split`, at a character: one part more than there are separators. -/
def split (sep : Char) : List Char → List (List Char)
  | [] => [[]]
  | c :: s =>
    if c = sep then [] :: split sep s
    else
      match split sep s with
      | [] => [[c]]
      | p :: ps => (c :: p) :: ps

/-- The first part is what precedes the first separator. -/
theorem head?_split (sep : Char) (s : List Char) : (split sep s).head? = some (s.takeWhile (· ≠ sep)) := by
  induction s with
  | nil => rfl
  | cons c s ih =>
    by_cases hc : c = sep
    · simp [split, hc]
    · rw [List.takeWhile_cons_of_pos (by simpa using hc), split, if_neg hc]
      cases h : split sep s with
      | nil => simp [h] at ih
      | cons p ps =>
        rw [h, List.head?_cons, Option.some.injEq] at ih
        rw [List.head?_cons, ih]

/-- `split_once`, at a character. -/
def splitOnce (sep : Char) (s : List Char) : Option (List Char × List Char) :=
  if sep ∈ s then some (s.takeWhile (· ≠ sep), (s.dropWhile (· ≠ sep)).drop 1) else none

/-- A text is split where its separator first occurs. -/
theorem splitOnce_append {sep : Char} {s : List Char} (h : sep ∉ s) (t : List Char) :
    splitOnce sep (s ++ sep :: t) = some (s, t) := by
  have hs : ∀ c ∈ s, decide (c ≠ sep) = true := fun c hc => by simpa using fun e : c = sep => h (e ▸ hc)
  rw [splitOnce, if_pos (by simp), List.takeWhile_append_of_pos hs, List.dropWhile_append_of_pos hs,
    List.takeWhile_cons_of_neg (by simp), List.dropWhile_cons_of_neg (by simp), List.append_nil]
  rfl

/-- `trim_end_matches`, for a character. -/
def trimEndMatches (c : Char) (s : List Char) : List Char := (s.reverse.dropWhile (· = c)).reverse

/-- The value of a digit. -/
def digitVal (c : Char) : Nat := c.toNat - '0'.toNat

/-- The number a list of digits writes. -/
def ofDigits (ds : List Char) : Nat := ds.foldl (fun n c => 10 * n + digitVal c) 0

/-- At least one digit, and nothing else. -/
def parseNat? (s : List Char) : Option Nat :=
  if s.isEmpty || !s.all Char.isDigit then none else some (ofDigits s)

/-- An optional sign and digits. -/
def parseInt? : List Char → Option Int
  | '-' :: s => (parseNat? s).map fun n => -(n : Int)
  | '+' :: s => (parseNat? s).map fun n => (n : Int)
  | s => (parseNat? s).map fun n => (n : Int)

/-- `parse::<i32>`. -/
def parseI32? (s : List Char) : Option Int32 := do
  let n ← parseInt? s
  if -2147483648 ≤ n ∧ n ≤ 2147483647 then some (Int32.ofInt n) else none

/-- `parse::<i64>`. -/
def parseI64? (s : List Char) : Option Int := do
  let n ← parseInt? s
  if -9223372036854775808 ≤ n ∧ n ≤ 9223372036854775807 then some n else none

/-- `parse::<u32>`: a `+` is allowed, a `-` is not. -/
def parseU32? (s : List Char) : Option Nat := do
  let n ← parseNat? (match s with | '+' :: r => r | r => r)
  if n < 4294967296 then some n else none

/-- The exponent part of a float: nothing, or `e`, a sign and digits. -/
def parseExp? : List Char → Option Int
  | [] => some 0
  | c :: s => if lower c = 'e' then parseInt? s else none

/-- `m × 10^e`. -/
def scale (m : Nat) (e : Int) : ℚ := if 0 ≤ e then m * 10 ^ e.toNat else m / 10 ^ (-e).toNat

/-- A float without its sign: `inf`, `infinity`, `nan`, or digits with an
optional point and exponent, rounded to the format. -/
def parseUnsigned? (f : Ieee.Format) (s : List Char) : Option Num :=
  if s.map lower = "inf".toList ∨ s.map lower = "infinity".toList then some .posInf
  else if s.map lower = "nan".toList then some .nan
  else
    let whole := s.takeWhile Char.isDigit
    let rest := s.drop whole.length
    let (frac, rest) := match rest with
      | '.' :: r => (r.takeWhile Char.isDigit, r.drop (r.takeWhile Char.isDigit).length)
      | r => ([], r)
    if whole.isEmpty && frac.isEmpty then none
    else (parseExp? rest).map fun e => Ieee.roundPos f (scale (ofDigits (whole ++ frac)) (e - frac.length))

def parseFloat? (f : Ieee.Format) : List Char → Option Num
  | '-' :: s => (parseUnsigned? f s).map Num.neg
  | '+' :: s => parseUnsigned? f s
  | s => parseUnsigned? f s

/-- `parse::<f32>`. -/
def parseF32? : List Char → Option Num := parseFloat? Ieee.binary32

/-- `parse::<f64>`. -/
def parseF64? : List Char → Option Num := parseFloat? Ieee.binary64

example : parseF64? "-51.925e1".toList = some (.fin (-519.25)) := by decide +kernel

end OV.Text
