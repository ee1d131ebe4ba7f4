import Mathlib.Data.List.Dedup
import Ovlive.Framework.Text

/-!
# Dates, instants and time zones

An instant is the number of nanoseconds since the Unix epoch, a date the
number of days since 1970-01-01, and a time zone a table of the instants at
which its offset changes. `Tz.clock` is the reading of the zone's clock at an
instant; `Tz.single` and `Tz.latest` go back, from a reading of the clock to
the instants that show it: none in a gap, two where the clock is set back
over itself (`single_eq_some_iff`).
-/

namespace OV

/-- Nanoseconds since the Unix epoch. -/
abbrev Instant := Int

/-- Nanoseconds in a second. -/
def nanos : Int := 1000000000

def secsPerDay : Int := 86400

/-- A calendar date, as days since 1970-01-01. -/
structure NaiveDate where
  days : Int
  deriving DecidableEq

namespace NaiveDate

/-- Year, month and day of a date of the proleptic Gregorian calendar,
counting years from March within eras of 400 years. -/
def ymd (d : NaiveDate) : Int × Nat × Nat :=
  let z := d.days + 719468
  let era := z / 146097
  let doe := (z % 146097).toNat
  let yoe := (doe - doe / 1460 + doe / 36524 - doe / 146096) / 365
  let doy := doe - (365 * yoe + yoe / 4 - yoe / 100)
  let mp := (5 * doy + 2) / 153
  let month := if mp < 10 then mp + 3 else mp - 9
  (yoe + era * 400 + (if month ≤ 2 then 1 else 0), month, doy - (153 * mp + 2) / 5 + 1)

def year (d : NaiveDate) : Int := d.ymd.1
def month (d : NaiveDate) : Nat := d.ymd.2.1
def day (d : NaiveDate) : Nat := d.ymd.2.2

/-- The date of a year, month and day, where there is one: the candidate's own
year, month and day must be those given. -/
def fromYmdOpt (y : Int) (m d : Nat) : Option NaiveDate :=
  let y' := if m ≤ 2 then y - 1 else y
  let era := y' / 400
  let yoe := (y' % 400).toNat
  let doy := (153 * (if 2 < m then m - 3 else m + 9) + 2) / 5 + d - 1
  let doe := yoe * 365 + yoe / 4 - yoe / 100 + doy
  let date : NaiveDate := ⟨era * 146097 + doe - 719468⟩
  if date.ymd = (y, m, d) ∧ -262143 ≤ y ∧ y ≤ 262142 then some date else none

/-- 0 for a Monday. -/
def weekday (d : NaiveDate) : Nat := ((d.days + 3) % 7).toNat

/-- The first day of chrono's calendar, in the year -262143. -/
def minDays : Int := -96465292

/-- The day before, where the calendar has one. -/
def predOpt (d : NaiveDate) : Option NaiveDate :=
  if d.days ≤ minDays then none else some ⟨d.days - 1⟩

def addDays (d : NaiveDate) (n : Int) : NaiveDate := ⟨d.days + n⟩

/-- At least one and at most `width` digits from the front, after white space. -/
def scanNumber (width : Nat) (s : List Char) : Option (Nat × List Char) :=
  let s := Text.trimStart s
  let ds := (s.take width).takeWhile Char.isDigit
  if ds.isEmpty then none else some (Text.ofDigits ds, s.drop ds.length)

/-- `%Y`: at most four digits, or a sign and any number of them. -/
def scanYear (s : List Char) : Option (Int × List Char) :=
  match Text.trimStart s with
  | '-' :: r => if r.head?.any Char.isDigit then (scanNumber r.length r).map fun p => (-(p.1 : Int), p.2) else none
  | '+' :: r => if r.head?.any Char.isDigit then (scanNumber r.length r).map fun p => ((p.1 : Int), p.2) else none
  | r => (scanNumber 4 r).map fun p => ((p.1 : Int), p.2)

/-- A year, a month and a day, with `sep` between them. -/
def parseWith (sep : List Char) (s : String) : Option NaiveDate := do
  let (y, r) ← scanYear s.toList
  let (m, r) ← scanNumber 2 (← r.dropPrefix? sep)
  let (d, r) ← scanNumber 2 (← r.dropPrefix? sep)
  if r.isEmpty then fromYmdOpt y m d else none

/-- `NaiveDate::parse_from_str(s, "%Y-%m-%d")`. -/
def parseDashed : String → Option NaiveDate := parseWith ['-']

/-- `NaiveDate::parse_from_str(s, "%Y%m%d")`. -/
def parseCompact : String → Option NaiveDate := parseWith []

/-- A number with at least `width` digits. -/
def padded (width n : Nat) : String :=
  let s := Nat.repr n
  String.ofList (List.replicate (width - s.length) '0') ++ s

/-- Year, month and day with `sep` between them; a year past 9999 has a sign. -/
def formatWith (sep : String) (d : NaiveDate) : String :=
  let y := if 0 ≤ d.year ∧ d.year ≤ 9999 then padded 4 d.year.toNat
    else (if d.year < 0 then "-" else "+") ++ padded 4 d.year.natAbs
  y ++ sep ++ padded 2 d.month ++ sep ++ padded 2 d.day

/-- `format("%Y-%m-%d")`. -/
def formatDashed : NaiveDate → String := formatWith "-"

/-- `format("%Y%m%d")`. -/
def formatCompact : NaiveDate → String := formatWith ""

example : (parseDashed "2026-07-28").map (fun d => (d.ymd, d.weekday)) = some ((2026, 7, 28), 1) := by
  decide +kernel

end NaiveDate

/-- A time zone: its offset from UTC, in seconds, before the first change, and
the offset from each change on. -/
structure Tz where
  base : Int
  changes : List (Instant × Int)
  ascending : (changes.map Prod.fst).Pairwise (· < ·)

namespace Tz

/-- The zone without an offset. -/
def utc : Tz where
  base := 0
  changes := []
  ascending := .nil

variable (tz : Tz)

/-- The offset in force at an instant. -/
def offset (t : Instant) : Int :=
  ((tz.changes.filter fun c => c.1 ≤ t).getLast?.map Prod.snd).getD tz.base

/-- The reading of the zone's clock, on the axis of the instants. -/
def clock (t : Instant) : Int := t + tz.offset t * nanos

/-- The calendar day the clock shows. -/
def date (t : Instant) : NaiveDate := ⟨tz.clock t / (secsPerDay * nanos)⟩

/-- The offsets the zone ever has. -/
def offsets : List Int := tz.base :: tz.changes.map Prod.snd

/-- The instants at which the clock reads `r`. -/
def instantsOf (r : Int) : List Instant :=
  ((tz.offsets.map fun o => r - o * nanos).dedup).filter fun t => tz.clock t = r

/-- The instant at which the clock reads `r`, if it is the only one. -/
def single (r : Int) : Option Instant :=
  match tz.instantsOf r with
  | [t] => some t
  | _ => none

/-- The last instant at which the clock reads `r`. -/
def latest (r : Int) : Option Instant := (tz.instantsOf r).max?

theorem offset_mem (t : Instant) : tz.offset t ∈ tz.offsets := by
  simp only [offset, offsets]
  cases h : (tz.changes.filter fun c => c.1 ≤ t).getLast? with
  | none => exact List.mem_cons_self
  | some c =>
    have hc := List.mem_filter.mp (List.mem_of_getLast? h)
    exact List.mem_cons_of_mem _ (List.mem_map_of_mem hc.1)

theorem mem_instantsOf {r : Int} {t : Instant} : t ∈ tz.instantsOf r ↔ tz.clock t = r := by
  simp only [instantsOf, List.mem_filter, List.mem_dedup, List.mem_map, decide_eq_true_eq,
    and_iff_right_iff_imp]
  rintro rfl
  exact ⟨tz.offset t, tz.offset_mem t, by simp [clock]⟩

theorem nodup_instantsOf (r : Int) : (tz.instantsOf r).Nodup :=
  (List.nodup_dedup _).filter _

/-- `single` finds an instant exactly where the reading is neither skipped nor
repeated. -/
theorem single_eq_some_iff {r : Int} {t : Instant} :
    tz.single r = some t ↔ tz.clock t = r ∧ ∀ u, tz.clock u = r → u = t := by
  have hn := tz.nodup_instantsOf r
  simp only [← tz.mem_instantsOf]
  unfold single
  generalize tz.instantsOf r = l at hn ⊢
  rcases l with _ | ⟨a, _ | ⟨b, l⟩⟩
  · simp
  · simp only [Option.some.injEq, List.mem_singleton]
    constructor
    · rintro rfl; exact ⟨rfl, fun _ h => h⟩
    · rintro ⟨rfl, _⟩; rfl
  · simp only [reduceCtorEq, false_iff, not_and, not_forall]
    rintro -
    simp only [List.nodup_cons, List.mem_cons, not_or] at hn
    by_cases h : a = t
    · exact ⟨b, by simp, fun e => hn.1.1 (h.trans e.symm)⟩
    · exact ⟨a, by simp, h⟩

theorem date_of_clock {t : Int} {d : NaiveDate} (secs : Int)
    (h : tz.clock t = d.days * secsPerDay * nanos + secs * nanos)
    (h0 : 0 ≤ secs) (h1 : secs < secsPerDay) : tz.date t = d := by
  have hdiv : (d.days * secsPerDay * nanos + secs * nanos) / (secsPerDay * nanos) = d.days := by
    unfold secsPerDay nanos at *
    omega
  rw [date, h, hdiv]

end Tz

end OV
