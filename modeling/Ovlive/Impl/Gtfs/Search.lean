import Mathlib.Data.List.Sort
import Mathlib.Data.Prod.Lex
import Mathlib.Data.String.Basic
import Ovlive.Impl.Gtfs.Grid

/-!
# Searching stops by name (`crates/gtfs/src/stops.rs`)

The slots of the boardable quays with their names in lower case, and `search`,
which reads them. What `to_lowercase` makes of a text is a parameter. Texts are
ordered as their bytes are: by code points.
-/

namespace OV.Impl

/-- The slots of `StopIndexes`, with the names for the search. -/
structure StopNames where
  store : GtfsStore
  stopSlots : List (String × String) := []

namespace StopNames

/-- Index a stop: boardable quays only. -/
def add (lower : String → String) (idx : StopNames) (stop : StopInfo) : StopNames :=
  if stop.isQuay then { idx with stopSlots := idx.stopSlots ++ [(stop.stopId, lower stop.name)] } else idx

/-- The slots of `StopIndexes::build`. -/
def build (lower : String → String) (store : GtfsStore) : StopNames :=
  (Map.values store.stops).foldl (add lower) { store := store }

variable (idx : StopNames)

/-- Whether a name in lower case does not start with the query. Those that do come
first. -/
def notPrefix (q lower : String) : Bool := !q.toList.isPrefixOf lower.toList

/-- One slot of the first pass: a name that contains the query, unless it was
seen. -/
def addName (q : String) (names : List (Bool × String)) (slot : String × String) : List (Bool × String) :=
  if !Text.contains slot.2.toList q.toList then names
  else
    match idx.store.stops.lookup slot.1 with
    | none => names
    | some stop =>
      if stop.name ∈ names.map Prod.snd then names else names ++ [(notPrefix q slot.2, stop.name)]

/-- The distinct names that match, ranked and capped. -/
def keep (q : String) (nameLimit : Nat) : List String :=
  (((idx.stopSlots.foldl (idx.addName q) []).insertionSort fun a b => toLex a ≤ toLex b).take nameLimit).map Prod.snd

/-- One slot of the second pass: a stop with a name that is kept, and its rank. -/
def hit (q : String) (names : List String) (slot : String × String) : Option ((Bool ×ₗ String ×ₗ String) × StopInfo) :=
  match idx.store.stops.lookup slot.1 with
  | none => none
  | some stop =>
    if stop.name ∈ names then some (toLex (notPrefix q slot.2, toLex (stop.name, slot.1)), stop) else none

/-- `search`. -/
def search (lower : String → String) (query : String) (nameLimit : Nat) : List StopInfo :=
  let q := lower (String.ofList (Text.trim query.toList))
  if q.isEmpty then []
  else
    ((idx.stopSlots.filterMap (idx.hit q (idx.keep q nameLimit))).insertionSort fun a b => a.1 ≤ b.1).map Prod.snd

end StopNames

end OV.Impl
