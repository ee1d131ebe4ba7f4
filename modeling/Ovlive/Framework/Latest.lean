import Mathlib.Data.List.Basic

/-!
# The latest report in a log

`latest f es` is the last value that `f` reads from an entry of `es`. It is
the declarative side of a field that sparse messages overwrite: a state that
keeps `(f e).or old` on every entry `e` has `latest f es` after the log `es`
(`latest_snoc`).
-/

namespace OV

variable {E V : Type}

/-- The last value `f` reads from the log. -/
def latest (f : E → Option V) (es : List E) : Option V := (es.filterMap f).getLast?

@[simp] theorem latest_nil (f : E → Option V) : latest f [] = none := rfl

theorem latest_snoc (f : E → Option V) (es : List E) (e : E) : latest f (es ++ [e]) = (f e).or (latest f es) := by
  cases h : f e <;> simp [latest, List.filterMap_append, h]

/-- The latest value is read from an entry of the log. -/
theorem exists_mem_of_latest {f : E → Option V} {es : List E} {v : V} (h : latest f es = some v) :
    ∃ e ∈ es, f e = some v :=
  List.mem_filterMap.mp (List.mem_of_getLast? h)

end OV
