/-!
# Snapshots on disk (`crates/persist/src/snapshot.rs`)

A file that holds a value is not there, cannot be read as one, or holds it. It
is written to a temporary file that is renamed over it: a save that fails
leaves the file as it was.
-/

namespace OV.Impl

/-- A file that a value is kept in; `unreadable` if opening, unpacking or
decoding it fails. -/
inductive Stored (α : Type)
  | absent
  | unreadable (error : String)
  | holds (value : α)

namespace Stored

variable {α : Type}

/-- `load`: nothing if the file does not exist. -/
def load : Stored α → Except String (Option α)
  | .absent => .ok none
  | .unreadable e => .error e
  | .holds value => .ok (some value)

/-- `save`, where a fault names the step that fails: the file afterwards. -/
def save (fault : Option String) (file : Stored α) (value : α) : Stored α × Except String Unit :=
  match fault with
  | some e => (file, .error e)
  | none => (.holds value, .ok ())

/-- `load(..).ok().flatten()`. -/
def loaded (file : Stored α) : Option α :=
  match file.load with
  | .ok value => value
  | .error _ => none

end Stored

end OV.Impl
