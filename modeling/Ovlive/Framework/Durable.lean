import Ovlive.Framework.Run

/-!
# State that outlives a process

A process changes its state by actions and writes it to disk from time to
time. When it ends, the next one starts from what was written last, with the
actions of a boot. So at any time the state is what the actions of a journal
make of the first state on disk (`Durable.journaled`): a save keeps the
journal, and a boot goes back to the one that was kept.
-/

namespace OV

/-- How a process changes its state, and what it does with it when it boots. -/
structure Durable (S A B : Type) where
  act : S → A → S
  atBoot : B → List A

inductive DurableOp (A B : Type)
  | act (a : A)
  | save
  | boot (b : B)

/-- A state, and the one on disk. -/
structure OnDisk (S : Type) where
  live : S
  disk : S

/-- The actions behind a state, and behind the one on disk. -/
structure Journal (A : Type) where
  live : List A
  disk : List A

namespace Durable

variable {S A B : Type} (P : Durable S A B)

def step (m : OnDisk S) : DurableOp A B → OnDisk S
  | .act a => { m with live := P.act m.live a }
  | .save => { m with disk := m.live }
  | .boot b => { m with live := (P.atBoot b).foldl P.act m.disk }

def Step (m : OnDisk S) (o : DurableOp A B) (n : OnDisk S) : Prop := P.step m o = n

def record (j : Journal A) : DurableOp A B → Journal A
  | .act a => { j with live := j.live ++ [a] }
  | .save => { j with disk := j.live }
  | .boot b => { j with live := j.disk ++ P.atBoot b }

/-- What a run writes into a journal. -/
def journal (j : Journal A) (os : List (DurableOp A B)) : Journal A := os.foldl P.record j

/-- The states are what the actions of the journal make of a first state. -/
def Journaled (s : S) (j : Journal A) (m : OnDisk S) : Prop :=
  m.live = j.live.foldl P.act s ∧ m.disk = j.disk.foldl P.act s

variable {P}

theorem Journaled.step {s : S} {j : Journal A} {m : OnDisk S} (h : P.Journaled s j m) (o : DurableOp A B) :
    P.Journaled s (P.record j o) (P.step m o) := by
  obtain ⟨hlive, hdisk⟩ := h
  cases o with
  | act a =>
    refine ⟨?_, hdisk⟩
    rw [record, Durable.step, List.foldl_append, ← hlive]
    rfl
  | save => exact ⟨hlive, hlive⟩
  | boot b =>
    refine ⟨?_, hdisk⟩
    rw [record, Durable.step, List.foldl_append, ← hdisk]

/-- At any time of a run the states are what the journal makes of them. -/
theorem journaled {s : S} {j : Journal A} {m n : OnDisk S} {os : List (DurableOp A B)} (h : Run P.Step m os n)
    (h₀ : P.Journaled s j m) : P.Journaled s (P.journal j os) n := by
  induction h with
  | nil => exact h₀
  | snoc _ hr ih =>
    rename_i os m o n _
    rw [journal, List.foldl_append, ← journal]
    exact hr ▸ ih.step o

end Durable

end OV
