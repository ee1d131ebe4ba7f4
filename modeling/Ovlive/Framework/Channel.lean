import Ovlive.Framework.Run

/-!
# Bounded channels

A queue of bounded length between senders and a receiver. A value that is sent
waits for room, and a channel that its receiver left takes nothing more. What
was sent to a channel is, in this order, what was received and what is still in
it (`Channel.ledger`).
-/

namespace OV

/-- The values in a channel, the next to be received first. -/
structure Channel (A : Type) (capacity : Nat) where
  items : List A := []
  closed : Bool := false
  bounded : items.length ≤ capacity := by simp
  /-- A receiver that left took its values with it. -/
  dropped : closed = true → items = [] := by simp

/-- What happens to a channel. -/
inductive ChannelOp (A : Type)
  | send (a : A)
  | recv (a : A)
  | close

namespace Channel

variable {A : Type} {n : Nat}

/-- `send`, where there is room and a receiver. -/
def send (c : Channel A n) (a : A) : Option (Channel A n) :=
  if h : c.closed = false ∧ c.items.length < n then
    some
      { items := c.items ++ [a]
        bounded := by rw [List.length_append]; exact h.2 }
  else none

/-- `recv`, where there is a value. -/
def recv (c : Channel A n) : Option (A × Channel A n) :=
  match h : c.items with
  | [] => none
  | a :: items =>
    some (a,
      { items := items
        bounded := by
          have hb := c.bounded
          rw [h] at hb
          exact Nat.le_of_succ_le hb })

/-- The receiver leaves. -/
def close : Channel A n where
  closed := true

def Step (c : Channel A n) : ChannelOp A → Channel A n → Prop
  | .send a, d => c.send a = some d
  | .recv a, d => c.recv = some (a, d)
  | .close, d => close = d

def sent (ops : List (ChannelOp A)) : List A :=
  ops.filterMap fun
    | .send a => some a
    | _ => none

def received (ops : List (ChannelOp A)) : List A :=
  ops.filterMap fun
    | .recv a => some a
    | _ => none

theorem send_items {c d : Channel A n} {a : A} (h : c.send a = some d) :
    c.closed = false ∧ d.closed = false ∧ d.items = c.items ++ [a] := by
  rw [send] at h
  split at h
  · rename_i hroom
    cases h
    exact ⟨hroom.1, rfl, rfl⟩
  · cases h

theorem recv_items {c d : Channel A n} {a : A} (h : c.recv = some (a, d)) :
    c.closed = false ∧ d.closed = false ∧ c.items = a :: d.items := by
  rw [recv] at h
  split at h
  · cases h
  · rename_i hitems
    cases h
    refine ⟨?_, rfl, hitems⟩
    by_contra hclosed
    rw [c.dropped (by simpa using hclosed)] at hitems
    cases hitems

/-- What was sent was received, in this order, or is still in the channel. -/
theorem ledger {c d : Channel A n} {ops : List (ChannelOp A)} (h : Run Step c ops d) (hd : d.closed = false) :
    c.items ++ sent ops = received ops ++ d.items := by
  induction h with
  | nil => simp [sent, received]
  | snoc _ hr ih =>
    rename_i ops u o v _
    rw [sent, received, List.filterMap_append, List.filterMap_append, ← sent, ← received]
    cases o with
    | send a =>
      obtain ⟨hu, -, hitems⟩ := send_items hr
      rw [hitems, ← List.append_assoc, ih hu]
      simp
    | recv a =>
      obtain ⟨hu, -, hitems⟩ := recv_items hr
      have hnext : c.items ++ sent ops = received ops ++ [a] ++ v.items := by
        rw [ih hu, hitems]
        simp
      simpa using hnext
    | close =>
      cases hr
      cases hd

/-- What was received was sent, in this order, also where the receiver left. -/
theorem received_prefix {c d : Channel A n} {ops : List (ChannelOp A)} (h : Run Step c ops d) :
    received ops <+: c.items ++ sent ops := by
  induction h with
  | nil => simp [received]
  | snoc h hr ih =>
    rename_i ops u o v
    rw [sent, received, List.filterMap_append, List.filterMap_append, ← sent, ← received]
    cases o with
    | send a => simpa [← List.append_assoc] using ih.trans (List.prefix_append _ [a])
    | recv a =>
      obtain ⟨hu, -, hitems⟩ := recv_items hr
      have hnext : received ops ++ [a] <+: c.items ++ sent ops := by
        rw [ledger h hu, hitems]
        exact ⟨v.items, by simp⟩
      simpa using hnext
    | close => simpa using ih

end Channel

end OV
