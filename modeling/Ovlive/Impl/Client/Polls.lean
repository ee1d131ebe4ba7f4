import Ovlive.Framework.Run

/-!
# A poll effect (`apps/web/app/routes/home.tsx`, `apps/mobile/hooks/useMapApp.ts`)

The effects that poll a vehicle's detail and a stop's departure board have one
shape, and differ in what they ask for and how often. This is one of them from
its run, which has cleared what was shown and made the first poll, to its
cleanup; the timer may fire and requests may be served, answered and fail in any
order. `answered` is kept for the statements: the code has only what it shows.
-/

namespace OV.Impl.Client

/-- A poll, from its request on: what the server made of it, and as its how-manieth
answer, until it arrives or fails. -/
inductive Poll (D : Type)
  | asked
  | served (stamp : Nat) (data : D)
  | settled

/-- Whether a poll is neither answered nor failed. -/
def Poll.pending {D : Type} : Poll D → Bool
  | .settled => false
  | _ => true

/-- An answer that is shown, and the poll it is of. -/
structure Shown (D : Type) where
  poll : Nat
  stamp : Nat
  data : D

/-- What makes the next poll: `setInterval` (web), or a `setTimeout` once the one
before is answered or has failed (app). -/
inductive PollTimer
  | interval
  | chained
  deriving DecidableEq

/-- An effect and the server. -/
structure PollEffect (D : Type) where
  alive : Bool := true
  /-- In the order they were made; the first is the one of the effect itself. -/
  polls : List (Poll D) := [.asked]
  shown : Option (Shown D) := none
  /-- What the server would answer now. -/
  server : D
  /-- What it has answered. -/
  made : List D := []
  /-- The polls whose answer has arrived. -/
  answered : List Nat := []

inductive PollEvent (D : Type)
  | tick
  /-- The server learns something: its `last_update` does not decrease. -/
  | advance (d : D)
  | serve (n : Nat)
  | arrive (n : Nat)
  | fail (n : Nat)
  | cleanup

namespace PollEffect

variable {D : Type}

/-- The state after an event, where it can happen. -/
def step (timer : PollTimer) (lastUpdate : D → Int) (s : PollEffect D) : PollEvent D → Option (PollEffect D)
  | .tick =>
    if s.alive && (timer = .interval || s.polls.all fun p => !p.pending) then
      some { s with polls := s.polls ++ [.asked] }
    else none
  | .advance d => if lastUpdate s.server ≤ lastUpdate d then some { s with server := d } else none
  | .serve n =>
    match s.polls[n]? with
    | some .asked => some { s with polls := s.polls.set n (.served s.made.length s.server), made := s.made ++ [s.server] }
    | _ => none
  | .arrive n =>
    match s.polls[n]? with
    | some (.served stamp data) =>
      some { s with
        polls := s.polls.set n .settled
        shown := if s.alive then some { poll := n, stamp := stamp, data := data } else s.shown
        answered := s.answered ++ [n] }
    | _ => none
  | .fail n =>
    match s.polls[n]? with
    | some p =>
      if p.pending then
        some { s with
          polls := s.polls.set n .settled
          -- `initial && alive && setDetail(null)`
          shown := if n = 0 && s.alive then none else s.shown }
      else none
    | none => none
  | .cleanup => some { s with alive := false }

/-- The steps of an effect. -/
def Step (timer : PollTimer) (lastUpdate : D → Int) (s : PollEffect D) (e : PollEvent D) (t : PollEffect D) : Prop :=
  s.step timer lastUpdate e = some t

end PollEffect

end OV.Impl.Client
