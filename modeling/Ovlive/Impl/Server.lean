import Mathlib.Logic.Function.Basic
import Ovlive.Impl.Gtfs.Service

/-!
# Background tasks (`crates/server/src/main.rs`)

The loop of `spawn_gtfs_refresh`: sleep until the next check is due, check, and
start over. An iteration is given by how long the check and what follows it
take. The loop of `spawn_stop_index_refresh` is one like it, that rebuilds the
boards for the date it wakes on.

The rebuilds of the stop indexes, of that loop after a swap and of the loop of
`spawn_stop_index_refresh` after midnight: each loop waits for its own task, and
the tasks of the two run on their own, so a task reads the feed, builds and
publishes with steps of the other loop in between.
-/

namespace OV.Impl

/-- The refresh loop between two iterations: when its checks started, and the
time. -/
structure RefreshLoop where
  checks : List Instant
  now : Instant

namespace RefreshLoop

/-- The loop as it is spawned. -/
def start (now : Instant) : RefreshLoop where
  checks := []
  now := now

/-- One iteration: the sleep, and a check that takes `took`. -/
def iterate (hour : Nat) (tz : Tz) (s : RefreshLoop) (took : Int) : RefreshLoop :=
  let check := s.now + secondsUntilNext s.now hour tz * nanos
  { checks := s.checks ++ [check], now := check + took }

/-- The steps of the loop. -/
def Step (hour : Nat) (tz : Tz) (s : RefreshLoop) (took : Int) (t : RefreshLoop) : Prop :=
  0 ≤ took ∧ s.iterate hour tz took = t

end RefreshLoop

/-! ## The boards of a new day -/

/-- The loop that rebuilds the boards between two iterations: the service, when
the loop was spawned, and the time. -/
structure StopIndexLoop where
  gtfs : GtfsService
  since : Instant
  now : Instant

namespace StopIndexLoop

/-- The loop as it is spawned. -/
def start (gtfs : GtfsService) (now : Instant) : StopIndexLoop where
  gtfs := gtfs
  since := now
  now := now

/-- One iteration: the sleep until a minute past midnight, and a rebuild for the
date it ends on, that takes `took`. -/
def iterate (sort : CallSort) (tz : Tz) (s : StopIndexLoop) (took : Int) : StopIndexLoop :=
  let woken := s.now + (secondsUntilNext s.now 0 tz + 60) * nanos
  { gtfs := s.gtfs.rebuildStopIndexes sort (serviceDate woken tz), since := s.since, now := woken + took }

/-- The steps of the loop. -/
def Step (sort : CallSort) (tz : Tz) (s : StopIndexLoop) (took : Int) (t : StopIndexLoop) : Prop :=
  0 ≤ took ∧ s.iterate sort tz took = t

end StopIndexLoop

/-! ## Rebuilds -/

/-- Where a loop stands: nothing under way; a feed swapped in and its rebuild
due; a task asked for a date; a task that has read the feed. -/
inductive Rebuild
  | idle
  | due
  | asked (date : NaiveDate)
  | building (store : GtfsStore) (date : NaiveDate)

inductive Loop
  | refresh | midnight
  deriving DecidableEq

def Loop.other : Loop → Loop
  | .refresh => .midnight
  | .midnight => .refresh

/-- The service, and where the two loops stand. -/
structure Rebuilds where
  gtfs : GtfsService
  task : Loop → Rebuild := fun _ => .idle

inductive RebuildAction
  /-- The refresh loop swaps in a feed. -/
  | swap (store : GtfsStore)
  /-- A loop asks for a rebuild for today's date. -/
  | ask (loop : Loop) (date : NaiveDate)
  /-- Its task reads the feed. -/
  | read (loop : Loop)
  /-- Its task publishes what it built. -/
  | publish (loop : Loop)

namespace Rebuilds

def enter (s : Rebuilds) (loop : Loop) (r : Rebuild) : Rebuilds := { s with task := Function.update s.task loop r }

/-- One step of one of the loops, where it can be taken. -/
def step (sort : CallSort) (s : Rebuilds) : RebuildAction → Option Rebuilds
  | .swap store =>
    match s.task .refresh with
    | .idle => some ({ s with gtfs := s.gtfs.swap store }.enter .refresh .due)
    | _ => none
  | .ask .refresh date =>
    match s.task .refresh with
    | .due => some (s.enter .refresh (.asked date))
    | _ => none
  | .ask .midnight date =>
    match s.task .midnight with
    | .idle => some (s.enter .midnight (.asked date))
    | _ => none
  | .read loop =>
    match s.task loop with
    | .asked date =>
      match s.gtfs.store with
      | some store => some (s.enter loop (.building store date))
      | none => some (s.enter loop .idle)
    | _ => none
  | .publish loop =>
    match s.task loop with
    | .building store date =>
      some ({ s with gtfs := { s.gtfs with stops := some (StopIndexes.build sort store date) } }.enter loop .idle)
    | _ => none

end Rebuilds

end OV.Impl
