import Ovlive.Framework.Durable
import Ovlive.Impl.Ingest
import Ovlive.Impl.Persist.Snapshot

/-!
# Restarts (`crates/server/src/main.rs`)

What the tick loop and the upkeep of the delay curves save, and what `main`
restores of it: the live trips and the delay curves, each in a file of its
own. A process may end at any time, and the next one starts with the files as
they are. A snapshot is taken at once.
-/

namespace OV.Impl

/-- `all_trips`. -/
def LiveState.allTrips (s : LiveState) : List LiveTrip := Map.values s.trips

/-- `load`. -/
def LiveState.load (s : LiveState) (trips : List LiveTrip) : LiveState := trips.foldl LiveState.put s

structure RestartConfig where
  staleTripSecs : Int
  trainDelayPruneSecs : Int
  zmqNsEnabled : Bool
  zmqNsRitEnabled : Bool

/-- Whether delay curves are received, kept and restored. -/
def RestartConfig.curves (cfg : RestartConfig) : Bool := cfg.zmqNsEnabled && cfg.zmqNsRitEnabled

/-- `RT_SNAP` and `TRAIN_SNAP`. -/
structure SnapFiles where
  trips : Stored (List LiveTrip) := .absent
  curves : Stored TrainDelaySnapshot := .absent

/-- What is restored of the delay curves. -/
def SnapFiles.trainDelays (files : SnapFiles) (cfg : RestartConfig) (now : Instant) : TrainDelays :=
  if cfg.curves then
    match files.curves.loaded with
    | some snap => (({} : TrainDelays).restore snap).prune (now - cfg.trainDelayPruneSecs * nanos)
    | none => {}
  else {}

/-- What is restored of the live trips. -/
def SnapFiles.live (files : SnapFiles) (cfg : RestartConfig) (delays : TrainDelays) (now : Instant) : LiveState :=
  let live := (LiveState.new cfg.staleTripSecs).withTrainDelays delays
  match files.trips.loaded with
  | some trips => ((live.load trips).pruneStale now).1
  | none => live

/-- The server `main` starts, with the times at which it prunes the curves and the trips. -/
def SnapFiles.boot (files : SnapFiles) (cfg : RestartConfig) (gtfs : GtfsService) (pruned swept : Instant) : Server where
  live := files.live cfg (files.trainDelays cfg pruned) swept
  gtfs := gtfs

structure Machine where
  files : SnapFiles
  server : Server

inductive MachineAct
  /-- A task of the server acts. -/
  | act (a : ServerAction)
  /-- The tick loop saves the live trips, perhaps with a fault. -/
  | saveTrips (fault : Option String)
  /-- The upkeep task saves the delay curves. -/
  | saveCurves (fault : Option String)
  /-- The process ends, and another starts. -/
  | restart (gtfs : GtfsService) (pruned swept : Instant)

/-- The actions of the tasks that run: curves are restored at boot only, and
revised where they are received. -/
def ServerAction.runs (cfg : RestartConfig) : ServerAction → Bool
  | .restore _ => false
  | .rit _ _ | .upkeep _ => cfg.curves
  | _ => true

namespace Machine

variable [Platform]

def step (cfg : RestartConfig) (m : Machine) : MachineAct → Option Machine
  | .act a => if a.runs cfg then some { m with server := m.server.act a } else none
  | .saveTrips fault =>
    some { m with files := { m.files with trips := (m.files.trips.save fault m.server.live.allTrips).1 } }
  | .saveCurves fault => do
    guard cfg.curves
    let delays ← m.server.live.trainDelays
    some { m with files := { m.files with curves := (m.files.curves.save fault delays.snapshot).1 } }
  | .restart gtfs pruned swept => some { m with server := m.files.boot cfg gtfs pruned swept }

/-- What happens, and the server it happens to. -/
structure Did where
  act : MachineAct
  saw : Server

def Step (cfg : RestartConfig) (m : Machine) (d : Did) (n : Machine) : Prop :=
  d.saw = m.server ∧ m.step cfg d.act = some n

/-- The first process. -/
def start (cfg : RestartConfig) (files : SnapFiles) (gtfs : GtfsService) (pruned swept : Instant) : Machine where
  files := files
  server := files.boot cfg gtfs pruned swept

end Machine

end OV.Impl
