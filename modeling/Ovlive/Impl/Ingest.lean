import Ovlive.Impl.Gtfs.Service

/-!
# Ingestion (`crates/server/src/main.rs`)

The tasks that write the live state and what it is enriched from: the applier
of position events, the tick loop's sweep, the receiver of RitInfo revisions,
the upkeep of the delay curves, their restore at boot, and the swap of a feed.
They run on their own and meet only in the shared stores, so a run of the
server is any sequence of their actions.
-/

namespace OV.Impl

/-- The stores the tasks share. The delay curves are those attached to the live
state. -/
structure Server where
  live : LiveState
  gtfs : GtfsService := {}

inductive ServerAction
  /-- The applier takes a position event. -/
  | position (ev : PosEvent)
  /-- The tick loop prunes stale trips. -/
  | sweep (now : Instant)
  /-- A RitInfo revision arrives. -/
  | rit (u : TrainUpdate) (now : Instant)
  /-- The upkeep task prunes the curves not revised since a cutoff. -/
  | upkeep (cutoff : Instant)
  | restore (snap : TrainDelaySnapshot)
  | swap (store : GtfsStore)

namespace Server

/-- The server as it is started, with delay curves attached or without. -/
def start (staleAfterSecs : Int) (delays : Option TrainDelays) (gtfs : GtfsService) : Server where
  live := { LiveState.new staleAfterSecs with trainDelays := delays }
  gtfs := gtfs

/-- Change the delay curves, if any are attached. -/
def revise (f : TrainDelays → TrainDelays) (s : Server) : Server :=
  { s with live := { s.live with trainDelays := s.live.trainDelays.map f } }

/-- The live trip of a vehicle. -/
def trip (s : Server) (v : String) : Option LiveTrip := s.live.trips.lookup v

/-- The delay curve kept for a train number. -/
def curve (s : Server) (number : String) : Option TrainDelay := s.live.trainDelays.bind fun d => d.get number

variable [Platform]

def act (s : Server) : ServerAction → Server
  | .position ev => { s with live := (s.live.apply ev s.gtfs.enricher).1 }
  | .sweep now => { s with live := (s.live.pruneStale now).1 }
  | .rit u now => s.revise fun d => d.apply u now
  | .upkeep cutoff => s.revise fun d => d.prune cutoff
  | .restore snap => s.revise fun d => d.restore snap
  | .swap store => { s with gtfs := s.gtfs.swap store }

/-- The steps of the server. -/
def Step (s : Server) (a : ServerAction) (t : Server) : Prop := s.act a = t

end Server

end OV.Impl
