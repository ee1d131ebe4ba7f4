import Ovlive.Framework.Channel
import Ovlive.Framework.Wire
import Ovlive.Impl.Ingest
import Ovlive.Impl.Realtime.Kv6
import Ovlive.Impl.Realtime.Ns
import Ovlive.Impl.Realtime.NsRit

/-!
# The streams (`crates/realtime/src/lib.rs`, with the wiring of `crates/server/src/main.rs`)

Two tasks hold a connection to a publisher each: one for KV6, one for both
envelopes of NS InfoPlus. What a message decodes to they send, one by one, on
two channels, to the applier of positions and to the receiver of RitInfo. A
connection that fails, or is silent for too long, is made again after a
backoff.

Times are nanoseconds of a monotonic clock; what the decoders take for the
time of day is read when a message is decoded. The publisher and the network
are the environment: a connection may fail or break at any time, and any
frames may arrive on it.
-/

namespace OV.Impl

open Wire

/-- `flate2`. -/
class Gzip where
  /-- `gunzip`: the text of a gzip stream. -/
  gunzip : Bytes → Option String

inductive StreamKind
  | kv6 | nsTreinposities
  deriving DecidableEq

def POSITIONS_ENVELOPE : String := "NStreinposities"

def RITINFO_ENVELOPE : String := "RIT"

/-- What the tasks are configured with. -/
structure StreamConfig where
  idleTimeoutSecs : Nat
  maxFixAgeSecs : Nat
  nsEnabled : Bool
  nsRitEnabled : Bool

/-- A second of the monotonic clock. -/
def second : Nat := 10 ^ 9

/-- What a message yields: positions, or a revision. -/
abbrev StreamItem := PosEvent ⊕ TrainUpdate

/-- The two tasks. -/
inductive Which
  | stream | infoplus
  deriving DecidableEq

section

variable [Feed] [Gzip]

/-- `decode`. -/
def StreamKind.decode (kind : StreamKind) (clock : Instant) (payload : Bytes) : List PosEvent :=
  match kind with
  | .kv6 => ((Gzip.gunzip payload).map (parseKv6 clock)).getD []
  | .nsTreinposities => []

/-- `topic.contains`: an ASCII text is in the lossy text of a frame where its bytes are in the frame. -/
def topicContains (topic : Bytes) (envelope : String) : Bool := utf8 envelope <:+: topic

/-- `chrono::Duration::from_std`, whose milliseconds are 64 bits. -/
def StreamConfig.maxFixAge (cfg : StreamConfig) : Int :=
  if cfg.maxFixAgeSecs ≤ (2 ^ 63 - 1) / 1000 then cfg.maxFixAgeSecs * nanos else 180 * nanos

/-- A message of InfoPlus, by its envelope. -/
def StreamConfig.dispatch (cfg : StreamConfig) (clock : Instant) (topic payload : Bytes) : List StreamItem :=
  match Gzip.gunzip payload with
  | none => []
  | some xml =>
    if topicContains topic POSITIONS_ENVELOPE then (parseNsTreinposities xml clock cfg.maxFixAge).map .inl
    else if topicContains topic RITINFO_ENVELOPE then if cfg.nsRitEnabled then (parseNsRit xml).toList.map .inr else []
    else []

/-- What a task sends for a message. -/
def Which.decode (w : Which) (cfg : StreamConfig) (clock : Instant) : List Bytes → List StreamItem
  -- a topic alone, or a heartbeat
  | [] | [_] => []
  | topic :: payload =>
    match w with
    | .stream => (StreamKind.kv6.decode clock payload.flatten).map .inl
    | .infoplus => cfg.dispatch clock topic payload.flatten

end

/-! ## Tasks -/

inductive StreamPhase
  | connecting
  /-- Waiting for a message, since a time. -/
  | receiving (since : Nat)
  /-- Waiting for room for an item, with more to come. -/
  | sending (item : StreamItem) (rest : List StreamItem)
  | sleeping (wakes : Nat)
  | stopped

/-- Where a task is that has these items to send. -/
def StreamPhase.after (now : Nat) : List StreamItem → StreamPhase
  | [] => .receiving now
  | item :: rest => .sending item rest

structure StreamTask where
  phase : StreamPhase := .connecting
  backoff : Nat := 1

inductive StreamAct
  | connected
  | refused
  | message (clock : Instant) (frames : List Bytes)
  | broken
  | silent
  | woke
  | send
  /-- The receiver is gone. -/
  | dropped

/-- An error: wait, and wait longer the next time. -/
def StreamTask.fail (t : StreamTask) (now : Nat) : StreamTask where
  phase := .sleeping (now + t.backoff * second)
  backoff := min (t.backoff * 2) 30

/-- `run_stream` with `connect_and_pump`, or `run_infoplus_stream` with
`pump_infoplus`: what comes of an action, and the item it sends. -/
def StreamTask.step [Feed] [Gzip] (w : Which) (cfg : StreamConfig) (t : StreamTask) (now : Nat) :
    StreamAct → Option (StreamTask × Option StreamItem)
  | .connected =>
    match t.phase with
    | .connecting => some ({ t with phase := .receiving now }, none)
    | _ => none
  | .refused =>
    match t.phase with
    | .connecting => some (t.fail now, none)
    | _ => none
  | .message clock frames =>
    match t.phase with
    | .receiving _ => some ({ t with phase := .after now (w.decode cfg clock frames) }, none)
    | _ => none
  | .broken =>
    match t.phase with
    | .receiving _ => some (t.fail now, none)
    | _ => none
  | .silent =>
    match t.phase with
    | .receiving since => if since + cfg.idleTimeoutSecs * second ≤ now then some (t.fail now, none) else none
    | _ => none
  | .woke =>
    match t.phase with
    | .sleeping wakes => if wakes ≤ now then some ({ t with phase := .connecting }, none) else none
    | _ => none
  | .send =>
    match t.phase with
    | .sending item rest => some ({ t with phase := .after now rest }, some item)
    | _ => none
  | .dropped =>
    match t.phase with
    | .sending _ _ => some ({ t with phase := .stopped }, none)
    | _ => none

/-! ## The pipeline -/

/-- The tasks, the channels between them, and the stores they write. -/
structure Pipeline where
  now : Nat := 0
  stream : StreamTask := {}
  infoplus : StreamTask
  positions : Channel PosEvent 50000 := {}
  revisions : Channel TrainUpdate 10000 := {}
  server : Server

inductive PipelineAct
  | task (w : Which) (a : StreamAct)
  /-- The applier takes a position. -/
  | apply
  /-- The receiver of RitInfo takes a revision. -/
  | revise (clock : Instant)
  /-- One of them ends. -/
  | applierEnds
  | receiverEnds
  /-- Any other task writes a store. -/
  | other (a : ServerAction)

/-- What went through a channel in an action. -/
inductive Handed
  | sent (item : StreamItem)
  | applied (ev : PosEvent)
  | revised (u : TrainUpdate)

/-- The actions of the two receivers. -/
def ServerAction.isReceived : ServerAction → Bool
  | .position _ | .rit _ _ => true
  | _ => false

namespace Pipeline

def task (s : Pipeline) : Which → StreamTask
  | .stream => s.stream
  | .infoplus => s.infoplus

def setTask (s : Pipeline) (w : Which) (t : StreamTask) : Pipeline :=
  match w with
  | .stream => { s with stream := t }
  | .infoplus => { s with infoplus := t }

/-- Send an item, where there is room for it. -/
def send (s : Pipeline) : StreamItem → Option Pipeline
  | .inl ev => (s.positions.send ev).map fun c => { s with positions := c }
  | .inr u => (s.revisions.send u).map fun c => { s with revisions := c }

/-- Whether nobody receives what a task is to send. -/
def unheard (s : Pipeline) (t : StreamTask) : Bool :=
  match t.phase with
  | .sending (.inl _) _ => s.positions.closed
  | .sending (.inr _) _ => s.revisions.closed
  | _ => false

variable [Feed] [Gzip] [Platform]

def act (cfg : StreamConfig) (s : Pipeline) : PipelineAct → Option (Pipeline × Option Handed)
  | .task w a => do
    if a matches .dropped && !s.unheard (s.task w) then none
    else
      let (t, item) ← (s.task w).step w cfg s.now a
      match item with
      | none => some (s.setTask w t, none)
      | some item => ((s.setTask w t).send item).map fun s => (s, some (.sent item))
  | .apply => do
    let (ev, c) ← s.positions.recv
    some ({ s with positions := c, server := s.server.act (.position ev) }, some (.applied ev))
  | .revise clock => do
    let (u, c) ← s.revisions.recv
    some ({ s with revisions := c, server := s.server.act (.rit u clock) }, some (.revised u))
  | .applierEnds => some ({ s with positions := .close }, none)
  | .receiverEnds => some ({ s with revisions := .close }, none)
  | .other a => if a.isReceived then none else some ({ s with server := s.server.act a }, none)

/-- Something happens, at a time. -/
def step (cfg : StreamConfig) (s : Pipeline) (now : Nat) (a : PipelineAct) : Option (Pipeline × Option Handed) :=
  if s.now ≤ now then act cfg { s with now := now } a else none

/-- What happens, when, and what is handed over. -/
structure Did where
  at_ : Nat
  act : PipelineAct
  handed : Option Handed

def Step (cfg : StreamConfig) (s : Pipeline) (d : Did) (t : Pipeline) : Prop :=
  step cfg s d.at_ d.act = some (t, d.handed)

/-- The tasks as they are spawned. -/
def start (cfg : StreamConfig) (server : Server) : Pipeline where
  infoplus := { phase := if cfg.nsEnabled then .connecting else .stopped }
  server := server

end Pipeline

end OV.Impl
