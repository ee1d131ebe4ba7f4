import Ovlive.Impl.Api.Ws
import Ovlive.Impl.Client.LiveClient
import Ovlive.Impl.Client.VehicleStore

/-!
# The stream, end to end

A `LiveClient` feeding a `VehicleStore`, and for each socket it ever opened the
server task at the other end (`run` in `crates/api/src/ws.rs`). Each direction
of a socket is an ordered sequence with a cursor: what the client sent, of
which the server processed `received`, and what the server's loop did (`log`),
of which the client was handed `delivered`. A tick that says nothing is in the
log too: its delivery is the passing of the silence.

`Sys.step` is one step of any party. Steps interleave freely: a socket can
fail or close at any time, a server can go on ticking at the end of a socket
its client dropped, and a tick can read any index. A message event fires only
on a socket whose ready state is open, as the WebSocket interface has it.

`World` adds the live state: its ticks read the index built from the trips of
the moment. `Session` is the server's side of one connection, without the socket.
-/

namespace OV.Impl

open Client

/-- A tick of a connection: how many messages were processed before it, the
subscription it found, and the index it read. -/
structure Tick where
  received : Nat
  before : Subscription
  idx : VehicleIndex

namespace Tick

/-- The subscription a tick leaves. -/
def after (t : Tick) : Subscription := (t.before.buildUpdate t.idx).1

/-- The frame a tick sends, unless it has nothing to say. -/
def frame (t : Tick) : Option Update := (t.before.buildUpdate t.idx).2

end Tick

/-- What the loop of a connection did: a reply, or a tick. -/
inductive Item
  | reply (m : ServerMessage)
  | tick (t : Tick)

namespace Item

def message : Item → Option ServerMessage
  | reply m => some m
  | tick t => t.frame.map .update

def tick? : Item → Option Tick
  | reply _ => none
  | tick t => some t

end Item

/-- The server task of a socket. -/
structure Peer where
  received : Nat := 0
  sub : Option Subscription := none
  log : List Item := []
  delivered : Nat := 0

namespace Peer

/-- The task processes a client message. -/
def serve (p : Peer) (m : ClientMessage) : Peer :=
  { p with
    received := p.received + 1
    sub := (applyClientMsg m p.sub).1
    log := p.log ++ ((applyClientMsg m p.sub).2.map Item.reply).toList }

/-- The task's ticker fires; without a subscription nothing happens. -/
def tick (p : Peer) (idx : VehicleIndex) : Peer :=
  match p.sub with
  | none => p
  | some sub =>
    { p with
      sub := some (sub.buildUpdate idx).1
      log := p.log ++ [.tick { received := p.received, before := sub, idx := idx }] }

end Peer

structure Sys where
  client : LiveClient
  store : VehicleStore
  peer : Nat → Peer := fun _ => {}
  /-- The events the store raised so far, each with the item it was processing. -/
  raised : List (Item × StoreEvent) := []

inductive Action
  /-- `LiveClient.update`, `setPinned`, `suspend` and `resume`. -/
  | update (v : ClientView)
  | setPinned (ids : List String)
  | suspend
  | resume
  /-- The screen assigns `VehicleStore.selectedIds`. -/
  | select (ids : List String)
  /-- The events of a socket, and a timer that fires. -/
  | opened (i : Nat)
  | failed (i : Nat)
  | closed (i : Nat)
  | timer (h : Nat)
  /-- The server task of a socket processes a message, or ticks on an index. -/
  | serve (i : Nat)
  | tick (i : Nat) (idx : VehicleIndex)
  /-- The client is handed the next item of a socket. -/
  | deliver (i : Nat)

namespace Sys

variable [Platform]

/-- A client that just called `connect`, at a store without vehicles. -/
def start (heartbeatMs : Nat) (pinned selected : List String) (v : ClientView) : Sys where
  client := ({ heartbeatMs := heartbeatMs, pinned := pinned } : LiveClient).connect v
  store := { selectedIds := selected }

def setPeer (s : Sys) (i : Nat) (p : Peer) : Sys := { s with peer := Function.update s.peer i p }

/-- `onmessage`, with the update handed to the store. -/
def receive (s : Sys) (x : Item) : Sys :=
  match x.message with
  | none => s
  | some m =>
    match s.client.onmessage m with
    | (c, none) => { s with client := c }
    | (c, some u) =>
      { s with
        client := c
        store := (s.store.apply u).1
        raised := s.raised ++ (s.store.apply u).2.map fun e => (x, e) }

def step (s : Sys) : Action → Option Sys
  | .update v => some { s with client := s.client.update v }
  | .setPinned ids => some { s with client := s.client.setPinned ids }
  | .suspend => some { s with client := s.client.suspend }
  | .resume => some { s with client := s.client.resume }
  | .select ids => some { s with store := { s.store with selectedIds := ids } }
  | .opened i =>
    if (s.client.socket i).readyState = .connecting then
      some { s with client := (s.client.setReady i .open_).onopen i }
    else none
  | .failed i =>
    if (s.client.socket i).readyState ≠ .closed then some { s with client := s.client.onerror i } else none
  | .closed i =>
    if (s.client.socket i).readyState ≠ .closed then
      some { s with client := (s.client.setReady i .closed).onclose i }
    else none
  | .timer h =>
    match s.client.timers.lookup h with
    | some (k, _) => some { s with client := { s.client with timers := s.client.timers.erase h }.fire k }
    | none => none
  | .serve i =>
    match (s.client.socket i).sent[(s.peer i).received]? with
    | some m => some (s.setPeer i ((s.peer i).serve m))
    | none => none
  | .tick i idx => some (s.setPeer i ((s.peer i).tick idx))
  | .deliver i =>
    if (s.client.socket i).readyState = .open_ then
      match (s.peer i).log[(s.peer i).delivered]? with
      | some x => some ((s.setPeer i { s.peer i with delivered := (s.peer i).delivered + 1 }).receive x)
      | none => none
    else none

/-- The steps of the system. -/
def Step (s : Sys) (a : Action) (t : Sys) : Prop := s.step a = some t

end Sys

/-- The stream, with the live state behind it. -/
structure World where
  live : LiveState
  sys : Sys

inductive WorldAction
  /-- An action on the live state, with the timetable of the moment. -/
  | live (a : LiveAction) (enricher : Enricher)
  /-- The server task of a socket ticks on the index of the moment. -/
  | tick (i : Nat)
  /-- A step of the stream other than a tick. -/
  | act (a : Action)

namespace World

variable [Platform]

def start (staleAfterSecs : Int) (sys : Sys) : World where
  live := LiveState.new staleAfterSecs
  sys := sys

def step (w : World) : WorldAction → Option World
  | .live a enricher => some { w with live := w.live.act enricher a }
  | .tick i => (w.sys.step (.tick i w.live.buildIndex)).map fun sys => { w with sys := sys }
  | .act (.tick _ _) => none
  | .act a => (w.sys.step a).map fun sys => { w with sys := sys }

/-- The steps of the stream and the live state together. -/
def Step (w : World) (a : WorldAction) (w' : World) : Prop := w.step a = some w'

end World

/-- The live state, and the subscription of a connection. -/
structure Session where
  live : LiveState
  sub : Option Subscription := none

inductive SessionAction
  /-- An action on the live state, with the timetable of the moment. -/
  | live (a : LiveAction) (enricher : Enricher)
  /-- A message of the client. -/
  | message (m : ClientMessage)
  /-- The ticker fires. -/
  | tick

namespace Session

variable [Platform]

def step (s : Session) : SessionAction → Session
  | .live a enricher => { s with live := s.live.act enricher a }
  | .message m => { s with sub := (applyClientMsg m s.sub).1 }
  | .tick => { s with sub := s.sub.map fun sub => (sub.buildUpdate s.live.buildIndex).1 }

omit [Platform] in
/-- The update that an action sends. -/
def frame (s : Session) : SessionAction → Option Update
  | .tick => s.sub.bind fun sub => (sub.buildUpdate s.live.buildIndex).2
  | _ => none

section

variable {s : Session} {sub : Subscription}

theorem step_tick (h : s.sub = some sub) :
    s.step .tick = { s with sub := some (sub.buildUpdate s.live.buildIndex).1 } := by
  rw [step, h, Option.map_some]

theorem step_tick_none (h : s.sub = none) : s.step .tick = s := by
  rw [step, h, Option.map_none, ← h]

omit [Platform] in
theorem frame_tick (h : s.sub = some sub) : s.frame .tick = (sub.buildUpdate s.live.buildIndex).2 := by
  rw [frame, h, Option.bind_some]

omit [Platform] in
theorem frame_tick_none (h : s.sub = none) : s.frame .tick = none := by
  rw [frame, h, Option.bind_none]

end

end Session

end OV.Impl
