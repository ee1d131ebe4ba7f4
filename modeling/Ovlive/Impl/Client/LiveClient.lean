import Ovlive.Framework.Assoc
import Ovlive.Impl.Client.Types

/-!
# The streaming client (`packages/api-types/src/ws.ts`)

`LiveClient` with the platform objects it holds: the sockets it created, each
with its ready state and what was sent on it, and the pending timers. The
handlers run on the events of a socket as the WebSocket interface fires them:
`open` when the ready state becomes open, `message` while it is open, and `close`
once, when it becomes closed. A message is also taken while the socket is closing,
which not every platform rules out. The methods and handlers are those of the
class, under its names. `LiveClient.step` runs them in any order, with the
events of every socket the client ever created as late as may be.
-/

namespace OV.Impl.Client

/-- `WebSocket.readyState`. -/
inductive ReadyState
  | connecting | open_ | closing | closed
  deriving DecidableEq

/-- A socket, as the browser keeps it, with the messages sent on it so far. -/
structure Socket where
  readyState : ReadyState := .closed
  sent : List ClientMessage := []

inductive ConnStatus
  | connecting | open_ | closed
  deriving DecidableEq

/-- What a timer does when it fires. -/
inductive TimerKind
  | retry
  | idle
  | grace (ws : Nat)
  deriving DecidableEq

def HEARTBEAT_GRACE_MS : Nat := 10000
def RETRY_MAX_MS : Nat := 30000

structure LiveClient where
  heartbeatMs : Nat := 0
  ws : Option Nat := none
  view : Option ClientView := none
  pinned : List String := []
  closedByUser : Bool := false
  retry : Nat := 500
  retryTimer : Option Nat := none
  heartbeatTimer : Option Nat := none
  status : Option ConnStatus := none
  /-- How many sockets were created; the socket with number `n` is `socket n`. -/
  created : Nat := 0
  socket : Nat → Socket := fun _ => {}
  /-- The pending timers, by handle, each with its delay in milliseconds. -/
  timers : Map Nat (TimerKind × Nat) := ∅
  nextTimer : Nat := 1

namespace LiveClient

/-! ## The platform -/

def setSocket (c : LiveClient) (i : Nat) (s : Socket) : LiveClient :=
  { c with socket := Function.update c.socket i s }

/-- A socket goes to another ready state. -/
def setReady (c : LiveClient) (i : Nat) (r : ReadyState) : LiveClient :=
  c.setSocket i { c.socket i with readyState := r }

/-- `WebSocket.send`: only an open socket transmits. -/
def wsSend (c : LiveClient) (i : Nat) (p : Payload) : LiveClient :=
  if (c.socket i).readyState = .open_ then
    c.setSocket i { c.socket i with sent := (c.socket i).sent ++ [⟨some p⟩] }
  else c

/-- `WebSocket.close`. -/
def wsClose (c : LiveClient) (i : Nat) : LiveClient :=
  if (c.socket i).readyState = .connecting ∨ (c.socket i).readyState = .open_ then
    c.setReady i .closing
  else c

def clearTimeout (c : LiveClient) (h : Option Nat) : LiveClient :=
  match h with
  | some h => { c with timers := c.timers.erase h }
  | none => c

/-- `setTimeout`, with the handle it returns. -/
def setTimeout (c : LiveClient) (k : TimerKind) (ms : Nat) : LiveClient × Nat :=
  ({ c with timers := c.timers.insert c.nextTimer (k, ms), nextTimer := c.nextTimer + 1 }, c.nextTimer)

/-! ## The class -/

def clearHeartbeat (c : LiveClient) : LiveClient :=
  { c.clearTimeout c.heartbeatTimer with heartbeatTimer := none }

def armHeartbeat (c : LiveClient) : LiveClient :=
  let c := c.clearHeartbeat
  if c.heartbeatMs = 0 then c
  else
    let (c, h) := c.setTimeout .idle c.heartbeatMs
    { c with heartbeatTimer := some h }

def «open» (c : LiveClient) : LiveClient :=
  let c := { c with status := some .connecting }
  let c := c.setSocket c.created { readyState := .connecting }
  { c with ws := some c.created, created := c.created + 1 }

def connect (c : LiveClient) (v : ClientView) : LiveClient :=
  { c with view := some v, closedByUser := false }.open

/-- `onopen` of socket `i`. -/
def onopen (c : LiveClient) (i : Nat) : LiveClient :=
  let c := { c with retry := 500 }
  let c := c.armHeartbeat
  let c := { c with status := some .open_ }
  match c.view with
  | some v => c.wsSend i (.subscribe (viewportMsg v c.pinned))
  | none => c

/-- `onmessage`: the update for `onUpdate`, if the message is one. -/
def onmessage (c : LiveClient) (m : ServerMessage) : LiveClient × Option NormalizedUpdate :=
  (c.armHeartbeat, match m with
    | .update u => some (normalize u)
    | .pong => none)

/-- `onclose` of socket `i`. -/
def onclose (c : LiveClient) (i : Nat) : LiveClient :=
  let c := c.clearHeartbeat
  if c.ws ≠ some i then c
  else
    let c := { c with status := some .closed }
    if c.closedByUser then c
    else
      let (c, h) := c.setTimeout .retry c.retry
      { c with retryTimer := some h, retry := Nat.min (c.retry * 2) RETRY_MAX_MS }

/-- `onerror` of socket `i`. -/
def onerror (c : LiveClient) (i : Nat) : LiveClient := c.wsClose i

def send (c : LiveClient) : LiveClient :=
  match c.view, c.ws with
  | some v, some i => c.wsSend i (.updateViewport (viewportMsg v c.pinned))
  | _, _ => c

def update (c : LiveClient) (v : ClientView) : LiveClient := { c with view := some v }.send

def setPinned (c : LiveClient) (ids : List String) : LiveClient := { c with pinned := ids }.send

def suspend (c : LiveClient) : LiveClient :=
  let c := { c.clearTimeout c.retryTimer with retryTimer := none }
  let c := c.clearHeartbeat
  let c := { c with closedByUser := true }
  let ws := c.ws
  let c := { c with ws := none }
  let c := match ws with
    | some i => c.wsClose i
    | none => c
  { c with status := some .closed }

def resume (c : LiveClient) : LiveClient :=
  if c.ws.isSome ∨ c.view.isNone then c
  else { c with closedByUser := false, retry := 500 }.open

def close (c : LiveClient) : LiveClient := c.suspend

/-- A timer fires. -/
def fire (c : LiveClient) (k : TimerKind) : LiveClient :=
  match k with
  | .retry => c.open
  | .idle =>
    match c.ws with
    | some i =>
      if (c.socket i).readyState ≠ .open_ then c
      else
        let c := c.wsSend i (.ping true)
        let (c, h) := c.setTimeout (.grace i) HEARTBEAT_GRACE_MS
        { c with heartbeatTimer := some h }
    | none => c
  | .grace i => c.wsClose i

end LiveClient

/-! ## Runs -/

/-- What happens to a client: a call of a method, an event of one of its
sockets, or a timer that fires. -/
inductive ClientAction
  | update (v : ClientView)
  | setPinned (ids : List String)
  | suspend
  | resume
  | close
  | opened (i : Nat)
  | message (i : Nat) (m : ServerMessage)
  | failed (i : Nat)
  | closed (i : Nat)
  | timer (h : Nat)

namespace LiveClient

/-- A client that just called `connect`. -/
def start (heartbeatMs : Nat) (pinned : List String) (v : ClientView) : LiveClient :=
  ({ heartbeatMs := heartbeatMs, pinned := pinned } : LiveClient).connect v

/-- One step, where it can be taken. A message may still arrive from a socket
that is closing. -/
def step (c : LiveClient) : ClientAction → Option LiveClient
  | .update v => some (c.update v)
  | .setPinned ids => some (c.setPinned ids)
  | .suspend => some c.suspend
  | .resume => some c.resume
  | .close => some c.close
  | .opened i => if (c.socket i).readyState = .connecting then some ((c.setReady i .open_).onopen i) else none
  | .message i m =>
    if (c.socket i).readyState = .open_ ∨ (c.socket i).readyState = .closing then some (c.onmessage m).1 else none
  | .failed i => if (c.socket i).readyState ≠ .closed then some (c.onerror i) else none
  | .closed i => if (c.socket i).readyState ≠ .closed then some ((c.setReady i .closed).onclose i) else none
  | .timer h =>
    match c.timers.lookup h with
    | some (k, _) => some ({ c with timers := c.timers.erase h }.fire k)
    | none => none

/-- The steps of a client. -/
def Step (c : LiveClient) (a : ClientAction) (d : LiveClient) : Prop := c.step a = some d

end LiveClient

end OV.Impl.Client
