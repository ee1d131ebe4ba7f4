import Ovlive.Impl.Api.Convert

/-!
# The stream's server (`crates/api/src/ws.rs`)

A connection's subscription, what a client message does to it, and the update
of a tick. `buildUpdate` visits the trips in view and then the pinned ones
that were not, and reports what it had sent but did not visit as left.
-/

namespace OV.Impl

/-- What was last sent for a vehicle. -/
structure Sent where
  lat : Num
  lon : Num
  delay : Int
  atStop : Bool
  speedKmh : Option Num
  deriving DecidableEq

structure Subscription where
  bbox : BBox
  filters : Filters
  pinned : List String
  sent : Map String Sent
  forceSnapshot : Bool

/-- `!=` on optional numbers: NaN differs from itself. -/
def optNe : Option Num → Option Num → Bool
  | some a, some b => a.ne b
  | none, none => false
  | _, _ => true

/-- `changed`: a vehicle is worth re-sending. Speed counts in whole km/h. -/
def changed (prev now : Sent) : Bool :=
  (Num.fin (1 / 1000000)).lt (now.lat.sub prev.lat).abs ||
    (Num.fin (1 / 1000000)).lt (now.lon.sub prev.lon).abs ||
    now.delay ≠ prev.delay ||
    now.atStop ≠ prev.atStop ||
    optNe (now.speedKmh.map Num.round) (prev.speedKmh.map Num.round)

def sentOf (t : LiveTrip) : Sent where
  lat := t.lat
  lon := t.lon
  delay := t.delaySeconds
  atStop := t.atStop
  speedKmh := t.speedKmh

/-- `apply_client_msg`: the subscription after a message, and the reply. -/
def applyClientMsg (msg : ClientMessage) (sub : Option Subscription) : Option Subscription × Option ServerMessage :=
  match msg.payload with
  | none => (sub, none)
  | some (.subscribe s) =>
    match s.viewport with
    | none => (sub, none)
    | some vp =>
      (some { bbox := pbViewportToBBox vp
              filters := (s.filters.map pbFiltersToCore).getD {}
              pinned := s.pinned
              sent := ∅
              forceSnapshot := true }, none)
  | some (.updateViewport u) =>
    match sub, u.viewport with
    | some s, some vp =>
      (some { s with
              bbox := pbViewportToBBox vp
              filters := (u.filters.map pbFiltersToCore).getD s.filters
              pinned := u.pinned }, none)
    | sub, _ => (sub, none)
  | some (.ping _) => (sub, some .pong)

/-- What `build_update` has collected. -/
structure Diff where
  entered : List VehicleState := []
  moved : List VehicleMove := []
  present : List String := []
  sent : Map String Sent

/-- One trip of either loop of `build_update`. -/
def Diff.visit (d : Diff) (t : LiveTrip) : Diff :=
  let now := sentOf t
  let d := { d with present := t.id :: d.present }
  match d.sent.lookup t.id with
  | none => { d with entered := d.entered ++ [toState t], sent := d.sent.insert t.id now }
  | some prev =>
    if changed prev now then { d with moved := d.moved ++ [toMove t], sent := d.sent.insert t.id now } else d

/-- One id of the loop over the pinned vehicles. -/
def Diff.visitPinned (idx : VehicleIndex) (d : Diff) (id : String) : Diff :=
  if id ∈ d.present then d
  else match idx.get id with
    | some t => d.visit t
    | none => d

/-- `build_update`: the subscription after a tick, and the frame to send. -/
def Subscription.buildUpdate (sub : Subscription) (idx : VehicleIndex) : Subscription × Option Update :=
  let hits := idx.query sub.bbox sub.filters
  let d := hits.foldl Diff.visit { sent := sub.sent }
  let d := sub.pinned.foldl (Diff.visitPinned idx) d
  let left := d.sent.keys.filter fun id => id ∉ d.present
  let sent := Map.eraseAll left d.sent
  let isSnapshot := sub.forceSnapshot
  ({ sub with sent := sent, forceSnapshot := false },
    if !isSnapshot && d.entered.isEmpty && d.moved.isEmpty && left.isEmpty then none
    else some { entered := d.entered, moved := d.moved, left := left, isSnapshot := isSnapshot })

end OV.Impl
