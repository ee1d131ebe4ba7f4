import Ovlive.Framework.Run

/-!
# The trip plan of the active vehicle (`apps/web/app/routes/home.tsx`)

Three effects of the home screen and the state they share: the detail poll, the
plan fetch, and the rule that asks for the plan anew. The hook of the app
(`apps/mobile/hooks/useMapApp.ts`) has the same three. A render shows the state
as queued (`commit`), its effects run later (`flush`), before the next render,
and only those whose dependencies changed; answers and the user queue updates
at any time in between.

An answer is a new object, so a plan carries the number of its request. Of the
vehicle's detail the model has the `trip_id`, which is all that the plan depends
on. What `RestClient` throws is a failed request; an aborted one has no effect
any more, whatever becomes of it, so only the last one is kept.
-/

namespace OV.Impl.Client

/-- A loaded plan (`VehicleTripPlan`), and the request it answers. -/
structure TripPlan where
  request : Nat
  tripId : Option String
  deriving DecidableEq

/-- The state of the component that the effects read and set. -/
structure PlanState where
  activeId : Option String := none
  detailNonce : Nat := 0
  /-- `detail`, as its `trip_id`. -/
  detail : Option (Option String) := none
  trip : Option TripPlan := none
  planTrip : Option String := none
  deriving DecidableEq

/-- The dependencies of the plan fetch. -/
structure PlanDeps where
  activeId : Option String := none
  detailNonce : Nat := 0
  planTrip : Option String := none
  deriving DecidableEq

/-- The dependencies of the refetch rule. -/
structure RuleDeps where
  reported : Option String := none
  trip : Option TripPlan := none
  planTrip : Option String := none
  deriving DecidableEq

namespace PlanState

variable (s : PlanState)

/-- The vehicle polled and planned for: an empty id is falsy. -/
def active : Option String := s.activeId.filter fun id => id ≠ ""

/-- `detail?.trip_id`. -/
def reported : Option String := s.detail.join

def planDeps : PlanDeps where
  activeId := s.activeId
  detailNonce := s.detailNonce
  planTrip := s.planTrip

def ruleDeps : RuleDeps where
  reported := s.reported
  trip := s.trip
  planTrip := s.planTrip

end PlanState

/-- The refetch rule: the trip id to ask for, if any. An empty id is falsy. -/
def RuleDeps.ask (d : RuleDeps) : Option String :=
  match d.reported, d.trip with
  | some reported, some trip =>
    if reported ≠ "" ∧ trip.tripId ≠ some reported ∧ d.planTrip ≠ some reported then some reported else none
  | _, _ => none

/-- A plan request in flight that is not aborted. -/
structure PlanRequest where
  id : Nat
  vehicle : String
  /-- What the endpoint has answered, once it has. -/
  served : Option (Option String) := none
  deriving DecidableEq

/-- The component between two steps, and the trip of each vehicle on the server. -/
structure PlanApp where
  /-- The state, with the updates queued since the last render. -/
  state : PlanState := {}
  /-- The state as last rendered. -/
  rendered : PlanState := {}
  /-- Whether the effects of the last render have yet to run. -/
  effectsDue : Bool := false
  /-- The dependencies with which each effect last ran; the detail poll has
  those of the plan fetch but the last. -/
  pollDeps : Option String × Nat := (none, 0)
  planDeps : PlanDeps := {}
  ruleDeps : RuleDeps := {}
  /-- The polls that are alive: whether the first is still out. -/
  polls : Option Bool := none
  request : Option PlanRequest := none
  /-- How many plan requests have been made. -/
  issued : Nat := 0
  server : String → Option String := fun _ => none

inductive PlanAction
  /-- The server has a vehicle on a trip, or on none it can match. A feed has no
  trip with an empty id. -/
  | serve (v : String) (trip : Option String)
  /-- `setActiveId`. -/
  | select (id : Option String)
  /-- `setDetailNonce((n) => n + 1)`. -/
  | bump
  | commit
  | flush
  /-- A poll answers, the first one or a later one. -/
  | poll (first : Bool) (trip : Option String)
  | pollFails (first : Bool)
  /-- The endpoint answers the plan request. -/
  | planServed
  /-- The answer arrives. -/
  | planArrives
  | planFails
  deriving DecidableEq

namespace PlanApp

variable (s : PlanApp)

/-- A render: the effects of the one before have run. -/
def commit : PlanApp := { s with rendered := s.state, effectsDue := true }

/-- The detail poll: the polls of its last run are dead, the old detail goes. -/
def runPolls : PlanApp :=
  let r := s.rendered
  if s.pollDeps = (r.activeId, r.detailNonce) then s
  else
    { s with
      pollDeps := (r.activeId, r.detailNonce)
      state := { s.state with detail := none }
      polls := r.active.map fun _ => true }

/-- The plan fetch: the request of its last run is aborted, the old plan goes. -/
def runPlan : PlanApp :=
  let r := s.rendered
  if s.planDeps = r.planDeps then s
  else
    { s with
      planDeps := r.planDeps
      state := { s.state with trip := none }
      request := r.active.map fun v => { id := s.issued, vehicle := v }
      issued := if r.active.isSome then s.issued + 1 else s.issued }

/-- The refetch rule. -/
def runRule : PlanApp :=
  let r := s.rendered
  if s.ruleDeps = r.ruleDeps then s
  else
    { s with
      ruleDeps := r.ruleDeps
      state := { s.state with planTrip := r.ruleDeps.ask.or s.state.planTrip } }

/-- The effects of a render, in their order. -/
def flush : PlanApp := { s.runPolls.runPlan.runRule with effectsDue := false }

/-- The state after an action, where it can happen. -/
def step : PlanAction → Option PlanApp
  | .serve v trip =>
    if trip = some "" then none else some { s with server := fun w => if w = v then trip else s.server w }
  | .select id => some { s with state := { s.state with activeId := id } }
  | .bump => some { s with state := { s.state with detailNonce := s.state.detailNonce + 1 } }
  | .commit => if s.effectsDue then none else some s.commit
  | .flush => if s.effectsDue then some s.flush else none
  | .poll first trip =>
    -- a poll whose effect was cleaned up is not alive and sets nothing
    match s.polls with
    | some out =>
      if first && !out then none
      else some { s with state := { s.state with detail := some trip }, polls := some (out && !first) }
    | none => none
  | .pollFails first =>
    match s.polls with
    | some out =>
      if first && !out then none
      else
        some { s with
          state := if first then { s.state with detail := none } else s.state
          polls := some (out && !first) }
    | none => none
  | .planServed =>
    match s.request with
    | some r => if r.served.isSome then none else some { s with request := some { r with served := some (s.server r.vehicle) } }
    | none => none
  | .planArrives =>
    match s.request with
    | some r =>
      r.served.map fun tripId =>
        { s with state := { s.state with trip := some { request := r.id, tripId := tripId } }, request := none }
    | none => none
  | .planFails => s.request.map fun _ => { s with request := none }

end PlanApp

/-- The steps of the component. -/
def PlanApp.Step (s : PlanApp) (a : PlanAction) (t : PlanApp) : Prop := s.step a = some t

end OV.Impl.Client
