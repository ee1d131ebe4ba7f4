import Ovlive.Framework.Run
import Ovlive.Impl.Client.MapView

/-!
# The selection of the home screen (`apps/web/app/routes/home.tsx`)

The tabs of the vehicle panel, what the events of the map make of them, and the
user's operations on them; the hook of the app (`apps/mobile/hooks/useMapApp.ts`)
has the same handlers. Events of the stream queue their updates, which a later
render shows; what a click queues is rendered before anything else happens, with
all that was queued before it. A handler that reads the state, and does not
update it by a function, reads it as last rendered.

Following, isolating and closing a board, which touch no tab, are left out, and
so is what the map draws.
-/

namespace OV.Impl.Client

/-- A tab of the panel (`Selected`). -/
structure Selected where
  id : String
  basic : Option Vehicle := none
  /-- The trip we were watching ended. -/
  ended : Bool := false
  /-- The vehicle's new state, if it is live again on another trip. -/
  replacement : Option Vehicle := none
  deriving DecidableEq

def MAX_SELECTED : Nat := 8

/-- `v`, with the line and operator known before where it lacks them. -/
def Vehicle.backfilled (v : Vehicle) (basic : Option Vehicle) : Vehicle :=
  { v with
    line := if v.line ≠ "" then v.line else (basic.map Vehicle.line).getD ""
    operator := if v.operator ≠ "" then v.operator else (basic.map Vehicle.operator).getD "" }

namespace Selected

variable (s : Selected)

/-- What `onSelectedLive` makes of a tab: an ended one is frozen. -/
def live (v : Vehicle) : Selected :=
  if s.id = v.id ∧ s.ended = false then { s with basic := some (v.backfilled s.basic) } else s

/-- What `onSelectedGone` makes of a tab. -/
def gone (id : String) : Selected := if s.id = id then { s with ended := true } else s

/-- Whether the tab and the vehicle are on one journey: an empty one is falsy. -/
def sameTrip (v : Vehicle) : Bool :=
  match s.basic with
  | some basic => basic.journey ≠ "" && v.journey ≠ "" && basic.journey = v.journey
  | none => false

/-- What `onSelectedBack` makes of a tab. -/
def back (v : Vehicle) : Selected :=
  if s.id ≠ v.id then s
  else if s.ended = false then { s with basic := some (v.backfilled s.basic) }
  else if s.sameTrip v then { s with ended := false, replacement := none, basic := some v }
  else { s with replacement := some v }

/-- What `resumeTrip` makes of a tab. -/
def resume (id : String) : Selected :=
  if s.id = id ∧ s.replacement.isSome then { s with basic := s.replacement, ended := false, replacement := none } else s

/-- What a detail makes of a tab: its line. -/
def detailed (id line : String) : Selected :=
  if s.id = id then { s with basic := s.basic.map fun basic => { basic with line := line } } else s

end Selected

/-- The state that the handlers read and set. -/
structure HomeState where
  selected : List Selected := []
  activeId : Option String := none
  following : Bool := false
  detailNonce : Nat := 0
  isolate : Bool := false
  stopId : Option String := none
  multiSelect : Bool := false

namespace HomeState

variable (s : HomeState)

/-- The vehicle whose panel is shown; a board replaces it. An empty id is falsy. -/
def panel : Option String :=
  if s.stopId.any (· ≠ "") then none else s.activeId.filter (· ≠ "")

def onSelectedLive (v : Vehicle) : HomeState := { s with selected := s.selected.map (·.live v) }

def onSelectedGone (id : String) : HomeState :=
  { s with
    selected := s.selected.map (·.gone id)
    following := if s.activeId = some id then false else s.following }

def onSelectedBack (v : Vehicle) : HomeState := { s with selected := s.selected.map (·.back v) }

/-- The handler of an event of the map. -/
def onEvent : StoreEvent → HomeState
  | .selectedGone id => s.onSelectedGone id
  | .selectedBack v => s.onSelectedBack v

/-- The line that a detail of the vehicle has, if any. -/
def onDetail (id line : String) : HomeState :=
  if line = "" then s else { s with selected := s.selected.map (·.detailed id line) }

def selectVehicle (id : String) (v : Option Vehicle) : HomeState :=
  { s with
    stopId := none
    following := true
    activeId := some id
    selected :=
      if s.multiSelect = false then [{ id := id, basic := v }]
      else if s.selected.any (·.id = id) then s.selected
      else
        let all := s.selected ++ [{ id := id, basic := v }]
        all.drop (all.length - MAX_SELECTED) }

def openStop (id : String) : HomeState := { s with following := false, stopId := some id }

def resumeTrip (id : String) : HomeState :=
  { s with
    selected := s.selected.map (·.resume id)
    activeId := some id
    following := true
    detailNonce := s.detailNonce + 1 }

def selectTab (id : String) : HomeState := { s with activeId := some id, following := true }

/-- `closeTab`: the tabs that remain are those of the render. -/
def closeTab (rendered : HomeState) (id : String) : HomeState :=
  let idx := rendered.selected.findIdx? (·.id = id)
  let remaining := rendered.selected.filter (·.id ≠ id)
  { s with
    selected := remaining
    activeId :=
      if rendered.activeId = some id then
        idx.bind fun idx => remaining[min idx (remaining.length - 1)]?.map Selected.id
      else s.activeId }

def closeAll : HomeState := { s with selected := [], activeId := none, isolate := false }

def changeMultiSelect (on : Bool) : HomeState :=
  { s with
    multiSelect := on
    selected := if on then s.selected else s.selected.filter fun t => some t.id = s.activeId }

end HomeState

/-- The home screen between two steps. -/
structure HomeApp where
  /-- The state, with the updates queued since the last render. -/
  state : HomeState := {}
  /-- The state as last rendered. -/
  rendered : HomeState := {}
  map : MapView := {}

inductive HomeAction
  /-- An update of the stream. No frame enters and removes one vehicle. -/
  | update (u : NormalizedUpdate)
  /-- The animation frame that the update asked for. -/
  | frame
  /-- A detail of a vehicle, of which the tabs take the line. -/
  | detail (id line : String)
  | render
  /-- A marker of the map is clicked. -/
  | pick (id : String)
  /-- A vehicle is opened from a link, a search result or a departure. -/
  | openVehicle (id : String)
  | openStop (id : String)
  | closeStop
  | resumeTrip (id : String)
  | selectTab (id : String)
  | closeTab (id : String)
  | closeAll
  | changeMultiSelect (on : Bool)

namespace HomeApp

variable (s : HomeApp)

/-- A render: the map has the selection of its properties. -/
def render : HomeApp :=
  { s with rendered := s.state, map := { s.map with selectedIds := s.state.selected.map Selected.id } }

/-- A click: what it queues is rendered at once. -/
def click (state : HomeState) : HomeApp := { s with state := state }.render

/-- `onUpdate` of the map, and the handlers of the events it raises. -/
def update [Platform] (u : NormalizedUpdate) : HomeApp :=
  let r := s.map.onUpdate u
  { s with map := r.1, state := r.2.foldl HomeState.onEvent s.state }

/-- The animation frame: the panel gets the live record of the active vehicle. -/
def frame : HomeApp :=
  let s := { s with map := { s.map with dirty := false } }
  match s.rendered.activeId.filter (· ≠ "") with
  | some id =>
    match s.map.vehiclesRef.lookup id with
    | some veh => { s with state := s.state.onSelectedLive veh }
    | none => s
  | none => s

/-- Whether the panel shows the button that resumes the trip of `id`. -/
def offers (id : String) : Bool :=
  s.rendered.panel = some id &&
    (s.rendered.selected.find? (·.id = id)).any fun tab => tab.ended && tab.replacement.isSome

/-- The state after an action, where it can happen. -/
def step [Platform] : HomeAction → Option HomeApp
  | .update u => if (u.entered.map Vehicle.id).all (· ∉ u.left) then some (s.update u) else none
  | .frame => if s.map.dirty then some s.frame else none
  | .detail id line => some { s with state := s.state.onDetail id line }
  | .render => some s.render
  | .pick id => some (s.click (s.state.selectVehicle id (s.map.vehiclesRef.lookup id)))
  | .openVehicle id => some (s.click (s.state.selectVehicle id none))
  | .openStop id => some (s.click (s.state.openStop id))
  | .closeStop => some (s.click { s.state with stopId := none })
  | .resumeTrip id => if s.offers id then some (s.click (s.state.resumeTrip id)) else none
  | .selectTab id => some (s.click (s.state.selectTab id))
  | .closeTab id => some (s.click (s.state.closeTab s.rendered id))
  | .closeAll => some (s.click s.state.closeAll)
  | .changeMultiSelect on => some (s.click (s.state.changeMultiSelect on))

end HomeApp

/-- The steps of the screen. -/
def HomeApp.Step [Platform] (s : HomeApp) (a : HomeAction) (t : HomeApp) : Prop := s.step a = some t

end OV.Impl.Client
