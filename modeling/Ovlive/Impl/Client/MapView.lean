import Ovlive.Impl.Client.VehicleStore

/-!
# The web's copies of the live fleet

`MapView` (`apps/web/app/components/MapView.tsx`) keeps the fleet of the map:
`onUpdate` folds a normalized update into its two maps and raises the events of
the selected vehicles. `VehicleLive` (`apps/web/app/lib/live.ts`) is what the
page of one vehicle keeps of the same stream. The drawing of the map, when it
is flushed, and the status of the page's connection are left out.
-/

namespace OV.Impl.Client

/-! ## The map -/

/-- A GeoJSON point of the vehicle layers. -/
structure Marker where
  lon : Num
  lat : Num
  id : String
  line : String
  owner : String
  type : Int
  delay : Int
  delayKnown : Bool
  bearing : Num
  icon : String
  iconSel : String

structure MapView where
  vehiclesRef : Map String Vehicle := ∅
  featuresRef : Map String Marker := ∅
  selectedIds : List String := []
  /-- `themeRef.current.dark`. -/
  dark : Bool := false
  dirty : Bool := false

/-- `markerId`. -/
def markerId (owner line : String) (dark : Bool) : String :=
  "m|" ++ owner ++ "|" ++ line ++ "|" ++ if dark then "d" else "l"

/-- What a MOVE changes in a marker. -/
def MoveDelta.moveMarker (m : MoveDelta) (f : Marker) : Marker :=
  { f with
    lon := m.lon
    lat := m.lat
    delay := m.delay
    delayKnown := m.delayKnown
    bearing := m.bearing.getD (.fin 0) }

/-- What a MOVE assigns to a vehicle. -/
def MoveDelta.assignVehicle (m : MoveDelta) (veh : Vehicle) : Vehicle :=
  { veh with
    lat := m.lat
    lon := m.lon
    delay := m.delay
    delayKnown := m.delayKnown
    atStop := m.atStop
    speedKmh := m.speedKmh }

namespace MapView

variable [Platform]

/-- `vehicleFeature`. -/
def vehicleFeature (dark : Bool) (v : Vehicle) : Marker :=
  let label := Platform.operatorLabel v.dataowner v.operator
  let icon := markerId label v.line dark
  { lon := v.lon
    lat := v.lat
    id := v.id
    line := v.line
    owner := label
    type := v.type
    delay := v.delay
    delayKnown := v.delayKnown
    bearing := v.bearing.getD (.fin 0)
    icon := icon
    iconSel := icon ++ "|sel" }

/-- `onUpdate`: the map after an update, and the events raised. -/
def onUpdate (s : MapView) (u : NormalizedUpdate) : MapView × List StoreEvent :=
  let featuresRef := if u.isSnapshot then ∅ else s.featuresRef
  let vehiclesRef := if u.isSnapshot then ∅ else s.vehiclesRef
  -- entered
  let vehiclesRef := Map.insertAll Vehicle.id id u.entered vehiclesRef
  let featuresRef := Map.insertAll Vehicle.id (vehicleFeature s.dark) u.entered featuresRef
  let back := u.entered.filter fun v => v.id ∈ s.selectedIds
  -- moved
  let featuresRef := Map.adjustAll MoveDelta.id MoveDelta.moveMarker u.moved featuresRef
  let vehiclesRef := Map.adjustAll MoveDelta.id MoveDelta.assignVehicle u.moved vehiclesRef
  -- left
  let featuresRef := Map.eraseAll u.left featuresRef
  let vehiclesRef := Map.eraseAll u.left vehiclesRef
  let gone := u.left.filter fun id => id ∈ s.selectedIds
  -- a snapshot has no LEAVE: a selected vehicle it lacks has ended
  let lost := if u.isSnapshot then s.selectedIds.filter fun id => (vehiclesRef.lookup id).isNone else []
  ({ s with vehiclesRef := vehiclesRef, featuresRef := featuresRef, dirty := true },
    back.map .selectedBack ++ gone.map .selectedGone ++ lost.map .selectedGone)

end MapView

/-! ## The page of a vehicle -/

/-- The state of `useVehicleLive`. -/
structure VehicleLive where
  live : Option Vehicle := none
  ended : Bool := false

/-- `{ ...prev, ...moved }`. -/
def MoveDelta.spread (moved : MoveDelta) (prev : Vehicle) : Vehicle :=
  { prev with
    id := moved.id
    lat := moved.lat
    lon := moved.lon
    bearing := moved.bearing
    speedKmh := moved.speedKmh
    delay := moved.delay
    delayKnown := moved.delayKnown
    atStop := moved.atStop
    currentStopId := moved.currentStopId
    schedulePositioned := moved.schedulePositioned }

namespace VehicleLive

/-- `onUpdate` of the page of vehicle `id`. -/
def onUpdate (id : String) (s : VehicleLive) (u : NormalizedUpdate) : VehicleLive :=
  let entered := u.entered.find? fun v => v.id = id
  let s :=
    match entered with
    | some v => { s with live := some v, ended := false }
    | none => s
  let s :=
    match u.moved.find? fun m => m.id = id with
    | some moved => { s with live := s.live.map moved.spread }
    | none => s
  if id ∈ u.left || (u.isSnapshot && entered.isNone) then { s with ended := true } else s

end VehicleLive

end OV.Impl.Client
