import Ovlive.Impl.Client.Types

/-!
# The live fleet of the app (`apps/mobile/lib/vehicleStore.ts`)

`VehicleStore.apply` folds a normalized update into the two maps behind the
map layer and raises the events of the selected vehicles. When and how often
the renderer is flushed is left out; `dirty` records that a flush is due.
-/

namespace OV.Impl.Client

/-- A GeoJSON point of the vehicle layer. -/
structure Feature where
  lon : Num
  lat : Num
  id : String
  line : String
  owner : String
  type : Int

/-- What the store tells the screen. -/
inductive StoreEvent
  | selectedGone (id : String)
  | selectedBack (v : Vehicle)
  deriving DecidableEq

structure VehicleStore where
  vehicles : Map String Vehicle := ∅
  features : Map String Feature := ∅
  selectedIds : List String := []
  dirty : Bool := false

/-- `vehicleFeature`. -/
def vehicleFeature [Platform] (v : Vehicle) : Feature where
  lon := v.lon
  lat := v.lat
  id := v.id
  line := v.line
  owner := Platform.operatorLabel v.dataowner v.operator
  type := v.type

/-- What a MOVE changes in a feature: its coordinates. -/
def MoveDelta.moveFeature (m : MoveDelta) (f : Feature) : Feature := { f with lon := m.lon, lat := m.lat }

/-- What a MOVE changes in a vehicle. -/
def MoveDelta.moveVehicle (m : MoveDelta) (v : Vehicle) : Vehicle :=
  { v with
    lat := m.lat
    lon := m.lon
    delay := m.delay
    delayKnown := m.delayKnown
    atStop := m.atStop
    speedKmh := m.speedKmh }

namespace VehicleStore

variable [Platform]

/-- `VehicleStore.apply`: the store after an update, and the events raised. -/
def apply (s : VehicleStore) (u : NormalizedUpdate) : VehicleStore × List StoreEvent :=
  let vehicles := if u.isSnapshot then ∅ else s.vehicles
  let features := if u.isSnapshot then ∅ else s.features
  -- entered
  let vehicles := Map.insertAll Vehicle.id id u.entered vehicles
  let features := Map.insertAll Vehicle.id vehicleFeature u.entered features
  let back := u.entered.filter fun v => v.id ∈ s.selectedIds
  -- moved
  let features := Map.adjustAll MoveDelta.id MoveDelta.moveFeature u.moved features
  let vehicles := Map.adjustAll MoveDelta.id MoveDelta.moveVehicle u.moved vehicles
  -- left
  let features := Map.eraseAll u.left features
  let vehicles := Map.eraseAll u.left vehicles
  let gone := u.left.filter fun id => id ∈ s.selectedIds
  -- a snapshot has no LEAVE: a selected vehicle it lacks has ended
  let lost := if u.isSnapshot then s.selectedIds.filter fun id => (vehicles.lookup id).isNone else []
  ({ s with vehicles := vehicles, features := features, dirty := true },
    back.map .selectedBack ++ gone.map .selectedGone ++ lost.map .selectedGone)

end VehicleStore

end OV.Impl.Client
