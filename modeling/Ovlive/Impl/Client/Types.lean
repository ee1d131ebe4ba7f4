import Ovlive.Impl.Api.Convert

/-!
# Client types (`packages/api-types/src/types.ts`, `ws.ts`)

What the clients make of a server message: `toVehicle` and `toMove` normalize
the decoded protobuf objects.
-/

namespace OV.Impl.Client

/-- `FilterState`. -/
structure FilterState where
  types : List Int
  owners : List String
  search : String
  deriving DecidableEq

/-- The view of a client: what it asks the server for, pinned vehicles apart. -/
structure ClientView where
  bbox : BBox
  zoom : Nat
  filters : FilterState
  deriving DecidableEq

/-- Full state of a vehicle, from ENTER or a snapshot. -/
structure Vehicle where
  id : String
  dataowner : String
  vehicleNumber : String
  line : String
  type : Int
  operator : String
  lat : Num
  lon : Num
  bearing : Option Num
  speedKmh : Option Num
  delay : Int
  delayKnown : Bool
  destination : String
  block : String
  journey : String
  atStop : Bool
  currentStopId : String
  schedulePositioned : Bool
  lineColor : String
  lineTextColor : String
  deriving DecidableEq

/-- Position delta, from MOVE. -/
structure MoveDelta where
  id : String
  lat : Num
  lon : Num
  bearing : Option Num
  speedKmh : Option Num
  delay : Int
  delayKnown : Bool
  atStop : Bool
  currentStopId : String
  schedulePositioned : Bool

structure NormalizedUpdate where
  entered : List Vehicle
  moved : List MoveDelta
  left : List String
  isSnapshot : Bool

/-- `Number.isFinite(x) ? x : null`. -/
def finite (x : Num) : Option Num := if x.isFinite then some x else none

/-- `known ? x || 0 : null`: NaN and 0 are falsy. -/
def known (k : Bool) (x : Num) : Option Num :=
  if k then some (if x = .nan then .fin 0 else x) else none

/-- `toVehicle`. -/
def toVehicle (s : VehicleState) : Vehicle where
  id := s.id
  dataowner := s.dataowner
  vehicleNumber := s.vehicleNumber
  line := s.linePublicNumber
  type := s.vehicleType
  operator := s.operatorName
  lat := s.lat
  lon := s.lon
  bearing := finite s.bearing
  speedKmh := known s.speedKnown s.speedKmh
  delay := s.delaySeconds
  delayKnown := s.delayKnown
  destination := s.destination
  block := s.blockCode
  journey := s.journeyNumber
  atStop := s.atStop
  currentStopId := s.currentStopId
  schedulePositioned := s.schedulePositioned
  lineColor := s.lineColor
  lineTextColor := s.lineTextColor

/-- `toMove`. -/
def toMove (m : VehicleMove) : MoveDelta where
  id := m.id
  lat := m.lat
  lon := m.lon
  bearing := finite m.bearing
  speedKmh := known m.speedKnown m.speedKmh
  delay := m.delaySeconds
  delayKnown := m.delayKnown
  atStop := m.atStop
  currentStopId := m.currentStopId
  schedulePositioned := m.schedulePositioned

/-- The update `onmessage` hands to `onUpdate`. -/
def normalize (u : Update) : NormalizedUpdate where
  entered := u.entered.map toVehicle
  moved := u.moved.map toMove
  left := u.left
  isSnapshot := u.isSnapshot

/-- `viewportMsg`. -/
def viewportMsg (v : ClientView) (pinned : List String) : View where
  viewport := some
    { minLat := v.bbox.minLat, minLon := v.bbox.minLon, maxLat := v.bbox.maxLat, maxLon := v.bbox.maxLon
      zoom := v.zoom }
  filters := some { vehicleTypes := v.filters.types, dataowners := v.filters.owners, search := v.filters.search }
  pinned := pinned

end OV.Impl.Client
