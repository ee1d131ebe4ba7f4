import Ovlive.Impl.Core.State

/-!
# Wire types and conversions (`packages/proto/ovlive.proto`, `crates/api/src/convert.rs`)

The protobuf messages of the stream, as the codecs on both sides hand them
over, and the conversions between them and the domain.
-/

namespace OV.Impl

/-! ## Messages -/

structure Viewport where
  minLat : Num
  minLon : Num
  maxLat : Num
  maxLon : Num
  zoom : Nat
  deriving DecidableEq

/-- `Filters` on the wire: the types are enum numbers. -/
structure PbFilters where
  vehicleTypes : List Int
  dataowners : List String
  search : String
  deriving DecidableEq

/-- The payload of `Subscribe` and of `UpdateViewport`. -/
structure View where
  viewport : Option Viewport
  filters : Option PbFilters
  pinned : List String
  deriving DecidableEq

/-- `ClientMessage.payload`. -/
inductive Payload
  | subscribe (s : View)
  | updateViewport (u : View)
  | ping (b : Bool)
  deriving DecidableEq

structure ClientMessage where
  payload : Option Payload
  deriving DecidableEq

/-- Full state of a vehicle that enters. -/
structure VehicleState where
  id : String
  dataowner : String
  vehicleNumber : String
  linePublicNumber : String
  vehicleType : Int
  operatorName : String
  lat : Num
  lon : Num
  bearing : Num
  delaySeconds : Int
  delayKnown : Bool
  destination : String
  blockCode : String
  journeyNumber : String
  atStop : Bool
  currentStopId : String
  lineColor : String
  lineTextColor : String
  schedulePositioned : Bool
  speedKmh : Num
  speedKnown : Bool

/-- Position delta of a vehicle already in view. -/
structure VehicleMove where
  id : String
  lat : Num
  lon : Num
  bearing : Num
  delaySeconds : Int
  delayKnown : Bool
  atStop : Bool
  currentStopId : String
  schedulePositioned : Bool
  speedKmh : Num
  speedKnown : Bool

/-- One tick of changes of a subscription. -/
structure Update where
  entered : List VehicleState
  moved : List VehicleMove
  left : List String
  isSnapshot : Bool

/-- `ServerMessage.payload`. -/
inductive ServerMessage
  | update (u : Update)
  | pong

/-! ## Conversions -/

/-- `core_type_to_pb`. -/
def coreTypeToPb : VehicleType → Int
  | .bus => 1
  | .tram => 2
  | .metro => 3
  | .train => 4
  | .ferry => 5
  | .unknown => 0

/-- `pb_type_to_core`: unspecified and unknown numbers name no type. -/
def pbTypeToCore (v : Int) : Option VehicleType :=
  if v = 1 then some .bus
  else if v = 2 then some .tram
  else if v = 3 then some .metro
  else if v = 4 then some .train
  else if v = 5 then some .ferry
  else none

/-- `to_state`. -/
def toState (t : LiveTrip) : VehicleState where
  id := t.id
  dataowner := t.key.dataowner
  vehicleNumber := t.key.vehicleNumber
  linePublicNumber := t.linePublicNumber.getD ""
  vehicleType := coreTypeToPb t.vehicleType
  operatorName := t.operatorName.getD ""
  lat := t.lat
  lon := t.lon
  bearing := t.bearing
  delaySeconds := t.delaySeconds
  delayKnown := t.delayKnown
  destination := t.destination.getD ""
  blockCode := t.blockCode.getD ""
  journeyNumber := t.journeyNumber.getD ""
  atStop := t.atStop
  currentStopId := t.currentStopId.getD ""
  lineColor := t.lineColor.getD ""
  lineTextColor := t.lineTextColor.getD ""
  schedulePositioned := t.schedulePositioned
  speedKmh := t.speedKmh.getD (.fin 0)
  speedKnown := t.speedKmh.isSome

/-- `to_move`. -/
def toMove (t : LiveTrip) : VehicleMove where
  id := t.id
  lat := t.lat
  lon := t.lon
  bearing := t.bearing
  delaySeconds := t.delaySeconds
  delayKnown := t.delayKnown
  atStop := t.atStop
  currentStopId := t.currentStopId.getD ""
  schedulePositioned := t.schedulePositioned
  speedKmh := t.speedKmh.getD (.fin 0)
  speedKnown := t.speedKmh.isSome

/-- `pb_viewport_to_bbox`. -/
def pbViewportToBBox (v : Viewport) : BBox where
  minLat := v.minLat
  minLon := v.minLon
  maxLat := v.maxLat
  maxLon := v.maxLon

/-- `pb_filters_to_core`. -/
def pbFiltersToCore (f : PbFilters) : Filters where
  vehicleTypes := f.vehicleTypes.filterMap pbTypeToCore
  dataowners := f.dataowners
  search := f.search

end OV.Impl
