import Mathlib.Data.Prod.Lex
import Mathlib.Data.String.Basic
import Ovlive.Impl.Api.Viewport

/-!
# The vehicles endpoint (`crates/api/src/rest.rs`)

`list_vehicles`: the query as text, what is read from it (`build_filters`,
`parse_bbox`), and the vehicles of the index that answer it, the most relevant
first where it searches.
-/

namespace OV.Impl

/-- `parse_type`. -/
def parseType (s : List Char) : Option VehicleType :=
  let name := (Text.trim s).map Text.lower
  if name = "bus".toList then some .bus
  else if name = "tram".toList then some .tram
  else if name = "metro".toList then some .metro
  else if name = "train".toList then some .train
  else if name = "ferry".toList then some .ferry
  else none

structure VehicleQuery where
  bbox : Option String := none
  types : Option String := none
  owners : Option String := none
  search : Option String := none
  limit : Option Nat := none

/-- `build_filters`: what names no type is dropped. -/
def buildFilters (q : VehicleQuery) : Filters where
  vehicleTypes := (q.types.map fun s => (Text.split ',' s.toList).filterMap parseType).getD []
  dataowners :=
    (q.owners.map fun s =>
      ((Text.split ',' s.toList).map fun x => String.ofList (Text.trim x)).filter fun x => !x.isEmpty).getD []
  search := q.search.getD ""

/-- `parse_bbox`: of the parts that are numbers there must be four. -/
def parseBbox (s : String) : Option BBox :=
  match (Text.split ',' s.toList).filterMap fun x => Text.parseF64? (Text.trim x) with
  | [minLon, minLat, maxLon, maxLat] => some { minLat := minLat, minLon := minLon, maxLat := maxLat, maxLon := maxLon }
  | _ => none

structure VehicleJson where
  id : String
  realtimeTripId : Option String
  dataowner : String
  vehicleNumber : String
  linePublicNumber : Option String
  linePlanningNumber : Option String
  vehicleType : String
  operatorName : Option String
  lat : Num
  lon : Num
  bearing : Option Num
  speedKmh : Option Num
  delaySeconds : Int
  delayKnown : Bool
  destination : Option String
  blockCode : Option String
  journeyNumber : Option String
  atStop : Bool
  currentStopId : Option String
  schedulePositioned : Bool
  lineColor : Option String
  lineTextColor : Option String
  lastUpdate : Instant

/-- `VehicleJson::from`. -/
def VehicleJson.from_ (t : LiveTrip) : VehicleJson where
  id := t.id
  realtimeTripId := t.realtimeTripId
  dataowner := t.key.dataowner
  vehicleNumber := t.key.vehicleNumber
  linePublicNumber := t.linePublicNumber
  linePlanningNumber := t.linePlanningNumber
  vehicleType := typeStr t.vehicleType
  operatorName := t.operatorName
  lat := t.lat
  lon := t.lon
  bearing := if t.bearing.isFinite then some t.bearing else none
  speedKmh := t.speedKmh
  delaySeconds := t.delaySeconds
  delayKnown := t.delayKnown
  destination := t.destination
  blockCode := t.blockCode
  journeyNumber := t.journeyNumber
  atStop := t.atStop
  currentStopId := t.currentStopId
  schedulePositioned := t.schedulePositioned
  lineColor := t.lineColor
  lineTextColor := t.lineTextColor
  lastUpdate := t.lastUpdate

/-- `search_rank`: the vehicle or the public line itself, one that starts with
it, or anything else that matched. -/
def searchRank (t : LiveTrip) (needle : List Char) : Nat :=
  let fields := [t.key.vehicleNumber, t.linePublicNumber.getD ""]
  if fields.any fun f => Text.asciiLower f = needle.map Text.lower then 0
  else if fields.any fun f => needle.isPrefixOf (Text.asciiLower f) then 1
  else 2

/-- `line_sort_key`: the numbered lines in order, and then the others. -/
def lineSortKey (t : LiveTrip) : Nat × String :=
  let line := t.linePublicNumber.getD ""
  ((Text.parseU32? line.toList).getD 4294967295, line)

/-- What the hits of a search are sorted by. -/
def searchKey (needle : List Char) (t : LiveTrip) : Nat ×ₗ (Nat ×ₗ String) ×ₗ String :=
  toLex (searchRank t needle, toLex (toLex (lineSortKey t), t.key.vehicleNumber))

structure VehiclesResponse where
  count : Nat
  total : Nat
  vehicles : List VehicleJson

/-- The vehicles that a query asks for: those of its box, or of the whole index
if no box is read from it. -/
def VehicleQuery.hits (q : VehicleQuery) (idx : VehicleIndex) : List LiveTrip :=
  match q.bbox.bind parseBbox with
  | some bbox => idx.query bbox (buildFilters q)
  | none => idx.all (buildFilters q)

/-- `list_vehicles`: ranked before the limit cuts off the rest. -/
def listVehicles (idx : VehicleIndex) (q : VehicleQuery) : VehiclesResponse :=
  let hits := q.hits idx
  let total := hits.length
  let search := (buildFilters q).search
  let hits :=
    if search.isEmpty then hits
    else hits.insertionSort fun a b => searchKey (Text.asciiLower search) a ≤ searchKey (Text.asciiLower search) b
  let hits := (q.limit.map hits.take).getD hits
  let vehicles := hits.map VehicleJson.from_
  { count := vehicles.length, total := total, vehicles := vehicles }

end OV.Impl
