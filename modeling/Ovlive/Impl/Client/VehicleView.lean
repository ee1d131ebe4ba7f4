import Ovlive.Impl.Client.Home
import Ovlive.Impl.Client.Trip

/-!
# What a vehicle reads as (`packages/shared/src/vehicle-view.ts`)

`vehicleView` resolves what the panel shows from the live record of the tab, the
polled detail and the trip plan; `currentUpcomingFrom` is what the map makes of
its own record (`apps/web/app/components/MapView.tsx`). Colours, labels and the
translated texts of the view are left out.
-/

namespace OV.Impl.Client

/-- A live vehicle as the REST endpoints give it. -/
structure VehicleSummary where
  id : String
  vehicleNumber : String
  linePublicNumber : Option String
  operatorName : Option String
  lat : Num
  lon : Num
  speedKmh : Option Num
  delaySeconds : Int
  delayKnown : Bool
  destination : Option String
  blockCode : Option String
  journeyNumber : Option String
  atStop : Bool
  lastUpdate : String

/-- The answer of a detail poll. -/
structure VehicleDetail where
  vehicle : VehicleSummary
  tripId : Option String

def AT_STOP_RADIUS_M : Num := .fin 150

/-- What `vehicleView` is given. -/
structure ViewInput where
  id : String
  basic : Option Vehicle
  detail : Option VehicleDetail
  trip : Option VehicleTripPlan
  ended : Bool
  now : Int

/-- What the panel shows. -/
structure VehicleView where
  id : String
  ended : Bool
  line : String
  destination : String
  delay : Int
  delayKnown : Bool
  speedKmh : Option Num
  operatorName : String
  vehicleNumber : String
  blockCode : String
  journeyNumber : String
  lastUpdate : Option String
  lat : Option Num
  lon : Option Num
  atStop : Bool
  stops : List TripStop
  upcomingFrom : Nat

namespace ViewInput

variable (i : ViewInput)

/-- The vehicle of the detail: once the trip has ended it is ignored. -/
def live : Option VehicleSummary := if i.ended then none else i.detail.map VehicleDetail.vehicle

/-- The state of the vehicle in its trip: of the tab's record, else of the detail. -/
def progress : VehicleProgress where
  lat := (i.basic.map Vehicle.lat).or (i.live.map VehicleSummary.lat)
  lon := (i.basic.map Vehicle.lon).or (i.live.map VehicleSummary.lon)
  atStop := ((i.basic.map Vehicle.atStop).or (i.live.map VehicleSummary.atStop)).getD false
  delay := ((i.basic.map Vehicle.delay).or (i.live.map VehicleSummary.delaySeconds)).getD 0

end ViewInput

/-- `vehicleView`. -/
def vehicleView [JsMath] [Platform] (i : ViewInput) : VehicleView :=
  let v := i.live
  let veh := i.progress
  let upcomingFrom :=
    match i.trip with
    | some trip => upcomingFromIndex trip.stops veh i.now
    | none => 0
  let stops := (i.trip.map fun trip => trip.stops.drop upcomingFrom).getD []
  { id := i.id
    ended := i.ended
    line := ((v.bind VehicleSummary.linePublicNumber).or (i.basic.map Vehicle.line)).getD "?"
    destination := ((v.bind VehicleSummary.destination).or (i.basic.map Vehicle.destination)).getD "—"
    delay := veh.delay
    delayKnown := ((i.basic.map Vehicle.delayKnown).or (v.map VehicleSummary.delayKnown)).getD false
    speedKmh := (i.basic.bind Vehicle.speedKmh).or (v.bind VehicleSummary.speedKmh)
    operatorName := ((v.bind VehicleSummary.operatorName).or (i.basic.map Vehicle.operator)).getD ""
    vehicleNumber := ((v.map VehicleSummary.vehicleNumber).or (i.basic.map Vehicle.vehicleNumber)).getD ""
    blockCode := ((v.bind VehicleSummary.blockCode).or (i.basic.map Vehicle.block)).getD ""
    journeyNumber := ((v.bind VehicleSummary.journeyNumber).or (i.basic.map Vehicle.journey)).getD ""
    lastUpdate := v.map VehicleSummary.lastUpdate
    lat := veh.lat
    lon := veh.lon
    -- reported at a stop, and next to the first of those ahead
    atStop :=
      match veh.lat, veh.lon, stops.head? with
      | some lat, some lon, some s => veh.atStop && (distanceMeters lat lon s.lat s.lon).le AT_STOP_RADIUS_M
      | _, _, _ => false
    stops := stops
    upcomingFrom := upcomingFrom }

namespace MapView

/-- The stream's record of the active vehicle: an empty id is falsy. -/
def active (s : MapView) (activeId : Option String) : Option Vehicle :=
  (activeId.filter (· ≠ "")).bind fun id => s.vehiclesRef.lookup id

/-- The state of the active vehicle in its trip: of the stream's record. -/
def progress (s : MapView) (activeId : Option String) : VehicleProgress where
  lat := (s.active activeId).map Vehicle.lat
  lon := (s.active activeId).map Vehicle.lon
  atStop := ((s.active activeId).map Vehicle.atStop).getD false
  delay := ((s.active activeId).map Vehicle.delay).getD 0

/-- `currentUpcomingFrom`. -/
def currentUpcomingFrom [JsMath] [Platform] (s : MapView) (activeId : Option String) (tripStops : List TripStop) (now : Int) :
    Nat :=
  upcomingFromIndex tripStops (s.progress activeId) now

end MapView

namespace HomeApp

variable (s : HomeApp)

/-- What the panel gives `vehicleView`: the tab rendered for the active vehicle. -/
def viewInput (id : String) (detail : Option VehicleDetail) (trip : Option VehicleTripPlan) (now : Int) : ViewInput :=
  let activeSel := s.rendered.selected.find? (·.id = id)
  { id := id
    basic := activeSel.bind Selected.basic
    detail := detail
    trip := trip
    ended := activeSel.any Selected.ended
    now := now }

/-- What the map draws as ahead of the active vehicle. -/
def mapUpcomingFrom [JsMath] [Platform] (trip : Option VehicleTripPlan) (now : Int) : Nat :=
  s.map.currentUpcomingFrom s.rendered.activeId ((trip.map VehicleTripPlan.stops).getD []) now

/-- What the panel shows as ahead of it. -/
def panelUpcomingFrom [JsMath] [Platform] (id : String) (detail : Option VehicleDetail) (trip : Option VehicleTripPlan)
    (now : Int) : Nat :=
  (vehicleView (s.viewInput id detail trip now)).upcomingFrom

end HomeApp

end OV.Impl.Client
