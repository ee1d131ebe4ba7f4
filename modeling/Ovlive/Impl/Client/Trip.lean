import Ovlive.Framework.Num
import Ovlive.Impl.Core.Model

/-!
# The trip of a vehicle (`packages/shared/src/trip.ts`, `format.ts`)

Which call of its trip a vehicle is heading for, from its position, its delay and
the clock. `JsMath` is what the code takes of JavaScript's `Math` and the model
leaves open.
-/

namespace OV.Impl.Client

class JsMath where
  cos : Num → Num
  sqrt : Num → Num
  pi : Num

/-- Of a scheduled call of a trip, what the derivations read. -/
structure TripStop where
  lat : Num
  lon : Num
  /-- Seconds since the operating day's midnight in Amsterdam. -/
  scheduledDeparture : Int
  deriving DecidableEq

/-- The loaded plan of a trip. -/
structure VehicleTripPlan where
  tripId : Option String
  stops : List TripStop
  deriving DecidableEq

/-- The live state of a vehicle that the derivations need. -/
structure VehicleProgress where
  lat : Option Num
  lon : Option Num
  atStop : Bool
  delay : Int
  deriving DecidableEq

/-- `distanceMeters`. -/
def distanceMeters [JsMath] (lat1 lon1 lat2 lon2 : Num) : Num :=
  let dlat := lat2.sub lat1
  let dlon := (lon2.sub lon1).mul (JsMath.cos ((lat1.mul JsMath.pi).mul (.fin (1 / 180))))
  (Num.fin 111320).mul (JsMath.sqrt ((dlat.mul dlat).add (dlon.mul dlon)))

/-- `secsSinceMidnightNL`, of `Date.now()`. -/
def secsSinceMidnightNL [Platform] (nowMs : Int) : Int :=
  Platform.amsterdam.clock (nowMs * 1000000) / nanos % secsPerDay

/-- `etaSeconds`: `%` has the sign of the dividend. -/
def etaSeconds [Platform] (scheduleSecs nowMs : Int) : Int :=
  let diff := scheduleSecs - secsSinceMidnightNL nowMs
  ((diff + 43200).tmod 86400 + 86400).tmod 86400 - 43200

/-- `nearestStopIndex`: the first of the nearest, if the position is usable. -/
def nearestStopIndex [JsMath] (stops : List TripStop) (lat lon : Option Num) : Option Nat :=
  match lat, lon with
  | some lat, some lon =>
    if lat.isFinite && lon.isFinite then
      (stops.zipIdx.foldl (fun (best : Option Nat × Num) si =>
        let d := distanceMeters lat lon si.1.lat si.1.lon
        if d.lt best.2 then (some si.2, d) else best) (none, .posInf)).1
    else none
  | _, _ => none

/-- `departed`, of `upcomingFromIndex`. -/
def departed [Platform] (s : TripStop) (delay nowMs : Int) : Bool := etaSeconds (s.scheduledDeparture + delay) nowMs ≤ 0

/-- `upcomingFromIndex`. -/
def upcomingFromIndex [JsMath] [Platform] (stops : List TripStop) (veh : VehicleProgress) (nowMs : Int) : Nat :=
  if stops.isEmpty then 0
  else
    match nearestStopIndex stops veh.lat veh.lon with
    | none => (stops.findIdx? fun s => !departed s veh.delay nowMs).getD 0
    | some near => if veh.atStop || !(stops[near]?.any fun s => departed s veh.delay nowMs) then near else near + 1

end OV.Impl.Client
