import Ovlive.Framework.Sorted
import Ovlive.Impl.Gtfs.Model

/-!
# Departure boards (`crates/gtfs/src/stops.rs`)

The calls of the trips that run on a date or on the day before, by stop, as
`build_board` collects them, and the board read from them. The viewport and
name lookups of the same index are separate tables and are left out. A call's
slot (a `u32` in the source) is a position in the list of the day's trips.

The calls of a stop are sorted by an unstable sort, so a model of the index is
a model for each order that equal departures may take: `StopIndexes.build`
takes the sort, and `StopIndexes.ascending` is what it leaves.
-/

namespace OV.Impl

def DAY_SECS : Int32 := 86400

/-- A trip that runs on one of the indexed dates. -/
structure DayTrip where
  tripId : String
  rtId : Option String

/-- A scheduled call at a stop, in seconds from today's local midnight. -/
structure Call where
  trip : Nat
  arrival : Int32
  departure : Int32
  stopSequence : Nat
  /-- False for a call carried over from the day before. -/
  today : Bool

/-- A scheduled departure, resolved against the feed. -/
structure Departure where
  stop : StopInfo
  trip : TripInfo
  route : Option RouteInfo
  realtimeTripId : Option String
  scheduledArrival : Int32
  scheduledDeparture : Int32
  stopSequence : Nat

namespace Board

/-- The axis a trip's calls are put on: today's, yesterday's shifted back a
day, or none. -/
def shiftOf (store : GtfsStore) (today : UInt32) (yesterday : Option UInt32) (trip : TripInfo) : Option Int32 :=
  if store.runsOn trip.serviceId today then some 0
  else if yesterday.any fun y => store.runsOn trip.serviceId y then some (-DAY_SECS)
  else none

/-- A shifted call that is too far in the past to be kept. -/
def past (shift : Int32) (st : StopTime) : Bool := shift ≠ 0 && st.departure + shift < -DAY_SECS / 4

/-- Index one call of the trip in a slot. -/
def addCall (shift : Int32) (slot : Nat) (calls : Map String (List Call)) (st : StopTime) : Map String (List Call) :=
  if past shift st then calls
  else
    Map.push st.stopId
      { trip := slot, arrival := st.arrival + shift, departure := st.departure + shift,
        stopSequence := st.stopSequence, today := shift = 0 }
      calls

/-- Index the calls of a trip. -/
def addTrip (store : GtfsStore) (today : UInt32) (yesterday : Option UInt32)
    (board : List DayTrip × Map String (List Call)) (trip : TripInfo) : List DayTrip × Map String (List Call) :=
  match shiftOf store today yesterday trip with
  | none => board
  | some shift =>
    match store.stopTimes.lookup trip.tripId with
    | none => board
    | some times =>
      (board.1 ++ [{ tripId := trip.tripId, rtId := trip.realtimeTripId }],
        times.foldl (addCall shift board.1.length) board.2)

/-- A call as a departure, once its trip is looked up. -/
def resolve (store : GtfsStore) (stop : StopInfo) (dayTrips : List DayTrip) (c : Call) : Option Departure := do
  let day ← dayTrips[c.trip]?
  let trip ← store.trips.lookup day.tripId
  some
    { stop := stop
      trip := trip
      route := store.routes.lookup trip.routeId
      realtimeTripId := day.rtId
      scheduledArrival := c.arrival
      scheduledDeparture := c.departure
      stopSequence := c.stopSequence }

end Board

/-- The sort of a stop's calls. -/
abbrev CallSort := SortBy fun c : Call => c.departure.toInt

/-- `build_board`: the trips of a date and of the day before, and their calls
per stop. -/
def buildBoard (sort : CallSort) (store : GtfsStore) (date : NaiveDate) : List DayTrip × Map String (List Call) :=
  let board := (Map.values store.trips).foldl (Board.addTrip store (ymdU32 date) (date.predOpt.map ymdU32)) ([], ∅)
  (board.1, Map.mapValues sort.sort board.2)

/-- The departure board of a date, over the store it was built from. -/
structure StopIndexes where
  store : GtfsStore
  date : NaiveDate
  dayTrips : List DayTrip
  calls : Map String (List Call)
  ascending : ∀ stopId, (Map.valuesAt calls stopId).Pairwise fun a b => a.departure.toInt ≤ b.departure.toInt

namespace StopIndexes

/-- `StopIndexes::build`. -/
def build (sort : CallSort) (store : GtfsStore) (date : NaiveDate) : StopIndexes where
  store := store
  date := date
  dayTrips := (buildBoard sort store date).1
  calls := (buildBoard sort store date).2
  ascending stopId := by
    simp only [buildBoard, Map.valuesAt, Map.lookup_mapValues]
    generalize AList.lookup stopId _ = o
    cases o with
    | none => exact .nil
    | some l => exact sort.ascending l

variable (idx : StopIndexes)

/-- `StopIndexes::departure`: a call, resolved against the feed. -/
def departure (c : Call) (stop : StopInfo) : Option Departure := Board.resolve idx.store stop idx.dayTrips c

/-- `saturating_add`. -/
def saturatingAdd (a b : Int32) : Int :=
  max Int32.minValue.toInt (min Int32.maxValue.toInt (a.toInt + b.toInt))

/-- `departures`: the scheduled departures of a stop in a window. -/
def departures (stopId : String) (fromSecs windowSecs : Int32) (limit : Nat) : List Departure :=
  match idx.store.stops.lookup stopId with
  | none => []
  | some stop =>
    match idx.calls.lookup stopId with
    | none => []
    | some calls =>
      let until_ := saturatingAdd fromSecs windowSecs
      let start := partitionPoint (fun c : Call => c.departure.toInt < fromSecs.toInt) calls
      (((calls.drop start).takeWhile fun c => c.departure.toInt ≤ until_).take limit).filterMap fun c =>
        idx.departure c stop

/-- `calls_on_service_date`: every call of a stop on the date itself. -/
def callsOnServiceDate (sort : SortBy fun d : Departure => d.scheduledArrival.toInt) (stopId : String) :
    List Departure :=
  match idx.store.stops.lookup stopId with
  | none => []
  | some stop =>
    match idx.calls.lookup stopId with
    | none => []
    | some calls => sort.sort ((calls.filter Call.today).filterMap fun c => idx.departure c stop)

end StopIndexes

end OV.Impl
