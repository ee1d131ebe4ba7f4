import Mathlib.Data.List.Sort
import Ovlive.Impl.Gtfs.Model

/-!
# Reading a feed (`crates/gtfs/src/parse.rs`)

An archive is what the `zip` and `csv` crates report of it: its entries by
name, whether each can be opened, its header record, and for every record the
outcome of `read_record`, which may be an error. `withCsv` is the loop over
one file, and `parseReader` the files in their order, each row folded into the
store by the handler of its file.
-/

namespace OV.Impl

/-- What reading a record yields: its fields, or nothing where the reader fails. -/
abbrev Record := Option (List String)

/-- An entry of an archive, as a CSV file. -/
structure ZipEntry where
  name : String
  /-- Whether `by_index` opens it. -/
  opens : Bool := true
  /-- The header record, unless reading it fails. -/
  headers : Record
  rows : List Record

/-- A file on disk: the entries of an archive, or no archive. -/
abbrev GtfsZip := Option (List ZipEntry)

namespace Gtfs

/-- A time as `H:M:S`, past 24 hours after midnight, in seconds; 32-bit
arithmetic. -/
def parseGtfsTime (s : String) : Option Int32 := do
  let parts := Text.split ':' s.toList
  let h ← Text.parseI32? (Text.trim (← parts[0]?))
  let m ← Text.parseI32? (Text.trim (← parts[1]?))
  let sec ← Text.parseI32? (Text.trim (parts[2]?.getD ['0']))
  some (h * 3600 + m * 60 + sec)

def parseGtfsDate (s : String) : Option NaiveDate := NaiveDate.parseCompact (String.ofList (Text.trim s.toList))

/-- `header_index`: column names to positions; of two columns under one name,
the later. -/
def headerIndex (header : List String) : Map String Nat :=
  Map.insertAll
    (fun c : String × Nat => String.ofList ((Text.trim c.1.toList).dropWhile (· = '\ufeff')))
    Prod.snd header.zipIdx ∅

/-- A record and the columns of its file. -/
structure Row where
  columns : Map String Nat
  fields : List String

/-- The field of a column, empty if the column or the field is missing. -/
def Row.get (row : Row) (k : String) : String := ((row.columns.lookup k).bind fun i => row.fields[i]?).getD ""

/-- The field of a column, none if empty. -/
def Row.find (row : Row) (k : String) : Option String := if (row.get k).isEmpty then none else some (row.get k)

/-- A field as a float. -/
def Row.float (row : Row) (k : String) : Num := (Text.parseF64? (row.get k).toList).getD .nan

/-- `index_of`: the first entry that opens and whose name ends with the file's. -/
def indexOf (zip : List ZipEntry) (name : String) : Option ZipEntry :=
  zip.find? fun e => e.opens && name.toList.isSuffixOf (Text.trimEndMatches '/' e.name.toList)

/-- The loop of `with_csv`: `read_record(..).unwrap_or(false)` ends it at the
first error, as it does at the end of the file. -/
def readRows {S : Type} (f : S → Row → S) (columns : Map String Nat) (s : S) : List Record → S
  | some fields :: rows => readRows f columns (f s { columns := columns, fields := fields }) rows
  | none :: _ => s
  | [] => s

/-- `with_csv`: fold a handler over the rows of a file, if the archive has it. -/
def withCsv {S : Type} (zip : List ZipEntry) (name : String) (f : S → Row → S) (s : S) : Except String S :=
  match indexOf zip name with
  | none => .ok s
  | some e =>
    if !e.opens then .error ("open " ++ name)
    else
      match e.headers with
      | none => .error ("headers " ++ name)
      | some header => .ok (readRows f (headerIndex header) s e.rows)

/-! ## A row of each file -/

def feedInfoRow (store : GtfsStore) (row : Row) : GtfsStore :=
  if store.feedVersion.isEmpty then { store with feedVersion := row.get "feed_version" } else store

def agencyRow (store : GtfsStore) (row : Row) : GtfsStore :=
  match row.find "agency_id" with
  | none => store
  | some id => { store with agencies := store.agencies.insert id (row.get "agency_name") }

def routeRow (store : GtfsStore) (row : Row) : GtfsStore :=
  match row.find "route_id" with
  | none => store
  | some routeId =>
    let rt := ((Text.parseI32? (row.get "route_type").toList).map Int32.toInt).getD (-1)
    let route : RouteInfo :=
      { routeId := routeId
        agencyId := row.find "agency_id"
        shortName := row.get "route_short_name"
        longName := row.get "route_long_name"
        vehicleType := VehicleType.fromGtfsRouteType rt
        color := row.find "route_color"
        textColor := row.find "route_text_color" }
    { store with routes := store.routes.insert routeId route }

/-- The line code in an `IFF` realtime id. -/
def lineCode (rt : String) : Option String := do
  let (owner, rest) ← Text.splitOnce ':' rt.toList
  guard (owner = TRAIN_DATAOWNER.toList)
  let (code, _) ← Text.splitOnce ':' rest
  some (String.ofList code)

/-- The train number a rail trip joins by. -/
def trainNumber (store : GtfsStore) (routeId : String) (row : Row) : Option String := do
  let number ← row.find "trip_short_name"
  let route ← store.routes.lookup routeId
  guard (route.vehicleType = .train)
  some number

def tripRow (store : GtfsStore) (row : Row) : GtfsStore :=
  match row.find "trip_id" with
  | none => store
  | some tripId =>
    let trip : TripInfo :=
      { tripId := tripId
        routeId := row.get "route_id"
        headsign := row.get "trip_headsign"
        blockId := row.find "block_id"
        shapeId := row.find "shape_id"
        serviceId := row.get "service_id"
        longName := row.get "trip_long_name"
        realtimeTripId := row.find "realtime_trip_id" }
    let store := { store with trips := store.trips.insert tripId trip }
    match trip.realtimeTripId with
    | none => store
    | some rt =>
      let trains :=
        match trainNumber store trip.routeId row, lineCode rt with
        | some number, some code => Map.push number { tripId := tripId, lineCode := code } store.trainTrips
        | _, _ => store.trainTrips
      { store with trainTrips := trains, tripByKey := store.tripByKey.insert rt tripId }

def stopRow (store : GtfsStore) (row : Row) : GtfsStore :=
  match row.find "stop_id" with
  | none => store
  | some id =>
    let stop : StopInfo :=
      { stopId := id
        name := row.get "stop_name"
        lat := row.float "stop_lat"
        lon := row.float "stop_lon"
        code := row.find "stop_code"
        platformCode := row.find "platform_code"
        parentStation := row.find "parent_station"
        locationType := (Text.parseI32? (row.get "location_type").toList).getD 0 }
    { store with stops := store.stops.insert id stop }

/-- Sets of dates by service: the dates added and those removed. -/
structure Services where
  added : Map String (List UInt32) := ∅
  removed : Map String (List UInt32) := ∅

/-- Insert a date into the set of a service, which is created if new. -/
def insertDate (sid : String) (date : UInt32) (m : Map String (List UInt32)) : Map String (List UInt32) :=
  m.insert sid ((Map.valuesAt m sid).insert date)

/-- The days of a range that the mask allows, at most `fuel` days on. -/
def maskedDays (mask : List Bool) (last : NaiveDate) : Nat → NaiveDate → List UInt32 → List UInt32
  | 0, _, set => set
  | fuel + 1, day, set =>
    if last.days < day.days then set
    else maskedDays mask last fuel (day.addDays 1) (if mask.getD day.weekday false then set.insert (ymdU32 day) else set)

def DAYS : List String := ["monday", "tuesday", "wednesday", "thursday", "friday", "saturday", "sunday"]

def calendarRow (s : Services) (row : Row) : Services :=
  match row.find "service_id", parseGtfsDate (row.get "start_date"), parseGtfsDate (row.get "end_date") with
  | some sid, some first, some last =>
    let mask := DAYS.map fun d => decide (row.get d = "1")
    { s with added := s.added.insert sid (maskedDays mask last (366 * 2) first (Map.valuesAt s.added sid)) }
  | _, _, _ => s

def calendarDateRow (s : Services) (row : Row) : Services :=
  match parseGtfsDate (row.get "date"), row.find "service_id" with
  | some date, some sid =>
    if row.get "exception_type" = "2" then { s with removed := insertDate sid (ymdU32 date) s.removed }
    else { s with added := insertDate sid (ymdU32 date) s.added }
  | _, _ => s

/-- The dates left of each service, ascending; services without any are dropped. -/
def Services.dates (s : Services) : Map String (List UInt32) where
  entries := (s.added.entries.map fun e =>
    ⟨e.1, (e.2.filter fun d => d ∉ Map.valuesAt s.removed e.1).insertionSort (· ≤ ·)⟩).filter fun e => !e.2.isEmpty
  nodupKeys := by
    refine List.Pairwise.sublist (List.Sublist.map _ List.filter_sublist) ?_
    rw [List.map_map]
    exact s.added.nodupKeys

def stopTimeRow (store : GtfsStore) (row : Row) : GtfsStore :=
  match row.find "trip_id" with
  | none => store
  | some tripId =>
    let st : StopTime :=
      { stopId := row.get "stop_id"
        stopSequence := (Text.parseU32? (row.get "stop_sequence").toList).getD 0
        arrival := (parseGtfsTime (row.get "arrival_time")).getD 0
        departure := (parseGtfsTime (row.get "departure_time")).getD 0 }
    { store with stopTimes := Map.push tripId st store.stopTimes }

/-- The points of the shapes, with their sequence numbers. -/
abbrev ShapePoints := Map String (List (Int × (Num × Num)))

def shapeRow (shapes : ShapePoints) (row : Row) : ShapePoints :=
  match row.find "shape_id" with
  | none => shapes
  | some sid =>
    let seq := (Text.parseI64? (row.get "shape_pt_sequence").toList).getD 0
    Map.push sid (seq, (row.float "shape_pt_lat", row.float "shape_pt_lon")) shapes

/-! ## The feed -/

/-- `parse_services`. -/
def parseServices (zip : List ZipEntry) (store : GtfsStore) : Except String GtfsStore := do
  let s ← withCsv zip "calendar.txt" calendarRow {}
  let s ← withCsv zip "calendar_dates.txt" calendarDateRow s
  return { store with serviceDates := s.dates }

/-- `parse_reader`. The sorts are stable ones. -/
def parseReader (file : GtfsZip) : Except String GtfsStore := do
  let some zip := file | .error "open gtfs zip"
  let store ← withCsv zip "feed_info.txt" feedInfoRow {}
  let store ← withCsv zip "agency.txt" agencyRow store
  let store ← withCsv zip "routes.txt" routeRow store
  let store ← withCsv zip "trips.txt" tripRow store
  let store ← withCsv zip "stops.txt" stopRow store
  let store ← parseServices zip store
  let store ← withCsv zip "stop_times.txt" stopTimeRow store
  let store :=
    { store with
      stopTimes := Map.mapValues (List.insertionSort fun a b => a.stopSequence ≤ b.stopSequence) store.stopTimes }
  let shapes ← withCsv zip "shapes.txt" shapeRow ∅
  return { store with
    shapes := Map.mapValues (fun pts => (pts.insertionSort fun a b => a.1 ≤ b.1).map Prod.snd) shapes }

end Gtfs

end OV.Impl
