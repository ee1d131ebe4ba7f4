import Ovlive.Framework.Sorted
import Ovlive.Proof.Gtfs.Parse

/-!
# The tables of calls and of shapes

What `stop_times.txt` and `shapes.txt` leave in a parsed feed: under each trip,
and under each shape, the rows that name it, by their sequence numbers
(`feedOf_stopTimes`, `feedOf_shapes`).
-/

namespace OV.Impl.Gtfs

/-- The call of a row of `stop_times.txt`. -/
def stopTimeOf (row : Row) : StopTime where
  stopId := row.get "stop_id"
  stopSequence := (Text.parseU32? (row.get "stop_sequence").toList).getD 0
  arrival := (parseGtfsTime (row.get "arrival_time")).getD 0
  departure := (parseGtfsTime (row.get "departure_time")).getD 0

/-- The point of a row of `shapes.txt`, with its sequence number. -/
def shapePointOf (row : Row) : Int × (Num × Num) :=
  ((Text.parseI64? (row.get "shape_pt_sequence").toList).getD 0, (row.float "shape_pt_lat", row.float "shape_pt_lon"))

/-- The rows of a key, in the order of the file. -/
def rowsFor (column : String) (rows : List Row) (k : String) : List Row := rows.filter fun row => row.find column = some k

/-- A value of each row that has a key. -/
def keyed {V : Type} (column : String) (f : Row → V) (row : Row) : Option (String × V) :=
  (row.find column).map fun k => (k, f row)

theorem groupAt_keyed {V : Type} (column : String) (f : Row → V) (rows : List Row) (k : String) :
    Map.groupAt (keyed column f) rows k = (rowsFor column rows k).map f := by
  rw [Map.groupAt, rowsFor, ← List.filterMap_eq_map, List.filterMap_filter]
  refine List.filterMap_congr fun row _ => ?_
  unfold keyed
  cases row.find column with
  | none => simp
  | some k' =>
    by_cases hk : k' = k
    · simp [hk]
    · simp [hk]

theorem foldl_stopTimeRow (rows : List Row) (s : GtfsStore) :
    (rows.foldl stopTimeRow s).stopTimes = Map.group (keyed "trip_id" stopTimeOf) rows s.stopTimes := by
  induction rows generalizing s with
  | nil => rfl
  | cons row rows ih =>
    rw [List.foldl_cons, ih, Map.group, Map.group, List.foldl_cons]
    congr 1
    unfold stopTimeRow keyed
    cases row.find "trip_id" <;> rfl

theorem foldl_shapeRow (rows : List Row) : rows.foldl shapeRow ∅ = Map.group (keyed "shape_id" shapePointOf) rows ∅ := by
  rw [Map.group]
  congr 1
  funext shapes row
  unfold shapeRow keyed
  cases row.find "shape_id" <;> rfl

/-- Before `stop_times.txt` no trip has calls. -/
theorem beforeStopTimes (rows : String → List Row) :
    ((rows "stops.txt").foldl stopRow ((rows "trips.txt").foldl tripRow (beforeTrips rows))).stopTimes = ∅ := by
  unfold beforeTrips
  rw [foldl_frame GtfsStore.stopTimes fun s row => (congrArg GtfsStore.stopTimes (stopRow_frame s row)).trans rfl,
    foldl_frame GtfsStore.stopTimes fun s row => (congrArg GtfsStore.stopTimes (tripRow_frame s row)).trans rfl,
    foldl_frame GtfsStore.stopTimes fun s row => (congrArg GtfsStore.stopTimes (routeRow_frame s row)).trans rfl,
    foldl_frame GtfsStore.stopTimes fun s row => (congrArg GtfsStore.stopTimes (agencyRow_frame s row)).trans rfl,
    foldl_frame GtfsStore.stopTimes fun s row => (congrArg GtfsStore.stopTimes (feedInfoRow_frame s row)).trans rfl]

/-- The calls of a trip: those of its rows, by sequence number. -/
theorem feedOf_stopTimes (rows : String → List Row) (tid : String) :
    (feedOf rows).stopTimes.lookup tid =
      if rowsFor "trip_id" (rows "stop_times.txt") tid = [] then none
      else some (((rowsFor "trip_id" (rows "stop_times.txt") tid).map stopTimeOf).insertionSort fun a b =>
        a.stopSequence ≤ b.stopSequence) := by
  have htable : (feedOf rows).stopTimes =
      Map.mapValues (List.insertionSort fun a b => a.stopSequence ≤ b.stopSequence)
        (Map.group (keyed "trip_id" stopTimeOf) (rows "stop_times.txt") ∅) := by
    show Map.mapValues _ (GtfsStore.stopTimes (List.foldl stopTimeRow _ _)) = _
    rw [foldl_stopTimeRow]
    exact congrArg (fun m => Map.mapValues _ (Map.group _ _ m)) (beforeStopTimes rows)
  rw [htable, Map.lookup_mapValues, Map.lookup_group, groupAt_keyed]
  simp only [List.map_eq_nil_iff]
  split <;> rfl

/-- The points of a shape: those of its rows, by sequence number. -/
theorem feedOf_shapes (rows : String → List Row) (sid : String) :
    (feedOf rows).shapes.lookup sid =
      if rowsFor "shape_id" (rows "shapes.txt") sid = [] then none
      else some ((((rowsFor "shape_id" (rows "shapes.txt") sid).map shapePointOf).insertionSort fun a b =>
        a.1 ≤ b.1).map Prod.snd) := by
  have htable : (feedOf rows).shapes = Map.mapValues (fun pts => (pts.insertionSort fun a b => a.1 ≤ b.1).map Prod.snd)
      (Map.group (keyed "shape_id" shapePointOf) (rows "shapes.txt") ∅) := by
    rw [← foldl_shapeRow]
    rfl
  rw [htable, Map.lookup_mapValues, Map.lookup_group, groupAt_keyed]
  simp only [List.map_eq_nil_iff]
  split <;> rfl

end OV.Impl.Gtfs
