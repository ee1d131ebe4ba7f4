import Ovlive.Framework.Latest
import Ovlive.Proof.Api.Axis
import Ovlive.Proof.Gtfs.Parse
import Ovlive.Proof.Gtfs.Resolve
import Ovlive.Proof.Gtfs.Stops

/-!
# The trip a vehicle is joined to

A vehicle that is no train is joined by `trip_by_key`, which has one trip for
each key: that of the last row of `trips.txt` that carries it
(`feedOf_tripByKey`). The calls shown for the vehicle are those of that trip
(`ShownOn`), so `matched_on_day_iff`: they are the day's exactly if that row is.
-/

namespace OV.Impl

namespace Gtfs

variable {rows : List Row} {row : Row} {k : String}

/-- The last row of `trips.txt` that carries a key. -/
def lastWith (rows : List Row) (k : String) : Option Row :=
  latest (fun row => if (row.find "trip_id").isSome ∧ row.find "realtime_trip_id" = some k then some row else none) rows

theorem find_eq_some {c v : String} (h : row.find c = some v) : row.get c = v := by
  unfold Row.find at h
  split at h
  · cases h
  · exact Option.some.inj h

/-- A row with a trip and a key joins the key to the trip. -/
theorem tripRow_tripByKey (s : GtfsStore) (row : Row) (k : String) :
    (tripRow s row).tripByKey.lookup k =
      if (row.find "trip_id").isSome ∧ row.find "realtime_trip_id" = some k then some (row.get "trip_id")
      else s.tripByKey.lookup k := by
  unfold tripRow
  cases hid : row.find "trip_id" with
  | none => simp
  | some tid =>
    have hget := find_eq_some hid
    cases hrt : row.find "realtime_trip_id" with
    | none => simp
    | some rt =>
      by_cases hk : rt = k
      · simp [hk, hget, AList.lookup_insert]
      · simp [hk, AList.lookup_insert_ne (Ne.symm hk)]

theorem foldl_tripRow_tripByKey (rows : List Row) (s : GtfsStore) (k : String) :
    (rows.foldl tripRow s).tripByKey.lookup k =
      ((lastWith rows k).map fun row => row.get "trip_id").or (s.tripByKey.lookup k) := by
  induction rows using List.reverseRecOn with
  | nil => rfl
  | append_singleton rows row ih =>
    have hsnoc : lastWith (rows ++ [row]) k =
        (if (row.find "trip_id").isSome ∧ row.find "realtime_trip_id" = some k then some row else none).or
          (lastWith rows k) := latest_snoc _ _ _
    rw [List.foldl_append, List.foldl_cons, List.foldl_nil, tripRow_tripByKey, ih, hsnoc]
    split <;> rfl

/-- The tables of a store that `trips.txt` alone fills. -/
def tripTables (s : GtfsStore) : Map String String × Map String TripInfo := (s.tripByKey, s.trips)

/-- What a feed has from its trips: the rows before them leave the tables
empty, and the rows after them leave them alone. -/
theorem feedOf_tripTables (rows : String → List Row) :
    ∃ s, tripTables s = (∅, ∅) ∧ tripTables (feedOf rows) = tripTables ((rows "trips.txt").foldl tripRow s) := by
  obtain ⟨htrips, -, hkeys, -⟩ := beforeTrips_empty rows
  refine ⟨beforeTrips rows, by rw [tripTables, htrips, hkeys], ?_⟩
  refine (foldl_frame tripTables (fun s row => (congrArg tripTables (stopTimeRow_frame s row)).trans rfl) _ _).trans ?_
  exact foldl_frame tripTables (fun s row => (congrArg tripTables (stopRow_frame s row)).trans rfl) _ _

/-- Of a feed's rows that carry a key, the last one is joined to it. -/
theorem feedOf_tripByKey (rows : String → List Row) (k : String) :
    (feedOf rows).tripByKey.lookup k = (lastWith (rows "trips.txt") k).map fun row => row.get "trip_id" := by
  obtain ⟨s, h0, h⟩ := feedOf_tripTables rows
  rw [show (feedOf rows).tripByKey = _ from congrArg Prod.fst h]
  refine (foldl_tripRow_tripByKey _ s k).trans ?_
  rw [show s.tripByKey = ∅ from congrArg Prod.fst h0, AList.lookup_empty, Option.or_none]

/-! ## The trips of a feed -/

theorem tripRow_keyed (s : GtfsStore) (row : Row) (h : s.Keyed) : (tripRow s row).Keyed := by
  unfold tripRow
  cases hid : row.find "trip_id" with
  | none => exact h
  | some tid =>
    cases row.find "realtime_trip_id" with
    | none => exact Map.forall_insert rfl h
    | some rt => exact Map.forall_insert rfl h

theorem foldl_tripRow_keyed (rows : List Row) {s : GtfsStore} (h : s.Keyed) : (rows.foldl tripRow s).Keyed := by
  induction rows generalizing s with
  | nil => exact h
  | cons row rows ih => exact ih (tripRow_keyed s row h)

/-- A feed has its trips under their own ids. -/
theorem feedOf_keyed (rows : String → List Row) : (feedOf rows).Keyed := by
  obtain ⟨s, h0, h⟩ := feedOf_tripTables rows
  have hs : s.Keyed := by
    intro id t ht
    rw [show s.trips = ∅ from congrArg Prod.snd h0, AList.lookup_empty] at ht
    cases ht
  intro id t ht
  rw [show (feedOf rows).trips = _ from congrArg Prod.snd h] at ht
  exact foldl_tripRow_keyed _ hs id t ht

end Gtfs

/-! ## The calls shown -/

section

variable [Platform] {store : GtfsStore} {t : LiveTrip} {tid k : String} {day : NaiveDate}

/-- What is shown of a vehicle's timetable is that of a trip which runs on the
day: the vehicle is matched to it, and its calls are what `vehicle_trip` and
`details` list and what a position is taken from. -/
structure ShownOn (store : GtfsStore) (t : LiveTrip) (day : NaiveDate) (tid : String) : Prop where
  matched : t.matchedTripId = some tid
  runs : store.tripRunsOn tid (dateKey day) = true
  vehicle : ∀ live gtfs id r, gtfs.store = some store → live.trips.lookup id = some t →
    vehicleTrip live gtfs id = .ok r → r.stops = store.tripStops tid
  details : ∀ tz live index gtfs id r, gtfs.store = some store → resolve live index id = some t →
    details tz live index gtfs id = .ok r →
      r.stops = ((store.stopTimes.lookup tid).getD []).filterMap (detailsStop store (operatingDay t) tz)
  position : store.scheduledPositionOf t = none ∨
    ∃ times target, store.stopTimes.lookup tid = some times ∧ store.scheduledPositionOf t = store.anchorAt times target

omit [Platform] in
theorem vehicleTrip_stops {live : LiveState} {gtfs : GtfsService} {id : String} {r : VehicleTripJson}
    (h : t.matchedTripId = some tid) (hs : gtfs.store = some store) (hl : live.trips.lookup id = some t)
    (hr : vehicleTrip live gtfs id = .ok r) : r.stops = store.tripStops tid := by
  simp only [vehicleTrip, hl, hs, h, Except.ok.injEq] at hr
  rw [← hr]

omit [Platform] in
theorem details_stops {tz : Tz} {live : LiveState} {index : VehicleIndex} {gtfs : GtfsService} {id : String}
    {r : TripDetailsResponse} (h : t.matchedTripId = some tid) (hs : gtfs.store = some store)
    (hl : resolve live index id = some t) (hr : details tz live index gtfs id = .ok r) :
    r.stops = ((store.stopTimes.lookup tid).getD []).filterMap (detailsStop store (operatingDay t) tz) := by
  simp only [OV.Impl.details, hl, hs, h] at hr
  cases hr
  rfl

theorem shownOn_iff : (∃ tid, ShownOn store t day tid) ↔
    ∃ tid, t.matchedTripId = some tid ∧ store.tripRunsOn tid (dateKey day) = true := by
  refine exists_congr fun tid => ⟨fun h => ⟨h.matched, h.runs⟩, ?_⟩
  rintro ⟨h, hruns⟩
  refine ⟨h, hruns, fun _ _ _ _ hs hl hr => vehicleTrip_stops h hs hl hr,
    fun _ _ _ _ _ _ hs hl hr => details_stops h hs hl hr, ?_⟩
  rw [scheduledPositionOf_eq, h, Option.bind_some]
  cases ht : store.stopTimes.lookup tid with
  | none => exact .inl rfl
  | some times =>
    cases (operatingDay t).bind (fixNow Platform.amsterdam t.lastUpdate) with
    | none => exact .inl rfl
    | some now => exact .inr ⟨times, _, rfl, rfl⟩

/-- A vehicle that is no train, has no match yet, and whose key and operating
day are known. -/
structure Joins (t : LiveTrip) (k : String) (day : NaiveDate) : Prop where
  noTrain : t.key.dataowner ≠ TRAIN_DATAOWNER
  unmatched : t.matchedTripId = none
  key : t.realtimeTripId = some k
  day : operatingDay t = some day

theorem Joins.matchedTripId (h : Joins t k day) (store : GtfsStore) :
    (store.enrichTrip t).matchedTripId = store.tripByKey.lookup k := by
  rw [GtfsStore.enrichTrip_matchedTripId, h.unmatched, Option.none_or, GtfsStore.matchOf, if_neg h.noTrain]
  have hkey := h.key
  simp only [LiveTrip.realtimeTripId, Option.bind_eq_bind, Option.bind_eq_some_iff, Option.some.injEq] at hkey
  obtain ⟨line, hline, journey, hjourney, hk⟩ := hkey
  simp only [GtfsStore.matchTripId, hline, hjourney, Option.bind_eq_bind, Option.bind_some]
  rw [← hk, GtfsStore.realtimeTripId]

/-- Enrichment by the feed of an archive shows a vehicle the timetable of its
day exactly if, of the rows that carry its key, the last one read names a trip
that runs on the day. -/
theorem matched_on_day_iff (zip : List ZipEntry) (store : GtfsStore) (t : LiveTrip) (k : String) (day : NaiveDate)
    (hstore : Gtfs.parseReader (some zip) = .ok store) (ht : Joins t k day) :
    (∃ tid, ShownOn store (store.enrichTrip t) day tid) ↔
      ∃ row, Gtfs.lastWith (Gtfs.rowsOf zip "trips.txt") k = some row ∧
        store.tripRunsOn (row.get "trip_id") (dateKey day) = true := by
  have hkey : store.tripByKey.lookup k =
      (Gtfs.lastWith (Gtfs.rowsOf zip "trips.txt") k).map fun row => row.get "trip_id" := by
    rw [Gtfs.eq_feedOf hstore, Gtfs.feedOf_tripByKey]
  rw [shownOn_iff, ht.matchedTripId, hkey]
  cases Gtfs.lastWith (Gtfs.rowsOf zip "trips.txt") k <;> simp

/-- A feed with a journey that is one trip on weekdays and another on a Saturday. -/
def weekZip : List ZipEntry :=
  [{ name := "trips.txt", headers := some ["trip_id", "service_id", "realtime_trip_id"]
     rows := [some ["101", "weekdays", "HTM:11:110002"], some ["102", "saturday", "HTM:11:110002"]] },
    { name := "calendar_dates.txt", headers := some ["service_id", "date"]
      rows := [some ["weekdays", "20260925"], some ["saturday", "20260926"]] }]

/-- A tram on that journey on a day. -/
def tram (day : String) : LiveTrip :=
  { LiveTrip.new { dataowner := "HTM", vehicleNumber := "3001" } 0 with
    linePlanningNumber := some "11", journeyNumber := some "110002", operatingDay := some day }

omit [Platform] in
theorem weekZip_store : Gtfs.parseReader (some weekZip) = .ok (Gtfs.feedOf (Gtfs.rowsOf weekZip)) := by
  rw [Gtfs.parseReader_eq, show Gtfs.FILES.findSome? (Gtfs.fileError weekZip) = none by decide +kernel]

omit [Platform] in
theorem tram_joins {day : String} {d : NaiveDate} (h : NaiveDate.parseDashed day = some d) :
    Joins (tram day) "HTM:11:110002" d where
  noTrain := show "HTM" ≠ "IFF" by decide
  unmatched := rfl
  key := show some ("HTM" ++ ":" ++ "11" ++ ":" ++ "110002") = some "HTM:11:110002" by decide +kernel
  day := h

omit [Platform] in
/-- On the Saturday it has the timetable of the day. -/
theorem matched_on_day_iff_saturday :
    let _ := plainPlatform
    ∃ tid, ShownOn (Gtfs.feedOf (Gtfs.rowsOf weekZip))
      ((Gtfs.feedOf (Gtfs.rowsOf weekZip)).enrichTrip (tram "2026-09-26")) ⟨20722⟩ tid :=
  let _ := plainPlatform
  (matched_on_day_iff weekZip _ (tram "2026-09-26") "HTM:11:110002" ⟨20722⟩ weekZip_store
    (tram_joins (by decide +kernel))).mpr ⟨{
      columns := Gtfs.headerIndex ["trip_id", "service_id", "realtime_trip_id"]
      fields := ["102", "saturday", "HTM:11:110002"] }, rfl, by decide +kernel⟩

omit [Platform] in
/-- On the Friday it has the Saturday's, though a trip with its key runs. -/
theorem not_matched_on_day :
    let _ := plainPlatform
    ¬ ∀ (zip : List ZipEntry) (store : GtfsStore) (t : LiveTrip) (k : String) (day : NaiveDate),
      Gtfs.parseReader (some zip) = .ok store → Joins t k day →
      (∃ tid info, store.trips.lookup tid = some info ∧ info.realtimeTripId = some k ∧
        store.runsOn info.serviceId (dateKey day) = true) →
      ∃ tid, ShownOn store (store.enrichTrip t) day tid := by
  intro _ h
  have hjoins : Joins (tram "2026-09-25") "HTM:11:110002" ⟨20721⟩ := tram_joins (by decide +kernel)
  have hany : ((Gtfs.feedOf (Gtfs.rowsOf weekZip)).trips.lookup "101").any (fun info =>
      info.realtimeTripId = some "HTM:11:110002" &&
        (Gtfs.feedOf (Gtfs.rowsOf weekZip)).runsOn info.serviceId (dateKey ⟨20721⟩)) := by
    decide +kernel
  obtain ⟨info, hinfo, hboth⟩ := (Option.any_eq_true _ _).mp hany
  rw [Bool.and_eq_true, decide_eq_true_eq] at hboth
  obtain ⟨tid, hshown⟩ := h weekZip _ (tram "2026-09-25") "HTM:11:110002" ⟨20721⟩ weekZip_store hjoins
    ⟨"101", info, hinfo, hboth⟩
  have hmatch := hshown.matched
  rw [hjoins.matchedTripId, show (Gtfs.feedOf (Gtfs.rowsOf weekZip)).tripByKey.lookup
    "HTM:11:110002" = some "102" by decide +kernel, Option.some.injEq] at hmatch
  have hruns := hshown.runs
  rw [← hmatch] at hruns
  exact absurd hruns (by decide +kernel)

end

end OV.Impl
