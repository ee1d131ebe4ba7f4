import Ovlive.Impl.Realtime.Ns
import Ovlive.Proof.Gtfs.Joined
import Ovlive.Proof.Gtfs.Resolve

/-!
# Trains join their board rows

A board row looks its vehicle up by the `realtime_trip_id` of the row's trip.
A train is matched by its number, to one of the trips that `trips.txt` files
under it (`mem_trainTrips`), and takes that trip's line code, whatever code it
had. `Joined` says so of a train, `joined_eventTrip` that an event keeps it,
and `joined_of_matched` that in every run a matched train has the id of its
trip.
-/

namespace OV.Impl

namespace Gtfs

variable {row : Row} {number tid : String} {s : GtfsStore}

/-- What a row files under a train number. -/
structure Files (routes : Map String RouteInfo) (row : Row) (number : String) (c : TrainTrip) : Prop where
  tripId : row.find "trip_id" = some c.tripId
  number : row.find "trip_short_name" = some number
  lineCode : ∃ rt, row.find "realtime_trip_id" = some rt ∧ lineCode rt = some c.lineCode
  rail : ∃ route, routes.lookup (row.get "route_id") = some route ∧ route.vehicleType = .train

theorem tripRow_routes (s : GtfsStore) (row : Row) : (tripRow s row).routes = s.routes :=
  (congrArg GtfsStore.routes (tripRow_frame s row)).trans rfl

theorem tripRow_trips_eq (s : GtfsStore) (h : row.find "trip_id" = some tid) :
    ∃ trip : TripInfo, trip.realtimeTripId = row.find "realtime_trip_id" ∧
      (tripRow s row).trips = s.trips.insert tid trip := by
  unfold tripRow
  rw [h]
  simp only
  cases hrt : row.find "realtime_trip_id" with
  | none => exact ⟨_, rfl, rfl⟩
  | some rt => exact ⟨_, rfl, rfl⟩

/-- A trip has the realtime id of its row. -/
theorem tripRow_trips (s : GtfsStore) (row : Row) (tid : String) :
    ((tripRow s row).trips.lookup tid).map TripInfo.realtimeTripId =
      if row.find "trip_id" = some tid then some (row.find "realtime_trip_id")
      else (s.trips.lookup tid).map TripInfo.realtimeTripId := by
  cases hid : row.find "trip_id" with
  | none =>
    unfold tripRow
    rw [hid, if_neg nofun]
  | some tid' =>
    obtain ⟨trip, htrip, htrips⟩ := tripRow_trips_eq s hid
    rw [htrips]
    by_cases h : tid = tid'
    · rw [h, AList.lookup_insert, if_pos rfl, Option.map_some, htrip]
    · rw [AList.lookup_insert_ne h, if_neg fun e => h (Option.some.inj e).symm]

theorem trainNumber_eq_some {routeId : String} :
    trainNumber s routeId row = some number ↔
      row.find "trip_short_name" = some number ∧
        ∃ route, s.routes.lookup routeId = some route ∧ route.vehicleType = .train := by
  simp only [trainNumber, Option.bind_eq_bind, Option.bind_eq_some_iff, guard, Option.pure_def]
  constructor
  · rintro ⟨n, hn, route, hroute, _, hrail, he⟩
    cases he
    split at hrail
    · rename_i h
      exact ⟨hn, route, hroute, h⟩
    · cases hrail
  · rintro ⟨hn, route, hroute, hrail⟩
    exact ⟨number, hn, route, hroute, (), by rw [if_pos hrail], rfl⟩

theorem mem_tripRow_trainTrips {c : TrainTrip} (h : c ∈ Map.valuesAt (tripRow s row).trainTrips number) :
    c ∈ Map.valuesAt s.trainTrips number ∨ Files s.routes row number c := by
  unfold tripRow at h
  cases hid : row.find "trip_id" with
  | none =>
    rw [hid] at h
    exact .inl h
  | some tid =>
    rw [hid] at h
    simp only at h
    cases hrt : row.find "realtime_trip_id" with
    | none =>
      rw [hrt] at h
      exact .inl h
    | some rt =>
      rw [hrt] at h
      simp only at h
      split at h
      · rename_i n code hn hcode
        rw [Map.valuesAt_push] at h
        rcases List.mem_append.mp h with h | h
        · exact .inl h
        · split at h
          · rename_i hnumber
            obtain rfl := List.mem_singleton.mp h
            obtain ⟨hshort, hrail⟩ := trainNumber_eq_some.mp hn
            exact .inr ⟨hid, hnumber ▸ hshort, ⟨rt, hrt, hcode⟩, hrail⟩
          · cases h
      · exact .inl h

/-- What the rows of `trips.txt` file under a train number. -/
theorem mem_foldl_trainTrips {rows : List Row} {c : TrainTrip}
    (h : c ∈ Map.valuesAt (rows.foldl tripRow s).trainTrips number) :
    c ∈ Map.valuesAt s.trainTrips number ∨ ∃ row ∈ rows, Files s.routes row number c := by
  induction rows generalizing s with
  | nil => exact .inl h
  | cons row rows ih =>
    rcases ih h with h | ⟨row', hmem, hfiles⟩
    · rcases mem_tripRow_trainTrips h with h | h
      · exact .inl h
      · exact .inr ⟨row, List.mem_cons_self, h⟩
    · rw [tripRow_routes] at hfiles
      exact .inr ⟨row', List.mem_cons_of_mem row hmem, hfiles⟩

/-- Where the trip ids differ, every trip has the realtime id of its row. -/
theorem foldl_tripRow_trips {rows : List Row} (hunique : (rows.filterMap fun row => row.find "trip_id").Nodup)
    (s : GtfsStore) {row : Row} (hrow : row ∈ rows) (htid : row.find "trip_id" = some tid) :
    ((rows.foldl tripRow s).trips.lookup tid).map TripInfo.realtimeTripId = some (row.find "realtime_trip_id") := by
  induction rows using List.reverseRecOn with
  | nil => cases hrow
  | append_singleton rows last ih =>
    rw [List.filterMap_append, List.nodup_append] at hunique
    obtain ⟨hinit, -, hdisjoint⟩ := hunique
    rw [List.foldl_append, List.foldl_cons, List.foldl_nil, tripRow_trips]
    rcases List.mem_append.mp hrow with hmem | hmem
    · rw [if_neg]
      · exact ih hinit hmem
      · intro hlast
        exact hdisjoint tid (List.mem_filterMap.mpr ⟨row, hmem, htid⟩) tid
          (List.mem_filterMap.mpr ⟨last, List.mem_cons_self, hlast⟩) rfl
    · obtain rfl := List.mem_singleton.mp hmem
      rw [if_pos htid]

/-- The tables of a store that the trains are matched by. -/
def railTables (s : GtfsStore) : Map String RouteInfo × Map String TripInfo × Map String (List TrainTrip) :=
  (s.routes, s.trips, s.trainTrips)

/-- A feed has these tables from its routes and its trips: the files before
them leave the trips empty, and those after them leave the tables alone. -/
theorem feedOf_railTables (rows : String → List Row) :
    ∃ s, s.trips = ∅ ∧ s.trainTrips = ∅ ∧
      railTables (feedOf rows) = railTables ((rows "trips.txt").foldl tripRow s) := by
  obtain ⟨htrips, htrains, -, -⟩ := beforeTrips_empty rows
  refine ⟨beforeTrips rows, htrips, htrains, ?_⟩
  refine (foldl_frame railTables (fun s row => (congrArg railTables (stopTimeRow_frame s row)).trans rfl) _ _).trans ?_
  exact foldl_frame railTables (fun s row => (congrArg railTables (stopRow_frame s row)).trans rfl) _ _

theorem lineCode_realtimeTripId {code : String} (h : ':' ∉ code.toList) (number : String) :
    lineCode (GtfsStore.realtimeTripId TRAIN_DATAOWNER code number) = some code := by
  have htext : (GtfsStore.realtimeTripId TRAIN_DATAOWNER code number).toList =
      TRAIN_DATAOWNER.toList ++ ':' :: (code.toList ++ ':' :: number.toList) := by
    simp [GtfsStore.realtimeTripId, String.toList_append]
  rw [lineCode, htext, Text.splitOnce_append (by decide)]
  simp [Text.splitOnce_append h]

/-- Every rail trip has the realtime id of a line code and its train number. -/
def RailIds (store : GtfsStore) (row : Row) : Prop :=
  (row.find "trip_id").isSome → ∀ route, store.routes.lookup (row.get "route_id") = some route →
    route.vehicleType = .train →
      ∃ code : String, ':' ∉ code.toList ∧
        row.get "realtime_trip_id" = GtfsStore.realtimeTripId TRAIN_DATAOWNER code (row.get "trip_short_name")

/-- What is filed under a train number is a trip of the feed, which has the
realtime id of its line code and the number. -/
theorem mem_trainTrips {rows : String → List Row} {c : TrainTrip}
    (hunique : ((rows "trips.txt").filterMap fun row => row.find "trip_id").Nodup)
    (hrail : ∀ row ∈ rows "trips.txt", RailIds (feedOf rows) row)
    (h : c ∈ Map.valuesAt (feedOf rows).trainTrips number) :
    ∃ info, (feedOf rows).trips.lookup c.tripId = some info ∧
      info.realtimeTripId = some (GtfsStore.realtimeTripId TRAIN_DATAOWNER c.lineCode number) := by
  obtain ⟨s, htrips, htrains, htables⟩ := feedOf_railTables rows
  simp only [railTables, Prod.mk.injEq] at htables
  obtain ⟨hroutes, htrips', htrains'⟩ := htables
  rw [htrains'] at h
  rcases mem_foldl_trainTrips h with h | ⟨row, hmem, hfiles⟩
  · rw [htrains] at h
    cases h
  · obtain ⟨rt, hrt, hline⟩ := hfiles.lineCode
    obtain ⟨route, hroute, htype⟩ := hfiles.rail
    have hr : (feedOf rows).routes.lookup (row.get "route_id") = some route := by
      rw [hroutes, foldl_frame GtfsStore.routes tripRow_routes, hroute]
    obtain ⟨code, hcode, hid⟩ := hrail row hmem (by rw [hfiles.tripId]; rfl) route hr htype
    rw [find_eq_some hrt, find_eq_some hfiles.number] at hid
    rw [hid, lineCode_realtimeTripId hcode, Option.some.injEq] at hline
    have hinfo := foldl_tripRow_trips hunique s hmem hfiles.tripId
    rw [← htrips', Option.map_eq_some_iff] at hinfo
    obtain ⟨info, hinfo, hreal⟩ := hinfo
    exact ⟨info, hinfo, by rw [hreal, hrt, hid, hline]⟩

end Gtfs

/-! ## Matched trains -/

section

variable [Platform] {store : GtfsStore} {t u : LiveTrip} {delays : Option TrainDelays} {o : Option LiveTrip}
  {e : PosEvent}

/-- A train event, as the position feed makes them. -/
def TrainEvent (e : PosEvent) : Prop := ∃ number p now, e = Ns.eventFor number p now

/-- A train that has a match has the number it is filed under and its line code. -/
structure Joined (store : GtfsStore) (t : LiveTrip) : Prop where
  train : t.key.dataowner = TRAIN_DATAOWNER
  files : ∀ tid, t.matchedTripId = some tid → ∃ number c, t.journeyNumber = some number ∧
    t.linePlanningNumber = some c.lineCode ∧ c.tripId = tid ∧ c ∈ Map.valuesAt store.trainTrips number

omit [Platform] in
theorem joined_congr (hkey : u.key = t.key) (hmatched : u.matchedTripId = t.matchedTripId)
    (hjourney : u.journeyNumber = t.journeyNumber) (hline : u.linePlanningNumber = t.linePlanningNumber)
    (h : Joined store t) : Joined store u :=
  ⟨hkey ▸ h.train, fun tid htid => hjourney ▸ hline ▸ h.files tid (hmatched ▸ htid)⟩

/-- A match is to a trip filed under the number, and takes its line code. -/
theorem joined_matchTrip (h : Joined store t) : Joined store (store.matchTrip t) := by
  unfold GtfsStore.matchTrip
  rw [if_pos h.train]
  split
  · exact h
  · rw [GtfsStore.matchTrainTrip_eq]
    cases hm : store.trainMatch t with
    | none => exact ⟨h.train, nofun⟩
    | some m =>
      obtain ⟨c, day⟩ := m
      obtain ⟨number, hnumber, hres⟩ := Option.bind_eq_some_iff.mp hm
      obtain ⟨candidates, hcandidates, hday, -⟩ := store.resolveTrainTrip_eq_some hres
      refine ⟨h.train, fun tid htid => ⟨number, c, hnumber, rfl, Option.some.inj htid, ?_⟩⟩
      rw [Map.valuesAt, hcandidates, Option.getD_some]
      exact List.mem_of_find?_eq_some ((store.trainTripOn_eq_some).mp hday).2

theorem joined_enrichTrip (h : Joined store t) : Joined store (store.enrichTrip t) := by
  simp only [GtfsStore.enrichTrip]
  split
  · rw [fillTrip_eq]
    exact joined_congr (t := store.matchTrip t) rfl rfl rfl rfl (joined_matchTrip h)
  · exact joined_matchTrip h

/-- The line reported: what the event says, what the trip has, or the curve's. -/
theorem reported_linePlanningNumber :
    (reported delays o e).linePlanningNumber =
      (e.linePlanningNumber.or (baseTrip o e).linePlanningNumber).or
        ((consulted delays o e).bind TrainDelay.lineCode) := by
  simp only [reported, applyTrainDelay, curveOf_applyFields]
  cases consulted delays o e with
  | none => rw [applyFields, moved_applyFix, markStop_eq, Option.bind_none, Option.or_none]
  | some c =>
    rw [applyFields, moved_applyFix, markStop_eq]
    rfl

/-- A train event keeps the number and the code of a matched train: of another
number it starts over, and a curve's code only fills a gap. -/
theorem joined_reported (he : TrainEvent e) (h : ∀ t, o = some t → Joined store t) :
    Joined store (reported delays o e) := by
  obtain ⟨number, p, now, rfl⟩ := he
  by_cases hs : startsTrip o (Ns.eventFor number p now)
  · refine ⟨?_, fun tid htid => ?_⟩
    · rw [reported_key, baseTrip, if_pos hs]
      rfl
    · rw [reported_matchedTripId, baseTrip, if_pos hs] at htid
      cases htid
  · obtain ⟨t, rfl, hnew⟩ : ∃ t, o = some t ∧ newJourney t (Ns.eventFor number p now) = false := by
      cases o with
      | none => exact absurd rfl hs
      | some t =>
        refine ⟨t, rfl, ?_⟩
        by_contra hn
        rw [Bool.not_eq_false] at hn
        exact hs (by simp only [startsTrip, Option.any_some, hn, Bool.or_true, Bool.and_true]; rfl)
    have hbase : baseTrip (some t) (Ns.eventFor number p now) = t := by
      rw [baseTrip, if_neg hs, Option.getD_some]
    refine ⟨?_, fun tid htid => ?_⟩
    · rw [reported_key, hbase]
      exact (h t rfl).train
    · rw [reported_matchedTripId, hbase] at htid
      obtain ⟨n, c, hn, hline, hc, hmem⟩ := (h t rfl).files tid htid
      refine ⟨n, c, ?_, ?_, hc, hmem⟩
      · rw [reported_journeyNumber]
        simpa [newJourney, Ns.eventFor, hn] using hnew
      · rw [reported_linePlanningNumber, hbase, hline]
        rfl

/-- What a train event leaves is joined, if the trip was before it. -/
theorem joined_eventTrip (he : TrainEvent e) (h : ∀ t, o = some t → Joined store t)
    (ht : LiveState.eventTrip delays store.enricher e o = some t) : Joined store t := by
  obtain ⟨-, rfl⟩ := eventTrip_of_some ht
  rw [moved_anchorToSchedule]
  have hreported : Joined store (reported delays o e) := joined_reported he h
  refine joined_congr rfl rfl rfl rfl (t := askedTrip delays store.enricher o e) ?_
  show Joined store (if e.kind = .init || (reported delays o e).linePublicNumber.isNone then
    store.enrichTrip (reported delays o e) else reported delays o e)
  split
  · exact joined_enrichTrip hreported
  · exact hreported

/-- In a feed whose trip ids differ and whose rail trips have the realtime ids
of their train numbers, a train that is matched has its trip's realtime id,
whatever line codes were told before or since. -/
theorem joined_of_matched (zip : List ZipEntry) (store : GtfsStore) (secs : Int) (as : List LiveAction)
    (live : LiveState) (hstore : Gtfs.parseReader (some zip) = .ok store)
    (hunique : ((Gtfs.rowsOf zip "trips.txt").filterMap fun row => row.find "trip_id").Nodup)
    (hrail : ∀ row ∈ Gtfs.rowsOf zip "trips.txt", Gtfs.RailIds store row)
    (hrun : Run (LiveState.Step store.enricher) (LiveState.new secs) as live)
    (htrains : ∀ e, .event e ∈ as → TrainEvent e) (v tid : String) (t : LiveTrip)
    (ht : live.trips.lookup v = some t) (hm : t.matchedTripId = some tid) :
    ∃ info key, store.trips.lookup tid = some info ∧ info.realtimeTripId = some key ∧ t.realtimeTripId = some key := by
  have hjoined : Joined store t := by
    refine LiveState.trips_inv (P := Joined store) (fun e he delays o t ho ht => ?_) hrun (fun v t ht => ?_) v t ht
    · exact joined_eventTrip (htrains e he) ho ht
    · cases ht
  obtain ⟨number, c, hnumber, hline, rfl, hmem⟩ := hjoined.files tid hm
  obtain rfl := Gtfs.eq_feedOf hstore
  obtain ⟨info, hinfo, hid⟩ := Gtfs.mem_trainTrips hunique hrail hmem
  refine ⟨info, _, hinfo, hid, ?_⟩
  rw [LiveTrip.realtimeTripId, hline, hnumber, hjoined.train]
  rfl

/-- A feed with one rail trip, a Sprinter. -/
def sprinterZip : List ZipEntry :=
  [{ name := "routes.txt", headers := some ["route_id", "route_type"], rows := [some ["R1", "2"]] },
    { name := "trips.txt", headers := some ["trip_id", "route_id", "service_id", "trip_short_name", "realtime_trip_id"]
      rows := [some ["T1", "R1", "S1", "8743", "IFF:SPR:8743"]] },
    { name := "calendar_dates.txt", headers := some ["service_id", "date"], rows := [some ["S1", "19700101"]] }]

/-- A delay curve that has it as an Intercity. -/
def intercity : TrainDelays where
  byNumber := AList.singleton "8743" { points := [], operatingDay := none, lineCode := some "IC", updatedAt := 0 }

omit [Platform] in
theorem sprinterZip_store : Gtfs.parseReader (some sprinterZip) = .ok (Gtfs.feedOf (Gtfs.rowsOf sprinterZip)) := by
  rw [Gtfs.parseReader_eq, show Gtfs.FILES.findSome? (Gtfs.fileError sprinterZip) = none by decide +kernel]

omit [Platform] in
theorem sprinterZip_railIds :
    ∀ row ∈ Gtfs.rowsOf sprinterZip "trips.txt", Gtfs.RailIds (Gtfs.feedOf (Gtfs.rowsOf sprinterZip)) row := by
  intro row hrow _ _ _ _
  obtain rfl := List.mem_singleton.mp hrow
  exact ⟨"SPR", by decide, by decide +kernel⟩

omit [Platform] in
/-- The curve says Intercity first; matched, the train is the Sprinter of the row. -/
theorem joined_of_matched_sprinter :
    let _ := plainPlatform
    let store := Gtfs.feedOf (Gtfs.rowsOf sprinterZip)
    ∃ t info key, (((LiveState.new 600).act store.enricher (.delays intercity)).act store.enricher
        (.event (Ns.eventFor "8743" {} 3600))).trips.lookup "IFF:8743" = some t ∧
      store.trips.lookup "T1" = some info ∧ info.realtimeTripId = some key ∧ t.realtimeTripId = some key := by
  intro _ store
  have he : ((((LiveState.new 600).act store.enricher (.delays intercity)).act store.enricher
      (.event (Ns.eventFor "8743" {} 3600))).trips.lookup "IFF:8743").map LiveTrip.matchedTripId = some (some "T1") := by
    decide +kernel
  obtain ⟨t, ht, hm⟩ := Option.map_eq_some_iff.mp he
  obtain ⟨info, key, h1, h2, h3⟩ := joined_of_matched sprinterZip store 600
    [.delays intercity, .event (Ns.eventFor "8743" {} 3600)] _ sprinterZip_store (by decide +kernel)
    sprinterZip_railIds ((Run.nil.snoc rfl).snoc rfl) (fun e he => by
      rcases List.mem_cons.mp he with he | he
      · cases he
      · cases List.mem_singleton.mp he
        exact ⟨_, _, _, rfl⟩) "IFF:8743" "T1" t ht hm
  exact ⟨t, info, key, ht, h1, h2, h3⟩

end

end OV.Impl
