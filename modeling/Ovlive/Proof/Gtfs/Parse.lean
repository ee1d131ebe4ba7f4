import Ovlive.Impl.Gtfs.Service

/-!
# What a parsed feed has read

`withCsv_eq` splits the loop over a file into the one way it fails and the rows
it folds: those before the first the reader fails on. From it `parseReader_eq`:
parsing fails exactly on a file whose header cannot be read, and otherwise the
store is a fold over the rows read (`feedOf`). A row that cannot be read is
thus a silent end of its file (`parseReader_truncate`), and
`parseReader_complete_iff` says which archives it is no harm to.
-/

namespace OV.Impl.Gtfs

/-- The files that are read, in their order. -/
def FILES : List String :=
  ["feed_info.txt", "agency.txt", "routes.txt", "trips.txt", "stops.txt", "calendar.txt", "calendar_dates.txt",
    "stop_times.txt", "shapes.txt"]

/-- The records before the first that cannot be read. -/
def readable : List Record → List (List String)
  | some fields :: rows => fields :: readable rows
  | _ => []

/-- Why a file cannot be read at all. -/
def fileError (zip : List ZipEntry) (name : String) : Option String :=
  (indexOf zip name).bind fun e =>
    if !e.opens then some ("open " ++ name) else if e.headers.isNone then some ("headers " ++ name) else none

/-- The rows that are read of a file. -/
def rowsOf (zip : List ZipEntry) (name : String) : List Row :=
  ((indexOf zip name).map fun e =>
    (readable e.rows).map fun fields => { columns := headerIndex (e.headers.getD []), fields := fields }).getD []

theorem readRows_eq {S : Type} (f : S → Row → S) (columns : Map String Nat) (s : S) (rows : List Record) :
    readRows f columns s rows =
      ((readable rows).map fun fields => ({ columns := columns, fields := fields } : Row)).foldl f s := by
  induction rows generalizing s with
  | nil => rfl
  | cons r rows ih =>
    cases r with
    | none => rfl
    | some fields => exact ih _

/-- One file: it fails, or its readable rows are folded. -/
theorem withCsv_eq {S : Type} (zip : List ZipEntry) (name : String) (f : S → Row → S) (s : S) :
    withCsv zip name f s =
      match fileError zip name with
      | some msg => .error msg
      | none => .ok ((rowsOf zip name).foldl f s) := by
  unfold withCsv fileError rowsOf
  cases indexOf zip name with
  | none => rfl
  | some e =>
    cases ho : e.opens with
    | false => simp [ho]
    | true =>
      cases hh : e.headers with
      | none => simp [ho, hh]
      | some header => simp [ho, hh, readRows_eq]

/-- The store that a feed is parsed to, from the rows read of its files. -/
def feedOf (rows : String → List Row) : GtfsStore :=
  let store := (rows "feed_info.txt").foldl feedInfoRow {}
  let store := (rows "agency.txt").foldl agencyRow store
  let store := (rows "routes.txt").foldl routeRow store
  let store := (rows "trips.txt").foldl tripRow store
  let store := (rows "stops.txt").foldl stopRow store
  let services := (rows "calendar_dates.txt").foldl calendarDateRow ((rows "calendar.txt").foldl calendarRow {})
  let store := (rows "stop_times.txt").foldl stopTimeRow { store with serviceDates := services.dates }
  { store with
    stopTimes := Map.mapValues (List.insertionSort fun a b => a.stopSequence ≤ b.stopSequence) store.stopTimes
    shapes := Map.mapValues (fun pts => (pts.insertionSort fun a b => a.1 ≤ b.1).map Prod.snd)
      ((rows "shapes.txt").foldl shapeRow ∅) }

/-- A feed is parsed, or the first file that cannot be read fails it. -/
theorem parseReader_eq (zip : List ZipEntry) :
    parseReader (some zip) =
      match FILES.findSome? (fileError zip) with
      | some msg => .error msg
      | none => .ok (feedOf (rowsOf zip)) := by
  simp only [parseReader, parseServices, withCsv_eq, FILES, List.findSome?_cons, List.findSome?_nil]
  cases fileError zip "feed_info.txt" with
  | some msg => rfl
  | none =>
  cases fileError zip "agency.txt" with
  | some msg => rfl
  | none =>
  cases fileError zip "routes.txt" with
  | some msg => rfl
  | none =>
  cases fileError zip "trips.txt" with
  | some msg => rfl
  | none =>
  cases fileError zip "stops.txt" with
  | some msg => rfl
  | none =>
  cases fileError zip "calendar.txt" with
  | some msg => rfl
  | none =>
  cases fileError zip "calendar_dates.txt" with
  | some msg => rfl
  | none =>
  cases fileError zip "stop_times.txt" with
  | some msg => rfl
  | none =>
  cases fileError zip "shapes.txt" with
  | some msg => rfl
  | none => rfl

/-- A feed whose files can all be read is parsed. -/
theorem parseReader_of_none {zip : List ZipEntry} (h : FILES.findSome? (fileError zip) = none) :
    parseReader (some zip) = .ok (feedOf (rowsOf zip)) := by
  rw [parseReader_eq, h]

theorem eq_feedOf {zip : List ZipEntry} {store : GtfsStore} (h : parseReader (some zip) = .ok store) :
    store = feedOf (rowsOf zip) := by
  rw [parseReader_eq] at h
  split at h
  · cases h
  · exact (Except.ok.inj h).symm

/-- Rows whose handler leaves a part of the store alone leave it alone. -/
theorem foldl_frame {X : Type} (part : GtfsStore → X) {f : GtfsStore → Row → GtfsStore}
    (h : ∀ s row, part (f s row) = part s) (rows : List Row) (s : GtfsStore) : part (rows.foldl f s) = part s := by
  induction rows generalizing s with
  | nil => rfl
  | cons row rows ih => rw [List.foldl_cons, ih, h]

/-! ## What a row leaves alone -/

theorem feedInfoRow_frame (s : GtfsStore) (row : Row) :
    feedInfoRow s row = { s with feedVersion := (feedInfoRow s row).feedVersion } := by
  unfold feedInfoRow
  split <;> rfl

theorem agencyRow_frame (s : GtfsStore) (row : Row) :
    agencyRow s row = { s with agencies := (agencyRow s row).agencies } := by
  unfold agencyRow
  split <;> rfl

theorem routeRow_frame (s : GtfsStore) (row : Row) : routeRow s row = { s with routes := (routeRow s row).routes } := by
  unfold routeRow
  split <;> rfl

theorem tripRow_frame (s : GtfsStore) (row : Row) :
    tripRow s row = { s with
      trips := (tripRow s row).trips
      trainTrips := (tripRow s row).trainTrips
      tripByKey := (tripRow s row).tripByKey } := by
  unfold tripRow
  cases row.find "trip_id" with
  | none => rfl
  | some tid =>
    simp only
    cases row.find "realtime_trip_id" <;> rfl

theorem stopRow_frame (s : GtfsStore) (row : Row) : stopRow s row = { s with stops := (stopRow s row).stops } := by
  unfold stopRow
  split <;> rfl

theorem stopTimeRow_frame (s : GtfsStore) (row : Row) :
    stopTimeRow s row = { s with stopTimes := (stopTimeRow s row).stopTimes } := by
  unfold stopTimeRow
  split <;> rfl

/-- The store that the files before the trips leave. -/
def beforeTrips (rows : String → List Row) : GtfsStore :=
  (rows "routes.txt").foldl routeRow ((rows "agency.txt").foldl agencyRow ((rows "feed_info.txt").foldl feedInfoRow {}))

/-- They fill no table of trips or of stops. -/
theorem beforeTrips_empty (rows : String → List Row) :
    (beforeTrips rows).trips = ∅ ∧ (beforeTrips rows).trainTrips = ∅ ∧ (beforeTrips rows).tripByKey = ∅ ∧
      (beforeTrips rows).stops = ∅ := by
  let part (s : GtfsStore) := (s.trips, s.trainTrips, s.tripByKey, s.stops)
  have h : part (beforeTrips rows) = part {} := by
    unfold beforeTrips
    rw [foldl_frame part fun s row => (congrArg part (routeRow_frame s row)).trans rfl,
      foldl_frame part fun s row => (congrArg part (agencyRow_frame s row)).trans rfl,
      foldl_frame part fun s row => (congrArg part (feedInfoRow_frame s row)).trans rfl]
  simpa only [part, Prod.mk.injEq] using h

/-! ## Rows that cannot be read -/

/-- A file that is read has a row that cannot be. -/
def RowError (file : GtfsZip) : Prop :=
  ∃ zip, file = some zip ∧ ∃ name ∈ FILES, ∃ e, indexOf zip name = some e ∧ none ∈ e.rows

/-- The file is no archive, or a file that is read has no header. -/
def HeaderError (file : GtfsZip) : Prop :=
  ∀ zip, file = some zip → ∃ name ∈ FILES, ∃ e, indexOf zip name = some e ∧ e.headers = none

theorem indexOf_opens {zip : List ZipEntry} {name : String} {e : ZipEntry} (h : indexOf zip name = some e) :
    e.opens = true := by
  have hp := List.find?_some h
  simp only [Bool.and_eq_true] at hp
  exact hp.1

theorem fileError_isSome_iff {zip : List ZipEntry} {name : String} :
    (fileError zip name).isSome ↔ ∃ e, indexOf zip name = some e ∧ e.headers = none := by
  unfold fileError
  cases h : indexOf zip name with
  | none => simp
  | some e =>
    cases hh : e.headers <;> simp [indexOf_opens h, hh]

/-- Parsing fails on header records only. -/
theorem parseReader_error_iff (file : GtfsZip) : (∃ msg, parseReader file = .error msg) ↔ HeaderError file := by
  cases file with
  | none =>
    constructor
    · rintro - zip h
      cases h
    · exact fun _ => ⟨_, rfl⟩
  | some zip =>
    have hsome : (FILES.findSome? (fileError zip)).isSome ↔ HeaderError (some zip) := by
      simp only [List.isSome_findSome?, List.any_eq_true, fileError_isSome_iff, HeaderError, Option.some.injEq,
        forall_eq']
    rw [parseReader_eq, ← hsome]
    cases FILES.findSome? (fileError zip) with
    | none => simp
    | some msg => simp

/-- An entry cut off before the first row that cannot be read. -/
def truncate (e : ZipEntry) : ZipEntry := { e with rows := (readable e.rows).map some }

theorem readable_map_some (l : List (List String)) : readable (l.map some) = l := by
  induction l with
  | nil => rfl
  | cons a l ih => simp [readable, ih]

/-- A row that cannot be read and the rows after it make no difference. -/
theorem parseReader_truncate (zip : List ZipEntry) :
    parseReader (some (zip.map truncate)) = parseReader (some zip) := by
  have hindex : ∀ name, indexOf (zip.map truncate) name = (indexOf zip name).map truncate := by
    intro name
    rw [indexOf, List.find?_map]
    rfl
  have herr : fileError (zip.map truncate) = fileError zip := by
    funext name
    simp only [fileError, hindex]
    cases indexOf zip name <;> rfl
  have hrows : rowsOf (zip.map truncate) = rowsOf zip := by
    funext name
    simp only [rowsOf, hindex]
    cases indexOf zip name with
    | none => rfl
    | some e => simp [truncate, readable_map_some]
  rw [parseReader_eq, parseReader_eq, herr, hrows]

theorem loadAndSwap_error {service : GtfsService} {path msg : String} {file : Option GtfsZip}
    (h : parseZipFile path file = .error msg) : loadAndSwap service path file = (service, .error msg) := by
  rw [loadAndSwap, h]

/-- A row that cannot be read fails the feed, and leaves the live one, exactly
for the archives that have none or fail on a header anyway. -/
theorem parseReader_complete_iff (file : GtfsZip) :
    (RowError file → (∃ msg, parseReader file = .error msg) ∧
        ∀ service path, (loadAndSwap service path (some file)).1 = service) ↔
      ¬ RowError file ∨ HeaderError file := by
  rw [parseReader_error_iff]
  constructor
  · intro h
    by_cases hr : RowError file
    · exact .inr (h hr).1
    · exact .inl hr
  · rintro (h | h) hr
    · exact absurd hr h
    · refine ⟨h, fun service path => ?_⟩
      obtain ⟨msg, hm⟩ := (parseReader_error_iff file).mpr h
      rw [loadAndSwap_error (show parseZipFile path (some file) = .error msg from hm)]

/-- An archive whose second stop cannot be read. -/
def brokenZip : List ZipEntry :=
  [{ name := "stops.txt", headers := some ["stop_id", "stop_name"], rows := [some ["R1", "Rotterdam"], none] }]

/-- It is parsed to a feed with one stop, which goes live. -/
theorem parseReader_not_complete :
    ¬ (RowError (some brokenZip) → (∃ msg, parseReader (some brokenZip) = .error msg) ∧
      ∀ service path, (loadAndSwap service path (some (some brokenZip))).1 = service) := by
  intro h
  have hrow : RowError (some brokenZip) :=
    ⟨brokenZip, rfl, "stops.txt", by decide, _, rfl, by decide⟩
  obtain ⟨msg, hm⟩ := (h hrow).1
  rw [parseReader_of_none (by decide +kernel)] at hm
  cases hm

end OV.Impl.Gtfs
