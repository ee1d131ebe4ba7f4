import Ovlive.Framework.Lists
import Ovlive.Proof.Gtfs.TimeOrder

/-!
# A feed in another layout

A row is read by the names of its columns, so their order does not matter
(`get_pick`), and neither does the order of the calls and of the points of
shapes, which are sorted by their sequence numbers. `parse_relaid` says so of the
whole feed.
-/

namespace OV.Impl.Gtfs

/-- The name of a column, as its header is read. -/
def columnName (header : String) : String := String.ofList ((Text.trim header.toList).dropWhile (· = '\ufeff'))

/-- A file with complete rows under distinct names. -/
structure Table where
  header : List String
  rows : List (List String)
  complete : ∀ fields ∈ rows, fields.length = header.length
  distinct : (header.map columnName).Nodup

/-- The rows of a table as they are read. -/
def Table.read (t : Table) : List Row := t.rows.map fun fields => { columns := headerIndex t.header, fields := fields }

/-- The files of an archive are some tables. -/
def Reads (zip : List ZipEntry) (tables : String → Option Table) : Prop :=
  ∀ name ∈ FILES, (indexOf zip name).map (fun e => (e.headers, e.rows)) =
    (tables name).map fun t => (some t.header, t.rows.map some)

/-- The rows of the calls, or of the points of shapes, with distinct sequence
numbers within each trip or shape. -/
def Sequenced (name : String) (rows : List Row) : Prop :=
  (name = "stop_times.txt" ∧ ∀ tid, ((rowsFor "trip_id" rows tid).map sequenceOf).Nodup) ∨
    (name = "shapes.txt" ∧ ∀ sid, ((rowsFor "shape_id" rows sid).map fun row => (shapePointOf row).1).Nodup)

/-- A table with its columns in another order, header and rows alike, and if it is
sequenced with its rows in another one. -/
def Table.Relaid (name : String) (t t' : Table) : Prop :=
  ∃ order, order.Perm (List.range t.header.length) ∧ t'.header = pick order t.header ∧
    (t'.rows = t.rows.map (pick order) ∨ Sequenced name t.read ∧ t'.rows.Perm (t.rows.map (pick order)))

/-- A file in another layout; a missing one is missing. -/
def RelaidFile (name : String) : Option Table → Option Table → Prop
  | none, none => True
  | some t, some t' => t.Relaid name t'
  | _, _ => False

/-- Two stores with the same entries in each map. -/
structure SameStore (s s' : GtfsStore) : Prop where
  feedVersion : s'.feedVersion = s.feedVersion
  agencies : ∀ k, s'.agencies.lookup k = s.agencies.lookup k
  routes : ∀ k, s'.routes.lookup k = s.routes.lookup k
  trips : ∀ k, s'.trips.lookup k = s.trips.lookup k
  stops : ∀ k, s'.stops.lookup k = s.stops.lookup k
  stopTimes : ∀ k, s'.stopTimes.lookup k = s.stopTimes.lookup k
  shapes : ∀ k, s'.shapes.lookup k = s.shapes.lookup k
  tripByKey : ∀ k, s'.tripByKey.lookup k = s.tripByKey.lookup k
  serviceDates : ∀ k, s'.serviceDates.lookup k = s.serviceDates.lookup k
  trainTrips : ∀ k, s'.trainTrips.lookup k = s.trainTrips.lookup k

/-! ## A row by the names of its columns -/

section

variable {header header' fields fields' : List String}

theorem headerIndex_eq (header : List String) :
    headerIndex header = Map.insertAll (fun c : String × Nat => columnName c.1) Prod.snd header.zipIdx ∅ := rfl

theorem map_columnName_zipIdx (header : List String) :
    (header.zipIdx.map fun c => columnName c.1) = header.map columnName := by
  rw [← List.zipIdx_map_fst 0 header, List.map_map, List.zipIdx_map_fst]
  rfl

theorem get_of_mem (hn : (header.map columnName).Nodup) {c v : String} (h : (c, v) ∈ header.zip fields) :
    Row.get { columns := headerIndex header, fields := fields } (columnName c) = v := by
  obtain ⟨i, hi, heq⟩ := List.mem_iff_getElem.mp h
  rw [List.getElem_zip, Prod.mk.injEq] at heq
  obtain ⟨hc, hv⟩ := heq
  have hlt : i < header.length ∧ i < fields.length := by simpa using hi
  have hmem : (c, i) ∈ header.zipIdx := List.mk_mem_zipIdx_iff_getElem?.mpr (hc ▸ List.getElem?_eq_getElem hlt.1)
  have hlookup : (headerIndex header).lookup (columnName c) = some i := by
    rw [headerIndex_eq]
    exact Map.lookup_insertAll_of_mem (w := (c, i)) (map_columnName_zipIdx header ▸ hn) hmem
  rw [Row.get, hlookup, Option.bind_some, List.getElem?_eq_getElem hlt.2, Option.getD_some, hv]

theorem get_of_notMem {k : String} (h : k ∉ header.map columnName) :
    Row.get { columns := headerIndex header, fields := fields } k = "" := by
  have hlookup : (headerIndex header).lookup k = none := by
    rw [headerIndex_eq, Map.lookup_insertAll_of_notMem, AList.lookup_empty]
    rwa [map_columnName_zipIdx]
  rw [Row.get, hlookup]
  rfl

/-- The order of the columns does not matter to a row. -/
theorem get_pick {order : List Nat} (hn : (header.map columnName).Nodup) (hlen : fields.length = header.length)
    (horder : order.Perm (List.range header.length)) :
    Row.get { columns := headerIndex (pick order header), fields := pick order fields } =
      Row.get { columns := headerIndex header, fields := fields } := by
  have hzip : ((pick order header).zip (pick order fields)).Perm (header.zip fields) := by
    rw [pick_zip order hlen]
    refine pick_perm ?_
    rwa [List.length_zip, hlen, Nat.min_self]
  have hheader : ((pick order header).map columnName).Perm (header.map columnName) := (pick_perm horder).map _
  funext k
  by_cases hk : k ∈ header.map columnName
  · obtain ⟨c, hc, rfl⟩ := List.mem_map.mp hk
    obtain ⟨i, hi, rfl⟩ := List.mem_iff_getElem.mp hc
    have hmem : (header[i], fields[i]) ∈ header.zip fields :=
      List.mem_iff_getElem.mpr ⟨i, by simpa [hlen] using hi, List.getElem_zip⟩
    rw [get_of_mem hn hmem, get_of_mem (hheader.nodup_iff.mpr hn) (hzip.mem_iff.mpr hmem)]
  · rw [get_of_notMem hk, get_of_notMem fun h => hk (hheader.mem_iff.mp h)]

end

/-- The rows of a table in another layout read the same, in the same order or for
sequenced ones in another. -/
theorem Table.Relaid.gets {name : String} {t t' : Table} (h : t.Relaid name t') :
    t'.read.map Row.get = t.read.map Row.get ∨
      Sequenced name t.read ∧ (t'.read.map Row.get).Perm (t.read.map Row.get) := by
  obtain ⟨order, horder, hheader, hrows⟩ := h
  have hget : (t.rows.map (pick order)).map (fun fields => Row.get { columns := headerIndex t'.header, fields := fields }) =
      t.read.map Row.get := by
    rw [Table.read, List.map_map, List.map_map, hheader]
    exact List.map_congr_left fun fields hf => get_pick t.distinct (t.complete fields hf) horder
  have hread : t'.read.map Row.get =
      t'.rows.map fun fields => Row.get { columns := headerIndex t'.header, fields := fields } := by
    rw [Table.read, List.map_map]
    rfl
  rw [hread, ← hget]
  rcases hrows with hrows | ⟨hseq, hperm⟩
  · exact .inl (by rw [hrows])
  · exact .inr ⟨hseq, hperm.map _⟩

/-! ## The handlers -/

/-- A handler that reads a row by the names of its columns only. -/
def ByName {S : Type} (f : S → Row → S) : Prop := ∀ s row row', row.get = row'.get → f s row = f s row'

theorem foldl_byName {S : Type} {f : S → Row → S} (hf : ByName f) {rows rows' : List Row}
    (h : rows'.map Row.get = rows.map Row.get) (s : S) : rows'.foldl f s = rows.foldl f s := by
  induction rows generalizing rows' s with
  | nil => rw [List.map_nil, List.map_eq_nil_iff] at h; rw [h]
  | cons row rows ih =>
    cases rows' with
    | nil => cases h
    | cons row' rows' =>
      rw [List.map_cons, List.map_cons, List.cons.injEq] at h
      rw [List.foldl_cons, List.foldl_cons, hf s row' row h.1, ih h.2]

theorem byName_feedInfoRow : ByName feedInfoRow := by
  intro s row row' h
  simp only [feedInfoRow, h]

theorem byName_agencyRow : ByName agencyRow := by
  intro s row row' h
  simp only [agencyRow, Row.find, h]

theorem byName_routeRow : ByName routeRow := by
  intro s row row' h
  simp only [routeRow, Row.find, h]

theorem byName_tripRow : ByName tripRow := by
  intro s row row' h
  have hfind : row.find = row'.find := funext fun k => by simp only [Row.find, h]
  have hnumber : ∀ s routeId, trainNumber s routeId row = trainNumber s routeId row' := fun s routeId => by
    rw [trainNumber, trainNumber, hfind]
  unfold tripRow
  rw [hfind, h]
  simp only [hnumber]

theorem byName_stopRow : ByName stopRow := by
  intro s row row' h
  simp only [stopRow, Row.find, Row.float, h]

theorem byName_calendarRow : ByName calendarRow := by
  intro s row row' h
  simp only [calendarRow, Row.find, h]

theorem byName_calendarDateRow : ByName calendarDateRow := by
  intro s row row' h
  simp only [calendarDateRow, Row.find, h]

/-- The values of the rows of a key, by what the rows read. -/
theorem exists_rowsFor_map {V : Type} {f : Row → V} (column : String)
    (hf : ∀ row row', row.get = row'.get → f row = f row') (k : String) :
    ∃ g : (String → String) → Option V, ∀ rows, (rowsFor column rows k).map f = (rows.map Row.get).filterMap g := by
  have hvalue : ∀ row row' : Row, row.get = row'.get → (if row.find column = some k then some (f row) else none) =
      if row'.find column = some k then some (f row') else none := by
    intro row row' h
    have hfind : row.find column = row'.find column := by simp only [Row.find, h]
    rw [hfind, hf row row' h]
  obtain ⟨g, hg⟩ := exists_filterMap_of_key hvalue
  refine ⟨g, fun rows => ?_⟩
  rw [← hg, rowsFor, ← List.filterMap_eq_map, List.filterMap_filter]
  refine List.filterMap_congr fun row _ => ?_
  by_cases hk : row.find column = some k <;> simp [hk]

/-- Sorted by a number of theirs, the values of a key are the same in another
layout. -/
theorem sorted_relaid {V N : Type} [LinearOrder N] {f : Row → V} (column : String) (seq : V → N)
    (hf : ∀ row row', row.get = row'.get → f row = f row') {rows rows' : List Row} (k : String)
    (h : rows'.map Row.get = rows.map Row.get ∨
      ((rowsFor column rows k).map fun row => seq (f row)).Nodup ∧ (rows'.map Row.get).Perm (rows.map Row.get)) :
    (((rowsFor column rows' k).map f).insertionSort fun a b => seq a ≤ seq b) =
        (((rowsFor column rows k).map f).insertionSort fun a b => seq a ≤ seq b) ∧
      (rowsFor column rows' k = [] ↔ rowsFor column rows k = []) := by
  obtain ⟨g, hg⟩ := exists_rowsFor_map column hf k
  rw [← List.map_eq_nil_iff (f := f), ← List.map_eq_nil_iff (f := f) (l := rowsFor column rows k), hg, hg]
  rcases h with heq | ⟨hn, hperm⟩
  · rw [heq]
    exact ⟨rfl, Iff.rfl⟩
  · have hvalues := hperm.filterMap g
    refine ⟨insertionSort_eq_of_perm ?_ hvalues, ?_⟩
    · rw [(hvalues.map seq).nodup_iff, ← hg, List.map_map]
      exact hn
    · rw [← List.length_eq_zero_iff, ← List.length_eq_zero_iff, hvalues.length_eq]

/-! ## The store -/

/-- The store that the files before the calls leave. -/
def beforeCalls (rows : String → List Row) : GtfsStore :=
  { (rows "stops.txt").foldl stopRow ((rows "trips.txt").foldl tripRow (beforeTrips rows)) with
    serviceDates :=
      ((rows "calendar_dates.txt").foldl calendarDateRow ((rows "calendar.txt").foldl calendarRow {})).dates }

theorem foldl_stopTimeRow_frame (rows : List Row) (s : GtfsStore) :
    rows.foldl stopTimeRow s = { s with stopTimes := (rows.foldl stopTimeRow s).stopTimes } := by
  induction rows generalizing s with
  | nil => rfl
  | cons row rows ih =>
    rw [List.foldl_cons, ih]
    exact (congrArg (fun t : GtfsStore => { t with stopTimes := (rows.foldl stopTimeRow (stopTimeRow s row)).stopTimes })
      (stopTimeRow_frame s row)).trans rfl

/-- The files of the calls and of the shapes fill their own tables. -/
theorem feedOf_frame (rows : String → List Row) :
    feedOf rows =
      { beforeCalls rows with stopTimes := (feedOf rows).stopTimes, shapes := (feedOf rows).shapes } := by
  have h := foldl_stopTimeRow_frame (rows "stop_times.txt") (beforeCalls rows)
  exact (congrArg (fun t : GtfsStore => { t with stopTimes := (feedOf rows).stopTimes, shapes := (feedOf rows).shapes })
    h).trans rfl

theorem rowsOf_reads {zip : List ZipEntry} {tables : String → Option Table} (h : Reads zip tables) {name : String}
    (hname : name ∈ FILES) : rowsOf zip name = ((tables name).map Table.read).getD [] := by
  have hread := h name hname
  unfold rowsOf
  cases hi : indexOf zip name with
  | none =>
    cases ht : tables name with
    | none => rfl
    | some t => rw [hi, ht] at hread; cases hread
  | some e =>
    cases ht : tables name with
    | none => rw [hi, ht] at hread; cases hread
    | some t =>
      rw [hi, ht, Option.map_some, Option.map_some, Option.some.injEq, Prod.mk.injEq] at hread
      simp only [Option.map_some, Option.getD_some, hread.1, hread.2, readable_map_some, Table.read]

/-- An archive of tables is parsed. -/
theorem parseReader_reads {zip : List ZipEntry} {tables : String → Option Table} (h : Reads zip tables) :
    parseReader (some zip) = .ok (feedOf (rowsOf zip)) := by
  refine parseReader_of_none (List.findSome?_eq_none_iff.mpr fun name hname => ?_)
  rw [← Option.not_isSome_iff_eq_none, fileError_isSome_iff]
  rintro ⟨e, hi, hheaders⟩
  have hread := h name hname
  rw [hi, Option.map_some, hheaders] at hread
  cases ht : tables name with
  | none => rw [ht] at hread; cases hread
  | some t => rw [ht, Option.map_some, Option.some.injEq, Prod.mk.injEq] at hread; cases hread.1

/-- The rows of a file in another layout read the same, in the same order or for
sequenced ones in another. -/
theorem gets_of_relaidFile {name : String} {o o' : Option Table} (h : RelaidFile name o o') :
    ((o'.map Table.read).getD []).map Row.get = ((o.map Table.read).getD []).map Row.get ∨
      Sequenced name ((o.map Table.read).getD []) ∧
        (((o'.map Table.read).getD []).map Row.get).Perm (((o.map Table.read).getD []).map Row.get) := by
  cases o with
  | none =>
    cases o' with
    | none => exact .inl rfl
    | some t' => cases h
  | some t =>
    cases o' with
    | none => cases h
    | some t' => exact Table.Relaid.gets h

/-- The rows of two archives read the same, but for the order of those of the sequenced
files. -/
def SameRows (rows rows' : String → List Row) : Prop :=
  ∀ name ∈ FILES, (rows' name).map Row.get = (rows name).map Row.get ∨
    Sequenced name (rows name) ∧ ((rows' name).map Row.get).Perm ((rows name).map Row.get)

theorem sameRows_of_relaid {zip zip' : List ZipEntry} {tables tables' : String → Option Table} (hz : Reads zip tables)
    (hz' : Reads zip' tables') (h : ∀ name ∈ FILES, RelaidFile name (tables name) (tables' name)) :
    SameRows (rowsOf zip) (rowsOf zip') := by
  intro name hname
  rw [rowsOf_reads hz hname, rowsOf_reads hz' hname]
  exact gets_of_relaidFile (h name hname)

section

variable {rows rows' : String → List Row}

/-- Only the files of the calls and of the shapes have their rows in another order. -/
theorem SameRows.gets (h : SameRows rows rows') (name : String) (hname : name ∈ FILES)
    (hother : name ≠ "stop_times.txt" ∧ name ≠ "shapes.txt") : (rows' name).map Row.get = (rows name).map Row.get := by
  rcases h name hname with heq | ⟨⟨hn, -⟩ | ⟨hn, -⟩, -⟩
  · exact heq
  · exact absurd hn hother.1
  · exact absurd hn hother.2

theorem beforeCalls_sameRows (h : SameRows rows rows') : beforeCalls rows' = beforeCalls rows := by
  unfold beforeCalls beforeTrips
  rw [foldl_byName byName_feedInfoRow (h.gets "feed_info.txt" (by decide) (by decide)),
    foldl_byName byName_agencyRow (h.gets "agency.txt" (by decide) (by decide)),
    foldl_byName byName_routeRow (h.gets "routes.txt" (by decide) (by decide)),
    foldl_byName byName_tripRow (h.gets "trips.txt" (by decide) (by decide)),
    foldl_byName byName_stopRow (h.gets "stops.txt" (by decide) (by decide)),
    foldl_byName byName_calendarRow (h.gets "calendar.txt" (by decide) (by decide)),
    foldl_byName byName_calendarDateRow (h.gets "calendar_dates.txt" (by decide) (by decide))]

theorem stopTimes_sameRows (h : SameRows rows rows') (tid : String) :
    (feedOf rows').stopTimes.lookup tid = (feedOf rows).stopTimes.lookup tid := by
  have hseq := h "stop_times.txt" (by decide)
  obtain ⟨hsort, hnil⟩ := sorted_relaid (f := stopTimeOf) "trip_id" StopTime.stopSequence
    (fun row row' hrow => by simp only [stopTimeOf, hrow]) tid <| hseq.imp_right fun ⟨hs, hperm⟩ => by
      rcases hs with ⟨-, hs⟩ | ⟨hn, -⟩
      · exact ⟨hs tid, hperm⟩
      · exact absurd hn (by decide)
  rw [feedOf_stopTimes, feedOf_stopTimes, hsort]
  simp only [hnil]

theorem shapes_sameRows (h : SameRows rows rows') (sid : String) :
    (feedOf rows').shapes.lookup sid = (feedOf rows).shapes.lookup sid := by
  have hseq := h "shapes.txt" (by decide)
  obtain ⟨hsort, hnil⟩ := sorted_relaid (f := shapePointOf) "shape_id" Prod.fst
    (fun row row' hrow => by simp only [shapePointOf, Row.float, hrow]) sid <| hseq.imp_right fun ⟨hs, hperm⟩ => by
      rcases hs with ⟨hn, -⟩ | ⟨-, hs⟩
      · exact absurd hn (by decide)
      · exact ⟨hs sid, hperm⟩
  rw [feedOf_shapes, feedOf_shapes, hsort]
  simp only [hnil]

end

/-- Whatever the order of the columns of its files, and whatever the order of the
rows of its calls and of its shapes, a feed is parsed to the same store. -/
theorem parse_relaid (zip zip' : List ZipEntry) (tables tables' : String → Option Table) (hz : Reads zip tables)
    (hz' : Reads zip' tables') (h : ∀ name ∈ FILES, RelaidFile name (tables name) (tables' name)) :
    ∃ store store', parseReader (some zip) = .ok store ∧ parseReader (some zip') = .ok store' ∧
      SameStore store store' := by
  have hrows := sameRows_of_relaid hz hz' h
  refine ⟨_, _, parseReader_reads hz, parseReader_reads hz', ?_⟩
  -- the other tables are filled before the calls
  have hfields : feedOf (rowsOf zip') = { feedOf (rowsOf zip) with
      stopTimes := (feedOf (rowsOf zip')).stopTimes, shapes := (feedOf (rowsOf zip')).shapes } := by
    rw [feedOf_frame (rowsOf zip), ← beforeCalls_sameRows hrows]
    exact feedOf_frame (rowsOf zip')
  constructor
  case stopTimes => exact stopTimes_sameRows hrows
  case shapes => exact shapes_sameRows hrows
  case feedVersion => exact (congrArg GtfsStore.feedVersion hfields).trans rfl
  all_goals
    intro k
    rw [hfields]

/-- The calls of a trip, and the same with the columns turned round and the rows
in the order of the calls. -/
def callsTable : Table where
  header := ["trip_id", "stop_sequence", "arrival_time"]
  rows := [["T", "2", "08:10:00"], ["T", "1", "08:00:00"]]
  complete := by decide
  distinct := by decide +kernel

def relaidTable : Table where
  header := ["arrival_time", "stop_sequence", "trip_id"]
  rows := [["08:00:00", "1", "T"], ["08:10:00", "2", "T"]]
  complete := by decide
  distinct := by decide +kernel

/-- An archive of one table of calls. -/
def callsZip (t : Table) : List ZipEntry :=
  [{ name := "stop_times.txt", headers := some t.header, rows := t.rows.map some }]

def callsOnly (t : Table) (name : String) : Option Table := if name = "stop_times.txt" then some t else none

theorem parse_relaid_calls :
    ∃ store store', parseReader (some (callsZip callsTable)) = .ok store ∧
      parseReader (some (callsZip relaidTable)) = .ok store' ∧ SameStore store store' := by
  have hone : ∀ row ∈ callsTable.read, row.find "trip_id" = some "T" := by decide +kernel
  refine parse_relaid (callsZip callsTable) (callsZip relaidTable) (callsOnly callsTable) (callsOnly relaidTable)
    ?_ ?_ ?_
  · unfold Reads callsOnly
    decide +kernel
  · unfold Reads callsOnly
    decide +kernel
  · intro name _
    unfold callsOnly
    split
    · rename_i hname
      refine ⟨[2, 1, 0], by decide, by decide, .inr ⟨.inl ⟨hname, fun tid => ?_⟩, by decide⟩⟩
      by_cases ht : tid = "T"
      · subst ht
        decide +kernel
      · rw [rowsFor_of_one hone ht]
        exact .nil
    · trivial

end OV.Impl.Gtfs
