import Ovlive.Impl.Gtfs.Download
import Ovlive.Impl.Gtfs.Service
import Ovlive.Impl.Persist.Snapshot

/-!
# Bringing up the feed (`crates/server/src/main.rs`)

The feed is kept on disk in three files: the parsed snapshot, the archive and
its validators. `bootstrapGtfs` takes the feed from the first of them that can
be used and downloads it otherwise; `doRefresh` downloads a new one, swaps it in
and writes the files one after the other. A process keeps the directories it has
gone through, since a crash between two steps leaves one of them (`Host`).
-/

namespace OV.Impl

def GTFS_ZIP : String := "gtfs-nl.zip"

/-- The files the feed is kept in: `gtfs.snap`, `gtfs-nl.zip` and `gtfs_meta.bin`. -/
structure DataDir where
  snap : Stored GtfsStore := .absent
  zip : Option GtfsZip := none
  feedMeta : Stored FeedMeta := .absent

/-- The validators kept, or none. -/
def DataDir.validators (dir : DataDir) : FeedMeta := dir.feedMeta.loaded.getD {}

/-- What a refresh meets: the client's answers, and the steps that fail of
writing the archive, the snapshot and the validators. -/
structure Outside where
  client : HttpClient
  zipFault : Option String := none
  snapFault : Option String := none
  metaFault : Option String := none

/-- A process, its files, and the directories it has gone through before. -/
structure Process where
  gtfs : GtfsService := {}
  dir : DataDir
  past : List DataDir := []

namespace Process

/-- Go on with other files. -/
def become (p : Process) (dir : DataDir) : Process := { p with dir := dir, past := p.past ++ [p.dir] }

/-- `load_and_swap` of the archive on disk. -/
def loadAndSwap (p : Process) : Process × Except String GtfsStore :=
  match OV.Impl.loadAndSwap p.gtfs GTFS_ZIP p.dir.zip with
  | (gtfs, r) => ({ p with gtfs := gtfs }, r)

/-- `snapshot::save` of the parsed feed. -/
def saveSnap (o : Outside) (p : Process) (store : GtfsStore) : Process × Except String Unit :=
  match p.dir.snap.save o.snapFault store with
  | (snap, r) => (p.become { p.dir with snap := snap }, r)

/-- `snapshot::save` of the validators. -/
def saveMeta (o : Outside) (p : Process) (feedMeta : FeedMeta) : Process × Except String Unit :=
  match p.dir.feedMeta.save o.metaFault feedMeta with
  | (file, r) => (p.become { p.dir with feedMeta := file }, r)

/-- `conditional_download_to` the archive on disk. -/
def download (o : Outside) (prev : FeedMeta) (p : Process) : Process × Except String DownloadOutcome :=
  match conditionalDownloadTo o.client o.zipFault prev p.dir.zip with
  | (zip, r) => (p.become { p.dir with zip := zip }, r)

end Process

/-- `refresh_once` (`crates/gtfs/src/lib.rs`). -/
def refreshOnce (o : Outside) (prev : FeedMeta) (p : Process) :
    Process × Except String (Option (FeedMeta × GtfsStore)) :=
  match p.download o prev with
  | (p, .error e) => (p, .error e)
  | (p, .ok .notModified) => (p, .ok none)
  | (p, .ok (.fetched feedMeta)) =>
    match p.loadAndSwap with
    | (p, .error e) => (p, .error e)
    | (p, .ok store) => (p, .ok (some (feedMeta, store)))

/-- `do_refresh`: whether a new feed was swapped in. -/
def doRefresh (o : Outside) (prev : FeedMeta) (p : Process) : Process × Except String Bool :=
  match refreshOnce o prev p with
  | (p, .error e) => (p, .error e)
  | (p, .ok none) => (p, .ok false)
  | (p, .ok (some (feedMeta, store))) =>
    match p.saveSnap o store with
    | (p, .error _) => (p, .error "save gtfs snapshot")
    | (p, .ok ()) =>
      match p.saveMeta o feedMeta with
      | (p, .error _) => (p, .error "save gtfs meta")
      | (p, .ok ()) => (p, .ok true)

/-- The last resort of `bootstrap_gtfs`: a conditional download. -/
def bootstrapDownload (o : Outside) (p : Process) : Process := (doRefresh o p.dir.validators p).1

/-- `bootstrap_gtfs` without a snapshot: the archive on disk, parsed again. -/
def bootstrapZip (o : Outside) (p : Process) : Process :=
  match p.dir.zip with
  | some _ =>
    match p.loadAndSwap with
    | (p, .ok store) => (p.saveSnap o store).1
    | (p, .error _) => bootstrapDownload o p
  | none => bootstrapDownload o p

/-- `bootstrap_gtfs`. -/
def bootstrapGtfs (o : Outside) (p : Process) : Process :=
  match p.dir.snap.load with
  | .ok (some store) => { p with gtfs := p.gtfs.swap store }
  | _ => bootstrapZip o p

/-- What the loop of `spawn_gtfs_refresh` does when it wakes. -/
def gtfsCheck (sort : CallSort) (o : Outside) (date : NaiveDate) (p : Process) : Process :=
  match doRefresh o p.dir.validators p with
  | (p, .ok true) => { p with gtfs := p.gtfs.rebuildStopIndexes sort date }
  | (p, _) => p

/-! ## The host -/

/-- The files on disk, and the feed of the process that runs, if one does. -/
structure Host where
  dir : DataDir := {}
  gtfs : Option GtfsService := none

/-- One of the files. -/
inductive FeedFile
  | snap | zip | feedMeta
  deriving DecidableEq

inductive HostAction
  /-- A process starts and brings up the feed. -/
  | boot (o : Outside)
  /-- A process starts and crashes while it does, leaving files behind. -/
  | bootCrash (o : Outside) (left : DataDir)
  /-- The running process checks for a feed. -/
  | refresh (o : Outside) (date : NaiveDate)
  | refreshCrash (o : Outside) (date : NaiveDate) (left : DataDir)
  /-- A file is lost. -/
  | lose (file : FeedFile)
  /-- The archive is overwritten by anything, or another file by what cannot be read. -/
  | corruptZip (archive : GtfsZip)
  | corrupt (file : FeedFile) (error : String)

namespace Host

/-- A process that is started on the files. -/
def start (h : Host) : Process := { dir := h.dir }

/-- The process that runs, on the files. -/
def running (h : Host) : Option Process := h.gtfs.map fun gtfs => { gtfs := gtfs, dir := h.dir }

/-- The directories a process leaves if it crashes. -/
def leaves (p : Process) : List DataDir := p.past ++ [p.dir]

def lose (dir : DataDir) : FeedFile → DataDir
  | .snap => { dir with snap := .absent }
  | .zip => { dir with zip := none }
  | .feedMeta => { dir with feedMeta := .absent }

def corrupt (dir : DataDir) (error : String) : FeedFile → DataDir
  | .snap => { dir with snap := .unreadable error }
  | .zip => { dir with zip := some none }
  | .feedMeta => { dir with feedMeta := .unreadable error }

/-- The steps of a host. -/
def Step (sort : CallSort) (h : Host) (a : HostAction) (k : Host) : Prop :=
  match a with
  | .boot o => k = { dir := (bootstrapGtfs o h.start).dir, gtfs := some (bootstrapGtfs o h.start).gtfs }
  | .bootCrash o left => left ∈ leaves (bootstrapGtfs o h.start) ∧ k = { dir := left }
  | .refresh o date => ∃ p, h.running = some p ∧
      k = { dir := (gtfsCheck sort o date p).dir, gtfs := some (gtfsCheck sort o date p).gtfs }
  | .refreshCrash o date left => ∃ p, h.running = some p ∧ left ∈ leaves (gtfsCheck sort o date p) ∧ k = { dir := left }
  | .lose file => k = { h with dir := lose h.dir file }
  | .corruptZip archive => k = { h with dir := { h.dir with zip := some archive } }
  | .corrupt file error => k = { h with dir := corrupt h.dir error file }

end Host

end OV.Impl
