import Ovlive.Framework.Run
import Ovlive.Proof.Boot.Refreshed

/-!
# Whether a boot ends with a feed

`bootstrap_store` is the feed a boot ends with: the snapshot's, the archive's,
or the one it fetches. It asks the server with the validators on disk, also when
neither of the other two files can be used, and a server whose version they
match has nothing for it (`boots_iff`, `boots_run_iff`, `boots_not_kept`).
Without loss or corruption of files this does not happen, whatever crashes: the
validators are written after the snapshot (`Kept`, `undamaged_boots`).
-/

namespace OV.Impl

/-- The feed of the snapshot. -/
def DataDir.snapFeed (dir : DataDir) : Option GtfsStore := dir.snap.loaded

/-- The feed that the archive is parsed to. -/
def DataDir.zipFeed (dir : DataDir) : Option GtfsStore := dir.zip.bind fun zip => (Gtfs.parseReader zip).toOption

/-- A server with an archive, which answers 304 exactly if the validators sent
match it; without validators there is nothing to match. -/
structure GtfsServer where
  current : FeedMeta
  body : GtfsZip
  unchanged : FeedMeta → Bool
  unchanged_empty : unchanged {} = false

/-- A server that can be reached. -/
def GtfsServer.client (server : GtfsServer) : HttpClient := fun prev =>
  .ok (if server.unchanged prev then .notModified else .success server.current server.body)

namespace Host

/-- What a boot should end with while the server can be reached: a feed. -/
def boots (_ : Host) (a : HostAction) (k : Host) : Prop :=
  match a with
  | .boot o => ∀ server : GtfsServer, o.client = server.client → (k.gtfs.bind GtfsService.store).isSome
  | _ => True

/-- A boot that finds a snapshot it can load or an archive it can parse, or
whose validators do not match the server's archive, which it then writes and
parses. -/
def findsFeed (h : Host) (a : HostAction) : Prop :=
  match a with
  | .boot o => ∀ server : GtfsServer, o.client = server.client →
      h.dir.snapFeed.isSome ∨ h.dir.zipFeed.isSome ∨
        server.unchanged h.dir.validators = false ∧ o.zipFault = none ∧ (Gtfs.parseReader server.body).toOption.isSome
  | _ => True

end Host

section

variable {o : Outside} {p : Process}

theorem doRefresh_store (o : Outside) (prev : FeedMeta) (p : Process) :
    (doRefresh o prev p).1.gtfs.store = ((fetched o prev).map Prod.snd).or p.gtfs.store := by
  cases h : fetched o prev with
  | none => rw [(doRefresh_none h).1, Option.map_none, Option.none_or]
  | some fed =>
    rw [(doRefresh_some h).1]
    rfl

theorem bootstrapZip_store (o : Outside) (h : Host) :
    (bootstrapZip o h.start).gtfs.store = h.dir.zipFeed.or ((fetched o h.dir.validators).map Prod.snd) := by
  have hdownload : (bootstrapDownload o h.start).gtfs.store = (fetched o h.dir.validators).map Prod.snd := by
    rw [bootstrapDownload, doRefresh_store]
    exact Option.or_none
  have hzip : h.start.dir.zip = h.dir.zip := rfl
  unfold bootstrapZip DataDir.zipFeed
  rw [hzip]
  cases hz : h.dir.zip with
  | none => exact hdownload
  | some zip =>
    cases hp : Gtfs.parseReader zip with
    | error e =>
      have hload : h.start.loadAndSwap = (h.start, .error e) := by
        simp [Process.loadAndSwap, loadAndSwap, parseZipFile, Host.start, hz, hp]
      simp only [hload, Option.bind_some, hp]
      exact hdownload
    | ok store =>
      have hload : h.start.loadAndSwap = ({ h.start with gtfs := h.start.gtfs.swap store }, .ok store) := by
        simp [Process.loadAndSwap, loadAndSwap, parseZipFile, Host.start, hz, hp, GtfsService.swap]
      simp only [hload, Option.bind_some, hp]
      rfl

/-- The feed a boot ends with. -/
theorem bootstrap_store (o : Outside) (h : Host) :
    (bootstrapGtfs o h.start).gtfs.store =
      h.dir.snapFeed.or (h.dir.zipFeed.or ((fetched o h.dir.validators).map Prod.snd)) := by
  rw [← bootstrapZip_store]
  have hsnap : h.start.dir.snap = h.dir.snap := rfl
  unfold bootstrapGtfs DataDir.snapFeed
  rw [hsnap]
  cases h.dir.snap <;> rfl

/-- A feed is fetched exactly if the validators sent do not match. -/
theorem fetched_isSome_iff {server : GtfsServer} (h : o.client = server.client) (prev : FeedMeta) :
    (fetched o prev).isSome ↔
      server.unchanged prev = false ∧ o.zipFault = none ∧ (Gtfs.parseReader server.body).toOption.isSome := by
  unfold fetched
  rw [h, GtfsServer.client]
  cases server.unchanged prev with
  | true => simp
  | false =>
    cases o.zipFault with
    | some e => simp
    | none =>
      simp only [Bool.false_eq_true, if_false, true_and]
      cases Gtfs.parseReader server.body <;> simp [Except.toOption]

theorem boots_iff {sort : CallSort} {h k : Host} {a : HostAction} (hstep : Host.Step sort h a k) :
    h.boots a k ↔ h.findsFeed a := by
  cases a with
  | boot o =>
    obtain rfl := hstep
    simp only [Host.boots, Host.findsFeed, Option.bind_some, bootstrap_store]
    refine forall_congr' fun server => forall_congr' fun hclient => ?_
    rw [Option.isSome_or, Option.isSome_or, Option.isSome_map, Bool.or_eq_true, Bool.or_eq_true,
      fetched_isSome_iff hclient]
  | _ => exact Iff.rfl

/-- From any files, in a run of boots, refreshes, crashes and damages, all boots
that can reach the server end with a feed exactly if each of them finds one. -/
theorem boots_run_iff (sort : CallSort) (h : Host) (as : List HostAction) (k : Host) :
    Run (Ensured Host.boots (Host.Step sort)) h as k ↔ Run (Guarded Host.findsFeed (Host.Step sort)) h as k :=
  Run.ensured_iff (P := fun _ => True) (fun _ _ _ _ hstep => ⟨boots_iff hstep, fun _ => trivial⟩) trivial

/-- A server with version 1 of the archive. -/
def firstVersion : GtfsServer where
  current := { etag := some "1" }
  body := some [{ name := "feed_info.txt", headers := some ["feed_version"], rows := [some ["1"]] }]
  unchanged prev := prev.etag = some "1"
  unchanged_empty := rfl

/-- Once the snapshot and the archive are lost, the next boot has no feed: the
validators that are left match the server's archive. -/
theorem boots_not_kept :
    ¬ ∀ (sort : CallSort) (as : List HostAction) (k : Host),
      Run (Host.Step sort) {} as k → Run (Ensured Host.boots (Host.Step sort)) {} as k := by
  intro h
  let o : Outside := { client := firstVersion.client }
  let booted (h : Host) : Host :=
    { dir := (bootstrapGtfs o h.start).dir, gtfs := some (bootstrapGtfs o h.start).gtfs }
  let noSnap : Host := { booted {} with dir := Host.lose (booted {}).dir .snap }
  let noZip : Host := { noSnap with dir := Host.lose noSnap.dir .zip }
  have hboot (h : Host) : Host.Step (SortBy.insertion _) h (.boot o) (booted h) := rfl
  have hsnap : Host.Step (SortBy.insertion _) (booted {}) (.lose .snap) noSnap := rfl
  have hzip : Host.Step (SortBy.insertion _) noSnap (.lose .zip) noZip := rfl
  have hrun := (((Run.nil.snoc (hboot {})).snoc hsnap).snoc hzip).snoc (hboot noZip)
  obtain ⟨u, -, -, hboots⟩ := (h (SortBy.insertion _) _ _ hrun).last
  have hnone : ((booted noZip).gtfs.bind GtfsService.store).isSome = false := by decide +kernel
  rw [hboots firstVersion rfl] at hnone
  cases hnone

/-! ## Without damage -/

/-- Validators are kept only with a snapshot. -/
def DataDir.Kept (dir : DataDir) : Prop := dir.feedMeta.loaded.isSome → dir.snapFeed.isSome

/-- Validators are kept only with a snapshot, wherever a process crashes. -/
def Process.Kept (p : Process) : Prop := ∀ dir ∈ Host.leaves p, dir.Kept

theorem Process.Kept.dir (h : p.Kept) : p.dir.Kept := h _ (by simp [Host.leaves])

theorem kept_become {dir : DataDir} (h : p.Kept) (hd : dir.Kept) : (p.become dir).Kept := by
  intro d hmem
  rcases List.mem_append.mp hmem with hpast | hlast
  · exact h d hpast
  · exact List.mem_singleton.mp hlast ▸ hd

theorem kept_loadAndSwap (h : p.Kept) : p.loadAndSwap.1.Kept := h

theorem kept_download (o : Outside) (prev : FeedMeta) (h : p.Kept) : (p.download o prev).1.Kept :=
  kept_become h h.dir

/-- A snapshot that is saved can be loaded. -/
theorem kept_saveSnap (o : Outside) (store : GtfsStore) (h : p.Kept) :
    (p.saveSnap o store).1.Kept ∧
      ((p.saveSnap o store).2 = .ok () → (p.saveSnap o store).1.dir.snapFeed.isSome) := by
  unfold Process.saveSnap Stored.save
  cases o.snapFault with
  | some e => exact ⟨kept_become h h.dir, by rintro ⟨⟩⟩
  | none => exact ⟨kept_become h fun _ => rfl, fun _ => rfl⟩

theorem kept_saveMeta (o : Outside) (feedMeta : FeedMeta) (h : p.Kept) (hsnap : p.dir.snapFeed.isSome) :
    (p.saveMeta o feedMeta).1.Kept :=
  kept_become h fun _ => hsnap

theorem kept_refreshOnce (o : Outside) (prev : FeedMeta) (h : p.Kept) : (refreshOnce o prev p).1.Kept := by
  have hdownload := kept_download o prev h
  unfold refreshOnce
  generalize p.download o prev = x at hdownload
  obtain ⟨q, e | _ | feedMeta⟩ := x
  · exact hdownload
  · exact hdownload
  · have hload := kept_loadAndSwap hdownload
    simp only
    generalize q.loadAndSwap = y at hload
    obtain ⟨q', e | store⟩ := y
    · exact hload
    · exact hload

theorem kept_doRefresh (o : Outside) (prev : FeedMeta) (h : p.Kept) : (doRefresh o prev p).1.Kept := by
  have honce := kept_refreshOnce o prev h
  unfold doRefresh
  generalize refreshOnce o prev p = x at honce
  obtain ⟨q, e | _ | ⟨feedMeta, store⟩⟩ := x
  · exact honce
  · exact honce
  · obtain ⟨hkept, hsaved⟩ := kept_saveSnap o store honce
    simp only
    generalize q.saveSnap o store = y at hkept hsaved
    obtain ⟨q', e | _⟩ := y
    · exact hkept
    · have hmeta := kept_saveMeta o feedMeta hkept (hsaved rfl)
      simp only
      generalize q'.saveMeta o feedMeta = z at hmeta
      obtain ⟨q'', e | _⟩ := z
      · exact hmeta
      · exact hmeta

theorem kept_bootstrapGtfs (o : Outside) (h : p.Kept) : (bootstrapGtfs o p).Kept := by
  unfold bootstrapGtfs
  split
  · exact h
  · unfold bootstrapZip
    split
    · have hload := kept_loadAndSwap h
      generalize p.loadAndSwap = x at hload
      obtain ⟨q, e | store⟩ := x
      · exact kept_doRefresh o _ hload
      · exact (kept_saveSnap o store hload).1
    · exact kept_doRefresh o _ h

theorem kept_gtfsCheck (sort : CallSort) (o : Outside) (date : NaiveDate) (h : p.Kept) :
    (gtfsCheck sort o date p).Kept := by
  have hrefresh := kept_doRefresh o p.dir.validators h
  unfold gtfsCheck
  generalize doRefresh o p.dir.validators p = x at hrefresh
  obtain ⟨q, e | _ | _⟩ := x
  · exact hrefresh
  · exact hrefresh
  · exact hrefresh

/-- An action that is no damage to a file. -/
def HostAction.spares : HostAction → Prop
  | .lose _ | .corruptZip _ | .corrupt _ _ => False
  | _ => True

theorem kept_step {sort : CallSort} {h k : Host} {a : HostAction} (ha : a.spares) (hk : h.dir.Kept)
    (hstep : Host.Step sort h a k) : k.dir.Kept := by
  have hstart : h.start.Kept := by
    intro d hd
    exact List.mem_singleton.mp hd ▸ hk
  have hrunning : ∀ p, h.running = some p → p.Kept := by
    intro p hp d hd
    obtain ⟨gtfs, -, rfl⟩ := Option.map_eq_some_iff.mp hp
    exact List.mem_singleton.mp hd ▸ hk
  cases a with
  | boot o =>
    obtain rfl := hstep
    exact (kept_bootstrapGtfs o hstart).dir
  | bootCrash o left =>
    obtain ⟨hleft, rfl⟩ := hstep
    exact kept_bootstrapGtfs o hstart left hleft
  | refresh o date =>
    obtain ⟨p, hp, rfl⟩ := hstep
    exact (kept_gtfsCheck sort o date (hrunning p hp)).dir
  | refreshCrash o date left =>
    obtain ⟨p, hp, hleft, rfl⟩ := hstep
    exact kept_gtfsCheck sort o date (hrunning p hp) left hleft
  | lose file => exact ha.elim
  | corruptZip archive => exact ha.elim
  | corrupt file error => exact ha.elim

/-- Where no file was ever lost or corrupted, a boot that can reach a server
whose archive it can write and parse ends with a feed, whatever crashed before. -/
theorem undamaged_boots {sort : CallSort} {as : List HostAction} {h : Host}
    (hrun : Run (Guarded (fun _ a => a.spares) (Host.Step sort)) {} as h) {server : GtfsServer}
    (hclient : o.client = server.client) (hwrite : o.zipFault = none)
    (hparse : (Gtfs.parseReader server.body).toOption.isSome) : (bootstrapGtfs o h.start).gtfs.store.isSome := by
  have hkept : h.dir.Kept :=
    hrun.inv (P := fun h => h.dir.Kept) (fun _ _ _ hr hk => kept_step hr.1 hk hr.2) fun hsome => (by cases hsome)
  rw [bootstrap_store, Option.isSome_or, Option.isSome_or, Option.isSome_map, Bool.or_eq_true, Bool.or_eq_true,
    fetched_isSome_iff hclient]
  by_cases hsnap : h.dir.snapFeed.isSome
  · exact .inl hsnap
  · refine .inr (.inr ⟨?_, hwrite, hparse⟩)
    have hnone : h.dir.feedMeta.loaded = none := by
      rw [← Option.not_isSome_iff_eq_none]
      exact fun hsome => hsnap (hkept hsome)
    rw [DataDir.validators, hnone]
    exact server.unchanged_empty

end

end OV.Impl
