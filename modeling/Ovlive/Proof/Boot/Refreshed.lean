import Ovlive.Impl.Bootstrap

/-!
# What a refresh leaves

`fetched` is the feed that a refresh downloads and parses, and `doRefresh_some`
and `doRefresh_none` what comes of it: the feed goes live before the files are
written, so a file that cannot be written fails a refresh whose feed is live
already, and its caller leaves the indexes of the old one (`refresh_atomic_iff`,
`refresh_not_atomic`).
-/

namespace OV.Impl

/-- The feed that a refresh swaps in: an archive that is answered, written and
parsed. -/
def fetched (o : Outside) (prev : FeedMeta) : Option (FeedMeta × GtfsStore) :=
  match o.client prev, o.zipFault with
  | .ok (.success feedMeta body), none =>
    match Gtfs.parseReader body with
    | .ok store => some (feedMeta, store)
    | .error _ => none
  | _, _ => none

/-- The files of a refresh that are all written. -/
def Outside.Written (o : Outside) : Prop := o.snapFault = none ∧ o.metaFault = none

section

variable {o : Outside} {prev : FeedMeta} {p : Process}

/-- Where no feed is fetched, none goes live and none is reported. -/
theorem doRefresh_none (h : fetched o prev = none) :
    (doRefresh o prev p).1.gtfs = p.gtfs ∧ (doRefresh o prev p).2 ≠ .ok true := by
  simp only [doRefresh, refreshOnce, Process.download, conditionalDownloadTo]
  cases hc : o.client prev with
  | error e => exact ⟨rfl, by rintro ⟨⟩⟩
  | ok answer =>
    cases answer with
    | notModified => exact ⟨rfl, by rintro ⟨⟩⟩
    | failure status => exact ⟨rfl, by rintro ⟨⟩⟩
    | success feedMeta body =>
      cases hz : o.zipFault with
      | some e => exact ⟨rfl, by rintro ⟨⟩⟩
      | none =>
        cases hp : Gtfs.parseReader body with
        | ok store => simp [fetched, hc, hz, hp] at h
        | error e =>
          have hload : loadAndSwap p.gtfs GTFS_ZIP (some body) = (p.gtfs, .error e) := by
            rw [loadAndSwap, parseZipFile, hp]
          simp [Process.loadAndSwap, Process.become, hload]

/-- A feed that is fetched goes live, and the refresh succeeds exactly if both
other files are written. -/
theorem doRefresh_some {feedMeta : FeedMeta} {store : GtfsStore} (h : fetched o prev = some (feedMeta, store)) :
    (doRefresh o prev p).1.gtfs = p.gtfs.swap store ∧
      ((doRefresh o prev p).2 = .ok true ∧ o.Written ∨
        (∃ e, (doRefresh o prev p).2 = .error e) ∧ ¬ o.Written) := by
  unfold fetched at h
  split at h
  · rename_i answered body hc hz
    split at h
    · rename_i parsed hp
      obtain ⟨rfl, rfl⟩ : answered = feedMeta ∧ parsed = store := by simpa using h
      simp only [doRefresh, refreshOnce, Process.download, conditionalDownloadTo, hc, hz, Process.loadAndSwap,
        Process.become, loadAndSwap, parseZipFile, hp, Process.saveSnap, Process.saveMeta, Stored.save, Outside.Written]
      cases o.snapFault with
      | some e => exact ⟨rfl, .inr ⟨⟨_, rfl⟩, by rintro ⟨⟨⟩, -⟩⟩⟩
      | none =>
        cases o.metaFault with
        | some e => exact ⟨rfl, .inr ⟨⟨_, rfl⟩, by rintro ⟨-, ⟨⟩⟩⟩⟩
        | none => exact ⟨rfl, .inl ⟨rfl, rfl, rfl⟩⟩
    · cases h
  · cases h

end

/-- A refresh that fails leaves the feed and the indexes; one that succeeds
leaves the feed it fetched, and its caller the indexes built from it. -/
def RefreshAtomic (sort : CallSort) (o : Outside) (date : NaiveDate) (p : Process) : Prop :=
  (∀ e, (doRefresh o p.dir.validators p).2 = .error e → (doRefresh o p.dir.validators p).1.gtfs = p.gtfs) ∧
    ((doRefresh o p.dir.validators p).2 = .ok true →
      ∃ feedMeta store, fetched o p.dir.validators = some (feedMeta, store) ∧
        (doRefresh o p.dir.validators p).1.gtfs.store = some store ∧
        (gtfsCheck sort o date p).gtfs =
          { store := some store, stops := some (StopIndexes.build sort store date) })

/-- A refresh is atomic exactly if, with a feed fetched, both other files are
written, or the feed is the one that was live. -/
theorem refresh_atomic_iff (sort : CallSort) (o : Outside) (date : NaiveDate) (p : Process) :
    RefreshAtomic sort o date p ↔
      ∀ feedMeta store, fetched o p.dir.validators = some (feedMeta, store) →
        o.Written ∨ p.gtfs.store = some store := by
  unfold RefreshAtomic
  cases h : fetched o p.dir.validators with
  | none =>
    obtain ⟨hgtfs, hresult⟩ := doRefresh_none (p := p) h
    refine iff_of_true ⟨fun _ _ => hgtfs, fun htrue => absurd htrue hresult⟩ ?_
    intro feedMeta store hsome
    cases hsome
  | some fed =>
    obtain ⟨feedMeta, store⟩ := fed
    obtain ⟨hgtfs, hresult⟩ := doRefresh_some (p := p) h
    simp only [Option.some.injEq, Prod.mk.injEq, and_imp]
    constructor
    · rintro ⟨herror, -⟩ _ _ rfl rfl
      rcases hresult with ⟨-, hwritten⟩ | ⟨⟨e, he⟩, -⟩
      · exact .inl hwritten
      · refine .inr ?_
        rw [← herror e he, hgtfs]
        rfl
    · intro hok
      rcases hresult with ⟨htrue, -⟩ | ⟨⟨e, he⟩, hnot⟩
      · refine ⟨fun e he => (by rw [htrue] at he; cases he), fun _ => ⟨feedMeta, store, ⟨rfl, rfl⟩, ?_, ?_⟩⟩
        · rw [hgtfs]
          rfl
        · rw [gtfsCheck]
          generalize hr : doRefresh o p.dir.validators p = r at hgtfs htrue
          obtain ⟨q, result⟩ := r
          simp only at hgtfs htrue
          subst htrue
          simp only [GtfsService.rebuildStopIndexes, hgtfs, GtfsService.swap]
      · refine ⟨fun _ _ => ?_, fun htrue => (by rw [he] at htrue; cases htrue)⟩
        rcases hok feedMeta store rfl rfl with hwritten | hsame
        · exact absurd hwritten hnot
        · rw [hgtfs, GtfsService.swap, ← hsame]

/-- A server that has an archive with one file of feed information, and a disk
that takes the archive but not the snapshot. -/
def fullDisk : Outside where
  client _ := .ok (.success { etag := some "2" }
    (some [{ name := "feed_info.txt", headers := some ["feed_version"], rows := [some ["2"]] }]))
  snapFault := some "write snapshot"

/-- A process with the feed before that one. -/
def oldFeed : Process where
  gtfs := { store := some { feedVersion := "1" } }
  dir := {}

/-- The refresh fails, and the new feed is live. -/
theorem refresh_not_atomic :
    ¬ ∀ (sort : CallSort) (o : Outside) (date : NaiveDate) (p : Process), RefreshAtomic sort o date p := by
  intro h
  obtain ⟨herror, -⟩ := h (SortBy.insertion _) fullDisk ⟨20661⟩ oldFeed
  have hfails : (doRefresh fullDisk oldFeed.dir.validators oldFeed).2 = .error "save gtfs snapshot" := rfl
  have hlive : (doRefresh fullDisk oldFeed.dir.validators oldFeed).1.gtfs.store.map GtfsStore.feedVersion = some "2" := by
    decide +kernel
  rw [herror _ hfails] at hlive
  exact absurd hlive (by decide)

end OV.Impl
