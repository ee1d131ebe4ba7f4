import Ovlive.Proof.Stream.Sync

/-!
# Convergence

Once every message of the open socket was processed before the last tick that
was delivered, the store holds exactly the vehicles of that tick's index that
the client asks for (`Sys.Converged`), and every frame is one the store can
apply as it is meant (`Update.Proper`, `Update.Fits`). `stream_converges` reads
all of it off the invariant.
-/

namespace OV.Impl

open Client

/-! ## What a client asks for -/

/-- A vehicle passes a client's filters: it is of a type named, if any is, and
its operator and texts match. -/
def Client.FilterState.Passes (f : FilterState) (t : LiveTrip) : Prop :=
  (f.types = [] ∨ coreTypeToPb t.vehicleType ∈ f.types) ∧
    ({ dataowners := f.owners, search := f.search } : Filters).matches t = true

/-- The type codes of a filter are those of vehicle types. -/
def Client.FilterState.Valid (f : FilterState) : Prop := ∀ n ∈ f.types, ∃ ty, pbTypeToCore n = some ty

/-- A client asks for a vehicle: it is in the box and passes the filters, or it
is pinned. -/
def Client.ClientView.Covers (v : ClientView) (pinned : List String) (t : LiveTrip) : Prop :=
  (v.bbox.contains t.lat t.lon = true ∧ v.filters.Passes t) ∨ t.id ∈ pinned

theorem pbTypeToCore_eq_some {n : Int} {ty : VehicleType} :
    pbTypeToCore n = some ty ↔ ty ≠ .unknown ∧ n = coreTypeToPb ty := by
  unfold pbTypeToCore
  cases ty <;> simp only [coreTypeToPb] <;> split_ifs <;> simp_all

/-- With valid type codes the server's filters are the client's. -/
theorem matches_iff_passes {f : FilterState} (hf : f.Valid) (t : LiveTrip) :
    (pbFiltersToCore { vehicleTypes := f.types, dataowners := f.owners, search := f.search }).matches t = true ↔
      f.Passes t := by
  have htypes : ((f.types.filterMap pbTypeToCore).isEmpty ||
      (f.types.filterMap pbTypeToCore).contains t.vehicleType) = true ↔
        f.types = [] ∨ coreTypeToPb t.vehicleType ∈ f.types := by
    rw [Bool.or_eq_true, List.isEmpty_iff, List.contains_iff_mem, List.mem_filterMap, List.filterMap_eq_nil_iff]
    refine or_congr ⟨fun h => ?_, fun h => by simp [h]⟩ ⟨?_, fun h => ?_⟩
    · refine List.eq_nil_iff_forall_not_mem.mpr fun n hn => ?_
      obtain ⟨ty, hty⟩ := hf n hn
      rw [h n hn] at hty
      cases hty
    · rintro ⟨n, hn, h⟩
      obtain ⟨_, rfl⟩ := pbTypeToCore_eq_some.mp h
      exact hn
    · obtain ⟨ty, hty⟩ := hf _ h
      obtain ⟨hne, e⟩ := pbTypeToCore_eq_some.mp hty
      refine ⟨_, h, pbTypeToCore_eq_some.mpr ⟨?_, rfl⟩⟩
      rintro hu
      rw [hu] at e
      cases ty <;> simp [coreTypeToPb] at e hne
  simp only [FilterState.Passes, Filters.matches, pbFiltersToCore, Bool.and_eq_true, ← htypes, List.isEmpty_nil,
    Bool.true_or, true_and, and_assoc]

/-- A subscription with a client's parameters visits what the client asks for. -/
theorem mem_wanted_iff_covers {sub : Subscription} {v : ClientView} {ids : List String} {idx : VehicleIndex}
    (ha : sub.Asks (viewportMsg v ids)) (hb : v.bbox.Ordered) (hf : v.filters.Valid) {t : LiveTrip} :
    t ∈ sub.wanted idx ↔ t ∈ idx.vehicles ∧ v.Covers ids t := by
  obtain ⟨h1, h2, h3⟩ := Subscription.asks_viewportMsg.mp ha
  rw [Subscription.mem_wanted, h1, h2, h3, idx.mem_query hb, matches_iff_passes hf, ← and_or_left]
  rfl

/-! ## What a store shows -/

/-- Two numbers are finite and at most `1e-6` apart. -/
def Near (a b : Num) : Prop := ∃ x y : ℚ, a = .fin x ∧ b = .fin y ∧ |x - y| ≤ 1 / 1000000

theorem Near.refl {a : Num} (h : a.isFinite = true) : Near a a := by
  obtain ⟨x, rfl⟩ := Num.isFinite_iff.mp h
  exact ⟨x, x, rfl, rfl, by simp⟩

theorem near_of_not_lt {a b : Num} (ha : a.isFinite = true) (hb : b.isFinite = true)
    (h : (Num.fin (1 / 1000000)).lt (b.sub a).abs = false) : Near a b := by
  obtain ⟨x, rfl⟩ := Num.isFinite_iff.mp ha
  obtain ⟨y, rfl⟩ := Num.isFinite_iff.mp hb
  simp only [Num.sub_fin, Num.abs_fin, Num.lt_fin, decide_eq_false_iff_not, not_lt] at h
  exact ⟨x, y, rfl, rfl, abs_sub_comm x y ▸ h⟩

/-- What is not worth re-sending is what was sent, and less than the threshold away. -/
theorem kept_iff {u v : Sent} (h : kept u v = true) :
    u.delay = v.delay ∧ u.atStop = v.atStop ∧ (Num.fin (1 / 1000000)).lt (v.lat.sub u.lat).abs = false ∧
      (Num.fin (1 / 1000000)).lt (v.lon.sub u.lon).abs = false := by
  simp only [kept, changed, Bool.not_eq_true', Bool.or_eq_false_iff, decide_eq_false_iff_not, not_not] at h
  obtain ⟨⟨⟨⟨h1, h2⟩, h3⟩, h4⟩, -⟩ := h
  exact ⟨h3.symm, h4.symm, h1, h2⟩

/-- What a subscription has sent of a vehicle after a tick is what the index
has, up to the threshold. -/
theorem sent_near {sub : Subscription} (hr : sub.Real) {idx : VehicleIndex} {t : LiveTrip} (ht : t ∈ sub.wanted idx)
    {v : Sent} (hv : (sub.buildUpdate idx).1.sent.lookup t.id = some v) :
    v.delay = t.delaySeconds ∧ v.atStop = t.atStop ∧ Near v.lat t.lat ∧ Near v.lon t.lon := by
  have hfin := hr.buildUpdate idx t.id v hv
  have hp := idx.positioned t (Subscription.mem_vehicles_of_wanted ht)
  rw [LiveTrip.hasPosition, Bool.and_eq_true] at hp
  rw [Subscription.buildUpdate_sent, Subscription.wants_id.mpr ht] at hv
  rcases Mirror.sync_close hv with rfl | hk
  · exact ⟨rfl, rfl, .refl hp.1, .refl hp.2⟩
  · obtain ⟨h1, h2, h3, h4⟩ := kept_iff hk
    exact ⟨h1, h2, near_of_not_lt hfin.1 hp.1 h3, near_of_not_lt hfin.2 hp.2 h4⟩

/-- The store holds the vehicles of an index that a client asks for, and no
others, as the index has them. -/
structure Client.VehicleStore.Converged [Platform] (st : VehicleStore) (v : ClientView) (pinned : List String)
    (idx : VehicleIndex) : Prop where
  vehicles : ∀ k, k ∈ st.vehicles ↔ ∃ t ∈ idx.vehicles, t.id = k ∧ v.Covers pinned t
  features : ∀ k, k ∈ st.features ↔ ∃ t ∈ idx.vehicles, t.id = k ∧ v.Covers pinned t
  values : ∀ t ∈ idx.vehicles, ∀ w, st.vehicles.lookup t.id = some w →
    w.delay = t.delaySeconds ∧ w.atStop = t.atStop ∧ Near w.lat t.lat ∧ Near w.lon t.lon
  places : ∀ t ∈ idx.vehicles, ∀ f, st.features.lookup t.id = some f → Near f.lat t.lat ∧ Near f.lon t.lon

theorem mem_iff_of_rel {V W : Type} {R : V → W → Prop} {m : Map String V} {n : Map String W} {k : String}
    (h : Option.Rel R (m.lookup k) (n.lookup k)) : k ∈ m ↔ (n.lookup k).isSome = true := by
  rw [← AList.lookup_isSome]
  generalize m.lookup k = o at h ⊢
  generalize n.lookup k = o' at h ⊢
  cases h <;> rfl

theorem exists_of_rel {V W : Type} {R : V → W → Prop} {v : V} {o : Option W} (h : Option.Rel R (some v) o) :
    ∃ w, o = some w ∧ R v w := by
  cases h with
  | some h => exact ⟨_, rfl, h⟩

/-- A store that mirrors what was sent after a tick has converged to its index. -/
theorem Mirrors.converged [Platform] {st : VehicleStore} {sub : Subscription} {idx : VehicleIndex} {v : ClientView}
    {ids : List String} (h : Mirrors st (sub.buildUpdate idx).1.sent) (hr : sub.Real)
    (ha : sub.Asks (viewportMsg v ids)) (hb : v.bbox.Ordered) (hf : v.filters.Valid) : st.Converged v ids idx := by
  have hsome : ∀ k, ((sub.buildUpdate idx).1.sent.lookup k).isSome = true ↔
      ∃ t ∈ idx.vehicles, t.id = k ∧ v.Covers ids t := by
    intro k
    rw [Subscription.buildUpdate_sent, Mirror.isSome_sync, Option.isSome_iff_exists]
    simp only [Subscription.wants_eq_some, mem_wanted_iff_covers ha hb hf]
    exact ⟨fun ⟨t, ⟨h1, h2⟩, h3⟩ => ⟨t, h1, h3, h2⟩, fun ⟨t, h1, h3, h2⟩ => ⟨t, ⟨h1, h2⟩, h3⟩⟩
  have hwanted : ∀ t ∈ idx.vehicles, ((sub.buildUpdate idx).1.sent.lookup t.id).isSome = true → t ∈ sub.wanted idx := by
    intro t ht hs
    obtain ⟨u, hu, e, hc⟩ := (hsome t.id).mp hs
    rw [mem_wanted_iff_covers ha hb hf]
    exact ⟨ht, List.inj_on_of_nodup_map idx.distinct hu ht e ▸ hc⟩
  refine ⟨fun k => (mem_iff_of_rel (h k).1).trans (hsome k), fun k => (mem_iff_of_rel (h k).2).trans (hsome k),
    fun t ht w hw => ?_, fun t ht f hf => ?_⟩
  · obtain ⟨x, hs, hrel⟩ := exists_of_rel (hw ▸ (h t.id).1)
    obtain ⟨h1, h2, h3, h4⟩ := sent_near hr (hwanted t ht (by rw [hs]; rfl)) hs
    exact ⟨hrel.2.2.1.trans h1, hrel.2.2.2.trans h2, hrel.1 ▸ h3, hrel.2.1 ▸ h4⟩
  · obtain ⟨x, hs, hrel⟩ := exists_of_rel (hf ▸ (h t.id).2)
    obtain ⟨_, _, h3, h4⟩ := sent_near hr (hwanted t ht (by rw [hs]; rfl)) hs
    exact ⟨hrel.1 ▸ h3, hrel.2 ▸ h4⟩

/-! ## Frames -/

/-- A frame names no vehicle twice. -/
structure Update.Proper (u : Update) : Prop where
  entered : (u.entered.map VehicleState.id).Nodup
  moved : (u.moved.map VehicleMove.id).Nodup
  left : u.left.Nodup
  entered_moved : (u.entered.map VehicleState.id).Disjoint (u.moved.map VehicleMove.id)
  entered_left : (u.entered.map VehicleState.id).Disjoint u.left
  moved_left : (u.moved.map VehicleMove.id).Disjoint u.left

/-- A frame moves and removes vehicles the client holds and adds ones it does
not; a snapshot only adds. -/
structure Update.Fits [Platform] (u : Update) (st : VehicleStore) : Prop where
  moved : u.isSnapshot = false → ∀ k ∈ u.moved.map VehicleMove.id, k ∈ st.vehicles
  left : u.isSnapshot = false → ∀ k ∈ u.left, k ∈ st.vehicles
  entered : u.isSnapshot = false → ∀ k ∈ u.entered.map VehicleState.id, k ∉ st.vehicles
  snapshot : u.isSnapshot = true → u.moved = [] ∧ u.left = []

theorem Subscription.report_entered (sub : Subscription) (idx : VehicleIndex) :
    (sub.report idx).entered.map VehicleState.id = (sub.frame idx).enters.map LiveTrip.id := by
  simp only [report, List.map_map]
  rfl

theorem Subscription.report_moved (sub : Subscription) (idx : VehicleIndex) :
    (sub.report idx).moved.map VehicleMove.id = (sub.frame idx).moves.map LiveTrip.id := by
  simp only [report, List.map_map]
  rfl

theorem proper_report (sub : Subscription) (idx : VehicleIndex) : (sub.report idx).Proper := by
  have he := sub.report_entered idx
  have hm := sub.report_moved idx
  exact ⟨he ▸ (sub.frame idx).nodup_enters, hm ▸ (sub.frame idx).nodup_moves, (sub.frame idx).nodup_leaves,
    he ▸ hm ▸ (sub.frame idx).disjoint_enters_moves, he ▸ (sub.frame idx).disjoint_enters_leaves,
    hm ▸ (sub.frame idx).disjoint_moves_leaves⟩

/-- A report fits a store that mirrors what the subscription had sent. -/
theorem fits_report [Platform] {st : VehicleStore} {sub : Subscription} {prev : Option Tick} (hf : sub.Follows prev)
    (h : ∀ p, prev = some p → Mirrors st p.after.sent) (idx : VehicleIndex) : (sub.report idx).Fits st := by
  have hheld : sub.forceSnapshot = false → ∀ k, k ∈ st.vehicles ↔ ∃ v, sub.sent.lookup k = some v := by
    intro hb k
    obtain ⟨_, hs⟩ | ⟨p, hp, hs, -⟩ := hf
    · rw [hs] at hb; cases hb
    · rw [mem_iff_of_rel (h p hp k).1, hs, Option.isSome_iff_exists]
  refine ⟨fun hb k hk => ?_, fun hb k hk => ?_, fun hb k hk hm => ?_, fun hb => ?_⟩
  · rw [Subscription.report_moved] at hk
    exact (hheld hb k).mpr ((sub.frame idx).old_of_moves hk)
  · exact (hheld hb k).mpr ((sub.frame idx).mem_leaves k |>.mp hk).1
  · rw [Subscription.report_entered] at hk
    obtain ⟨v, hv⟩ := (hheld hb k).mp hm
    exact nomatch hv.symm.trans ((sub.frame idx).old_of_enters hk)
  · have hs := hf.sent_empty hb
    refine ⟨List.eq_nil_iff_forall_not_mem.mpr fun m hm => ?_, List.eq_nil_iff_forall_not_mem.mpr fun k hk => ?_⟩
    · have hk := List.mem_map_of_mem (f := VehicleMove.id) hm
      rw [Subscription.report_moved] at hk
      obtain ⟨v, hv⟩ := (sub.frame idx).old_of_moves hk
      simp [hs] at hv
    · obtain ⟨⟨v, hv⟩, -⟩ := ((sub.frame idx).mem_leaves k).mp hk
      simp [hs] at hv

/-! ## The stream -/

namespace Sys

variable [Platform]

/-- The last tick whose frame, or silence, the client was handed on a socket. -/
def heard (s : Sys) (i : Nat) : Option Tick := lastTick ((s.peer i).log.take (s.peer i).delivered)

/-- The stream converges: when every message sent on the open socket was
processed before the last tick heard, the store is that tick's index as the
client asks for it. Every frame is proper, and fits the store it is handed to. -/
theorem stream_converges {heartbeatMs : Nat} {pinned selected : List String} {v : ClientView} {as : List Action}
    {s : Sys} (h : Run Step (start heartbeatMs pinned selected v) as s) :
    (∀ i w t, (s.client.socket i).readyState = .open_ → s.client.view = some w → w.bbox.Ordered → w.filters.Valid →
      s.heard i = some t → t.received = (s.client.socket i).sent.length →
        s.store.Converged w s.client.pinned t.idx) ∧
    (∀ i t u, .tick t ∈ (s.peer i).log → t.frame = some u → u.Proper) ∧
    (∀ i t u, (s.client.socket i).readyState = .open_ → (s.peer i).log[(s.peer i).delivered]? = some (.tick t) →
      t.frame = some u → u.Fits s.store) := by
  have hs := good_of_run h
  refine ⟨fun i w t ho hv hb hf ht hr => ?_, fun i t u _ hu => ?_, fun i t u ho ht hu => ?_⟩
  · have hm := hs.mirror i t (hs.client.ws_of_open ho) ht
    -- the tick is in the log, so it found the parameters of the last view processed
    have hmem : .tick t ∈ (s.peer i).log.take (s.peer i).delivered := by
      obtain ⟨x, hx, he⟩ := exists_mem_of_latest ht
      cases x with
      | reply m => cases he
      | tick u => cases he; exact hx
    obtain ⟨n, hn⟩ := List.mem_iff_getElem?.mp (List.mem_of_mem_take hmem)
    obtain ⟨_, ⟨w', hw', ha⟩, _, hreal⟩ := (hs.peers i).ticks n t hn
    rw [hr, List.take_length] at hw'
    obtain ⟨v', hv', hl⟩ := hs.client.asked i ho
    obtain rfl : v' = w := Option.some.inj (hv'.symm.trans hv)
    obtain rfl := Option.some.inj (hw'.symm.trans hl)
    exact hm.converged hreal ha hb hf
  · obtain rfl := Subscription.buildUpdate_frame hu
    exact proper_report _ _
  · obtain rfl := Subscription.buildUpdate_frame hu
    exact fits_report ((hs.peers i).ticks _ t ht).2.2.1 (fun p hp => hs.mirror i p (hs.client.ws_of_open ho) hp) _

end Sys

/-! ## A run -/

/-- A bus of journey 7, at a position. -/
def bus (vehicleNumber : String) (lat lon : ℚ) : LiveTrip :=
  { LiveTrip.new { dataowner := "RET", vehicleNumber := vehicleNumber } 0 with
    vehicleType := .bus
    journeyNumber := some "7"
    lat := .fin lat
    lon := .fin lon }

/-- The index of one bus. -/
def oneBus (lat lon : ℚ) : VehicleIndex where
  vehicles := [bus "1" lat lon]
  positioned := by simp [bus, LiveTrip.hasPosition]
  distinct := by simp

/-- All buses of a square. -/
def square : ClientView where
  bbox := { minLat := .fin 51, minLon := .fin 4, maxLat := .fin 53, maxLon := .fin 6 }
  zoom := 12
  filters := { types := [1], owners := [], search := "" }

/-- The index of two buses on a line from south to north. -/
def twoBuses (lat lat' : ℚ) : VehicleIndex where
  vehicles := [bus "1" lat 5, bus "2" lat' 5]
  positioned := by simp [bus, LiveTrip.hasPosition]
  distinct := by simp [bus, LiveTrip.new, VehicleKey.id]

/-- The square north of it. -/
def northOfSquare : ClientView :=
  { square with bbox := { minLat := .fin 53, minLon := .fin 4, maxLat := .fin 55, maxLon := .fin 6 } }

namespace Sys

/-- Two buses enter; one moves while the other leaves the square; the client pans
to where that one is. -/
def squareActs : List Action :=
  [.opened 0, .serve 0, .tick 0 (twoBuses 51 52), .deliver 0, .tick 0 (twoBuses 52 54), .deliver 0,
    .update northOfSquare, .serve 0, .tick 0 (twoBuses 52 55), .deliver 0]

/-- The client converges to the index of the tick that served its last view. -/
theorem stream_converges_square :
    let _ := plainPlatform
    ∃ (s : Sys) (t : Tick), Run Step (start 0 [] [] square) squareActs s ∧
      (((s.peer 0).log.filterMap Item.tick?).filterMap Tick.frame).map
          (fun u => (u.entered.map VehicleState.id, u.moved.map VehicleMove.id, u.left, u.isSnapshot)) =
        [(["RET:1", "RET:2"], [], [], true), ([], ["RET:1"], ["RET:2"], false), (["RET:2"], [], ["RET:1"], false)] ∧
      (s.heard 0 = some t ∧ t.idx.vehicles.map (fun u => (u.id, u.lat)) = [("RET:1", .fin 52), ("RET:2", .fin 55)]) ∧
      s.store.Converged northOfSquare [] t.idx ∧ s.store.vehicles.keys = ["RET:2"] := by
  intro _
  let s := (exec step (start 0 [] [] square) squareActs).get (by decide +kernel)
  have hrun : exec step (start 0 [] [] square) squareActs = some s := (Option.some_get _).symm
  have hpinned : s.client.pinned = [] := by decide +kernel
  have hheard : (s.heard 0).any fun t => t.received = 2 ∧
      t.idx.vehicles.map (fun u => (u.id, u.lat)) = [("RET:1", .fin 52), ("RET:2", .fin 55)] := by decide +kernel
  have hsent : (s.client.socket 0).sent.length = 2 := by decide +kernel
  obtain ⟨t, ht, hlast⟩ := (Option.any_eq_true _ _).mp hheard
  obtain ⟨hreceived, hidx⟩ := of_decide_eq_true hlast
  have h := (stream_converges (Run.of_exec hrun)).1 0 northOfSquare t (by decide +kernel) (by decide +kernel)
    ⟨by decide +kernel, by decide +kernel⟩ (fun n hn => ⟨.bus, by rw [List.mem_singleton.mp hn]; rfl⟩) ht
    (hreceived.trans hsent.symm)
  rw [hpinned] at h
  exact ⟨s, t, Run.of_exec hrun, by decide +kernel, ⟨ht, hidx⟩, h, by decide +kernel⟩

end Sys

end OV.Impl
