import Ovlive.Impl.Realtime.Ns
import Ovlive.Proof.Ingest.Steps
import Ovlive.Proof.Realtime.Records

/-!
# When a silent vehicle disappears

A sweep goes by the time a vehicle's last event is dated. `expires_iff` says
which events a sweep is sure to outlive: those that end the trip, and those not
dated past the receiver's clock by more than the skew the decoders allow. NS
fixes are checked for that (`Ns.fresh_step`, `timestamp_le_of_mem_parse`), the
timestamps of KV6 are not, and `ghost_iff` is the difference.
-/

namespace OV.Impl

/-! ## NS fixes are in the window -/

namespace Ns

variable {now : Instant} {maxAge : Int} {s : Scan}

/-- What is kept of a train can be used, and what was made of one is in the window. -/
structure Fresh (now : Instant) (maxAge : Int) (s : Scan) : Prop where
  best : ∀ p, s.best = some p → p.usable now maxAge = true
  events : ∀ e ∈ s.events, e.timestamp ≤ now + MAX_CLOCK_SKEW * nanos

theorem usable_of_better {p : Part} {best : Option Part} (h : p.better best now maxAge = true) :
    p.usable now maxAge = true := by
  unfold Part.better at h
  split at h
  · exact h
  · rw [Bool.and_eq_true] at h
    exact h.1
  · cases h

theorem timestamp_of_usable {p : Part} (h : p.usable now maxAge = true) :
    p.timestamp.getD now ≤ now + MAX_CLOCK_SKEW * nanos := by
  unfold Part.usable at h
  split at h
  · rename_i hts
    split at h
    · cases h
    · rw [Bool.and_eq_true, decide_eq_true_eq, decide_eq_true_eq] at h
      rw [hts]
      exact h.2
  · cases h

theorem fresh_endPart (h : Fresh now maxAge s) : Fresh now maxAge (s.endPart now maxAge) := by
  unfold Scan.endPart
  split
  · rename_i p _
    refine ⟨?_, h.events⟩
    intro q hq
    by_cases hb : p.better s.best now maxAge = true
    · rw [if_pos hb, Option.some.injEq] at hq
      exact hq ▸ usable_of_better hb
    · rw [if_neg hb] at hq
      exact h.best q hq
  · exact h

theorem fresh_endTrain (h : Fresh now maxAge s) : Fresh now maxAge (s.endTrain now) := by
  refine ⟨fun p hp => (by cases hp), ?_⟩
  simp only [Scan.endTrain]
  split
  · rename_i number p _ hbest
    intro e he
    rcases List.mem_append.mp he with he | he
    · exact h.events e he
    · obtain rfl := List.mem_singleton.mp he
      exact timestamp_of_usable (h.best p hbest)
  · exact h.events

variable [Feed]

theorem fresh_step (h : Fresh now maxAge s) (x : XmlEvent) : Fresh now maxAge (step now maxAge s x) := by
  cases x with
  | start name attributes =>
    simp only [step]
    split
    · exact ⟨fun p hp => (by cases hp), h.events⟩
    · exact ⟨h.best, h.events⟩
    · exact ⟨h.best, h.events⟩
  | text val =>
    simp only [step]
    split
    · exact ⟨h.best, h.events⟩
    · split
      · exact h
      · exact ⟨h.best, h.events⟩
    · exact h
  | end_ name =>
    simp only [step]
    split
    · exact ⟨(fresh_endPart h).best, (fresh_endPart h).events⟩
    · exact ⟨(fresh_endTrain h).best, (fresh_endTrain h).events⟩
    · exact ⟨h.best, h.events⟩
  | other => exact h

theorem fresh_foldl (xs : List XmlEvent) (h : Fresh now maxAge s) : Fresh now maxAge (xs.foldl (step now maxAge) s) := by
  induction xs generalizing s with
  | nil => exact h
  | cons x xs ih => exact ih (fresh_step h x)

end Ns

/-- No event of an NS payload is dated further ahead than the allowed skew. -/
theorem timestamp_le_of_mem_parse [Feed] {xml : String} {now : Instant} {maxAge : Int} {e : PosEvent}
    (h : e ∈ parseNsTreinposities xml now maxAge) : e.timestamp ≤ now + Ns.MAX_CLOCK_SKEW * nanos :=
  (Ns.fresh_foldl _ ⟨fun p hp => (by cases hp), fun e he => (by cases he)⟩).events e h

/-! ## Sweeps -/

section

variable [Platform]

/-- However the server goes on without a message of the vehicle, a sweep later
than the allowed skew past an event received at `r` leaves no trip of it. -/
def Expires (r : Instant) (s : Server) (e : PosEvent) : Prop :=
  ∀ as u t, Run Server.Step (s.act (.position e)) as u → (∀ a ∈ as, ¬ a.isMessageOf e.key.id) →
    r + s.live.staleAfter + Ns.MAX_CLOCK_SKEW * nanos < t → (u.act (.sweep t)).trip e.key.id = none

variable {r : Instant} {s u : Server} {e : PosEvent} {as : List ServerAction}

theorem run_staleAfter (h : Run Server.Step s as u) : u.live.staleAfter = s.live.staleAfter := by
  refine h.inv (P := fun u => u.live.staleAfter = s.live.staleAfter) ?_ rfl
  rintro s a _ rfl hs
  rw [act_staleAfter, hs]

/-- While a vehicle is silent, its trip is the one it had, or swept. -/
theorem trip_run_silent {v : String} (h : Run Server.Step s as u) (hv : ∀ a ∈ as, ¬ a.isMessageOf v) :
    u.trip v = s.trip v ∨ u.trip v = none := by
  induction h with
  | nil => exact .inl rfl
  | @snoc as t a u _ hr ih =>
    obtain rfl := hr
    have hlast := trip_act_other t (hv a (List.mem_append_right _ (List.mem_singleton_self _)))
    rcases ih fun a ha => hv a (List.mem_append_left _ ha) with h | h
    · rwa [h] at hlast
    · rw [h] at hlast
      exact .inr (hlast.elim id id)

theorem expires_iff (r : Instant) (s : Server) (e : PosEvent) :
    Expires r s e ↔ e.kind = .end_ ∨ e.timestamp ≤ r + Ns.MAX_CLOCK_SKEW * nanos := by
  have hself := trip_act_self s e
  constructor
  · intro h
    by_contra hne
    obtain ⟨hk, hlate⟩ := not_or.mp hne
    -- swept an instant too early for it
    have hnone := h [] _ (r + s.live.staleAfter + Ns.MAX_CLOCK_SKEW * nanos + 1) .nil (fun a ha => (by cases ha))
      (Int.lt_succ _)
    rw [trip_act_sweep, act_staleAfter, hself, eventTrip_eq hk, Option.filter_eq_none_iff] at hnone
    obtain ⟨-, u, hu, ht⟩ : _ ∧ ∃ u, Scheduled (reported s.live.trainDelays (s.trip e.key.id) e) u ∧ Moved u _ :=
      eventTrip_eq_some (g := s.gtfs) (eventTrip_eq hk)
    have hlast : (anchorToSchedule (askedTrip s.live.trainDelays s.gtfs.enricher (s.trip e.key.id) e) e
        s.gtfs.enricher).lastUpdate = e.timestamp := by
      rw [ht, hu]
      exact reported_lastUpdate
    have hold := hnone _ rfl
    rw [hlast, decide_eq_true_eq] at hold
    have hlt := Int.add_one_le_iff.mpr (Int.not_le.mp hlate)
    exact hold (by linarith)
  · rintro h as u t hrun hsilent ht
    rw [trip_act_sweep, run_staleAfter hrun, act_staleAfter, Option.filter_eq_none_iff]
    intro trip htrip
    rcases trip_run_silent hrun hsilent with hu | hu
    · rw [hu, hself] at htrip
      obtain ⟨hk, w, hw, hm⟩ := eventTrip_eq_some htrip
      have hlast : trip.lastUpdate = e.timestamp := by
        rw [hm, hw]
        exact reported_lastUpdate
      rw [hlast, decide_eq_true_eq]
      have hle := h.resolve_left hk
      intro hkeep
      linarith
    · rw [hu] at htrip
      cases htrip

variable [Feed]

/-- Every event of an NS payload expires. The events of a KV6 payload are those
of its records, and a record's event expires if it ends the trip or the record
is not dated ahead of the clock by more than the skew. -/
theorem ghost_iff (r : Instant) (maxAge : Int) (xml : String) (s : Server) :
    (∀ e ∈ parseNsTreinposities xml r maxAge, Expires r s e) ∧
      parseKv6 r xml = (Kv6.records xml).filterMap (Kv6.Record.event r) ∧
      ∀ ρ ∈ Kv6.records xml, ∀ e, ρ.event r = some e →
        (Expires r s e ↔ ρ.kind = .end_ ∨ ∀ ts, ρ.dated = some ts → ts ≤ r + Ns.MAX_CLOCK_SKEW * nanos) := by
  refine ⟨?_, parseKv6_eq r xml, ?_⟩
  · intro e he
    exact (expires_iff r s e).mpr (.inr (timestamp_le_of_mem_parse he))
  · intro ρ _ e he
    obtain ⟨hk, hts⟩ := Kv6.Record.event_eq_some he
    rw [expires_iff, hk, hts]
    cases ρ.dated with
    | none => simp [Ns.MAX_CLOCK_SKEW, nanos]
    | some ts => simp

/-- A bus whose clock is at the end of the day. -/
def aheadXml : String :=
  "<ONROUTE><dataownercode>RET</dataownercode><vehiclenumber>1001</vehiclenumber>" ++
    "<timestamp>2026-07-28T23:59:00Z</timestamp></ONROUTE>"

/-- What the packages make of it. -/
@[reducible] def aheadFeed : Feed where
  read xml :=
    if xml = aheadXml then
      [.start "ONROUTE" [],
        .start "dataownercode" [], .text (some "RET"), .end_ "dataownercode",
        .start "vehiclenumber" [], .text (some "1001"), .end_ "vehiclenumber",
        .start "timestamp" [], .text (some "2026-07-28T23:59:00Z"), .end_ "timestamp",
        .end_ "ONROUTE"]
    else []
  parseFromRfc3339 t := if t = "2026-07-28T23:59:00Z" then some (1785283140 * nanos) else none

omit [Platform] [Feed] in
/-- Received at eight in the morning, it is on the map until after midnight. -/
theorem ghost_not_swept :
    let _ := plainPlatform
    let _ := aheadFeed
    ¬ ∀ (r : Instant) (xml : String) (as : List ServerAction) (s : Server),
      Run Server.Step (Server.start 240 none {}) as s → ∀ e ∈ parseKv6 r xml, Expires r s e := by
  intro _ _ h
  have hahead : ∃ e ∈ parseKv6 (1785225600 * nanos) aheadXml,
      e.kind ≠ .end_ ∧ ¬ e.timestamp ≤ 1785225600 * nanos + Ns.MAX_CLOCK_SKEW * nanos := by
    decide +kernel
  obtain ⟨e, he, hk, hlate⟩ := hahead
  exact ((expires_iff _ _ e).mp (h _ _ [] _ .nil e he)).elim hk hlate

end

end OV.Impl
