import Ovlive.Framework.Lists
import Ovlive.Impl.Client.TripPlan

/-!
# The plan fetch

What the effects of a render leave (`flush_planTrip`, `flush_issued` and the
others), and from it the bound on the plan requests: `Counted` accounts for
each request by a change of the selection, a bump or a trip id newly reported,
`counted_step` is its step lemma, and `issued_le` the bound for every run.
-/

namespace OV.Impl.Client

namespace PlanApp

/-- 1 where two values differ. -/
def differ {A : Type} [DecidableEq A] (a b : A) : Nat := if a = b then 0 else 1

theorem differ_self {A : Type} [DecidableEq A] (a : A) : differ a a = 0 := if_pos rfl

theorem differ_le {A : Type} [DecidableEq A] (a b c : A) : differ a c ≤ differ a b + differ b c := by
  unfold differ
  split_ifs <;> simp_all

variable {s t : PlanApp} {a : PlanAction} {as : List PlanAction}

/-- What a step does. -/
theorem step_inv (h : Step s a t) :
    match a with
    | .serve v trip => trip ≠ some "" ∧ t = { s with server := fun w => if w = v then trip else s.server w }
    | .select id => t = { s with state := { s.state with activeId := id } }
    | .bump => t = { s with state := { s.state with detailNonce := s.state.detailNonce + 1 } }
    | .commit => s.effectsDue = false ∧ t = s.commit
    | .flush => s.effectsDue = true ∧ t = s.flush
    | .poll _ trip => ∃ polls, t = { s with state := { s.state with detail := some trip }, polls := polls }
    | .pollFails _ =>
      ∃ polls, t = { s with state := { s.state with detail := none }, polls := polls } ∨ t = { s with polls := polls }
    | .planServed => ∃ r, s.request = some r ∧ r.served = none ∧
        t = { s with request := some { r with served := some (s.server r.vehicle) } }
    | .planArrives => ∃ r tripId, s.request = some r ∧ r.served = some tripId ∧
        t = { s with state := { s.state with trip := some { request := r.id, tripId := tripId } }, request := none }
    | .planFails => ∃ r, s.request = some r ∧ t = { s with request := none } := by
  cases a with
  | serve v trip =>
    simp only [Step, step] at h
    split at h
    · cases h
    · exact ⟨‹_›, (Option.some.inj h).symm⟩
  | select id => exact (Option.some.inj h).symm
  | bump => exact (Option.some.inj h).symm
  | commit =>
    simp only [Step, step] at h
    split at h
    · cases h
    · exact ⟨eq_false_of_ne_true ‹_›, (Option.some.inj h).symm⟩
  | flush =>
    simp only [Step, step] at h
    split at h
    · exact ⟨‹_›, (Option.some.inj h).symm⟩
    · cases h
  | poll first trip =>
    simp only [Step, step] at h
    split at h
    · split at h
      · cases h
      · exact ⟨_, (Option.some.inj h).symm⟩
    · cases h
  | pollFails first =>
    simp only [Step, step] at h
    split at h
    · split at h
      · cases h
      · cases first with
        | true => exact ⟨_, .inl (Option.some.inj h).symm⟩
        | false => exact ⟨_, .inr (Option.some.inj h).symm⟩
    · cases h
  | planServed =>
    simp only [Step, step] at h
    split at h
    · rename_i r hr
      split at h
      · cases h
      · rename_i hserved
        exact ⟨r, hr, by simpa using hserved, (Option.some.inj h).symm⟩
    · cases h
  | planArrives =>
    simp only [Step, step] at h
    split at h
    · rename_i r hr
      obtain ⟨tripId, hserved, rfl⟩ := Option.map_eq_some_iff.mp h
      exact ⟨r, tripId, hr, hserved, rfl⟩
    · cases h
  | planFails =>
    obtain ⟨r, hr, rfl⟩ := Option.map_eq_some_iff.mp h
    exact ⟨r, hr, rfl⟩

/-! ## The effects of a render -/

/-- What the effects leave alone. -/
theorem flush_frame (s : PlanApp) :
    s.flush.rendered = s.rendered ∧ s.flush.server = s.server ∧ s.flush.effectsDue = false ∧
      s.flush.state.activeId = s.state.activeId ∧ s.flush.state.detailNonce = s.state.detailNonce := by
  simp only [flush, runRule, runPlan, runPolls]
  split_ifs <;> simp

theorem flush_planDeps (s : PlanApp) : s.flush.planDeps = s.rendered.planDeps := by
  simp only [flush, runRule, runPlan, runPolls]
  split_ifs <;> first | rfl | assumption

theorem flush_ruleDeps (s : PlanApp) : s.flush.ruleDeps = s.rendered.ruleDeps := by
  simp only [flush, runRule, runPlan, runPolls]
  split_ifs <;> first | rfl | assumption

/-- The trip id asked for: what the rule says, if it ran. -/
theorem flush_planTrip (s : PlanApp) :
    s.flush.state.planTrip =
      if s.ruleDeps = s.rendered.ruleDeps then s.state.planTrip
      else s.rendered.ruleDeps.ask.or s.state.planTrip := by
  simp only [flush, runRule, runPlan, runPolls]
  split_ifs <;> rfl

/-- What the rule asks for is what was reported as of the render. -/
theorem ask_eq_some {d : RuleDeps} {r : String} (h : d.ask = some r) : d.reported = some r ∧ d.planTrip ≠ some r := by
  unfold RuleDeps.ask at h
  split at h
  · rename_i reported trip hrep htrip
    split at h
    · rename_i hask
      obtain rfl := Option.some.inj h
      exact ⟨hrep, hask.2.2⟩
    · cases h
  · cases h

/-- The trip id asked for stays, or becomes one that the rule asks for. -/
theorem flush_planTrip_cases (s : PlanApp) :
    s.flush.state.planTrip = s.state.planTrip ∨
      ∃ r, s.rendered.ruleDeps.ask = some r ∧ s.state.planTrip ≠ some r ∧ s.flush.state.planTrip = some r := by
  rw [flush_planTrip]
  split
  · exact .inl rfl
  · cases hask : s.rendered.ruleDeps.ask with
    | none => exact .inl (Option.none_or ..)
    | some r =>
      rw [Option.some_or]
      by_cases hr : s.state.planTrip = some r
      · exact .inl hr.symm
      · exact .inr ⟨r, rfl, hr, rfl⟩

theorem flush_detail (s : PlanApp) :
    s.flush.state.detail =
      if s.pollDeps = (s.rendered.activeId, s.rendered.detailNonce) then s.state.detail else none := by
  simp only [flush, runRule, runPlan, runPolls]
  split_ifs <;> rfl

theorem flush_issued (s : PlanApp) :
    s.flush.issued =
      if s.planDeps = s.rendered.planDeps ∨ s.rendered.active = none then s.issued else s.issued + 1 := by
  have h : s.flush.issued = if s.planDeps = s.rendered.planDeps then s.issued
      else if s.rendered.active.isSome then s.issued + 1 else s.issued := by
    simp only [flush, runRule, runPlan, runPolls]
    split_ifs <;> rfl
  rw [h]
  cases s.rendered.active with
  | none => simp
  | some v => simp

/-- The request and the plan stay, or the plan is fetched anew. -/
theorem flush_request (s : PlanApp) :
    (s.planDeps = s.rendered.planDeps ∧ s.flush.request = s.request ∧ s.flush.state.trip = s.state.trip) ∨
      s.planDeps ≠ s.rendered.planDeps ∧
        s.flush.request = s.rendered.active.map fun v => { id := s.issued, vehicle := v } := by
  simp only [flush, runRule, runPlan, runPolls]
  split_ifs <;> simp_all

/-- An effect runs at most as often as one of its dependencies differs. -/
theorem flush_issued_le (s : PlanApp) :
    s.flush.issued ≤ s.issued + differ s.planDeps.activeId s.rendered.activeId +
      differ s.planDeps.detailNonce s.rendered.detailNonce + differ s.planDeps.planTrip s.rendered.planTrip := by
  rw [flush_issued]
  split
  · omega
  · rename_i h
    simp only [not_or] at h
    have hdeps : differ s.planDeps.activeId s.rendered.activeId + differ s.planDeps.detailNonce s.rendered.detailNonce +
        differ s.planDeps.planTrip s.rendered.planTrip ≠ 0 := by
      intro h0
      refine h.1 ?_
      simp only [differ] at h0
      have h1 : s.planDeps.activeId = s.rendered.activeId := by by_contra hne; simp [hne] at h0
      have h2 : s.planDeps.detailNonce = s.rendered.detailNonce := by by_contra hne; simp [hne] at h0
      have h3 : s.planDeps.planTrip = s.rendered.planTrip := by by_contra hne; simp [hne] at h0
      cases hd : s.planDeps
      rw [hd] at h1 h2 h3
      rw [PlanState.planDeps, ← h1, ← h2, ← h3]
    omega

/-! ## What a run has seen -/

/-- The vehicles selected, or none. -/
def selections (as : List PlanAction) : List (Option String) :=
  as.filterMap fun a => match a with
    | .select id => some id
    | _ => none

/-- How often the nonce was bumped. -/
def bumps (as : List PlanAction) : Nat := as.count .bump

/-- The trip ids that polls reported, without the nulls. -/
def reports (as : List PlanAction) : List String :=
  as.filterMap fun a => match a with
    | .poll _ trip => trip
    | _ => none

/-- How often the active vehicle changed. -/
def activeChanges (as : List PlanAction) : Nat := constantRuns (none :: selections as) - 1

/-- The plan requests accounted for, after selections, bumps and reports: `a` by
changes of the active vehicle, `n` by bumps, and `p` by the `c` trip ids asked
for. The trip id asked for last is the one reported last, or a report is left
over; and one that is reported and rendered but not asked for is left over too. -/
structure Counted (selected : List (Option String)) (bumped : Nat) (told : List String) (s : PlanApp) (a n p c : Nat) :
    Prop where
  issued : s.issued ≤ a + n + p
  active : a + differ s.planDeps.activeId s.rendered.activeId + differ s.rendered.activeId s.state.activeId + 1 ≤
    constantRuns (none :: selected)
  lastActive : (none :: selected).getLast? = some s.state.activeId
  nonce : n ≤ s.planDeps.detailNonce
  rendered : s.planDeps.detailNonce ≤ s.rendered.detailNonce
  queued : s.rendered.detailNonce ≤ s.state.detailNonce
  bumps : s.state.detailNonce = bumped
  plan : p + differ s.planDeps.planTrip s.rendered.planTrip + differ s.rendered.planTrip s.state.planTrip ≤ c
  asked : c ≤ constantRuns told
  lastAsked : c = constantRuns told → told.getLast? = s.state.planTrip
  reported : ∀ r, s.state.reported = some r → told.getLast? = some r
  leftOver : ∀ r, s.rendered.reported = some r → s.state.planTrip ≠ some r →
    c + 1 + differ told.getLast? (some r) ≤ constantRuns told

theorem counted_init : Counted [] 0 [] {} 0 0 0 0 where
  issued := Nat.le_refl _
  active := Nat.le_refl _
  lastActive := rfl
  nonce := Nat.le_refl _
  rendered := Nat.le_refl _
  queued := Nat.le_refl _
  bumps := rfl
  plan := Nat.le_refl _
  asked := Nat.le_refl _
  lastAsked _ := rfl
  reported _ h := nomatch h
  leftOver _ h := nomatch h

namespace Counted

variable {selected : List (Option String)} {bumped b n p c : Nat} {told : List String}

theorem select (h : Counted selected bumped told s b n p c) (id : Option String) :
    Counted (selected ++ [id]) bumped told { s with state := { s.state with activeId := id } } b n p c := by
  refine { h with active := ?_, lastActive := ?_ }
  · have hrun := constantRuns_snoc (none :: selected) id
    rw [h.lastActive] at hrun
    have hdiff := differ_le s.rendered.activeId s.state.activeId id
    have hact := h.active
    have hnew : (if some s.state.activeId = some id then 0 else 1) = differ s.state.activeId id := by
      simp only [differ, Option.some.injEq]
    rw [← List.cons_append, hrun, hnew]
    show b + differ s.planDeps.activeId s.rendered.activeId + differ s.rendered.activeId id + 1 ≤ _
    omega
  · rw [← List.cons_append, List.getLast?_append, List.getLast?_singleton]
    rfl

theorem bump (h : Counted selected bumped told s b n p c) :
    Counted selected (bumped + 1) told { s with state := { s.state with detailNonce := s.state.detailNonce + 1 } }
      b n p c := by
  refine { h with queued := Nat.le_trans h.queued (Nat.le_succ _), bumps := ?_ }
  rw [h.bumps]

/-- A poll that reports no trip. -/
theorem poll_none (h : Counted selected bumped told s b n p c) (polls : Option Bool) :
    Counted selected bumped told { s with state := { s.state with detail := some none }, polls := polls } b n p c :=
  { h with reported := nofun }

/-- A poll that reports a trip: asked for or not, the report before it is still
accounted for. -/
theorem poll (h : Counted selected bumped told s b n p c) (r : String) (polls : Option Bool) :
    Counted selected bumped (told ++ [r]) { s with state := { s.state with detail := some (some r) }, polls := polls }
      b n p c := by
  have hrun : constantRuns (told ++ [r]) = constantRuns told + differ told.getLast? (some r) :=
    constantRuns_snoc told r
  have hlast : (told ++ [r]).getLast? = some r := by simp
  have hasked := h.asked
  refine { h with asked := ?_, lastAsked := ?_, reported := ?_, leftOver := ?_ }
  · omega
  · intro hc
    have hagain : told.getLast? = some r := by
      by_contra hne
      have hone : differ told.getLast? (some r) = 1 := if_neg hne
      omega
    rw [hlast, ← hagain]
    refine h.lastAsked ?_
    omega
  · intro r' hr'
    rw [hlast]
    exact hr'
  · intro r' hr' hne
    have hleft := h.leftOver r' hr' hne
    rw [hlast, hrun]
    by_cases hagain : told.getLast? = some r
    · rw [hagain] at hleft ⊢
      omega
    · have hone : differ told.getLast? (some r) = 1 := if_neg hagain
      have hle : differ (some r) (some r') ≤ 1 := by
        unfold differ
        split <;> omega
      omega

theorem pollFails (h : Counted selected bumped told s b n p c) (polls : Option Bool) :
    Counted selected bumped told { s with state := { s.state with detail := none }, polls := polls } b n p c :=
  { h with reported := nofun }

/-- A render shows what was reported last: if that was not asked for, there is
a report left over. -/
theorem commit (h : Counted selected bumped told s b n p c) : Counted selected bumped told s.commit b n p c := by
  have hact := h.active
  have hplan := h.plan
  refine { h with active := ?_, rendered := ?_, queued := Nat.le_refl _, plan := ?_, leftOver := ?_ }
  · have hdiff := differ_le s.planDeps.activeId s.rendered.activeId s.state.activeId
    show b + differ s.planDeps.activeId s.state.activeId + differ s.state.activeId s.state.activeId + 1 ≤ _
    rw [differ_self]
    omega
  · exact Nat.le_trans h.rendered h.queued
  · have hdiff := differ_le s.planDeps.planTrip s.rendered.planTrip s.state.planTrip
    show p + differ s.planDeps.planTrip s.state.planTrip + differ s.state.planTrip s.state.planTrip ≤ c
    rw [differ_self]
    omega
  · intro r hrep hne
    have hlast := h.reported r hrep
    rw [hlast, differ_self]
    rcases Nat.lt_or_eq_of_le h.asked with hlt | heq
    · omega
    · exact absurd ((h.lastAsked heq).symm.trans hlast) hne

/-- The effects make at most one request, for what differs from their last run,
and ask for a trip id that was left over. -/
theorem flush (h : Counted selected bumped told s b n p c) :
    Counted selected bumped told s.flush (b + differ s.planDeps.activeId s.rendered.activeId)
      (n + differ s.planDeps.detailNonce s.rendered.detailNonce)
      (p + differ s.planDeps.planTrip s.rendered.planTrip) (c + differ s.state.planTrip s.flush.state.planTrip) := by
  obtain ⟨hrendered, -, -, hactive, hnonce⟩ := flush_frame s
  have hdeps := flush_planDeps s
  have hissued := flush_issued_le s
  have hle := h.issued
  have hact := h.active
  have hplan := h.plan
  have hasked := h.asked
  refine ⟨?_, ?_, ?_, ?_, ?_, ?_, ?_, ?_, ?_, ?_, ?_, ?_⟩
  · omega
  · rw [hdeps, hrendered, hactive, PlanState.planDeps, differ_self]
    omega
  · rw [hactive]
    exact h.lastActive
  · have hn := h.nonce
    have hnr := h.rendered
    rw [hdeps, PlanState.planDeps]
    show n + differ s.planDeps.detailNonce s.rendered.detailNonce ≤ s.rendered.detailNonce
    unfold differ
    split <;> omega
  · rw [hdeps, hrendered]
    exact Nat.le_refl _
  · rw [hrendered, hnonce]
    exact h.queued
  · rw [hnonce]
    exact h.bumps
  · have hdiff := differ_le s.rendered.planTrip s.state.planTrip s.flush.state.planTrip
    rw [hdeps, hrendered, PlanState.planDeps, differ_self]
    omega
  · rcases flush_planTrip_cases s with hq | ⟨r, hr, hne, hq⟩
    · rw [hq, differ_self]
      exact hasked
    · have hleft := h.leftOver r (ask_eq_some hr).1 hne
      rw [hq, differ, if_neg hne]
      omega
  · rcases flush_planTrip_cases s with hq | ⟨r, hr, hne, hq⟩
    · rw [hq, differ_self]
      exact h.lastAsked
    · have hleft := h.leftOver r (ask_eq_some hr).1 hne
      rw [hq]
      intro hc
      rw [differ, if_neg hne] at hc
      by_contra hlast
      have hone : differ told.getLast? (some r) = 1 := if_neg hlast
      omega
  · intro r hr
    rw [PlanState.reported, flush_detail] at hr
    split at hr
    · exact h.reported r hr
    · cases hr
  · intro r hr hne
    rw [hrendered] at hr
    rcases flush_planTrip_cases s with hq | ⟨r', hr', -, hq⟩
    · rw [hq] at hne ⊢
      rw [differ_self]
      exact h.leftOver r hr hne
    · have hr' := (ask_eq_some hr').1
      rw [show s.rendered.ruleDeps.reported = s.rendered.reported from rfl, hr] at hr'
      exact absurd (hq.trans hr'.symm) hne

end Counted

/-- One step of a run counts its selection, its bump or its report. -/
theorem counted_step {b n p c : Nat} (h : Counted (selections as) (bumps as) (reports as) s b n p c)
    (hs : Step s a t) :
    ∃ b' n' p' c', Counted (selections (as ++ [a])) (bumps (as ++ [a])) (reports (as ++ [a])) t b' n' p' c' := by
  have hsel : selections (as ++ [a]) = selections as ++ selections [a] := List.filterMap_append ..
  have hbump : bumps (as ++ [a]) = bumps as + bumps [a] := List.count_append ..
  have hrep : reports (as ++ [a]) = reports as ++ reports [a] := List.filterMap_append ..
  have hquiet : ∀ {u : PlanApp} {b' n' p' c' : Nat}, selections [a] = [] → bumps [a] = 0 → reports [a] = [] →
      Counted (selections as) (bumps as) (reports as) u b' n' p' c' →
      Counted (selections (as ++ [a])) (bumps (as ++ [a])) (reports (as ++ [a])) u b' n' p' c' := by
    intro u b' n' p' c' h1 h2 h3 hu
    rw [hsel, hbump, hrep, h1, h2, h3, List.append_nil, List.append_nil]
    exact hu
  cases a with
  | serve v trip =>
    obtain ⟨-, rfl⟩ := step_inv hs
    exact ⟨b, n, p, c, hquiet rfl rfl rfl { h with }⟩
  | select id =>
    have ht : t = _ := step_inv hs
    subst ht
    rw [hsel, hbump, hrep, show reports [.select id] = [] from rfl, List.append_nil (reports as)]
    exact ⟨b, n, p, c, h.select id⟩
  | bump =>
    have ht : t = _ := step_inv hs
    subst ht
    rw [hsel, hbump, hrep, show selections [.bump] = [] from rfl, show reports [.bump] = [] from rfl, List.append_nil,
      List.append_nil]
    exact ⟨b, n, p, c, h.bump⟩
  | commit =>
    obtain ⟨-, rfl⟩ := step_inv hs
    exact ⟨b, n, p, c, hquiet rfl rfl rfl h.commit⟩
  | flush =>
    obtain ⟨-, rfl⟩ := step_inv hs
    exact ⟨_, _, _, _, hquiet rfl rfl rfl h.flush⟩
  | poll first trip =>
    obtain ⟨polls, rfl⟩ := step_inv hs
    cases trip with
    | none => exact ⟨b, n, p, c, hquiet rfl rfl rfl (h.poll_none polls)⟩
    | some r =>
      rw [hsel, hbump, hrep, show selections [.poll first (some r)] = [] from rfl, List.append_nil]
      exact ⟨b, n, p, c, h.poll r polls⟩
  | pollFails first =>
    obtain ⟨polls, rfl | rfl⟩ := step_inv hs
    · exact ⟨b, n, p, c, hquiet rfl rfl rfl (h.pollFails polls)⟩
    · exact ⟨b, n, p, c, hquiet rfl rfl rfl { h with }⟩
  | planServed =>
    obtain ⟨r, -, -, rfl⟩ := step_inv hs
    exact ⟨b, n, p, c, hquiet rfl rfl rfl { h with }⟩
  | planArrives =>
    obtain ⟨r, tripId, -, -, rfl⟩ := step_inv hs
    exact ⟨b, n, p, c, hquiet rfl rfl rfl { h with }⟩
  | planFails =>
    obtain ⟨-, -, rfl⟩ := step_inv hs
    exact ⟨b, n, p, c, hquiet rfl rfl rfl { h with }⟩

/-- In every run there are no more plan requests than changes of the active
vehicle, bumps of the nonce and runs of one reported trip id. -/
theorem issued_le (as : List PlanAction) (s : PlanApp) (h : Run Step {} as s) :
    s.issued ≤ activeChanges as + bumps as + constantRuns (reports as) := by
  have hcounted : ∃ b n p c, Counted (selections as) (bumps as) (reports as) s b n p c := by
    induction h with
    | nil => exact ⟨0, 0, 0, 0, counted_init⟩
    | snoc _ hlast ih =>
      obtain ⟨b, n, p, c, h⟩ := ih
      exact counted_step h hlast
  obtain ⟨b, n, p, c, h⟩ := hcounted
  have hissued := h.issued
  have hactive := h.active
  have hn := h.nonce
  have hr := h.rendered
  have hq := h.queued
  have hbumps := h.bumps
  have hplan := h.plan
  have hasked := h.asked
  unfold activeChanges
  omega

/-- A vehicle is selected, and by the time of its first poll it is on another trip. -/
def rerouted : List PlanAction :=
  [.serve "RET:1" (some "T1"), .select (some "RET:1"), .commit, .flush, .planServed, .planArrives,
    .poll true (some "T2"), .commit, .flush, .commit, .flush]

/-- Its plan is requested twice, once for the selection and once for the report. -/
theorem issued_le_rerouted :
    activeChanges rerouted + bumps rerouted + constantRuns (reports rerouted) = 2 ∧
      ∃ s, exec step {} rerouted = some s ∧ s.issued = 2 ∧
        s.issued ≤ activeChanges rerouted + bumps rerouted + constantRuns (reports rerouted) :=
  ⟨by decide +kernel, _, rfl, rfl, issued_le rerouted _ (Run.of_exec rfl)⟩

end PlanApp

end OV.Impl.Client
