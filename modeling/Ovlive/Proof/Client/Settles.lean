import Ovlive.Proof.Client.TripPlan

/-!
# When the plan settles

A component at rest shows the plan of the trip its polls report
(`settled_of_run`), in the runs that keep two conditions (`keepsPlan`): the
request whose answer is awaited does not fail, for it is not made again, and
the active vehicle does not come onto the trip asked for last once its plan is
another, for that trip is not asked for again. `Holds` is the invariant and
`holds_step` its step lemma; `not_settled` and `not_settled_failed` are runs
that break the one and the other condition.
-/

namespace OV.Impl.Client

namespace PlanApp

variable {s t : PlanApp} {a : PlanAction} {as : List PlanAction}

/-- At rest: nothing in flight, nothing to render, no effects to run, and
another poll that reports the trip changes nothing. -/
structure Quiescent (s : PlanApp) (trip : String) : Prop where
  request : s.request = none
  polls : s.polls = some false
  effects : s.effectsDue = false
  rendered : s.rendered = s.state
  poll : s.step (.poll false (some trip)) = some s

/-- At rest on a trip that the server has for the active vehicle, the plan
shown is that trip's. -/
def Settled (s : PlanApp) : Prop :=
  ∀ trip v, s.Quiescent trip → s.state.active = some v → s.server v = some trip →
    ∃ plan, s.state.trip = some plan ∧ plan.tripId = some trip

/-- Whether the effects due will fetch the plan. -/
def FetchDue (s : PlanApp) : Prop := s.effectsDue = true ∧ s.planDeps ≠ s.rendered.planDeps

/-- The trip of the plan that is loaded, or on its way. -/
def answered (s : PlanApp) : Option (Option String) :=
  match s.request with
  | some r => r.served
  | none => s.state.trip.map TripPlan.tripId

/-- Unless a fetch is due anyway: the plan request does not fail, and the
vehicle whose plan was fetched does not come onto the trip asked for when the
plan answered is another. -/
def keepsPlan (s : PlanApp) : PlanAction → Prop
  | .planFails => s.FetchDue
  | .serve v trip => s.FetchDue ∨ ¬(s.planDeps.activeId = some v ∧ trip.isSome ∧ s.planDeps.planTrip = trip ∧
      s.state.planTrip = trip ∧ ∃ other, s.answered = some other ∧ other ≠ trip)
  | _ => True

/-- A plan fits a vehicle: it is that of the trip asked for, if the server has
the vehicle on that one. -/
def Fits (s : PlanApp) (v : String) (plan : Option String) : Prop :=
  ∀ trip, s.server v = some trip → s.planDeps.planTrip = some trip → s.state.planTrip = some trip → plan = some trip

/-- What the runs keep: when the effects have run they have the dependencies of
the render; a trip that was to be asked for has been; and unless a fetch is due,
the active vehicle's request is out, or its plan is loaded, and fits. -/
structure Holds (s : PlanApp) : Prop where
  ran : s.effectsDue = false → s.planDeps = s.rendered.planDeps ∧ s.ruleDeps = s.rendered.ruleDeps
  asked : ∀ trip, s.ruleDeps.ask = some trip → s.state.planTrip ≠ s.ruleDeps.planTrip
  current : s.FetchDue ∨ ∀ v, s.planDeps.activeId = some v → v ≠ "" →
    (∃ r, s.request = some r ∧ r.vehicle = v ∧ ∀ plan, r.served = some plan → s.Fits v plan) ∨
      s.request = none ∧ ∃ plan, s.state.trip = some plan ∧ s.Fits v plan.tripId
  named : ∀ v, s.server v ≠ some ""

theorem holds_init : Holds {} where
  ran _ := ⟨rfl, rfl⟩
  asked _ h := nomatch h
  current := .inr nofun
  named _ := nofun

theorem holds_serve {v : String} {trip : Option String} (h : s.Holds) (hok : s.keepsPlan (.serve v trip))
    (htrip : trip ≠ some "") : Holds { s with server := fun w => if w = v then trip else s.server w } := by
  refine { h with current := ?_, named := ?_ }
  · rcases hok with hdue | hok
    · exact .inl hdue
    rcases h.current with hdue | hcur
    · exact .inl hdue
    refine .inr fun w hw hne => ?_
    have hfits : ∀ plan, s.answered = some plan → s.Fits w plan →
        Fits { s with server := fun w => if w = v then trip else s.server w } w plan := by
      intro plan hplan hfit u hu hdeps hstate
      by_cases hwv : w = v
      · simp only [hwv, if_true] at hu
        by_contra hother
        exact hok ⟨hwv ▸ hw, hu ▸ rfl, hdeps.trans hu.symm, hstate.trans hu.symm, plan, hplan, hu ▸ hother⟩
      · simp only [hwv, if_false] at hu
        exact hfit u hu hdeps hstate
    rcases hcur w hw hne with ⟨r, hr, hv, hserved⟩ | ⟨hnone, plan, hplan, hfit⟩
    · refine .inl ⟨r, hr, hv, fun plan hplan => hfits plan ?_ (hserved plan hplan)⟩
      rw [answered, hr]
      exact hplan
    · refine .inr ⟨hnone, plan, hplan, hfits plan.tripId ?_ hfit⟩
      rw [answered, hnone, hplan]
      rfl
  · intro w
    simp only
    split
    · exact htrip
    · exact h.named w

theorem holds_commit (h : s.Holds) (hdue : s.effectsDue = false) : s.commit.Holds := by
  refine { h with ran := nofun, current := ?_ }
  rcases h.current with hd | hcur
  · exact absurd (hdue.symm.trans hd.1) Bool.false_ne_true
  · exact .inr hcur

/-- A fetch that is due is made, and then its request is out; a trip the rule
asks for is not the one the plan on its way was asked for. -/
theorem holds_flush (h : s.Holds) : s.flush.Holds := by
  obtain ⟨hrendered, hserver, -, -, -⟩ := flush_frame s
  have hdeps := flush_planDeps s
  have hrule := flush_ruleDeps s
  refine ⟨fun _ => ⟨?_, ?_⟩, ?_, .inr ?_, ?_⟩
  · rw [hdeps, hrendered]
  · rw [hrule, hrendered]
  · intro trip hask
    rw [hrule] at hask ⊢
    rw [flush_planTrip]
    split
    · rename_i hsame
      rw [← hsame] at hask ⊢
      exact h.asked trip hask
    · rw [hask, Option.some_or]
      exact (ask_eq_some hask).2.symm
  · intro v hv hne
    rw [hdeps] at hv
    rcases flush_request s with ⟨hsame, hreq, htrip⟩ | ⟨hother, hreq⟩
    · have hfits : ∀ plan, s.Fits v plan → s.flush.Fits v plan := by
        intro plan hfit trip hu hplan hstate
        rw [hserver] at hu
        rw [hdeps, ← hsame] at hplan
        rcases flush_planTrip_cases s with hq | ⟨r, hr, -, hq⟩
        · rw [hq] at hstate
          exact hfit trip hu hplan hstate
        · -- the rule asks for what was not asked for
          have hne' := (ask_eq_some hr).2
          rw [hq] at hstate
          rw [hsame] at hplan
          exact absurd (hplan.trans hstate.symm) hne'
      rcases h.current with hdue | hcur
      · exact absurd hsame hdue.2
      · rw [hreq, htrip]
        rcases hcur v (hsame ▸ hv) hne with ⟨r, hr, hrv, hserved⟩ | ⟨hnone, plan, hplan, hfit⟩
        · exact .inl ⟨r, hr, hrv, fun plan hplan => hfits plan (hserved plan hplan)⟩
        · exact .inr ⟨hnone, plan, hplan, hfits _ hfit⟩
    · have hactive : s.rendered.active = some v := by
        rw [PlanState.active, show s.rendered.activeId = some v from hv, Option.filter_some, if_pos (by simpa using hne)]
      rw [hreq, hactive]
      exact .inl ⟨_, rfl, rfl, nofun⟩
  · rw [hserver]
    exact h.named

theorem holds_step (h : s.Holds) (hs : Guarded keepsPlan Step s a t) : t.Holds := by
  obtain ⟨hok, hs⟩ := hs
  cases a with
  | serve v trip =>
    obtain ⟨htrip, rfl⟩ := step_inv hs
    exact holds_serve h hok htrip
  | select id =>
    have ht : t = _ := step_inv hs
    subst ht
    exact { h with }
  | bump =>
    have ht : t = _ := step_inv hs
    subst ht
    exact { h with }
  | commit =>
    obtain ⟨hdue, rfl⟩ := step_inv hs
    exact holds_commit h hdue
  | flush =>
    obtain ⟨-, rfl⟩ := step_inv hs
    exact holds_flush h
  | poll first trip =>
    obtain ⟨polls, rfl⟩ := step_inv hs
    exact { h with }
  | pollFails first =>
    obtain ⟨polls, rfl | rfl⟩ := step_inv hs
    · exact { h with }
    · exact { h with }
  | planServed =>
    obtain ⟨r, hr, -, rfl⟩ := step_inv hs
    refine { h with current := h.current.imp id fun hcur v hv hne => .inl ?_ }
    rcases hcur v hv hne with ⟨r', hr', hrv, -⟩ | ⟨hnone, -⟩
    · obtain rfl := Option.some.inj (hr.symm.trans hr')
      refine ⟨_, rfl, hrv, fun plan hplan trip hserver _ _ => ?_⟩
      rw [← Option.some.inj hplan, hrv]
      exact hserver
    · rw [hr] at hnone
      cases hnone
  | planArrives =>
    obtain ⟨r, tripId, hr, hserved, rfl⟩ := step_inv hs
    refine { h with current := h.current.imp id fun hcur v hv hne => .inr ⟨rfl, _, rfl, ?_⟩ }
    rcases hcur v hv hne with ⟨r', hr', -, hfit⟩ | ⟨hnone, -⟩
    · obtain rfl := Option.some.inj (hr.symm.trans hr')
      exact hfit tripId hserved
    · rw [hr] at hnone
      cases hnone
  | planFails =>
    obtain ⟨-, -, rfl⟩ := step_inv hs
    exact { h with current := .inl hok }

/-- In a run in which no plan request fails and the active vehicle never comes
onto the trip asked for with another plan, unless a fetch is due anyway, every
state at rest shows the plan of the trip reported. -/
theorem settled_of_run (as : List PlanAction) (s : PlanApp) (h : Run (Guarded keepsPlan Step) {} as s) : s.Settled := by
  have hs : s.Holds := h.inv (fun _ _ _ hstep hs => holds_step hs hstep) holds_init
  intro trip v hq hv hserver
  obtain ⟨hdeps, hrule⟩ := hs.ran hq.effects
  rw [hq.rendered] at hdeps hrule
  have hvid : s.state.activeId = some v ∧ v ≠ "" := by
    obtain ⟨hid, hne⟩ := Option.filter_eq_some_iff.mp hv
    exact ⟨hid, by simpa using hne⟩
  have hreported : s.state.reported = some trip := by
    obtain ⟨polls, hpoll⟩ := step_inv hq.poll
    have hdetail := congrArg (fun u : PlanApp => u.state.reported) hpoll
    exact hdetail
  rcases hs.current with hdue | hcur
  · exact absurd (hq.effects.symm.trans hdue.1) Bool.false_ne_true
  rcases hcur v (hdeps ▸ hvid.1) hvid.2 with ⟨r, hr, -, -⟩ | ⟨-, plan, hplan, hfit⟩
  · rw [hq.request] at hr
    cases hr
  · refine ⟨plan, hplan, ?_⟩
    by_contra hother
    -- the trip is not the one asked for, or its plan would fit; so the rule asks for it
    have hasked : s.state.planTrip ≠ some trip := fun he => hother (hfit trip hserver (hdeps ▸ he) he)
    have hnamed : trip ≠ "" := fun he => hs.named v (he ▸ hserver)
    have hask : s.ruleDeps.ask = some trip := by
      rw [hrule, RuleDeps.ask]
      simp only [PlanState.ruleDeps, hreported, hplan]
      rw [if_pos ⟨hnamed, hother, hasked⟩]
    exact hs.asked trip hask (by rw [hrule]; rfl)

/-! ## Runs that do not settle -/

/-- The plan of a vehicle is fetched and shown. -/
def fetched : List PlanAction := [.commit, .flush, .planServed, .planArrives]

/-- What a poll reports is shown, and the rule has run. -/
def polled (first : Bool) (trip : String) : List PlanAction := [.poll first (some trip), .commit, .flush]

/-- Vehicle 1 moves from trip 1 to trip 2 while its plan is on the way, and the
plan of trip 2 is asked for; then vehicle 2 is selected. -/
def handover : List PlanAction :=
  [.serve "RET:1" (some "T1"), .serve "RET:2" (some "T3"), .select (some "RET:1")] ++ fetched ++
    [.serve "RET:1" (some "T2")] ++ polled true "T2" ++ fetched ++ [.select (some "RET:2")] ++ fetched ++
    polled true "T3"

/-- Then vehicle 2 takes over trip 2. -/
def takeover : List PlanAction := [.serve "RET:2" (some "T2")] ++ polled false "T2"

/-- The plan request of a vehicle fails. -/
def failed : List PlanAction :=
  [.serve "RET:1" (some "T1"), .select (some "RET:1"), .commit, .flush, .planFails] ++ polled true "T1"

/-- The state after a list of actions, if it runs. -/
def after (as : List PlanAction) : PlanApp := (exec step {} as).getD {}

theorem run_after (h : (exec step {} as).isSome = true) : Run Step {} as (after as) := by
  obtain ⟨s, hs⟩ := Option.isSome_iff_exists.mp h
  rw [after, hs]
  exact Run.of_exec hs

theorem quiescent_after {trip : String} (h1 : (after as).request = none) (h2 : (after as).polls = some false)
    (h3 : (after as).effectsDue = false) (h4 : (after as).rendered = (after as).state)
    (h5 : (after as).state.detail = some (some trip)) : (after as).Quiescent trip := by
  refine ⟨h1, h2, h3, h4, ?_⟩
  generalize after as = s at *
  obtain ⟨⟨activeId, nonce, detail, plan, planTrip⟩, rendered, due, d1, d2, d3, polls, request, issued, server⟩ := s
  simp only at h2 h5
  subst h2 h5
  rfl

/-- A vehicle is selected, its plan fetched and its trip reported. -/
def shown : List PlanAction := [.select (some "RET:1")] ++ fetched ++ polled true "T1"

/-- The plan of its trip is shown. -/
theorem settled_of_run_shown :
    ∃ plan, (after (.serve "RET:1" (some "T1") :: shown)).state.trip = some plan ∧ plan.tripId = some "T1" := by
  have hrun : Run Step {} ([] ++ [.serve "RET:1" (some "T1")] ++ shown) (after (.serve "RET:1" (some "T1") :: shown)) :=
    run_after (by decide +kernel)
  obtain ⟨s, hserve, hshown⟩ := hrun.of_append
  obtain ⟨s', h0, hstep⟩ := hserve.last
  obtain rfl := h0.eq_of_nil
  have hguarded : Run (Guarded keepsPlan Step) {} (.serve "RET:1" (some "T1") :: shown)
      (after (.serve "RET:1" (some "T1") :: shown)) := by
    refine (Run.nil.snoc ⟨.inr nofun, hstep⟩).trans (hshown.guarded fun a ha s => ?_)
    simp only [shown, fetched, polled, List.cons_append, List.nil_append, List.mem_cons, List.not_mem_nil,
      or_false] at ha
    rcases ha with rfl | rfl | rfl | rfl | rfl | rfl | rfl | rfl <;> exact trivial
  exact settled_of_run _ _ hguarded "T1" "RET:1" (quiescent_after (by decide +kernel) (by decide +kernel)
    (by decide +kernel) (by decide +kernel) (by decide +kernel)) (by decide +kernel) (by decide +kernel)

/-- At rest with the plan of trip 3, though polls report trip 2: it was asked
for last, for the other vehicle, and is not asked for again. -/
theorem not_settled : ¬ ∀ as s, Run Step {} as s → s.Settled := by
  intro h
  obtain ⟨plan, hplan, htrip⟩ := h (handover ++ takeover) _ (run_after (by decide +kernel)) "T2" "RET:2"
    (quiescent_after (by decide +kernel) (by decide +kernel) (by decide +kernel) (by decide +kernel)
      (by decide +kernel)) (by decide +kernel) (by decide +kernel)
  have hshown : (after (handover ++ takeover)).state.trip.map TripPlan.tripId = some (some "T3") := by decide +kernel
  rw [hplan, Option.map_some, htrip] at hshown
  exact absurd hshown (by decide)

/-- At rest without a plan, after the one request failed. -/
theorem not_settled_failed : ¬ (after failed).Settled := by
  intro h
  obtain ⟨plan, hplan, -⟩ := h "T1" "RET:1" (quiescent_after (by decide +kernel) (by decide +kernel) (by decide +kernel)
    (by decide +kernel) (by decide +kernel)) (by decide +kernel) (by decide +kernel)
  have hshown : (after failed).state.trip = none := by decide +kernel
  rw [hplan] at hshown
  cases hshown

end PlanApp

end OV.Impl.Client
