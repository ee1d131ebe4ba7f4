import Mathlib.Data.List.Induction

/-!
# Runs of a transition system

A system is a relation `R s a t`: action `a` may take state `s` to `t`. A
`Run` is a finite sequence of such steps. `Run.inv` is the induction every
safety property goes through: what each step keeps holds in the last state of
every run, and, since a prefix of a run is a run, in every state it reaches.
`Guarded` restricts the steps by a condition on the action and the state
before it, for properties that hold of the runs that keep a condition, and
`Ensured` by what a step leaves: where a step leaves what it should exactly if
it meets the condition, the same is true of runs (`Run.ensured_iff`; where the condition
is only enough, `Run.ensured`). What a run is to a part of the system is a run of the
part (`Run.project`). A system
given by a function runs where the function does (`Run.of_exec`).
-/

namespace OV

variable {S A : Type}

/-- The runs of `R` from `s`: the actions taken, and the state they lead to. -/
inductive Run (R : S → A → S → Prop) (s : S) : List A → S → Prop
  | nil : Run R s [] s
  | snoc {as t a u} : Run R s as t → R t a u → Run R s (as ++ [a]) u

/-- The steps of `R` that meet `ok`. -/
def Guarded (ok : S → A → Prop) (R : S → A → S → Prop) (s : S) (a : A) (t : S) : Prop :=
  ok s a ∧ R s a t

/-- The steps of `R` that leave what they should. -/
def Ensured (Q : S → A → S → Prop) (R : S → A → S → Prop) (s : S) (a : A) (t : S) : Prop :=
  R s a t ∧ Q s a t

/-- What an action is to a part of the system: a step of it, or nothing. -/
def Own {T B : Type} (Q : T → B → T → Prop) (s : T) : Option B → T → Prop
  | some b, t => Q s b t
  | none, t => t = s

namespace Run

variable {R R' : S → A → S → Prop} {s t u : S} {as bs : List A}

/-- What every step keeps holds at the end of every run. -/
theorem inv {P : S → Prop} (h : Run R s as t) (hstep : ∀ s a t, R s a t → P s → P t) (h0 : P s) : P t := by
  induction h with
  | nil => exact h0
  | snoc _ hr ih => exact hstep _ _ _ hr ih

/-- The last step of a run. -/
theorem last {a : A} (h : Run R s (as ++ [a]) u) : ∃ t, Run R s as t ∧ R t a u := by
  generalize hx : as ++ [a] = xs at h
  cases h with
  | nil => simp at hx
  | snoc h hr =>
    obtain ⟨rfl, hb⟩ := List.append_inj' hx rfl
    cases hb
    exact ⟨_, h, hr⟩

/-- Without a step a run stays where it is. -/
theorem eq_of_nil (h : Run R s [] t) : t = s := by
  generalize hx : ([] : List A) = xs at h
  cases h with
  | nil => rfl
  | snoc _ _ => simp at hx

/-- Where a step leads to one state only, so does a run. -/
theorem functional (hR : ∀ s a t u, R s a t → R s a u → t = u) (h : Run R s as t) (h' : Run R s as u) : t = u := by
  induction h generalizing u with
  | nil => exact h'.eq_of_nil.symm
  | snoc _ hr ih =>
    obtain ⟨v, hv, hr'⟩ := h'.last
    obtain rfl := ih hv
    exact hR _ _ _ _ hr hr'

theorem trans (h : Run R s as t) (h' : Run R t bs u) : Run R s (as ++ bs) u := by
  induction h' with
  | nil => rwa [List.append_nil]
  | snoc _ hr ih => rw [← List.append_assoc]; exact ih.snoc hr

theorem mono (h : Run R s as t) (hR : ∀ s a t, R s a t → R' s a t) : Run R' s as t := by
  induction h with
  | nil => exact .nil
  | snoc _ hr ih => exact ih.snoc (hR _ _ _ hr)

/-- The first actions of a run are a run. -/
theorem of_append (h : Run R s (as ++ bs) u) : ∃ t, Run R s as t ∧ Run R t bs u := by
  induction bs using List.reverseRecOn generalizing u with
  | nil => exact ⟨u, by rwa [List.append_nil] at h, .nil⟩
  | append_singleton bs b ih =>
    rw [← List.append_assoc] at h
    obtain ⟨v, hv, hr⟩ := h.last
    obtain ⟨t, h1, h2⟩ := ih hv
    exact ⟨t, h1, h2.snoc hr⟩

/-- The first step of a run. -/
theorem first {a : A} (h : Run R s (a :: as) u) : ∃ t, R s a t ∧ Run R t as u := by
  obtain ⟨t, h1, h2⟩ := of_append (show Run R s ([a] ++ as) u from h)
  obtain ⟨s', h0, hr⟩ := last (show Run R s ([] ++ [a]) t from h1)
  exact ⟨t, h0.eq_of_nil ▸ hr, h2⟩

/-- A run whose steps meet a condition is a run. -/
theorem of_guarded {ok : S → A → Prop} (h : Run (Guarded ok R) s as t) : Run R s as t :=
  h.mono fun _ _ _ hr => hr.2

/-- A run as a part of the system sees it. -/
theorem project {T B : Type} {Q : T → B → T → Prop} (f : S → T) (g : A → Option B)
    (hpart : ∀ s a t, R s a t → Own Q (f s) (g a) (f t)) (h : Run R s as t) : Run Q (f s) (as.filterMap g) (f t) := by
  induction h with
  | nil => exact .nil
  | snoc _ hr ih =>
    rename_i as u a v _
    have hown := hpart u a v hr
    rw [List.filterMap_append]
    cases hg : g a with
    | none =>
      rw [hg] at hown
      rw [List.filterMap_cons_none hg, List.filterMap_nil, List.append_nil, show f v = f u from hown]
      exact ih
    | some b =>
      rw [hg] at hown
      rw [List.filterMap_cons_some hg, List.filterMap_nil]
      exact ih.snoc hown

/-- A run of actions that meet a condition in any state. -/
theorem guarded {ok : S → A → Prop} (h : Run R s as t) (hok : ∀ a ∈ as, ∀ s, ok s a) : Run (Guarded ok R) s as t := by
  induction h with
  | nil => exact .nil
  | snoc _ hr ih =>
    rename_i as u a v hrun
    exact (ih fun b hb => hok b (List.mem_append_left _ hb)).snoc ⟨hok a List.mem_concat_self u, hr⟩

/-- If, under an invariant, a step that meets the condition leaves what it should
and keeps the invariant, then so does a run in every step. -/
theorem ensured {Q : S → A → S → Prop} {ok : S → A → Prop} {P : S → Prop}
    (hstep : ∀ s a t, P s → Guarded ok R s a t → Q s a t ∧ P t) (h0 : P s) (h : Run (Guarded ok R) s as t) :
    Run (Ensured Q R) s as t := by
  suffices h' : Run (Ensured Q R) s as t ∧ P t from h'.1
  induction h with
  | nil => exact ⟨.nil, h0⟩
  | snoc _ hlast ih =>
    obtain ⟨hrun, hp⟩ := ih
    obtain ⟨hq, hp'⟩ := hstep _ _ _ hp hlast
    exact ⟨hrun.snoc ⟨hlast.2, hq⟩, hp'⟩

/-- If, under an invariant, a step leaves what it should exactly when it meets
the condition, then a run does so in every step exactly when all of them meet
the condition. -/
theorem ensured_iff {Q : S → A → S → Prop} {ok : S → A → Prop} {P : S → Prop}
    (hstep : ∀ s a t, P s → R s a t → (Q s a t ↔ ok s a) ∧ (ok s a → P t)) (h0 : P s) :
    Run (Ensured Q R) s as t ↔ Run (Guarded ok R) s as t := by
  suffices h : (Run (Ensured Q R) s as t → Run (Guarded ok R) s as t ∧ P t) ∧
      (Run (Guarded ok R) s as t → Run (Ensured Q R) s as t ∧ P t) from
    ⟨fun hr => (h.1 hr).1, fun hr => (h.2 hr).1⟩
  constructor
  · intro hr
    induction hr with
    | nil => exact ⟨.nil, h0⟩
    | snoc _ hlast ih =>
      obtain ⟨hrun, hp⟩ := ih
      obtain ⟨hiff, hkeep⟩ := hstep _ _ _ hp hlast.1
      have hok := hiff.mp hlast.2
      exact ⟨hrun.snoc ⟨hok, hlast.1⟩, hkeep hok⟩
  · intro hr
    induction hr with
    | nil => exact ⟨.nil, h0⟩
    | snoc _ hlast ih =>
      obtain ⟨hrun, hp⟩ := ih
      obtain ⟨hiff, hkeep⟩ := hstep _ _ _ hp hlast.2
      exact ⟨hrun.snoc ⟨hlast.2, hiff.mpr hlast.1⟩, hkeep hlast.1⟩

end Run

/-- The state after a list of actions, where each of them can be taken. -/
def exec (step : S → A → Option S) (s : S) : List A → Option S
  | [] => some s
  | a :: as => (step s a).bind fun t => exec step t as

/-- A system given by a total function runs on any actions. -/
theorem Run.foldl (f : S → A → S) (s : S) (as : List A) : Run (fun s a t => f s a = t) s as (as.foldl f s) := by
  induction as using List.reverseRecOn with
  | nil => exact .nil
  | append_singleton as a ih =>
    rw [List.foldl_append]
    exact ih.snoc rfl

/-- What can be executed is a run. -/
theorem Run.of_exec {step : S → A → Option S} {s t : S} {as : List A} (h : exec step s as = some t) :
    Run (fun s a t => step s a = some t) s as t := by
  induction as generalizing s with
  | nil => cases h; exact .nil
  | cons a as ih =>
    obtain ⟨u, hu, ht⟩ := Option.bind_eq_some_iff.mp h
    exact (Run.nil.snoc hu).trans (ih ht)

end OV
