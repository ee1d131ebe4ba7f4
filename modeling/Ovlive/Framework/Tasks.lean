import Mathlib.Logic.Function.Basic
import Ovlive.Framework.Run

/-!
# Tasks over a shared state

A server works on many requests at once. Each is a program of atomic
operations on a state they share (`Prog`), and between two operations of one
any others may run. `Prog.Sat` is the logic of one program: a condition on
each operation, given those the program did before, and one on its result. It
passes through `bind` (`sat_bind`), so that a procedure has one rule.

`Service.Step` is the server's step: a request comes in, a task does its next
operation, or the environment acts, which may end the process and with it all
tasks in flight. What is `Sat` of every handler holds of every operation of
every run, whatever ran in between (`Service.sat_of_run`).
-/

namespace OV

/-- A program of atomic operations, each with a type of answers. -/
inductive Prog (Op : Type) (Ans : Op → Type) (α : Type)
  | ret (a : α)
  | op (o : Op) (k : Ans o → Prog Op Ans α)

/-- An operation that was done, and the answer to it. -/
structure Event {Op : Type} (Ans : Op → Type) where
  op : Op
  answer : Ans op

namespace Prog

variable {Op : Type} {Ans : Op → Type} {α β : Type}

protected def bind : Prog Op Ans α → (α → Prog Op Ans β) → Prog Op Ans β
  | ret a, f => f a
  | op o k, f => op o fun x => (k x).bind f

instance : Monad (Prog Op Ans) where
  pure := ret
  bind := Prog.bind

/-- A single operation. -/
def perform (o : Op) : Prog Op Ans (Ans o) := op o ret

/-- Every operation meets `I`, given the ones before, and the result `E`, given all. -/
def Sat (I : List (Event Ans) → Event Ans → Prop) (E : List (Event Ans) → α → Prop) :
    List (Event Ans) → Prog Op Ans α → Prop
  | tr, ret a => E tr a
  | tr, op o k => ∀ x, I tr ⟨o, x⟩ ∧ Sat I E (tr ++ [⟨o, x⟩]) (k x)

/-- The operations a program did, and what is left of it. -/
inductive Does (p : Prog Op Ans α) : List (Event Ans) → Prog Op Ans α → Prop
  | nil : Does p [] p
  | snoc {tr o k} (h : Does p tr (.op o k)) (x : Ans o) : Does p (tr ++ [⟨o, x⟩]) (k x)

/-- A program that nothing runs in between of. -/
def alone {σ : Type} (exec : (o : Op) → σ → Ans o × σ) : Prog Op Ans α → σ → α × σ
  | ret a, s => (a, s)
  | op o k, s => alone exec (k (exec o s).1) (exec o s).2

variable {I : List (Event Ans) → Event Ans → Prop} {E E' : List (Event Ans) → α → Prop}
  {F : List (Event Ans) → β → Prop} {tr : List (Event Ans)} {p q : Prog Op Ans α}

@[simp] theorem sat_pure (a : α) : (pure a : Prog Op Ans α).Sat I E tr ↔ E tr a := Iff.rfl

@[simp] theorem sat_perform (o : Op) {G : List (Event Ans) → Ans o → Prop} :
    (perform o : Prog Op Ans (Ans o)).Sat I G tr ↔ ∀ x, I tr ⟨o, x⟩ ∧ G (tr ++ [⟨o, x⟩]) x := Iff.rfl

@[simp] theorem sat_bind (f : α → Prog Op Ans β) :
    (p >>= f).Sat I F tr ↔ p.Sat I (fun tr a => (f a).Sat I F tr) tr := by
  show (p.bind f).Sat I F tr ↔ _
  induction p generalizing tr with
  | ret a => rfl
  | op o k ih => exact forall_congr' fun x => and_congr_right fun _ => ih x

@[simp] theorem alone_pure {σ : Type} (exec : (o : Op) → σ → Ans o × σ) (a : α) (s : σ) :
    (pure a : Prog Op Ans α).alone exec s = (a, s) := rfl

@[simp] theorem alone_perform {σ : Type} (exec : (o : Op) → σ → Ans o × σ) (o : Op) (s : σ) :
    (perform o : Prog Op Ans (Ans o)).alone exec s = exec o s := rfl

@[simp] theorem alone_bind {σ : Type} (exec : (o : Op) → σ → Ans o × σ) (f : α → Prog Op Ans β) (s : σ) :
    (p >>= f).alone exec s = (f (p.alone exec s).1).alone exec (p.alone exec s).2 := by
  show (p.bind f).alone exec s = _
  induction p generalizing s with
  | ret a => rfl
  | op o k ih => exact ih _ _

theorem Sat.mono (h : p.Sat I E tr) (hE : ∀ tr a, E tr a → E' tr a) : p.Sat I E' tr := by
  induction p generalizing tr with
  | ret a => exact hE tr a h
  | op o k ih => exact fun x => ⟨(h x).1, ih x (h x).2⟩

theorem Sat.does (h : p.Sat I E []) (hd : p.Does tr q) : q.Sat I E tr := by
  induction hd with
  | nil => exact h
  | snoc _ x ih => exact (ih x).2

end Prog

/-- A task's place: not taken, at work, or lost with its process. -/
inductive Slot (Op : Type) (Ans : Op → Type) (α : Type)
  | free
  | busy (p : Prog Op Ans α)
  | gone

/-- A task whose process ends. -/
def Slot.halt {Op : Type} {Ans : Op → Type} {α : Type} : Slot Op Ans α → Slot Op Ans α
  | free => free
  | busy _ | gone => gone

/-- The state the tasks share, and the tasks. -/
structure Pool (σ Op : Type) (Ans : Op → Type) (α : Type) where
  shared : σ
  slot : Nat → Slot Op Ans α

namespace Pool

variable {σ Op : Type} {Ans : Op → Type} {α : Type}

def put (s : Pool σ Op Ans α) (i : Nat) (p : Prog Op Ans α) : Pool σ Op Ans α :=
  { s with slot := Function.update s.slot i (.busy p) }

/-- No task has anything left to do. -/
def Quiet (s : Pool σ Op Ans α) : Prop := ∀ i o k, s.slot i ≠ .busy (.op o k)

theorem put_slot (s : Pool σ Op Ans α) (i j : Nat) (p : Prog Op Ans α) :
    (s.put i p).slot j = if j = i then .busy p else s.slot j := Function.update_apply ..

end Pool

/-- What the requests are, and how operations and the environment act on the
shared state. A label is what an operation's effect depends on besides. -/
structure Service (σ Op : Type) (Ans : Op → Type) (α R L X : Type) where
  handler : R → Prog Op Ans α
  exec : L → (o : Op) → σ → Ans o × σ
  env : X → σ → σ
  halts : X → Bool

/-- A request comes in, a task does an operation, or the environment acts. -/
inductive Act {Op : Type} (Ans : Op → Type) (R L X : Type)
  | start (i : Nat) (r : R)
  | did (i : Nat) (e : Event Ans) (l : L)
  | env (x : X)

/-- The operations a task did. -/
def Act.events {Op : Type} {Ans : Op → Type} {R L X : Type} (i : Nat) (as : List (Act Ans R L X)) : List (Event Ans) :=
  as.filterMap fun
    | .did j e _ => if j = i then some e else none
    | _ => none

namespace Service

open Act

variable {σ Op : Type} {Ans : Op → Type} {α R L X : Type} (S : Service σ Op Ans α R L X)

inductive Step (s : Pool σ Op Ans α) : Act Ans R L X → Pool σ Op Ans α → Prop
  | start {i : Nat} (h : s.slot i = .free) (r : R) : Step s (.start i r) (s.put i (S.handler r))
  | did {i : Nat} {o : Op} {k : Ans o → Prog Op Ans α} (h : s.slot i = .busy (.op o k)) (l : L) :
    Step s (.did i ⟨o, (S.exec l o s.shared).1⟩ l)
      ({ s with shared := (S.exec l o s.shared).2 }.put i (k (S.exec l o s.shared).1))
  | env (x : X) :
    Step s (.env x)
      { shared := S.env x s.shared
        slot := if S.halts x then fun i => (s.slot i).halt else s.slot }

variable {S} {s t : Pool σ Op Ans α} {as bs : List (Act Ans R L X)} {i : Nat}

theorem events_append : events i (as ++ bs) = events i as ++ events i bs := List.filterMap_append

theorem mem_events {e : Event Ans} : e ∈ events i as ↔ ∃ l, .did i e l ∈ as := by
  rw [events, List.mem_filterMap]
  constructor
  · rintro ⟨a, ha, he⟩
    cases a with
    | did j d l =>
      obtain ⟨rfl, hde⟩ := Option.ite_none_right_eq_some.mp he
      exact ⟨l, Option.some.inj hde ▸ ha⟩
    | _ => cases he
  · rintro ⟨l, hl⟩
    exact ⟨_, hl, if_pos rfl⟩

/-- What every operation and the environment keep holds at the end of every run. -/
theorem shared_of_run {P : σ → Prop} (h : Run S.Step s as t) (hexec : ∀ l o s, P s → P (S.exec l o s).2)
    (henv : ∀ x s, P s → P (S.env x s)) (h0 : P s.shared) : P t.shared := by
  refine h.inv (P := fun s => P s.shared) (fun s a t hr hp => ?_) h0
  cases hr with
  | start => exact hp
  | did _ l => exact hexec l _ _ hp
  | env x => exact henv x _ hp

/-- As long as the operations done keep `P`, their answers are those they give where it holds. -/
theorem answers_of_run {P : σ → Prop} {ok : Op → L → Prop} {Q : Event Ans → Prop} (h : Run S.Step s as t)
    (hok : ∀ i e l, .did i e l ∈ as → ok e.op l) (hexec : ∀ l o s, ok o l → P s → P (S.exec l o s).2)
    (henv : ∀ x s, P s → P (S.env x s)) (hQ : ∀ l o s, P s → Q ⟨o, (S.exec l o s).1⟩) (h0 : P s.shared) :
    P t.shared ∧ ∀ i e l, .did i e l ∈ as → Q e := by
  induction h with
  | nil => exact ⟨h0, fun i e l he => nomatch he⟩
  | snoc _ hr ih =>
    obtain ⟨hp, hq⟩ := ih fun i e l he => hok i e l (List.mem_append_left _ he)
    cases hr with
    | start => exact ⟨hp, fun i e l he => hq i e l (by simpa using he)⟩
    | env x => exact ⟨henv x _ hp, fun i e l he => hq i e l (by simpa using he)⟩
    | did _ l =>
      refine ⟨hexec l _ _ (hok _ _ l List.mem_concat_self) hp, fun i e l he => ?_⟩
      rcases List.mem_append.mp he with he | he
      · exact hq i e l he
      · cases List.mem_singleton.mp he
        exact hQ l _ _ hp

/-- A task that came in has done what its handler does, and others nothing. -/
theorem traced (h : Run S.Step s as t) (h0 : s.Quiet) (i : Nat) :
    (∃ r q, .start i r ∈ as ∧ (S.handler r).Does (events i as) q ∧ (t.slot i = .busy q ∨ t.slot i = .gone)) ∨
      events i as = [] ∧ (∀ r, .start i r ∉ as) ∧ ∀ o k, t.slot i ≠ .busy (.op o k) := by
  induction h with
  | nil => exact .inr ⟨rfl, nofun, h0 i⟩
  | snoc _ hr ih =>
    rename_i as u a v _
    cases hr with
    | start hfree r =>
      rename_i j
      have hev : events i (as ++ [.start j r]) = events i as := by simp [events]
      rw [hev, Pool.put_slot]
      split
      · rename_i hij
        subst hij
        rcases ih with ⟨_, _, _, _, hbusy | hgone⟩ | ⟨hnil, -⟩
        · rw [hfree] at hbusy
          cases hbusy
        · rw [hfree] at hgone
          cases hgone
        · exact .inl ⟨r, _, by simp, hnil ▸ .nil, .inl rfl⟩
      · rename_i hij
        rcases ih with ⟨r', q, hmem, hd, hslot⟩ | ⟨hnil, hstart, hno⟩
        · exact .inl ⟨r', q, List.mem_append_left _ hmem, hd, hslot⟩
        · exact .inr ⟨hnil, by simp [hstart, hij], hno⟩
    | did hbusy l =>
      rename_i j o k
      rw [events_append, Pool.put_slot]
      split
      · rename_i hij
        subst hij
        rcases ih with ⟨r, q, hmem, hd, hslot | hslot⟩ | ⟨-, -, hno⟩
        · rw [hbusy] at hslot
          cases hslot
          refine .inl ⟨r, _, List.mem_append_left _ hmem, ?_, .inl rfl⟩
          simpa [events] using hd.snoc (S.exec l o u.shared).1
        · rw [hbusy] at hslot
          cases hslot
        · exact absurd hbusy (hno _ _)
      · rename_i hij
        have hev : events i [(.did j ⟨o, (S.exec l o u.shared).1⟩ l : Act Ans R L X)] = [] := by
          simp [events, Ne.symm hij]
        rw [hev, List.append_nil]
        rcases ih with ⟨r, q, hmem, hd, hslot⟩ | ⟨hnil, hstart, hno⟩
        · exact .inl ⟨r, q, List.mem_append_left _ hmem, hd, hslot⟩
        · exact .inr ⟨hnil, by simpa using hstart, hno⟩
    | env x =>
      have hev : events i (as ++ [.env x]) = events i as := by simp [events]
      rw [hev]
      rcases ih with ⟨r, q, hmem, hd, hslot⟩ | ⟨hnil, hstart, hno⟩
      · refine .inl ⟨r, q, List.mem_append_left _ hmem, hd, ?_⟩
        split
        · rcases hslot with hslot | hslot <;> simp [hslot, Slot.halt]
        · exact hslot
      · refine .inr ⟨hnil, by simpa using hstart, fun o k => ?_⟩
        split
        · cases hu : u.slot i <;> simp [hu, Slot.halt]
        · exact hno o k

/-- Where a process starts nothing is left to do. -/
theorem quiet_of_halts {x : X} (hx : S.halts x = true) (h : S.Step s (.env x) t) : t.Quiet := by
  cases h
  intro i o k
  show (if S.halts x then fun i => (s.slot i).halt else s.slot) i ≠ _
  rw [if_pos hx]
  cases s.slot i <;> simp [Slot.halt]

theorem not_free_of_started (h : Run S.Step s as t) {r : R} (hr : .start i r ∈ as) : t.slot i ≠ .free := by
  induction h with
  | nil => cases hr
  | snoc _ hstep ih =>
    rename_i u a v _
    rcases List.mem_append.mp hr with hr | hr
    · have ih := ih hr
      cases hstep with
      | start =>
        rw [Pool.put_slot]
        split
        · nofun
        · exact ih
      | did =>
        rw [Pool.put_slot]
        split
        · nofun
        · exact ih
      | env x =>
        show (if S.halts x then fun j => (u.slot j).halt else u.slot) i ≠ .free
        split
        · cases hu : u.slot i <;> simp_all [Slot.halt]
        · exact ih
    · rw [← List.mem_singleton.mp hr] at hstep
      cases hstep
      rw [Pool.put_slot, if_pos rfl]
      nofun

/-- A task is one request. -/
theorem started_once (h : Run S.Step s as t) {r r' : R} (hr : .start i r ∈ as) (hr' : .start i r' ∈ as) : r = r' := by
  induction h with
  | nil => cases hr
  | snoc h hstep ih =>
    rcases List.mem_append.mp hr with hr | hr <;> rcases List.mem_append.mp hr' with hr' | hr'
    · exact ih hr hr'
    · rw [← List.mem_singleton.mp hr'] at hstep
      cases hstep with
      | start hfree => exact absurd hfree (not_free_of_started h hr)
    · rw [← List.mem_singleton.mp hr] at hstep
      cases hstep with
      | start hfree => exact absurd hfree (not_free_of_started h hr')
    · cases (List.mem_singleton.mp hr).trans (List.mem_singleton.mp hr').symm
      rfl

/-- Before it comes in a task does nothing. -/
theorem events_eq_nil_of_start (h : Run S.Step s (as ++ bs) t) (h0 : s.Quiet) {r : R} (hr : .start i r ∈ bs) :
    events i as = [] := by
  obtain ⟨cs, ds, rfl⟩ := List.append_of_mem hr
  rw [List.append_cons, ← List.append_assoc, ← List.append_assoc] at h
  obtain ⟨u, hu, -⟩ := h.of_append
  obtain ⟨v, hv, hstep⟩ := hu.last
  cases hstep with
  | start hfree =>
    rcases traced hv h0 i with ⟨_, _, _, _, hbusy | hgone⟩ | ⟨hnil, -, -⟩
    · rw [hfree] at hbusy
      cases hbusy
    · rw [hfree] at hgone
      cases hgone
    · rw [events_append, List.append_eq_nil_iff] at hnil
      exact hnil.1

section

variable {I : R → List (Event Ans) → Event Ans → Prop} {E : R → List (Event Ans) → α → Prop}

/-- What holds of every operation of a handler holds of every operation of a run. -/
theorem sat_of_run (hsat : ∀ r, (S.handler r).Sat (I r) (E r) []) (h0 : s.Quiet) {e : Event Ans} {l : L}
    (h : Run S.Step s (as ++ .did i e l :: bs) t) : ∃ r, .start i r ∈ as ∧ I r (events i as) e := by
  rw [List.append_cons] at h
  obtain ⟨u, hu, -⟩ := h.of_append
  obtain ⟨v, hv, hr⟩ := hu.last
  cases hr with
  | did hbusy l =>
    rcases traced hv h0 i with ⟨r, q, hmem, hd, hslot | hslot⟩ | ⟨-, -, hno⟩
    · rw [hbusy] at hslot
      cases hslot
      exact ⟨r, hmem, (((hsat r).does hd) _).1⟩
    · rw [hbusy] at hslot
      cases hslot
    · exact absurd hbusy (hno _ _)

/-- And what holds of its result, of the result of a task. -/
theorem result_of_run (hsat : ∀ r, (S.handler r).Sat (I r) (E r) []) (h0 : s.Quiet) {r : R} {a : α}
    (h : Run S.Step s as t) (hr : .start i r ∈ as) (ht : t.slot i = .busy (.ret a)) : E r (events i as) a := by
  rcases traced h h0 i with ⟨r', q, hmem, hd, hslot | hslot⟩ | ⟨-, hno, -⟩
  · rw [ht] at hslot
    cases hslot
    obtain rfl := started_once h hr hmem
    exact (hsat r).does hd
  · rw [ht] at hslot
    cases hslot
  · exact absurd hr (hno r)

end

/-! ## Schedules -/

/-- A request, the next operation of a task, or the environment. -/
inductive Move (R L X : Type)
  | start (i : Nat) (r : R)
  | go (i : Nat) (l : L)
  | env (x : X)

variable (S) in
/-- A move, where it can be made. -/
def move (s : Pool σ Op Ans α) : Move R L X → Option (Act Ans R L X × Pool σ Op Ans α)
  | .start i r =>
    match s.slot i with
    | .free => some (.start i r, s.put i (S.handler r))
    | _ => none
  | .go i l =>
    match s.slot i with
    | .busy (.op o k) =>
      some (.did i ⟨o, (S.exec l o s.shared).1⟩ l,
        { s with shared := (S.exec l o s.shared).2 }.put i (k (S.exec l o s.shared).1))
    | _ => none
  | .env x =>
    some (.env x,
      { shared := S.env x s.shared
        slot := if S.halts x then fun i => (s.slot i).halt else s.slot })

variable (S) in
/-- What a schedule does, and where it leads. -/
def play (s : Pool σ Op Ans α) : List (Move R L X) → Option (List (Act Ans R L X) × Pool σ Op Ans α)
  | [] => some ([], s)
  | m :: ms => (S.move s m).bind fun (a, u) => (play u ms).map fun (as, t) => (a :: as, t)

variable (S) in
def played (s : Pool σ Op Ans α) (ms : List (Move R L X)) (h : (S.play s ms).isSome = true) :
    List (Act Ans R L X) × Pool σ Op Ans α := (S.play s ms).get h

theorem step_of_move {m : Move R L X} {a : Act Ans R L X} (h : S.move s m = some (a, t)) : S.Step s a t := by
  cases m with
  | start i r =>
    simp only [move] at h
    split at h
    · cases h
      exact .start ‹_› r
    · cases h
  | go i l =>
    simp only [move] at h
    split at h
    · cases h
      exact .did ‹_› l
    · cases h
  | env x =>
    cases h
    exact .env x

theorem run_of_play {ms : List (Move R L X)} (h : S.play s ms = some (as, t)) : Run S.Step s as t := by
  induction ms generalizing s as with
  | nil =>
    cases h
    exact .nil
  | cons m ms ih =>
    obtain ⟨⟨a, u⟩, hm, h⟩ := Option.bind_eq_some_iff.mp h
    obtain ⟨⟨bs, v⟩, hms, heq⟩ := Option.map_eq_some_iff.mp h
    cases heq
    exact (Run.nil.snoc (step_of_move hm)).trans (ih hms)

/-- A schedule that ends with a process that starts. -/
theorem quiet_of_play {ms : List (Move R L X)} {x : X} (hx : S.halts x = true)
    (h : S.play s (ms ++ [.env x]) = some (as, t)) : t.Quiet := by
  induction ms generalizing s as with
  | nil =>
    cases h
    exact quiet_of_halts hx (.env x)
  | cons m ms ih =>
    obtain ⟨⟨a, u⟩, -, h⟩ := Option.bind_eq_some_iff.mp h
    obtain ⟨⟨bs, v⟩, hms, heq⟩ := Option.map_eq_some_iff.mp h
    cases heq
    exact ih hms

theorem run_played (ms : List (Move R L X)) (h : (S.play s ms).isSome = true) :
    Run S.Step s (S.played s ms h).1 (S.played s ms h).2 := run_of_play (Option.some_get h).symm

theorem quiet_played (ms : List (Move R L X)) {x : X} (hx : S.halts x = true)
    (h : (S.play s (ms ++ [.env x])).isSome = true) : (S.played s (ms ++ [.env x]) h).2.Quiet :=
  quiet_of_play hx (Option.some_get h).symm

end Service

end OV
