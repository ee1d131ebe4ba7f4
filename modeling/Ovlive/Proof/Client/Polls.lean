import Mathlib.Data.List.Pairwise
import Ovlive.Framework.Lists
import Ovlive.Impl.Client.Polls

/-!
# What a poll effect shows

The answer shown is that of the latest poll answered exactly in the runs in
which the answers arrive in the order of their polls and the first poll does not
fail after one of them (`latest_iff`); if the server made them in that order
too, its `last_update` never decreases on the screen. `Recorded` is the invariant.
The polls of the app, each made after the one before, need no condition
(`latest_chained`).
-/

namespace OV.Impl.Client

namespace PollEffect

variable {D : Type} {timer : PollTimer} {lastUpdate : D → Int} {s t : PollEffect D} {e : PollEvent D}

/-- The effect as it starts. -/
def start (server : D) : PollEffect D := { server := server }

/-- The answer shown is that of the latest poll among those answered. -/
def Latest (s : PollEffect D) : Prop := s.alive = true → s.shown.map Shown.poll = s.answered.max?

/-- An answer arrives after those of earlier polls only, and the first poll does
not fail after one. -/
def inOrder (s : PollEffect D) : PollEvent D → Prop
  | .arrive n => s.alive = true → ∀ m ∈ s.answered, m < n
  | .fail n => s.alive = true → n = 0 → s.answered = []
  | _ => True

/-- And the server made it after the one shown. -/
def fresh (s : PollEffect D) (e : PollEvent D) : Prop :=
  s.inOrder e ∧
    match e with
    | .arrive n => s.alive = true → ∀ x stamp data, s.shown = some x → s.polls[n]? = some (.served stamp data) → x.stamp < stamp
    | _ => True

/-- What a step does. -/
theorem step_inv (h : Step timer lastUpdate s e t) :
    match e with
    | .tick => (timer = .interval ∨ ∀ p ∈ s.polls, p.pending = false) ∧ s.alive = true ∧
        t = { s with polls := s.polls ++ [.asked] }
    | .advance d => lastUpdate s.server ≤ lastUpdate d ∧ t = { s with server := d }
    | .serve n => s.polls[n]? = some .asked ∧
        t = { s with polls := s.polls.set n (.served s.made.length s.server), made := s.made ++ [s.server] }
    | .arrive n => ∃ stamp data, s.polls[n]? = some (.served stamp data) ∧
        t = { s with
          polls := s.polls.set n .settled
          shown := if s.alive then some { poll := n, stamp := stamp, data := data } else s.shown
          answered := s.answered ++ [n] }
    | .fail n => ∃ p, s.polls[n]? = some p ∧ p.pending = true ∧
        t = { s with polls := s.polls.set n .settled, shown := if n = 0 && s.alive then none else s.shown }
    | .cleanup => t = { s with alive := false } := by
  cases e with
  | tick =>
    simp only [Step, step] at h
    split at h
    · rename_i hok
      simp only [Bool.and_eq_true, Bool.or_eq_true, decide_eq_true_eq, List.all_eq_true, Bool.not_eq_true'] at hok
      exact ⟨hok.2, hok.1, (Option.some.inj h).symm⟩
    · cases h
  | advance d =>
    simp only [Step, step] at h
    split at h
    · exact ⟨‹_›, (Option.some.inj h).symm⟩
    · cases h
  | serve n =>
    simp only [Step, step] at h
    split at h
    · exact ⟨‹_›, (Option.some.inj h).symm⟩
    · cases h
  | arrive n =>
    simp only [Step, step] at h
    split at h
    · exact ⟨_, _, ‹_›, (Option.some.inj h).symm⟩
    · cases h
  | fail n =>
    simp only [Step, step] at h
    split at h
    · split at h
      · exact ⟨_, ‹_›, ‹_›, (Option.some.inj h).symm⟩
      · cases h
    · cases h
  | cleanup => exact (Option.some.inj h).symm

/-- The events of a run lead to one state. -/
theorem run_functional {es : List (PollEvent D)} {u : PollEffect D} (h : Run (Step timer lastUpdate) s es t)
    (h' : Run (Step timer lastUpdate) s es u) : t = u :=
  h.functional (fun _ _ _ _ hr hr' => Option.some.inj (hr.symm.trans hr')) h'

/-! ## What every run keeps -/

/-- The server's answers do not decrease and are what is on the way and shown, and
a poll that is answered is settled. -/
structure Recorded (lastUpdate : D → Int) (s : PollEffect D) : Prop where
  sorted : s.made.Pairwise fun a b => lastUpdate a ≤ lastUpdate b
  current : ∀ a ∈ s.made, lastUpdate a ≤ lastUpdate s.server
  served : ∀ (n : Nat) stamp data, s.polls[n]? = some (.served stamp data) → s.made[stamp]? = some data
  shown : ∀ x, s.shown = some x → s.made[x.stamp]? = some x.data
  settled : ∀ n ∈ s.answered, s.polls[n]? = some .settled
  answered : s.shown.isSome → s.answered ≠ []

theorem recorded_start (lastUpdate : D → Int) (server : D) : Recorded lastUpdate (start server) where
  sorted := .nil
  current := nofun
  served n stamp data h := by
    rcases n with - | n
    · cases h
    · cases h
  shown := nofun
  settled := nofun
  answered := nofun

/-- A poll that is settled serves no other. -/
theorem served_of_settle {polls : List (Poll D)} {n m stamp : Nat} {data : D}
    (h : (polls.set n .settled)[m]? = some (.served stamp data)) : polls[m]? = some (.served stamp data) := by
  rcases getElem?_set_cases h with ⟨-, hnew⟩ | ⟨-, hold⟩
  · cases hnew
  · exact hold

/-- Once a poll is settled it is, as are those that were. -/
theorem settled_settle {polls : List (Poll D)} {n m : Nat} {p : Poll D} (hn : polls[n]? = some p)
    (h : m = n ∨ polls[m]? = some .settled) : (polls.set n .settled)[m]? = some .settled := by
  by_cases hm : m = n
  · rw [hm, List.getElem?_set_self (List.getElem?_eq_some_iff.mp hn).1]
  · rw [List.getElem?_set_ne (Ne.symm hm)]
    exact h.resolve_left hm

theorem recorded_step (h : Recorded lastUpdate s) (hs : Step timer lastUpdate s e t) : Recorded lastUpdate t := by
  cases e with
  | tick =>
    obtain ⟨-, -, rfl⟩ := step_inv hs
    refine { h with served := ?_, settled := ?_ }
    · intro n stamp data hn
      rcases getElem?_snoc hn with ⟨-, hold⟩ | ⟨-, hnew⟩
      · exact h.served n stamp data hold
      · cases hnew
    · intro n hn
      exact getElem?_append_of_eq_some (h.settled n hn) _
  | advance d =>
    obtain ⟨hle, rfl⟩ := step_inv hs
    exact { h with current := fun a ha => Int.le_trans (h.current a ha) hle }
  | serve n =>
    obtain ⟨hn, rfl⟩ := step_inv hs
    refine { h with sorted := ?_, current := ?_, served := ?_, shown := ?_, settled := ?_ }
    · refine List.pairwise_append.mpr ⟨h.sorted, List.pairwise_singleton .., fun a ha b hb => ?_⟩
      rw [List.mem_singleton.mp hb]
      exact h.current a ha
    · intro a ha
      rcases List.mem_append.mp ha with ha | ha
      · exact h.current a ha
      · exact Int.le_of_eq (congrArg lastUpdate (List.mem_singleton.mp ha))
    · intro m stamp data hm
      rcases getElem?_set_cases hm with ⟨-, hnew⟩ | ⟨-, hold⟩
      · cases hnew
        rw [List.getElem?_append_right (Nat.le_refl _), Nat.sub_self]
        rfl
      · exact getElem?_append_of_eq_some (h.served m stamp data hold) _
    · intro x hx
      exact getElem?_append_of_eq_some (h.shown x hx) _
    · intro m hm
      have hold := h.settled m hm
      rw [List.getElem?_set_ne]
      · exact hold
      · rintro rfl
        rw [hn] at hold
        cases hold
  | arrive n =>
    obtain ⟨stamp, data, hn, rfl⟩ := step_inv hs
    refine { h with served := ?_, shown := ?_, settled := ?_, answered := fun _ => List.append_ne_nil_of_right_ne_nil _ nofun }
    · intro m stamp' data' hm
      exact h.served m stamp' data' (served_of_settle hm)
    · intro x hx
      dsimp only at hx
      split at hx
      · cases hx
        exact h.served n stamp data hn
      · exact h.shown x hx
    · intro m hm
      rcases List.mem_append.mp hm with hm | hm
      · exact settled_settle hn (.inr (h.settled m hm))
      · exact settled_settle hn (.inl (List.mem_singleton.mp hm))
  | fail n =>
    obtain ⟨p, hn, hpending, rfl⟩ := step_inv hs
    have hshown : ∀ x, (if n = 0 && s.alive then none else s.shown) = some x → s.shown = some x := by
      intro x hx
      split at hx
      · cases hx
      · exact hx
    refine { h with served := ?_, shown := fun x hx => h.shown x (hshown x hx), settled := ?_, answered := ?_ }
    · intro m stamp' data' hm
      exact h.served m stamp' data' (served_of_settle hm)
    · intro m hm
      exact settled_settle hn (.inr (h.settled m hm))
    · intro hsome
      obtain ⟨x, hx⟩ := Option.isSome_iff_exists.mp hsome
      exact h.answered (Option.isSome_iff_exists.mpr ⟨x, hshown x hx⟩)
  | cleanup =>
    have ht : t = _ := step_inv hs
    subst ht
    exact { h with }

/-! ## The latest answer -/

/-- A poll that is on its way is not answered. -/
theorem Recorded.notMem_answered (h : Recorded lastUpdate s) {n : Nat} {p : Poll D} (hn : s.polls[n]? = some p)
    (hp : p.pending = true) : n ∉ s.answered := by
  intro hmem
  rw [h.settled n hmem] at hn
  cases hn
  cases hp

/-- After a number that was not among them, it is the greatest exactly if the
others are smaller. -/
theorem max?_snoc_iff {l : List Nat} {n : Nat} (h : n ∉ l) : some n = (l ++ [n]).max? ↔ ∀ m ∈ l, m < n := by
  rw [eq_comm, List.max?_eq_some_iff]
  constructor
  · intro hmax m hm
    exact Nat.lt_of_le_of_ne (hmax.2 m (List.mem_append_left _ hm)) fun he => h (he ▸ hm)
  · intro hlt
    refine ⟨List.mem_append_right _ (List.mem_singleton_self n), fun m hm => ?_⟩
    rcases List.mem_append.mp hm with hm | hm
    · exact Nat.le_of_lt (hlt m hm)
    · exact Nat.le_of_eq (List.mem_singleton.mp hm)

/-- A step shows the latest answer exactly if it keeps the order. -/
theorem latest_step_iff (h : Recorded lastUpdate s) (hl : s.Latest) (hs : Step timer lastUpdate s e t) :
    t.Latest ↔ s.inOrder e := by
  cases e with
  | tick =>
    obtain ⟨-, -, rfl⟩ := step_inv hs
    exact ⟨fun _ => trivial, fun _ => hl⟩
  | advance d =>
    obtain ⟨-, rfl⟩ := step_inv hs
    exact ⟨fun _ => trivial, fun _ => hl⟩
  | serve n =>
    obtain ⟨-, rfl⟩ := step_inv hs
    exact ⟨fun _ => trivial, fun _ => hl⟩
  | arrive n =>
    obtain ⟨stamp, data, hn, rfl⟩ := step_inv hs
    refine forall_congr' fun halive : s.alive = true => ?_
    dsimp only
    rw [if_pos halive, Option.map_some]
    exact max?_snoc_iff (h.notMem_answered hn rfl)
  | fail n =>
    obtain ⟨p, hn, hp, rfl⟩ := step_inv hs
    refine forall_congr' fun halive : s.alive = true => ?_
    dsimp only
    by_cases h0 : n = 0
    · simp only [h0, halive, decide_true, Bool.and_self, if_true, Option.map_none, eq_comm (a := none), List.max?_eq_none_iff,
        forall_const]
    · simp only [h0, decide_false, Bool.false_and, false_implies, iff_true]
      exact hl halive
  | cleanup =>
    have ht : t = _ := step_inv hs
    subst ht
    exact ⟨fun _ => trivial, fun _ => nofun⟩

/-! ## The last update -/

/-- In a list that does not decrease, what comes later is not smaller. -/
theorem le_of_getElem? {l : List D} (h : l.Pairwise fun a b => lastUpdate a ≤ lastUpdate b) {i j : Nat} {a b : D}
    (hij : i ≤ j) (ha : l[i]? = some a) (hb : l[j]? = some b) : lastUpdate a ≤ lastUpdate b := by
  obtain ⟨hi, rfl⟩ := List.getElem?_eq_some_iff.mp ha
  obtain ⟨hj, rfl⟩ := List.getElem?_eq_some_iff.mp hb
  rcases Nat.lt_or_eq_of_le hij with hlt | rfl
  · exact List.pairwise_iff_getElem.mp h i j hi hj hlt
  · exact Int.le_refl _

/-- The screen has come as far as an answer of the server. -/
structure Beyond (lastUpdate : D → Int) (x : Shown D) (s : PollEffect D) : Prop where
  recorded : Recorded lastUpdate s
  made : s.made[x.stamp]? = some x.data
  shown : ∃ y, s.shown = some y ∧ x.stamp ≤ y.stamp

/-- A step that is fresh does not go back. -/
theorem beyond_step {x : Shown D} (h : Beyond lastUpdate x s) (hs : Guarded fresh (Step timer lastUpdate) s e t) :
    Beyond lastUpdate x t := by
  obtain ⟨hfresh, hs⟩ := hs
  have hrec := recorded_step h.recorded hs
  obtain ⟨y, hy, hle⟩ := h.shown
  cases e with
  | tick =>
    obtain ⟨-, -, rfl⟩ := step_inv hs
    exact ⟨hrec, h.made, y, hy, hle⟩
  | advance d =>
    obtain ⟨-, rfl⟩ := step_inv hs
    exact ⟨hrec, h.made, y, hy, hle⟩
  | serve n =>
    obtain ⟨-, rfl⟩ := step_inv hs
    refine ⟨hrec, ?_, y, hy, hle⟩
    show (s.made ++ [s.server])[x.stamp]? = some x.data
    exact getElem?_append_of_eq_some h.made _
  | arrive n =>
    obtain ⟨stamp, data, hn, rfl⟩ := step_inv hs
    by_cases halive : s.alive = true
    · have hlt := hfresh.2 halive y stamp data hy hn
      exact ⟨hrec, h.made, ⟨n, stamp, data⟩, if_pos halive, Nat.le_trans hle (Nat.le_of_lt hlt)⟩
    · exact ⟨hrec, h.made, y, (if_neg halive).trans hy, hle⟩
  | fail n =>
    obtain ⟨p, hn, hp, rfl⟩ := step_inv hs
    refine ⟨hrec, h.made, y, ?_, hle⟩
    have hanswered : s.answered ≠ [] := h.recorded.answered (by rw [hy]; rfl)
    refine (if_neg fun hclear => ?_).trans hy
    obtain ⟨h0, halive⟩ := Bool.and_eq_true_iff.mp hclear
    exact hanswered (hfresh.1 halive (by simpa using h0))
  | cleanup =>
    have ht : t = _ := step_inv hs
    subst ht
    exact ⟨hrec, h.made, y, hy, hle⟩

/-- The answer shown is that of the latest poll answered in every state of a run
exactly if the run keeps the order. -/
theorem ensured_latest_iff (server : D) (es : List (PollEvent D)) (s : PollEffect D) :
    Run (Ensured (fun _ _ t => t.Latest) (Step timer lastUpdate)) (start server) es s ↔
      Run (Guarded inOrder (Step timer lastUpdate)) (start server) es s := by
  refine Run.ensured_iff (P := fun u => Recorded lastUpdate u ∧ u.Latest) (fun u e v hu hv => ?_)
    ⟨recorded_start lastUpdate server, fun _ => rfl⟩
  have hiff := latest_step_iff hu.1 hu.2 hv
  exact ⟨hiff, fun hok => ⟨recorded_step hu.1 hv, hiff.mpr hok⟩⟩

/-- In a fresh run the `last_update` shown never decreases. -/
theorem le_of_fresh {server : D} {es es' : List (PollEvent D)}
    (hs : Run (Guarded fresh (Step timer lastUpdate)) (start server) es s)
    (ht : Run (Guarded fresh (Step timer lastUpdate)) s es' t) {x y : Shown D} (hx : s.shown = some x)
    (hy : t.shown = some y) : lastUpdate x.data ≤ lastUpdate y.data := by
  have hrec : Recorded lastUpdate s := hs.inv (fun u e v huv hu => recorded_step hu huv.2) (recorded_start lastUpdate server)
  have hbeyond : Beyond lastUpdate x t :=
    ht.inv (fun u e v huv hu => beyond_step hu huv) ⟨hrec, hrec.shown x hx, x, hx, Nat.le_refl _⟩
  obtain ⟨y', hy', hle⟩ := hbeyond.shown
  obtain rfl := Option.some.inj (hy.symm.trans hy')
  exact le_of_getElem? hbeyond.recorded.sorted hle hbeyond.made (hbeyond.recorded.shown y hy)

/-! ## One poll after the other -/

/-- Only the last poll may be on its way, and the server answers it after the
one shown. -/
structure Chained (s : PollEffect D) : Prop where
  last : ∀ (n : Nat) p, s.polls[n]? = some p → p.pending = true → n + 1 = s.polls.length
  after : ∀ x, s.shown = some x → ∀ (n : Nat) stamp data, s.polls[n]? = some (.served stamp data) → x.stamp < stamp

/-- A run of polls that are made one after the other is fresh. -/
theorem chained_step (hrec : Recorded lastUpdate s) (h : s.Chained) (hs : Step .chained lastUpdate s e t) :
    s.fresh e ∧ t.Chained := by
  have hbefore : ∀ {n p}, s.polls[n]? = some p → p.pending = true → ∀ m ∈ s.answered, m < n := by
    intro n p hn hp m hm
    have hlen := h.last n p hn hp
    have hm' := (List.getElem?_eq_some_iff.mp (hrec.settled m hm)).1
    have hne : m ≠ n := fun he => hrec.notMem_answered hn hp (he ▸ hm)
    omega
  cases e with
  | tick =>
    obtain ⟨hall, -, rfl⟩ := step_inv hs
    have hsettled : ∀ p ∈ s.polls, p.pending = false := hall.resolve_left nofun
    have hnew : ∀ (n : Nat) p, (s.polls ++ [.asked])[n]? = some p → p.pending = true → n = s.polls.length ∧ p = .asked := by
      intro n p hn hp
      rcases getElem?_snoc hn with ⟨-, hold⟩ | ⟨hlen, hnew⟩
      · exact absurd (hp.symm.trans (hsettled p (List.mem_of_getElem? hold))) (by decide)
      · exact ⟨hlen, hnew.symm⟩
    refine ⟨⟨trivial, trivial⟩, fun n p hn hp => ?_, fun x hx n stamp data hn => ?_⟩
    · rw [(hnew n p hn hp).1, List.length_append, List.length_singleton]
    · exact nomatch (hnew n _ hn rfl).2
  | advance d =>
    obtain ⟨-, rfl⟩ := step_inv hs
    exact ⟨⟨trivial, trivial⟩, h.last, h.after⟩
  | serve n =>
    obtain ⟨hn, rfl⟩ := step_inv hs
    refine ⟨⟨trivial, trivial⟩, fun m p hm hp => ?_, fun x hx m stamp data hm => ?_⟩
    · rw [List.length_set]
      rcases getElem?_set_cases hm with ⟨rfl, -⟩ | ⟨-, hold⟩
      · exact h.last m _ hn rfl
      · exact h.last m p hold hp
    · rcases getElem?_set_cases hm with ⟨-, hnew⟩ | ⟨-, hold⟩
      · cases hnew
        exact (List.getElem?_eq_some_iff.mp (hrec.shown x hx)).1
      · exact h.after x hx m stamp data hold
  | arrive n =>
    obtain ⟨stamp, data, hn, rfl⟩ := step_inv hs
    have hnone : ∀ (m : Nat) p, (s.polls.set n .settled)[m]? = some p → p.pending = false := by
      intro m p hm
      rcases getElem?_set_cases hm with ⟨-, rfl⟩ | ⟨hne, hold⟩
      · rfl
      · by_contra hp
        have hm' := h.last m p hold (by simpa using hp)
        have hn' := h.last n _ hn rfl
        omega
    refine ⟨⟨fun _ => hbefore hn rfl, fun _ x stamp data hx hserved => h.after x hx n stamp data hserved⟩, ?_, ?_⟩
    · intro m p hm hp
      exact absurd (hp.symm.trans (hnone m p hm)) (by decide)
    · intro x _ m stamp data hm
      exact nomatch hnone m _ hm
  | fail n =>
    obtain ⟨p, hn, hp, rfl⟩ := step_inv hs
    refine ⟨⟨fun _ h0 => List.eq_nil_iff_forall_not_mem.mpr fun m hm => ?_, trivial⟩, ?_, ?_⟩
    · have hlt := hbefore hn hp m hm
      omega
    · intro m q hm hq
      rw [List.length_set]
      rcases getElem?_set_cases hm with ⟨-, rfl⟩ | ⟨-, hold⟩
      · cases hq
      · exact h.last m q hold hq
    · intro x hx m stamp data hm
      refine h.after x ?_ m stamp data (served_of_settle hm)
      dsimp only at hx
      split at hx
      · cases hx
      · exact hx
  | cleanup =>
    have ht : t = _ := step_inv hs
    subst ht
    exact ⟨⟨trivial, trivial⟩, h.last, h.after⟩

theorem chained_start (server : D) : Chained (start server) where
  last n p hn _ := by
    have hlt := (List.getElem?_eq_some_iff.mp hn).1
    show n + 1 = 1
    exact congrArg (· + 1) (Nat.lt_one_iff.mp hlt)
  after := nofun

/-- The polls of the app are fresh. -/
theorem fresh_of_chained {server : D} {es : List (PollEvent D)} (h : Run (Step .chained lastUpdate) (start server) es s) :
    Run (Guarded fresh (Step .chained lastUpdate)) (start server) es s := by
  suffices h' : Run (Guarded fresh (Step .chained lastUpdate)) (start server) es s ∧ Recorded lastUpdate s ∧ s.Chained from
    h'.1
  induction h with
  | nil => exact ⟨.nil, recorded_start lastUpdate server, chained_start server⟩
  | snoc _ hlast ih =>
    obtain ⟨hrun, hrec, hchained⟩ := ih
    obtain ⟨hfresh, hnext⟩ := chained_step hrec hchained hlast
    exact ⟨hrun.snoc ⟨hfresh, hlast⟩, recorded_step hrec hlast, hnext⟩

/-- The answer shown by the app is that of the latest poll answered, in every run,
and its `last_update` never decreases. -/
theorem latest_chained {server : D} {es es' : List (PollEvent D)}
    (hs : Run (Step .chained lastUpdate) (start server) es s) (ht : Run (Step .chained lastUpdate) s es' t) :
    s.Latest ∧ ∀ x y, s.shown = some x → t.shown = some y → lastUpdate x.data ≤ lastUpdate y.data := by
  have hfresh := fresh_of_chained hs
  constructor
  · refine ((ensured_latest_iff server es s).mpr (hfresh.mono fun _ _ _ h => ⟨h.1.1, h.2⟩)).inv
      (fun _ _ _ h _ => h.2) fun _ => rfl
  · intro x y hx hy
    obtain ⟨u, hu, ht'⟩ := (fresh_of_chained (hs.trans ht)).of_append
    obtain rfl := run_functional hu.of_guarded hs
    exact le_of_fresh hfresh ht' hx hy

/-! ## Polls on a timer -/

/-- The answer shown is that of the latest poll answered in every state of a run
exactly if the run keeps the order, and if it is fresh then the `last_update`
shown never decreases. -/
theorem latest_iff (timer : PollTimer) (lastUpdate : D → Int) (server : D) :
    (∀ es s, Run (Ensured (fun _ _ t => t.Latest) (Step timer lastUpdate)) (start server) es s ↔
      Run (Guarded inOrder (Step timer lastUpdate)) (start server) es s) ∧
    ∀ es s es' t, Run (Guarded fresh (Step timer lastUpdate)) (start server) es s →
      Run (Guarded fresh (Step timer lastUpdate)) s es' t →
      ∀ x y, s.shown = some x → t.shown = some y → lastUpdate x.data ≤ lastUpdate y.data :=
  ⟨fun es s => ensured_latest_iff server es s, fun _ _ _ _ hs ht _ _ hx hy => le_of_fresh hs ht hx hy⟩

/-- The second poll overtakes the first; an answer is its `last_update`. -/
def overtaken : List (PollEvent Int) := [.tick, .serve 0, .advance 5, .serve 1, .arrive 1]

/-- What is seen of a state: the answer shown and its poll, and the polls answered. -/
def seen (s : PollEffect Int) : Bool × Option (Nat × Int) × List Nat :=
  (s.alive, s.shown.map fun x => (x.poll, x.data), s.answered)

/-- The answer of the second poll is shown, then that of the first, which is older. -/
theorem not_latest :
    (¬ ∀ es s, Run (Step .interval id) (start (0 : Int)) es s → s.Latest) ∧
      ¬ ∀ es s es' t, Run (Step .interval id) (start (0 : Int)) es s → Run (Step .interval id) s es' t →
        ∀ x y, s.shown = some x → t.shown = some y → x.data ≤ y.data := by
  have hfirst : (exec (step .interval id) (start 0) overtaken).map seen = some (true, some (1, 5), [1]) := by decide +kernel
  have hthen : (exec (step .interval id) (start 0) (overtaken ++ [.arrive 0])).map seen =
      some (true, some (0, 0), [1, 0]) := by
    decide +kernel
  obtain ⟨s, hs, hseen⟩ := Option.map_eq_some_iff.mp hfirst
  obtain ⟨t, ht, hseen'⟩ := Option.map_eq_some_iff.mp hthen
  obtain ⟨-, hpair⟩ := Prod.mk.inj hseen
  obtain ⟨halive', hpair'⟩ := Prod.mk.inj hseen'
  obtain ⟨x, hx, hdata⟩ := Option.map_eq_some_iff.mp (Prod.mk.inj hpair).1
  obtain ⟨y, hy, hdata'⟩ := Option.map_eq_some_iff.mp (Prod.mk.inj hpair').1
  have hrun : Run (Step .interval id) (start 0) overtaken s := Run.of_exec hs
  constructor
  · intro hall
    have hlatest := hall _ t (Run.of_exec ht) halive'
    rw [hy, (Prod.mk.inj hpair').2] at hlatest
    have hpoll : y.poll = 1 := Option.some.inj hlatest
    rw [(Prod.mk.inj hdata').1] at hpoll
    cases hpoll
  · intro hall
    obtain ⟨u, hu, hut⟩ := (Run.of_exec ht : Run (Step .interval id) (start 0) (overtaken ++ [.arrive 0]) t).of_append
    obtain rfl := run_functional hu hrun
    have hle := hall _ _ _ t hu hut x y hx hy
    rw [(Prod.mk.inj hdata).2, (Prod.mk.inj hdata').2] at hle
    exact absurd hle (by decide)

/-- The second poll is made after the first is answered. -/
theorem latest_iff_waits :
    ∃ s t : PollEffect Int, (∃ x, s.shown = some x ∧ x.data = 0) ∧ (∃ y, t.shown = some y ∧ y.data = 5) ∧
      ∀ x y, s.shown = some x → t.shown = some y → x.data ≤ y.data := by
  have hfirst : ((exec (step .chained id) (start 0) [.serve 0, .arrive 0]).bind PollEffect.shown).map Shown.data = some 0 := by
    decide +kernel
  have hthen : ((exec (step .chained id) (start 0) ([.serve 0, .arrive 0] ++ [.advance 5, .tick, .serve 1, .arrive 1])).bind
      PollEffect.shown).map Shown.data = some 5 := by
    decide +kernel
  obtain ⟨x, hx, hdata⟩ := Option.map_eq_some_iff.mp hfirst
  obtain ⟨y, hy, hdata'⟩ := Option.map_eq_some_iff.mp hthen
  obtain ⟨s, hs, hshown⟩ := Option.bind_eq_some_iff.mp hx
  obtain ⟨t, ht, hshown'⟩ := Option.bind_eq_some_iff.mp hy
  obtain ⟨u, hu, hut⟩ := (fresh_of_chained (Run.of_exec ht)).of_append
  obtain rfl := run_functional hu.of_guarded (Run.of_exec hs)
  exact ⟨_, t, ⟨x, hshown, hdata⟩, ⟨y, hshown', hdata'⟩, (latest_iff .chained id 0).2 _ _ _ t hu hut⟩

end PollEffect

end OV.Impl.Client
