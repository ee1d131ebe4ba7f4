import Ovlive.Proof.Realtime.Delivered

/-!
# How often a stream connects

A task that cannot keep a connection waits longer after each failure, up to
half a minute, and never less again: a connection that works does not take the
backoff back (`attempts_bounded`). Silence fails a connection only after the
whole idle timeout: nothing the task did, no message and no item sent, is
closer to it than that (`silent_of_run`).
-/

namespace OV.Impl

variable [Feed] [Gzip] {w : Which} {cfg : StreamConfig}

def StreamAct.isAttempt : StreamAct → Bool
  | .connected | .refused => true
  | _ => false

def StreamAct.isFailure : StreamAct → Bool
  | .refused | .broken | .silent => true
  | _ => false

/-- The seconds of the first waits together. -/
def backoffs : Nat → Nat
  | 0 => 0
  | n + 1 => backoffs n + min (2 ^ n) 30

omit [Feed] [Gzip] in
theorem backoffs_mono {m n : Nat} (h : m ≤ n) : backoffs m ≤ backoffs n := by
  induction h with
  | refl => exact Nat.le_refl _
  | step _ ih => exact ih.trans (Nat.le_add_right _ _)

omit [Feed] [Gzip] in
/-- All waits but the first five are of half a minute. -/
theorem le_backoffs (n : Nat) : 30 * n ≤ backoffs n + 119 := by
  by_cases hn : n < 5
  · have hsmall : ∀ n < 5, 30 * n ≤ backoffs n + 119 := by decide
    exact hsmall n hn
  · obtain ⟨k, rfl⟩ := Nat.exists_eq_add_of_le (Nat.le_of_not_lt hn)
    induction k with
    | zero => decide
    | succ k ih =>
      have hpow : 2 ^ 5 ≤ 2 ^ (5 + k) := Nat.pow_le_pow_right (by decide) (Nat.le_add_right 5 k)
      have hstep : backoffs (5 + (k + 1)) = backoffs (5 + k) + min (2 ^ (5 + k)) 30 := rfl
      have := ih (by omega)
      omega

namespace StreamTask

variable {t u : StreamTask}

/-- Whether a task is between attempts. -/
def isIdle (t : StreamTask) : Bool :=
  match t.phase with
  | .connecting | .sleeping _ => true
  | _ => false

/-- When a task has done with waiting. -/
def awakens (t : StreamTask) (now : Nat) : Nat :=
  match t.phase with
  | .sleeping wakes => wakes
  | _ => now

/-- Where a task is at a time, after so many attempts and failures. -/
structure Paced (t : StreamTask) (now attempts failures : Nat) : Prop where
  backoff : t.backoff = min (2 ^ failures) 30
  bounded : attempts ≤ failures + 1
  idle : t.isIdle = true → attempts ≤ failures
  waited : backoffs failures * second ≤ t.awakens now
  elapsed : backoffs (attempts - 1) * second ≤ now

omit [Feed] [Gzip] in
theorem Paced.later {now later attempts failures : Nat} (h : t.Paced now attempts failures) (hle : now ≤ later) :
    t.Paced later attempts failures := by
  refine { h with waited := h.waited.trans ?_, elapsed := h.elapsed.trans hle }
  simp only [awakens]
  split
  · exact Nat.le_refl _
  · exact hle

omit [Feed] [Gzip] in
/-- An attempt of a task that is awake. -/
theorem Paced.attempt {now attempts failures : Nat} (h : t.Paced now attempts failures) (hidle : t.isIdle = true)
    (hawake : t.awakens now = now) : attempts + 1 ≤ failures + 1 ∧ backoffs (attempts + 1 - 1) * second ≤ now := by
  have hwaited := h.waited
  rw [hawake] at hwaited
  refine ⟨Nat.succ_le_succ (h.idle hidle), ?_⟩
  rw [Nat.add_sub_cancel]
  have hmono := backoffs_mono (h.idle hidle)
  calc
    backoffs attempts * second ≤ backoffs failures * second := Nat.mul_le_mul_right second hmono
    _ ≤ now := hwaited

omit [Feed] [Gzip] in
theorem awakens_sleeping (wakes b now : Nat) : awakens ⟨.sleeping wakes, b⟩ now = wakes := rfl

omit [Feed] [Gzip] in
/-- A failure, of an attempt or of a connection. -/
theorem Paced.fail {now attempts tried failures : Nat} (h : t.Paced now attempts failures)
    (hawake : t.awakens now = now) (hbounded : tried ≤ failures + 1) (helapsed : backoffs (tried - 1) * second ≤ now) :
    (t.fail now).Paced now tried (failures + 1) where
  backoff := by
    show min (t.backoff * 2) 30 = _
    rw [h.backoff, Nat.pow_succ]
    omega
  bounded := hbounded.trans (Nat.le_succ _)
  idle _ := hbounded
  waited := by
    have hwaited := h.waited
    rw [hawake] at hwaited
    rw [StreamTask.fail, awakens_sleeping, backoffs, Nat.add_mul, h.backoff]
    exact Nat.add_le_add_right hwaited _
  elapsed := helapsed

omit [Feed] [Gzip] in
theorem isIdle_after (now : Nat) (items : List StreamItem) (b : Nat) : isIdle ⟨.after now items, b⟩ = false := by
  cases items <;> rfl

omit [Feed] [Gzip] in
theorem awakens_after (now : Nat) (items : List StreamItem) (b : Nat) : awakens ⟨.after now items, b⟩ now = now := by
  cases items <;> rfl

/-- A step leaves a task paced. -/
theorem Turns.paced {now attempts failures : Nat} {a : StreamAct} {item : Option StreamItem}
    (h : Turns w cfg now t a u item) (hp : t.Paced now attempts failures) :
    u.Paced now (attempts + a.isAttempt.toNat) (failures + a.isFailure.toNat) := by
  cases h with
  | connected b =>
    obtain ⟨hbounded, helapsed⟩ := hp.attempt rfl rfl
    exact ⟨hp.backoff, hbounded, nofun, hp.waited, helapsed⟩
  | refused b =>
    obtain ⟨hbounded, helapsed⟩ := hp.attempt rfl rfl
    exact hp.fail rfl hbounded helapsed
  | message since b clock frames =>
    refine ⟨hp.backoff, hp.bounded, fun hidle => ?_, ?_, hp.elapsed⟩
    · rw [isIdle_after] at hidle
      cases hidle
    · rw [awakens_after]
      exact hp.waited
  | broken since b => exact hp.fail rfl hp.bounded hp.elapsed
  | silent b hsilent => exact hp.fail rfl hp.bounded hp.elapsed
  | woke b hwoke => exact ⟨hp.backoff, hp.bounded, fun _ => hp.idle rfl, hp.waited.trans hwoke, hp.elapsed⟩
  | send item rest b =>
    refine ⟨hp.backoff, hp.bounded, fun hidle => ?_, ?_, hp.elapsed⟩
    · rw [isIdle_after] at hidle
      cases hidle
    · rw [awakens_after]
      exact hp.waited
  | dropped => exact ⟨hp.backoff, hp.bounded, nofun, hp.waited, hp.elapsed⟩

end StreamTask

namespace Pipeline

variable [Platform] {s t : Pipeline} {ds : List Did}

/-- The attempts of a task to connect. -/
def attempts (w : Which) (ds : List Did) : Nat := (ds.filterMap (Did.ofTask w)).countP fun d => d.act.isAttempt

def failures (w : Which) (ds : List Did) : Nat := (ds.filterMap (Did.ofTask w)).countP fun d => d.act.isFailure

omit [Feed] [Gzip] [Platform] in
theorem setTask_now (s : Pipeline) (w : Which) (u : StreamTask) : (s.setTask w u).now = s.now := by
  cases w <;> rfl

theorem Moves.now {now : Nat} {a : PipelineAct} {handed : Option Handed} (h : Moves cfg s now a handed t) :
    t.now = now := by
  cases h with
  | quiet => exact setTask_now _ _ _
  | position => exact setTask_now _ _ _
  | revision => exact setTask_now _ _ _
  | _ => rfl

omit [Feed] [Gzip] [Platform] in
theorem at_of_ofTask {d : Did} {e : StreamTask.Did} (h : d.ofTask w = some e) : e.at_ = d.at_ := by
  rw [Did.ofTask] at h
  split at h
  · split at h
    · cases h
      rfl
    · cases h
  · cases h

theorem paced_of_run {server : Server} (h : Run (Step cfg) (start cfg server) ds t) (w : Which) :
    (t.task w).Paced t.now (attempts w ds) (failures w ds) := by
  induction h with
  | nil =>
    cases w with
    | stream => exact ⟨rfl, Nat.zero_le _, fun _ => Nat.le_refl _, Nat.zero_le _, Nat.zero_le _⟩
    | infoplus => exact ⟨rfl, Nat.zero_le _, fun _ => Nat.le_refl _, by simp [backoffs, failures], Nat.zero_le _⟩
  | snoc h hr ih =>
    rename_i ds s d t
    obtain ⟨hnow, hm⟩ := moves_of_step hr
    have hown := hm.task w
    have hp := ih.later hnow
    rw [hm.now, attempts, failures, List.filterMap_append, List.countP_append, List.countP_append]
    cases hof : Did.ofTask w ⟨d.at_, d.act, d.handed⟩ with
    | none =>
      rw [hof] at hown
      rw [show t.task w = s.task w from hown, List.filterMap_cons_none hof]
      exact hp
    | some e =>
      rw [hof] at hown
      have hturn := StreamTask.turns_of_step hown
      rw [at_of_ofTask hof] at hturn
      have hpaced := hturn.paced hp
      rw [List.filterMap_cons_some hof, List.filterMap_nil, List.countP_singleton, List.countP_singleton]
      simpa only [attempts, failures, Bool.toNat, Bool.cond_eq_ite] using hpaced

/-- In a run no stream attempts to connect more often than its backoff lets it:
after five attempts once in half a minute. -/
theorem attempts_bounded {server : Server} (h : Run (Step cfg) (start cfg server) ds t) (w : Which) :
    backoffs (attempts w ds - 1) * second ≤ t.now ∧ 30 * attempts w ds ≤ t.now / second + 149 := by
  have hp := paced_of_run h w
  refine ⟨hp.elapsed, ?_⟩
  have hseconds : backoffs (attempts w ds - 1) ≤ t.now / second := (Nat.le_div_iff_mul_le (by decide)).mpr hp.elapsed
  have := le_backoffs (attempts w ds - 1)
  omega

omit [Feed] [Gzip] [Platform] in
/-- A refused stream, and refused again a second later. -/
theorem attempts_bounded_refused :
    let _ := trainsFeed
    let _ := trainsGzip
    let _ := plainPlatform
    ∃ (ds : List Did) (t : Pipeline), Run (Step trainsConfig) (start trainsConfig (Server.start 240 none {})) ds t ∧
      attempts .infoplus ds = 2 ∧ t.now = second ∧
      backoffs (attempts .infoplus ds - 1) * second ≤ t.now ∧ 30 * attempts .infoplus ds ≤ t.now / second + 149 := by
  intro _ _ _
  let s₀ := start trainsConfig (Server.start 240 none {})
  let s₁ := { s₀ with infoplus := ⟨.sleeping (0 + 1 * second), 2⟩ }
  let s₂ := { s₀ with now := second, infoplus := ⟨.connecting, 2⟩ }
  let s₃ := { s₀ with now := second, infoplus := ⟨.sleeping (second + 2 * second), 4⟩ }
  have h₁ : Step trainsConfig s₀ ⟨0, .task .infoplus .refused, none⟩ s₁ := rfl
  have h₂ : Step trainsConfig s₁ ⟨second, .task .infoplus .woke, none⟩ s₂ := by
    simp [Step, step, act, StreamTask.step, Pipeline.task, setTask, s₀, s₁, s₂, start]
  have h₃ : Step trainsConfig s₂ ⟨second, .task .infoplus .refused, none⟩ s₃ := rfl
  have h := ((Run.nil.snoc h₁).snoc h₂).snoc h₃
  exact ⟨_, _, h, rfl, rfl, attempts_bounded h .infoplus⟩

end Pipeline

/-! ## Silence -/

/-- What a live connection leaves of a task: it waits for a message. -/
def StreamAct.isLive : StreamAct → Bool
  | .connected | .message _ _ | .send => true
  | _ => false

namespace StreamTask

variable {t u : StreamTask}

/-- A task waits for a message since the time of its last step. -/
theorem Turns.receiving {now since : Nat} {a : StreamAct} {item : Option StreamItem} (h : Turns w cfg now t a u item)
    (hu : u.phase = .receiving since) : since = now ∧ a.isLive = true := by
  cases h with
  | connected b =>
    cases hu
    exact ⟨rfl, rfl⟩
  | message _ b clock frames =>
    simp only at hu
    cases hitems : w.decode cfg clock frames with
    | nil =>
      rw [hitems] at hu
      cases hu
      exact ⟨rfl, rfl⟩
    | cons item rest =>
      rw [hitems] at hu
      cases hu
  | send item rest b =>
    cases rest with
    | nil =>
      cases hu
      exact ⟨rfl, rfl⟩
    | cons item rest => cases hu
  | _ => cases hu

theorem Turns.silent_phase {now : Nat} {item : Option StreamItem} (h : Turns w cfg now t .silent u item) :
    ∃ since, t.phase = .receiving since ∧ since + cfg.idleTimeoutSecs * second ≤ now := by
  cases h with
  | silent b hidle => exact ⟨_, rfl, hidle⟩

/-- What a task did until a time, by where it is. -/
structure Watched (t : StreamTask) (now : Nat) (ds : List Did) : Prop where
  past : ∀ d ∈ ds, d.at_ ≤ now
  live : ∀ since, t.phase = .receiving since →
    ∃ d, ds.getLast? = some d ∧ d.act.isLive = true ∧ d.at_ = since ∧ ∀ e ∈ ds, e.at_ ≤ since

omit [Feed] [Gzip] in
theorem Watched.later {now later : Nat} {ds : List Did} (h : t.Watched now ds) (hle : now ≤ later) :
    t.Watched later ds :=
  ⟨fun d hd => (h.past d hd).trans hle, h.live⟩

theorem Watched.step {now : Nat} {ds : List Did} {d : Did} (h : t.Watched now ds) (hat : d.at_ = now)
    (hd : Turns w cfg now t d.act u d.item) : u.Watched now (ds ++ [d]) := by
  have hpast : ∀ e ∈ ds ++ [d], e.at_ ≤ now := by
    intro e he
    rcases List.mem_append.mp he with he | he
    · exact h.past e he
    · rw [List.mem_singleton.mp he, hat]
  refine ⟨hpast, fun since hu => ?_⟩
  obtain ⟨rfl, hlive⟩ := hd.receiving hu
  exact ⟨d, List.getLast?_concat, hlive, hat, hpast⟩

end StreamTask

namespace Pipeline

variable [Platform] {s t : Pipeline} {d : Did} {ds : List Did}

theorem watched_of_run {server : Server} (h : Run (Step cfg) (start cfg server) ds t) (w : Which) :
    (t.task w).Watched t.now (ds.filterMap (Did.ofTask w)) := by
  induction h with
  | nil =>
    refine ⟨fun e he => absurd he List.not_mem_nil, fun since hs => ?_⟩
    cases w with
    | stream => cases hs
    | infoplus =>
      simp only [start, Pipeline.task] at hs
      split at hs <;> cases hs
  | snoc h hr ih =>
    rename_i ds s d t
    obtain ⟨hnow, hm⟩ := moves_of_step hr
    have hown := hm.task w
    have hw := ih.later hnow
    rw [hm.now, List.filterMap_append]
    cases hof : Did.ofTask w ⟨d.at_, d.act, d.handed⟩ with
    | none =>
      rw [hof] at hown
      rw [show t.task w = s.task w from hown, List.filterMap_cons_none hof, List.filterMap_nil, List.append_nil]
      exact hw
    | some e =>
      rw [hof] at hown
      have hturn := StreamTask.turns_of_step hown
      have hat := at_of_ofTask hof
      rw [hat] at hturn
      rw [List.filterMap_cons_some hof, List.filterMap_nil]
      exact hw.step hat hturn

/-- The watchdog fails a connection only where the last thing its task did was
to connect, to receive or to send, and is a whole idle timeout ago. -/
theorem silent_of_run {server : Server} (h : Run (Step cfg) (start cfg server) ds s) (hd : Step cfg s d t)
    (ha : d.act = .task w .silent) :
    ∃ e, (ds.filterMap (Did.ofTask w)).getLast? = some e ∧ e.act.isLive = true ∧
      (∀ e' ∈ ds.filterMap (Did.ofTask w), e'.at_ ≤ e.at_) ∧ e.at_ + cfg.idleTimeoutSecs * second ≤ d.at_ := by
  have hm := (moves_of_step hd).2
  have hown := hm.task w
  obtain ⟨now, a, handed⟩ := d
  cases ha
  simp only [Did.ofTask, Own, if_true] at hown
  obtain ⟨since, hphase, hidle⟩ := (StreamTask.turns_of_step hown).silent_phase
  obtain ⟨e, hlast, hlive, rfl, hpast⟩ := (watched_of_run h w).live since hphase
  exact ⟨e, hlast, hlive, hpast, hidle⟩

omit [Feed] [Gzip] [Platform] in
/-- A stream that connects, and hears nothing for a minute and a half. -/
theorem silent_of_run_idle :
    let _ := trainsFeed
    let _ := trainsGzip
    let _ := plainPlatform
    ∃ (ds : List Did) (s t : Pipeline), Run (Step trainsConfig) (start trainsConfig (Server.start 240 none {})) ds s ∧
      Step trainsConfig s ⟨90 * second, .task .infoplus .silent, none⟩ t ∧
      ∃ e, (ds.filterMap (Did.ofTask .infoplus)).getLast? = some e ∧ e.act.isLive = true ∧
        (∀ e' ∈ ds.filterMap (Did.ofTask .infoplus), e'.at_ ≤ e.at_) ∧
        e.at_ + trainsConfig.idleTimeoutSecs * second ≤ 90 * second := by
  intro _ _ _
  let s₀ := start trainsConfig (Server.start 240 none {})
  let s₁ := { s₀ with infoplus := ⟨.receiving 0, 1⟩ }
  let s₂ := { s₀ with now := 90 * second, infoplus := ⟨.sleeping (90 * second + 1 * second), 2⟩ }
  have h₁ : Step trainsConfig s₀ ⟨0, .task .infoplus .connected, none⟩ s₁ := rfl
  have h₂ : Step trainsConfig s₁ ⟨90 * second, .task .infoplus .silent, none⟩ s₂ := rfl
  exact ⟨_, _, _, Run.nil.snoc h₁, h₂, silent_of_run (Run.nil.snoc h₁) h₂ rfl⟩

end Pipeline

end OV.Impl
