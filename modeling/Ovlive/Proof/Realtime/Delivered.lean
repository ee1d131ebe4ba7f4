import Ovlive.Impl.Realtime.Streams

/-!
# What the streams deliver

Every item a message decodes to is applied once, in the order of its stream,
or is still on its way (`delivered_of_run`): a full channel makes a task wait,
and never makes it drop an item. So what the pipeline does to the stores is a
run of the server on the items that arrived.
-/

namespace OV.Impl

open Wire

variable [Feed] [Gzip] {w : Which} {cfg : StreamConfig}

/-! ## A task -/

namespace StreamTask

/-- What a task does, when, and the item it sends. -/
structure Did where
  at_ : Nat
  act : StreamAct
  item : Option StreamItem

def Step (w : Which) (cfg : StreamConfig) (t : StreamTask) (d : Did) (u : StreamTask) : Prop :=
  t.step w cfg d.at_ d.act = some (u, d.item)

/-- What is still to be sent. -/
def pending (t : StreamTask) : List StreamItem :=
  match t.phase with
  | .sending item rest => item :: rest
  | _ => []

end StreamTask

/-- What a message yields. -/
def StreamAct.yields (w : Which) (cfg : StreamConfig) : StreamAct → List StreamItem
  | .message clock frames => w.decode cfg clock frames
  | _ => []

namespace StreamTask

variable {t u : StreamTask} {ds : List Did}

/-- What the messages of a run yield. -/
def arrived (w : Which) (cfg : StreamConfig) (ds : List Did) : List StreamItem := ds.flatMap fun d => d.act.yields w cfg

def sent (ds : List Did) : List StreamItem := ds.filterMap Did.item

theorem arrived_snoc (ds : List Did) (d : Did) : arrived w cfg (ds ++ [d]) = arrived w cfg ds ++ d.act.yields w cfg := by
  rw [arrived, List.flatMap_append, List.flatMap_singleton, arrived]

omit [Feed] [Gzip] in
theorem sent_snoc (ds : List Did) (d : Did) : sent (ds ++ [d]) = sent ds ++ d.item.toList := by
  rw [sent, List.filterMap_append, sent]
  cases hd : d.item <;> simp [hd]

omit [Feed] [Gzip] in
theorem pending_after (now : Nat) (items : List StreamItem) (backoff : Nat) :
    pending { phase := .after now items, backoff := backoff } = items := by
  cases items <;> rfl

omit [Feed] [Gzip] in
theorem after_ne_stopped (now : Nat) (items : List StreamItem) : StreamPhase.after now items ≠ .stopped := by
  cases items <;> nofun

/-- What a task does, by where it is. -/
inductive Turns (w : Which) (cfg : StreamConfig) (now : Nat) :
    StreamTask → StreamAct → StreamTask → Option StreamItem → Prop
  | connected (b : Nat) : Turns w cfg now ⟨.connecting, b⟩ .connected ⟨.receiving now, b⟩ none
  | refused (b : Nat) : Turns w cfg now ⟨.connecting, b⟩ .refused (fail ⟨.connecting, b⟩ now) none
  | message (since b : Nat) (clock : Instant) (frames : List Bytes) :
    Turns w cfg now ⟨.receiving since, b⟩ (.message clock frames) ⟨.after now (w.decode cfg clock frames), b⟩ none
  | broken (since b : Nat) : Turns w cfg now ⟨.receiving since, b⟩ .broken (fail ⟨.receiving since, b⟩ now) none
  | silent {since : Nat} (b : Nat) (h : since + cfg.idleTimeoutSecs * second ≤ now) :
    Turns w cfg now ⟨.receiving since, b⟩ .silent (fail ⟨.receiving since, b⟩ now) none
  | woke {wakes : Nat} (b : Nat) (h : wakes ≤ now) : Turns w cfg now ⟨.sleeping wakes, b⟩ .woke ⟨.connecting, b⟩ none
  | send (item : StreamItem) (rest : List StreamItem) (b : Nat) :
    Turns w cfg now ⟨.sending item rest, b⟩ .send ⟨.after now rest, b⟩ (some item)
  | dropped (item : StreamItem) (rest : List StreamItem) (b : Nat) :
    Turns w cfg now ⟨.sending item rest, b⟩ .dropped ⟨.stopped, b⟩ none

theorem turns_of_step {now : Nat} {a : StreamAct} {item : Option StreamItem} (h : t.step w cfg now a = some (u, item)) :
    Turns w cfg now t a u item := by
  obtain ⟨phase, b⟩ := t
  cases a <;> simp only [step] at h <;> split at h
  all_goals first
    | (split at h <;> cases h; constructor; assumption)
    | (cases h; constructor)
    | cases h

/-- A step sends the first of what is to be sent, and adds what arrives. -/
theorem Turns.pending {now : Nat} {a : StreamAct} {item : Option StreamItem} (h : Turns w cfg now t a u item) :
    t.phase ≠ .stopped ∧ (u.phase ≠ .stopped → t.pending ++ a.yields w cfg = item.toList ++ u.pending) := by
  cases h with
  | message since b clock frames => exact ⟨nofun, fun _ => (pending_after now _ b).symm⟩
  | send item rest b =>
    refine ⟨nofun, fun _ => ?_⟩
    rw [pending_after]
    exact List.append_nil _
  | dropped => exact ⟨nofun, fun h => absurd rfl h⟩
  | _ => exact ⟨nofun, fun _ => rfl⟩

/-- An item that is sent was to be sent first. -/
theorem Turns.item {now : Nat} {a : StreamAct} {item : Option StreamItem} (h : Turns w cfg now t a u item) :
    item.toList <+: t.pending := by
  cases h with
  | send item rest b => exact ⟨rest, rfl⟩
  | _ => exact List.nil_prefix

/-- A task stops where nobody receives. -/
theorem Turns.stopped {now : Nat} {a : StreamAct} {item : Option StreamItem} (h : Turns w cfg now t a u item)
    (hu : u.phase = .stopped) : a = .dropped ∧ item = none := by
  cases h with
  | dropped => exact ⟨rfl, rfl⟩
  | message => exact absurd hu (after_ne_stopped _ _)
  | send => exact absurd hu (after_ne_stopped _ _)
  | _ => cases hu

/-- What arrived was sent, in this order, or is still to be sent. -/
theorem ledger (h : Run (Step w cfg) t ds u) (hu : u.phase ≠ .stopped) :
    t.pending ++ arrived w cfg ds = sent ds ++ u.pending := by
  induction h with
  | nil => simp [arrived, sent]
  | snoc _ hr ih =>
    rename_i ds v d u _
    obtain ⟨hv, hpending⟩ := (turns_of_step hr).pending
    rw [arrived_snoc, sent_snoc, ← List.append_assoc, ih hv, List.append_assoc, hpending hu, List.append_assoc]

/-- And what was sent had arrived, also where the task stopped. -/
theorem sent_prefix (h : Run (Step w cfg) t ds u) : sent ds <+: t.pending ++ arrived w cfg ds := by
  induction h with
  | nil => simp [sent]
  | snoc h hr ih =>
    rename_i ds v d u
    have hturn := turns_of_step hr
    rw [arrived_snoc, sent_snoc, ← List.append_assoc, ledger h hturn.pending.1, List.append_assoc,
      List.prefix_append_right_inj]
    exact hturn.item.trans (List.prefix_append _ _)

end StreamTask

/-! ## The pipeline -/

namespace Pipeline

variable [Platform] {s t : Pipeline} {ds : List Did}

/-- What happens, by what it hands over. -/
inductive Moves (cfg : StreamConfig) (s : Pipeline) (now : Nat) : PipelineAct → Option Handed → Pipeline → Prop
  | quiet {w : Which} {a : StreamAct} {u : StreamTask} (h : (s.task w).step w cfg now a = some (u, none))
    (hdropped : a = .dropped → s.unheard (s.task w) = true) :
    Moves cfg s now (.task w a) none (setTask { s with now := now } w u)
  | position {w : Which} {a : StreamAct} {u : StreamTask} {ev : PosEvent} {c : Channel PosEvent 50000}
    (h : (s.task w).step w cfg now a = some (u, some (.inl ev))) (hc : s.positions.send ev = some c) :
    Moves cfg s now (.task w a) (some (.sent (.inl ev))) { setTask { s with now := now } w u with positions := c }
  | revision {w : Which} {a : StreamAct} {u : StreamTask} {r : TrainUpdate} {c : Channel TrainUpdate 10000}
    (h : (s.task w).step w cfg now a = some (u, some (.inr r))) (hc : s.revisions.send r = some c) :
    Moves cfg s now (.task w a) (some (.sent (.inr r))) { setTask { s with now := now } w u with revisions := c }
  | apply {ev : PosEvent} {c : Channel PosEvent 50000} (h : s.positions.recv = some (ev, c)) :
    Moves cfg s now .apply (some (.applied ev))
      { s with now := now, positions := c, server := s.server.act (.position ev) }
  | revise {r : TrainUpdate} {c : Channel TrainUpdate 10000} (h : s.revisions.recv = some (r, c)) (clock : Instant) :
    Moves cfg s now (.revise clock) (some (.revised r))
      { s with now := now, revisions := c, server := s.server.act (.rit r clock) }
  | applierEnds : Moves cfg s now .applierEnds none { s with now := now, positions := .close }
  | receiverEnds : Moves cfg s now .receiverEnds none { s with now := now, revisions := .close }
  | other {a : ServerAction} (h : a.isReceived = false) :
    Moves cfg s now (.other a) none { s with now := now, server := s.server.act a }

omit [Feed] [Gzip] [Platform] in
@[simp] theorem setTask_positions (s : Pipeline) (w : Which) (u : StreamTask) :
    (s.setTask w u).positions = s.positions := by
  cases w <;> rfl

omit [Feed] [Gzip] [Platform] in
@[simp] theorem setTask_revisions (s : Pipeline) (w : Which) (u : StreamTask) :
    (s.setTask w u).revisions = s.revisions := by
  cases w <;> rfl

omit [Feed] [Gzip] [Platform] in
@[simp] theorem setTask_server (s : Pipeline) (w : Which) (u : StreamTask) : (s.setTask w u).server = s.server := by
  cases w <;> rfl

omit [Feed] [Gzip] [Platform] in
theorem setTask_task (s : Pipeline) (w v : Which) (u : StreamTask) :
    (s.setTask w u).task v = if v = w then u else s.task v := by
  cases w <;> cases v <;> rfl

/-- What a task does in the pipeline it does by itself. -/
theorem act_task {a : StreamAct} {r : Pipeline × Option Handed} (h : act cfg s (.task w a) = some r) :
    ∃ x : StreamTask × Option StreamItem, (s.task w).step w cfg s.now a = some x ∧
      (a = .dropped → s.unheard (s.task w) = true) ∧
      (match x.2 with
        | none => some (s.setTask w x.1, none)
        | some item => ((s.setTask w x.1).send item).map fun s => (s, some (.sent item))) = some r := by
  simp only [act] at h
  split_ifs at h with hunheard
  obtain ⟨x, hx, h⟩ := Option.bind_eq_some_iff.mp h
  refine ⟨x, hx, fun hdropped => ?_, h⟩
  rw [hdropped] at hunheard
  simpa using hunheard

theorem moves_of_step {d : Did} (h : Step cfg s d t) : s.now ≤ d.at_ ∧ Moves cfg s d.at_ d.act d.handed t := by
  obtain ⟨now, a, handed⟩ := d
  rw [Step, step] at h
  split at h
  · refine ⟨‹_›, ?_⟩
    cases a with
    | task w a =>
      obtain ⟨⟨u, item⟩, hu, hdropped, h⟩ := act_task h
      cases item with
      | none =>
        cases h
        exact .quiet hu hdropped
      | some item =>
        obtain ⟨v, hv, heq⟩ := Option.map_eq_some_iff.mp h
        cases heq
        cases item with
        | inl ev =>
          obtain ⟨c, hc, rfl⟩ := Option.map_eq_some_iff.mp hv
          rw [setTask_positions] at hc
          exact .position hu hc
        | inr r =>
          obtain ⟨c, hc, rfl⟩ := Option.map_eq_some_iff.mp hv
          rw [setTask_revisions] at hc
          exact .revision hu hc
    | apply =>
      obtain ⟨⟨ev, c⟩, hc, h⟩ := Option.bind_eq_some_iff.mp h
      cases h
      exact .apply hc
    | revise clock =>
      obtain ⟨⟨r, c⟩, hc, h⟩ := Option.bind_eq_some_iff.mp h
      have hc : s.revisions.recv = some (r, c) := hc
      cases h
      exact Moves.revise (s := s) hc clock
    | applierEnds =>
      cases h
      exact .applierEnds
    | receiverEnds =>
      cases h
      exact .receiverEnds
    | other a =>
      simp only [act] at h
      split at h
      · cases h
      · rename_i hreceived
        cases h
        exact .other (by simpa using hreceived)
  · cases h

/-! ### Its parts -/

/-- What a task does in an action, as the task sees it. -/
def Did.ofTask (w : Which) (d : Did) : Option StreamTask.Did :=
  match d.act with
  | .task v a =>
    if v = w then
      some
        { at_ := d.at_
          act := a
          item :=
            match d.handed with
            | some (.sent item) => some item
            | _ => none }
    else none
  | _ => none

/-- What an action does to the channel of positions. -/
def Did.ofPositions (d : Did) : Option (ChannelOp PosEvent) :=
  match d.act, d.handed with
  | .task _ _, some (.sent (.inl ev)) => some (.send ev)
  | .apply, some (.applied ev) => some (.recv ev)
  | .applierEnds, _ => some .close
  | _, _ => none

/-- What an action does to the channel of revisions. -/
def Did.ofRevisions (d : Did) : Option (ChannelOp TrainUpdate) :=
  match d.act, d.handed with
  | .task _ _, some (.sent (.inr u)) => some (.send u)
  | .revise _, some (.revised u) => some (.recv u)
  | .receiverEnds, _ => some .close
  | _, _ => none

/-- What an action does to the stores. -/
def Did.ofServer (d : Did) : Option ServerAction :=
  match d.act, d.handed with
  | .apply, some (.applied ev) => some (.position ev)
  | .revise clock, some (.revised u) => some (.rit u clock)
  | .other a, _ => if a.isReceived then none else some a
  | _, _ => none

/-- What an action sends, and from which task. -/
def Did.sent (d : Did) : Option (Which × StreamItem) :=
  match d.act, d.handed with
  | .task w _, some (.sent item) => some (w, item)
  | _, _ => none

omit [Platform] in
/-- A step of a task is its own, and leaves the other alone. -/
theorem ofTask_spec {now : Nat} {v : Which} {a : StreamAct} {u : StreamTask} {item : Option StreamItem}
    (hu : (s.task v).step v cfg now a = some (u, item))
    (ht : ∀ w, t.task w = if w = v then u else s.task w) (w : Which) :
    Own (StreamTask.Step w cfg) (s.task w) (Did.ofTask w ⟨now, .task v a, item.map .sent⟩) (t.task w) := by
  by_cases hv : v = w
  · subst hv
    cases item <;> simpa [Did.ofTask, Own, StreamTask.Step, ht] using hu
  · simp [Did.ofTask, Own, hv, ht, Ne.symm hv]

/-- What a move is to a task: a step of it, or nothing. -/
theorem Moves.task {now : Nat} {a : PipelineAct} {handed : Option Handed} (h : Moves cfg s now a handed t) (w : Which) :
    Own (StreamTask.Step w cfg) (s.task w) (Did.ofTask w ⟨now, a, handed⟩) (t.task w) := by
  cases h with
  | quiet hu hdropped =>
    rename_i v a u
    exact ofTask_spec hu (fun w => setTask_task { s with now := now } v w u) w
  | position hu hc =>
    rename_i v a u ev c
    refine ofTask_spec hu (fun w => ?_) w
    cases v <;> cases w <;> rfl
  | revision hu hc =>
    rename_i v a u r c
    refine ofTask_spec hu (fun w => ?_) w
    cases v <;> cases w <;> rfl
  | _ => cases w <;> rfl

/-- What a move is to the channel of positions. -/
theorem Moves.positions {now : Nat} {a : PipelineAct} {handed : Option Handed} (h : Moves cfg s now a handed t) :
    Own Channel.Step s.positions (Did.ofPositions ⟨now, a, handed⟩) t.positions := by
  cases h with
  | position hu hc => exact hc
  | apply hc => exact hc
  | _ => first | rfl | exact setTask_positions _ _ _

/-- What a move is to the channel of revisions. -/
theorem Moves.revisions {now : Nat} {a : PipelineAct} {handed : Option Handed} (h : Moves cfg s now a handed t) :
    Own Channel.Step s.revisions (Did.ofRevisions ⟨now, a, handed⟩) t.revisions := by
  cases h with
  | revision hu hc => exact hc
  | revise hc clock => exact hc
  | _ => first | rfl | exact setTask_revisions _ _ _

/-- What a move is to the stores. -/
theorem Moves.server {now : Nat} {a : PipelineAct} {handed : Option Handed} (h : Moves cfg s now a handed t) :
    Own Server.Step s.server (Did.ofServer ⟨now, a, handed⟩) t.server := by
  cases h with
  | other ha => simp [Did.ofServer, Own, ha, Server.Step]
  | _ => first | rfl | exact setTask_server _ _ _

theorem run_task (h : Run (Step cfg) s ds t) (w : Which) :
    Run (StreamTask.Step w cfg) (s.task w) (ds.filterMap (Did.ofTask w)) (t.task w) :=
  h.project (fun s => s.task w) _ fun _ _ _ hd => (moves_of_step hd).2.task w

theorem run_positions (h : Run (Step cfg) s ds t) :
    Run Channel.Step s.positions (ds.filterMap Did.ofPositions) t.positions :=
  h.project Pipeline.positions _ fun _ _ _ hd => (moves_of_step hd).2.positions

theorem run_revisions (h : Run (Step cfg) s ds t) :
    Run Channel.Step s.revisions (ds.filterMap Did.ofRevisions) t.revisions :=
  h.project Pipeline.revisions _ fun _ _ _ hd => (moves_of_step hd).2.revisions

theorem run_server (h : Run (Step cfg) s ds t) : Run Server.Step s.server (ds.filterMap Did.ofServer) t.server :=
  h.project Pipeline.server _ fun _ _ _ hd => (moves_of_step hd).2.server

/-! ### What goes through -/

/-- What the messages of a task yield. -/
def arrived (w : Which) (cfg : StreamConfig) (ds : List Did) : List StreamItem :=
  StreamTask.arrived w cfg (ds.filterMap (Did.ofTask w))

end Pipeline

/-- The items that a task sent. -/
def Which.part (w : Which) (sent : List (Which × StreamItem)) : List StreamItem :=
  sent.filterMap fun x => if x.1 = w then some x.2 else none

def ServerAction.position? : ServerAction → Option PosEvent
  | .position ev => some ev
  | _ => none

def ServerAction.revision? : ServerAction → Option TrainUpdate
  | .rit u _ => some u
  | _ => none

/-- All of a list is handed on up to a rest, or a first part of it where the rest is lost. -/
def HandedOn {A : Type} (got all rest : List A) (lost : Prop) : Prop := got <+: all ∧ (¬lost → all = got ++ rest)

namespace Pipeline

variable [Platform] {s t : Pipeline} {ds : List Did}

omit [Feed] [Gzip] [Platform] in
theorem sent_ofTask (w : Which) (ds : List Did) :
    StreamTask.sent (ds.filterMap (Did.ofTask w)) = w.part (ds.filterMap Did.sent) := by
  rw [StreamTask.sent, Which.part, List.filterMap_filterMap, List.filterMap_filterMap]
  refine List.filterMap_congr fun d _ => ?_
  obtain ⟨now, a, handed⟩ := d
  cases a with
  | task v a =>
    by_cases hv : v = w <;> rcases handed with _ | (item | ev | u) <;> simp [Did.ofTask, Did.sent, hv]
  | _ => rfl

omit [Feed] [Gzip] [Platform] in
theorem sent_ofPositions (ds : List Did) :
    Channel.sent (ds.filterMap Did.ofPositions) = (ds.filterMap Did.sent).filterMap fun x => x.2.getLeft? := by
  rw [Channel.sent, List.filterMap_filterMap, List.filterMap_filterMap]
  refine List.filterMap_congr fun d _ => ?_
  obtain ⟨now, a, handed⟩ := d
  cases a <;> rcases handed with _ | ((ev | u) | ev | u) <;> rfl

omit [Feed] [Gzip] [Platform] in
theorem sent_ofRevisions (ds : List Did) :
    Channel.sent (ds.filterMap Did.ofRevisions) = (ds.filterMap Did.sent).filterMap fun x => x.2.getRight? := by
  rw [Channel.sent, List.filterMap_filterMap, List.filterMap_filterMap]
  refine List.filterMap_congr fun d _ => ?_
  obtain ⟨now, a, handed⟩ := d
  cases a <;> rcases handed with _ | ((ev | u) | ev | u) <;> rfl

omit [Feed] [Gzip] [Platform] in
theorem received_ofPositions (ds : List Did) :
    Channel.received (ds.filterMap Did.ofPositions) = (ds.filterMap Did.ofServer).filterMap ServerAction.position? := by
  rw [Channel.received, List.filterMap_filterMap, List.filterMap_filterMap]
  refine List.filterMap_congr fun d _ => ?_
  obtain ⟨now, a, handed⟩ := d
  cases a with
  | other a => cases a <;> rcases handed with _ | ((ev | u) | ev | u) <;> rfl
  | _ => rcases handed with _ | ((ev | u) | ev | u) <;> rfl

omit [Feed] [Gzip] [Platform] in
theorem received_ofRevisions (ds : List Did) :
    Channel.received (ds.filterMap Did.ofRevisions) = (ds.filterMap Did.ofServer).filterMap ServerAction.revision? := by
  rw [Channel.received, List.filterMap_filterMap, List.filterMap_filterMap]
  refine List.filterMap_congr fun d _ => ?_
  obtain ⟨now, a, handed⟩ := d
  cases a with
  | other a => cases a <;> rcases handed with _ | ((ev | u) | ev | u) <;> rfl
  | _ => rcases handed with _ | ((ev | u) | ev | u) <;> rfl

/-- A channel that was left stays so. -/
theorem Moves.closed {now : Nat} {a : PipelineAct} {handed : Option Handed} (h : Moves cfg s now a handed t) :
    (s.positions.closed = true → t.positions.closed = true) ∧
      (s.revisions.closed = true → t.revisions.closed = true) := by
  cases h with
  | quiet => exact ⟨fun h => by rwa [setTask_positions], fun h => by rwa [setTask_revisions]⟩
  | position hu hc => exact ⟨fun h => by simp [(Channel.send_items hc).1] at h, fun h => by simpa using h⟩
  | revision hu hc => exact ⟨fun h => by simpa using h, fun h => by simp [(Channel.send_items hc).1] at h⟩
  | apply hc => exact ⟨fun h => by simp [(Channel.recv_items hc).1] at h, id⟩
  | revise hc => exact ⟨id, fun h => by simp [(Channel.recv_items hc).1] at h⟩
  | applierEnds => exact ⟨fun _ => rfl, id⟩
  | receiverEnds => exact ⟨id, fun _ => rfl⟩
  | other => exact ⟨id, id⟩

omit [Feed] [Gzip] [Platform] in
theorem closed_of_unheard {u : StreamTask} (h : s.unheard u = true) :
    s.positions.closed = true ∨ s.revisions.closed = true := by
  rw [unheard] at h
  split at h
  · exact .inl h
  · exact .inr h
  · cases h

/-- A task that stopped had stopped, or was not heard. -/
theorem Moves.stopped {now : Nat} {a : PipelineAct} {handed : Option Handed} (h : Moves cfg s now a handed t) (w : Which)
    (hw : (t.task w).phase = .stopped) :
    (s.task w).phase = .stopped ∨ s.positions.closed = true ∨ s.revisions.closed = true := by
  have hown := h.task w
  cases hof : Did.ofTask w ⟨now, a, handed⟩ with
  | none =>
    rw [hof] at hown
    rw [show t.task w = s.task w from hown] at hw
    exact .inl hw
  | some d =>
    rw [hof] at hown
    have hdropped := (StreamTask.turns_of_step hown).stopped hw
    cases h with
    | quiet hu hunheard =>
      simp only [Did.ofTask] at hof
      split at hof
      · cases hof
        exact .inr (closed_of_unheard (hunheard hdropped.1))
      · cases hof
    | position hu =>
      simp only [Did.ofTask] at hof
      split at hof
      · cases hof
        cases hdropped.2
      · cases hof
    | revision hu =>
      simp only [Did.ofTask] at hof
      split at hof
      · cases hof
        cases hdropped.2
      · cases hof
    | _ => cases hof

/-- A task stops only where a receiver ended, or was never started. -/
def Heard (cfg : StreamConfig) (s : Pipeline) : Prop :=
  ∀ w, (s.task w).phase = .stopped →
    s.positions.closed = true ∨ s.revisions.closed = true ∨ w = .infoplus ∧ cfg.nsEnabled = false

theorem heard_of_run {server : Server} (h : Run (Step cfg) (start cfg server) ds t) : t.Heard cfg := by
  refine h.inv (fun s d t hd hs w hw => ?_) fun w hw => ?_
  · have hm := (moves_of_step hd).2
    rcases hm.stopped w hw with hw | hpos | hrev
    · rcases hs w hw with hpos | hrev | hinfo
      · exact .inl (hm.closed.1 hpos)
      · exact .inr (.inl (hm.closed.2 hrev))
      · exact .inr (.inr hinfo)
    · exact .inl (hm.closed.1 hpos)
    · exact .inr (.inl (hm.closed.2 hrev))
  · cases w with
    | stream => cases hw
    | infoplus =>
      refine .inr (.inr ⟨rfl, ?_⟩)
      simpa [start, Pipeline.task] using hw

/-- Every item that arrives is sent once, in the order of its stream, and
received once, in the order it was sent in, or is on its way; what the stores
hold comes of the items received and of what other tasks write. Nothing is
lost but where a receiver ends, and only then a task stops. -/
theorem delivered_of_run {server : Server} (h : Run (Step cfg) (start cfg server) ds t) :
    let sent := ds.filterMap Did.sent
    let acts := ds.filterMap Did.ofServer
    Run Server.Step server acts t.server ∧
    (∀ w, HandedOn (w.part sent) (arrived w cfg ds) (t.task w).pending ((t.task w).phase = .stopped)) ∧
    HandedOn (acts.filterMap ServerAction.position?) (sent.filterMap fun x => x.2.getLeft?) t.positions.items
      (t.positions.closed = true) ∧
    HandedOn (acts.filterMap ServerAction.revision?) (sent.filterMap fun x => x.2.getRight?) t.revisions.items
      (t.revisions.closed = true) ∧
    t.Heard cfg := by
  refine ⟨run_server h, fun w => ?_, ?_, ?_, heard_of_run h⟩
  · have hw := run_task h w
    have hpending : ((start cfg server).task w).pending = [] := by
      cases w with
      | stream => rfl
      | infoplus =>
        simp only [StreamTask.pending, Pipeline.task, start]
        split
        · rename_i hphase
          split_ifs at hphase
        · rfl
    have hledger := StreamTask.ledger hw
    have hfirst := StreamTask.sent_prefix hw
    rw [hpending, List.nil_append, sent_ofTask] at hledger hfirst
    exact ⟨hfirst, hledger⟩
  · have hledger := Channel.ledger (run_positions h)
    have hfirst := Channel.received_prefix (run_positions h)
    rw [sent_ofPositions, received_ofPositions] at hledger hfirst
    exact ⟨hfirst, fun hopen => hledger (by simpa using hopen)⟩
  · have hledger := Channel.ledger (run_revisions h)
    have hfirst := Channel.received_prefix (run_revisions h)
    rw [sent_ofRevisions, received_ofRevisions] at hledger hfirst
    exact ⟨hfirst, fun hopen => hledger (by simpa using hopen)⟩

/-- A message of two trains. -/
def trainsXml : String := "<TreinLocation><TreinNummer>6642</TreinNummer></TreinLocation>"

/-- What the packages make of it. -/
@[reducible] def trainsFeed : Feed where
  read xml :=
    let leaf (name val : String) : List XmlEvent := [.start name [], .text (some val), .end_ name]
    let train (number : String) : List XmlEvent :=
      [.start "TreinLocation" []] ++ leaf "TreinNummer" number ++ [.start "TreinMaterieelDelen" []] ++
        leaf "GpsDatumTijd" "1970-01-01T00:00:00Z" ++ leaf "Longitude" "5.1" ++ leaf "Latitude" "52.09" ++
        [.end_ "TreinMaterieelDelen", .end_ "TreinLocation"]
    if xml = trainsXml then train "6642" ++ train "3548" else []
  parseFromRfc3339 t := if t = "1970-01-01T00:00:00Z" then some 0 else none

@[reducible] def trainsGzip : Gzip where
  gunzip b := if b = [31, 139] then some trainsXml else none

def trainsFrames : List Bytes := [utf8 POSITIONS_ENVELOPE, [31, 139]]

def trainsConfig : StreamConfig where
  idleTimeoutSecs := 90
  maxFixAgeSecs := 180
  nsEnabled := true
  nsRitEnabled := false

omit [Feed] [Gzip] [Platform] in
theorem decode_trains :
    let _ := trainsFeed
    let _ := trainsGzip
    ∃ ev₁ ev₂, Which.infoplus.decode trainsConfig 0 trainsFrames = [.inl ev₁, .inl ev₂] := by
  intro _ _
  have hlength : (parseNsTreinposities trainsXml 0 trainsConfig.maxFixAge).length = 2 := by decide +kernel
  obtain ⟨ev₁, ev₂, hevs⟩ := List.length_eq_two.mp hlength
  refine ⟨ev₁, ev₂, ?_⟩
  have htopic : topicContains (utf8 POSITIONS_ENVELOPE) POSITIONS_ENVELOPE = true := by decide +kernel
  have hgunzip : Gzip.gunzip ([[31, 139]] : List Bytes).flatten = some trainsXml := if_pos rfl
  simp only [Which.decode, trainsFrames, StreamConfig.dispatch, hgunzip, htopic, if_true, hevs]
  rfl

omit [Feed] [Gzip] [Platform] in
/-- Of the two trains one is applied, and one is in the channel. -/
theorem delivered_of_run_trains :
    let _ := trainsFeed
    let _ := trainsGzip
    let _ := plainPlatform
    ∃ (ds : List Did) (t : Pipeline), Run (Step trainsConfig) (start trainsConfig (Server.start 240 none {})) ds t ∧
      t.positions.items.length = 1 ∧
      let sent := ds.filterMap Did.sent
      let acts := ds.filterMap Did.ofServer
      Run Server.Step (Server.start 240 none {}) acts t.server ∧
      (∀ w, HandedOn (w.part sent) (arrived w trainsConfig ds) (t.task w).pending ((t.task w).phase = .stopped)) ∧
      HandedOn (acts.filterMap ServerAction.position?) (sent.filterMap fun x => x.2.getLeft?) t.positions.items
        (t.positions.closed = true) ∧
      HandedOn (acts.filterMap ServerAction.revision?) (sent.filterMap fun x => x.2.getRight?) t.revisions.items
        (t.revisions.closed = true) ∧
      t.Heard trainsConfig := by
  intro _ _ _
  obtain ⟨ev₁, ev₂, hevs⟩ := decode_trains
  let s₀ := start trainsConfig (Server.start 240 none {})
  let s₁ := s₀.setTask .infoplus ⟨.receiving 0, 1⟩
  let s₂ := s₀.setTask .infoplus ⟨.sending (.inl ev₁) [.inl ev₂], 1⟩
  have h₁ : Step trainsConfig s₀ ⟨0, .task .infoplus .connected, none⟩ s₁ := rfl
  have h₂ : Step trainsConfig s₁ ⟨0, .task .infoplus (.message 0 trainsFrames), none⟩ s₂ := by
    show some (s₀.setTask .infoplus ⟨.after 0 (Which.infoplus.decode trainsConfig 0 trainsFrames), 1⟩, none) =
      some (s₂, none)
    rw [hevs]
    rfl
  have h := ((((Run.nil (s := s₀)).snoc h₁).snoc h₂).snoc
    (show Step trainsConfig s₂ ⟨0, .task .infoplus .send, some (.sent (.inl ev₁))⟩ _ from rfl)).snoc
    (show Step trainsConfig _ ⟨0, .task .infoplus .send, some (.sent (.inl ev₂))⟩ _ from rfl)
  have h' := h.snoc (show Step trainsConfig _ ⟨0, .apply, some (.applied ev₁)⟩ _ from rfl)
  exact ⟨_, _, h', rfl, delivered_of_run h'⟩

end Pipeline

end OV.Impl
