import Ovlive.Framework.Lists
import Ovlive.Proof.Core.Told

/-!
# A trip is its event history

What `LiveState` stores for a vehicle, after any run, is what the vehicle's own
messages since its trip's start tell, and nothing is stored exactly when the
trip is over. `TripSince` says where the trip starts in a log of the whole
system and what it is; `TripSince.start`, `TripSince.message` and
`TripSince.other` are its step lemmas, `Gone` says when there is no trip, and
`LiveState.trip_is_history` puts them together.
-/

namespace OV.Impl

/-! ## One event on one trip -/

section

variable [Platform]

/-- Whether an event starts a trip, by the trip stored before it: an INIT, the
first message of an absent vehicle, or one with another journey number. -/
def startsTrip (o : Option LiveTrip) (e : PosEvent) : Bool :=
  e.kind ≠ .end_ && (e.kind = .init || o.isNone || o.any fun t => newJourney t e)

/-- The trip an event is applied to. -/
def baseTrip (o : Option LiveTrip) (e : PosEvent) : LiveTrip :=
  if startsTrip o e then { LiveTrip.new e.key e.timestamp with hasInit := e.kind = .init }
  else o.getD (LiveTrip.new e.key e.timestamp)

/-- The trip the enricher is asked to place after an event. -/
def askedTrip (delays : Option TrainDelays) (en : Enricher) (o : Option LiveTrip) (e : PosEvent) : LiveTrip :=
  let trip := applyTrainDelay delays (applyFields (markStop (baseTrip o e) e) e)
  if e.kind = .init || trip.linePublicNumber.isNone then en.enrich trip else trip

variable {en : Enricher} {delays : Option TrainDelays} {o : Option LiveTrip} {e : PosEvent}

/-- Whatever its kind, a message that does not end the trip has its fields
applied to one trip, which the schedule may then place. -/
theorem eventTrip_eq (h : e.kind ≠ .end_) :
    LiveState.eventTrip delays en e o = some (anchorToSchedule (askedTrip delays en o e) e en) := by
  by_cases hi : e.kind = .init
  · rw [LiveState.eventTrip_init hi, LiveState.initTrip]
    simp only [askedTrip, baseTrip, startsTrip, markStop, hi]
    rfl
  have hb : (if newJourney (o.getD (LiveTrip.new e.key e.timestamp)) e then LiveTrip.new e.key e.timestamp
      else o.getD (LiveTrip.new e.key e.timestamp)) = baseTrip o e := by
    cases o with
    | none =>
      rw [Option.getD_none, ite_self]
      simp [baseTrip, startsTrip, hi, h, LiveTrip.new]
    | some t => simp [baseTrip, startsTrip, hi, h, LiveTrip.new]
  rw [LiveState.eventTrip_update hi h, LiveState.updateTrip]
  simp only [hb, askedTrip, hi, decide_false, Bool.false_or]

/-- A message that leaves a trip does not end it. -/
theorem eventTrip_of_some {t : LiveTrip} (h : LiveState.eventTrip delays en e o = some t) :
    e.kind ≠ .end_ ∧ t = anchorToSchedule (askedTrip delays en o e) e en := by
  have hk : e.kind ≠ .end_ := by
    intro hk
    rw [LiveState.eventTrip_end hk] at h
    cases h
  rw [eventTrip_eq hk, Option.some.injEq] at h
  exact ⟨hk, h.symm⟩

theorem askedTrip_key (delays : Option TrainDelays) (en : Enricher) (o : Option LiveTrip) (e : PosEvent) :
    (askedTrip delays en o e).key = (baseTrip o e).key := by
  simp only [askedTrip]
  split
  · rw [en.enrich_key, applyTrainDelay_key, applyFields_key, markStop_key]
  · rw [applyTrainDelay_key, applyFields_key, markStop_key]

/-- For a vehicle that is no train, only its events count. -/
theorem askedTrip_reading (delays : Option TrainDelays) (en : Enricher) (h : (baseTrip o e).key.dataowner ≠ TRAIN_DATAOWNER) :
    (askedTrip delays en o e).reading = (applyFields (markStop (baseTrip o e) e) e).reading := by
  have hk : (applyFields (markStop (baseTrip o e) e) e).key.dataowner ≠ TRAIN_DATAOWNER := by
    rwa [applyFields_key, markStop_key]
  simp only [askedTrip, applyTrainDelay_of_ne hk]
  split
  · exact en.enrich_reading _ hk
  · rfl

/-- What one event does to what a log tells: if `log` tells what the trip is
that the event is applied to, `log` and the event tell what is stored. -/
theorem eventTrip_told (log : List (PosEvent × LiveTrip)) (init : Bool) {t : LiveTrip} (h : e.kind ≠ .end_)
    (hown : (baseTrip o e).key.dataowner ≠ TRAIN_DATAOWNER)
    (ht : LiveState.eventTrip delays en e o = some t) (htold : Told init (log.map Prod.fst) (baseTrip o e).reading)
    (hplace : (((baseTrip o e).lat, (baseTrip o e).lon), (baseTrip o e).schedulePositioned) = place en log) :
    Told init (log.map Prod.fst ++ [e]) (askedTrip delays en o e).reading ∧
      Told init (log.map Prod.fst ++ [e]) t.reading ∧
      ((t.lat, t.lon), t.schedulePositioned) = place en (log ++ [(e, askedTrip delays en o e)]) := by
  have hr := askedTrip_reading delays en hown
  rw [eventTrip_eq h, Option.some.injEq] at ht
  subst ht
  have hasked : Told init (log.map Prod.fst ++ [e]) (askedTrip delays en o e).reading := by
    rw [hr]
    exact htold.apply e
  refine ⟨hasked, ?_, anchorToSchedule_place hplace hr⟩
  rw [anchorToSchedule_reading]
  exact hasked.move _ _ _

end

/-! ## The trip in a log of the whole system -/

section

variable [Platform]

/-- The messages of a vehicle. -/
def messages (v : String) (as : List LiveAction) : List PosEvent :=
  as.filterMap fun a =>
    match a with
    | .event e => if e.key.id = v then some e else none
    | _ => none

/-- The state after a list of actions. -/
def LiveState.after (en : Enricher) (s : LiveState) (as : List LiveAction) : LiveState := as.foldl (LiveState.act en) s

/-- The messages of a vehicle, each with the trip the enricher was asked to place. -/
def visits (en : Enricher) (v : String) : LiveState → List LiveAction → List (PosEvent × LiveTrip)
  | _, [] => []
  | s, .event e :: as =>
    (if e.key.id = v then [(e, askedTrip s.trainDelays en (s.trips.lookup v) e)] else []) ++
      visits en v (s.act en (.event e)) as
  | s, a :: as => visits en v (s.act en a) as

/-- What takes a vehicle's trip away after the log `pre`: its END, or a sweep
once its last message is too old. -/
def Removes (stale : Int) (v : String) (pre : List LiveAction) : LiveAction → Prop
  | .event e => e.key.id = v ∧ e.kind = .end_
  | .prune now => ∃ e, (messages v pre).getLast? = some e ∧ e.timestamp < now - stale
  | .delays _ => False

/-- A vehicle has no trip: it never sent anything, or its trip was taken away
and it has been silent since. -/
def Gone (stale : Int) (v : String) (as : List LiveAction) : Prop :=
  messages v as = [] ∨ ∃ pre a post, as = pre ++ a :: post ∧ Removes stale v pre a ∧ messages v post = []

/-- The trip stored for a vehicle after the log `pre`, the message `e` and the
log `post`, where `e` starts the trip and no later message does. -/
structure TripSince (en : Enricher) (s : LiveState) (v : String) (pre : List LiveAction) (e : PosEvent)
    (post : List LiveAction) (t : LiveTrip) : Prop where
  sent : e.key.id = v
  starts : startsTrip ((s.after en pre).trips.lookup v) e = true
  latest : ∀ p b q, post = p ++ .event b :: q → b.key.id = v →
    startsTrip ((s.after en (pre ++ .event e :: p)).trips.lookup v) b = false
  told : Told (e.kind = .init) (messages v (.event e :: post)) t.reading
  placed : ((t.lat, t.lon), t.schedulePositioned) = place en (visits en v (s.after en pre) (.event e :: post))
  asked : ∀ l x l', visits en v (s.after en pre) (.event e :: post) = l ++ x :: l' →
    Told (e.kind = .init) (l.map Prod.fst ++ [x.1]) x.2.reading

variable {en : Enricher} {s : LiveState} {v : String} {pre post as bs : List LiveAction} {e b : PosEvent} {t : LiveTrip}
  {a : LiveAction} {u : LiveState}

omit [Platform] in
theorem messages_append (v : String) (as bs : List LiveAction) : messages v (as ++ bs) = messages v as ++ messages v bs :=
  List.filterMap_append

omit [Platform] in
theorem messages_event (h : e.key.id = v) : messages v [.event e] = [e] := by
  simp [messages, h]

omit [Platform] in
theorem id_ne_of_messages (h : messages v [.event e] = []) : e.key.id ≠ v := by
  intro hv
  rw [messages_event hv] at h
  cases h

theorem after_snoc (as : List LiveAction) (a : LiveAction) : s.after en (as ++ [a]) = (s.after en as).act en a := by
  simp only [LiveState.after, List.foldl_append, List.foldl_cons, List.foldl_nil]

theorem visits_append (as bs : List LiveAction) :
    visits en v s (as ++ bs) = visits en v s as ++ visits en v (s.after en as) bs := by
  induction as generalizing s with
  | nil => rfl
  | cons a as ih =>
    cases a with
    | event e => simp only [List.cons_append, visits, ih, List.append_assoc]; rfl
    | prune now => exact ih
    | delays d => exact ih

/-- The visits of a vehicle are its messages. -/
theorem visits_fst (as : List LiveAction) : (visits en v s as).map Prod.fst = messages v as := by
  induction as generalizing s with
  | nil => rfl
  | cons a as ih =>
    cases a with
    | event e =>
      have hc : messages v (.event e :: as) = messages v [.event e] ++ messages v as := messages_append v [.event e] as
      rw [visits, List.map_append, ih, hc]
      by_cases h : e.key.id = v <;> simp [messages, h]
    | prune now => exact ih
    | delays d => exact ih

/-- An action that is no message of the vehicle adds nothing to its messages. -/
theorem visits_other (h : messages v [a] = []) (s : LiveState) : visits en v s [a] = [] := by
  rw [← List.map_eq_nil_iff, visits_fst, h]

theorem visits_event (h : e.key.id = v) (s : LiveState) :
    visits en v s [.event e] = [(e, askedTrip s.trainDelays en (s.trips.lookup v) e)] := by
  simp only [visits, h, if_true, List.append_nil]

/-! ## One action, one vehicle -/

/-- An action that is no message of the vehicle keeps its trip, or sweeps it. -/
theorem lookup_act_other (h : messages v [a] = []) :
    ((s.act en a).trips.lookup v) = (s.trips.lookup v).filter fun t =>
      match a with
      | .prune now => now - s.staleAfter ≤ t.lastUpdate
      | _ => true := by
  cases a with
  | event e =>
    simp only [LiveState.act, LiveState.lookup_apply, if_neg (id_ne_of_messages h).symm]
    cases s.trips.lookup v <;> rfl
  | prune now => exact LiveState.lookup_pruneStale s now v
  | delays d =>
    simp only [LiveState.act, LiveState.withTrainDelays]
    cases s.trips.lookup v <;> rfl

theorem lookup_act_event (h : e.key.id = v) :
    ((s.act en (.event e)).trips.lookup v) = LiveState.eventTrip s.trainDelays en e (s.trips.lookup v) := by
  simp only [LiveState.act, LiveState.lookup_apply, h, if_true]

omit [Platform] in
theorem exists_event_of_messages (h : messages v [a] ≠ []) : ∃ b, a = .event b ∧ b.key.id = v := by
  cases a with
  | event b =>
    refine ⟨b, rfl, ?_⟩
    by_contra hne
    simp [messages, hne] at h
  | prune now => exact absurd rfl h
  | delays d => exact absurd rfl h

/-- A message that leaves a trip is no END, and leaves it the key of the trip it
is applied to. -/
theorem lookup_act_key (h : e.key.id = v) (ht : (s.act en (.event e)).trips.lookup v = some t) :
    e.kind ≠ .end_ ∧ t.key = (baseTrip (s.trips.lookup v) e).key := by
  rw [lookup_act_event h] at ht
  obtain ⟨hk, rfl⟩ := eventTrip_of_some ht
  refine ⟨hk, ?_⟩
  rw [anchorToSchedule_key, askedTrip_key]

/-- A message that starts a trip is the start of what it leaves. -/
theorem TripSince.start (h : e.key.id = v) (hown : e.key.dataowner ≠ TRAIN_DATAOWNER)
    (hs : startsTrip ((s.after en pre).trips.lookup v) e = true)
    (ht : ((s.after en (pre ++ [.event e])).trips.lookup v) = some t) : TripSince en s v pre e [] t := by
  have hk : e.kind ≠ .end_ := by
    rintro hk
    simp [startsTrip, hk] at hs
  have hb : baseTrip ((s.after en pre).trips.lookup v) e =
      { LiveTrip.new e.key e.timestamp with hasInit := e.kind = .init } := by
    rw [baseTrip, if_pos hs]
  rw [after_snoc, lookup_act_event h] at ht
  obtain ⟨h1, h2, h3⟩ := eventTrip_told [] (e.kind = .init) hk (by rw [hb]; exact hown) ht
    (by rw [hb]; exact told_new _ _ _) (by rw [hb]; rfl)
  refine ⟨h, hs, ?_, ?_, ?_, ?_⟩
  · intro p b q hp
    simp at hp
  · rwa [messages_event h]
  · rwa [visits_event h]
  · intro l x l' hl
    rw [visits_event h, List.singleton_eq_append_iff] at hl
    rcases hl with ⟨rfl, hl⟩ | ⟨rfl, hl⟩
    · cases hl
      exact h1
    · cases hl

/-- The messages of a trip go on with one that starts no other. -/
theorem TripSince.message (H : TripSince en s v pre e post t) (h : b.key.id = v)
    (hown : t.key.dataowner ≠ TRAIN_DATAOWNER) (hk : b.kind ≠ .end_)
    (hl : ((s.after en (pre ++ .event e :: post)).trips.lookup v) = some t) (hs : startsTrip (some t) b = false)
    {u : LiveTrip} (hu : ((s.after en (pre ++ .event e :: (post ++ [.event b]))).trips.lookup v) = some u) :
    TripSince en s v pre e (post ++ [.event b]) u := by
  have hb : baseTrip (some t) b = t := by simp [baseTrip, hs]
  have happ : pre ++ .event e :: (post ++ [.event b]) = (pre ++ .event e :: post) ++ [.event b] := by simp
  have hafter : (s.after en pre).after en (.event e :: post) = s.after en (pre ++ .event e :: post) := by
    simp only [LiveState.after, List.foldl_append]
  rw [happ, after_snoc, lookup_act_event h, hl] at hu
  have hv : visits en v (s.after en pre) (.event e :: (post ++ [.event b])) =
      visits en v (s.after en pre) (.event e :: post) ++
        [(b, askedTrip (s.after en (pre ++ .event e :: post)).trainDelays en (some t) b)] := by
    rw [← List.cons_append, visits_append, visits_event h, hafter, hl]
  obtain ⟨h1, h2, h3⟩ := eventTrip_told (visits en v (s.after en pre) (.event e :: post)) (e.kind = .init) hk
    (by rw [hb]; exact hown) hu (by rw [hb, visits_fst]; exact H.told) (by rw [hb]; exact H.placed)
  rw [visits_fst] at h1 h2
  refine ⟨H.sent, H.starts, ?_, ?_, ?_, ?_⟩
  · intro p c q hp hc
    rcases snoc_eq_append_cons hp with ⟨rfl, hcb, -⟩ | ⟨q', -, hq'⟩
    · cases hcb
      rwa [hl]
    · exact H.latest p c q' hq' hc
  · rw [← List.cons_append, messages_append, messages_event h]
    exact h2
  · rw [hv]
    exact h3
  · intro l x l' hx
    rw [hv] at hx
    rcases snoc_eq_append_cons hx with ⟨rfl, rfl, -⟩ | ⟨l'', -, hl''⟩
    · rwa [visits_fst]
    · exact H.asked l x l'' hl''

/-- Whatever is no message of the vehicle leaves its trip's history as it was. -/
theorem TripSince.other (H : TripSince en s v pre e post t) (h : messages v [a] = []) :
    TripSince en s v pre e (post ++ [a]) t := by
  have hown : messages v (.event e :: (post ++ [a])) = messages v (.event e :: post) := by
    rw [← List.cons_append, messages_append, h, List.append_nil]
  have hvis : visits en v (s.after en pre) (.event e :: (post ++ [a])) =
      visits en v (s.after en pre) (.event e :: post) := by
    rw [← List.cons_append, visits_append, visits_other h, List.append_nil]
  refine ⟨H.sent, H.starts, ?_, ?_, ?_, ?_⟩
  · intro p c q hp hc
    rcases snoc_eq_append_cons hp with ⟨-, rfl, -⟩ | ⟨q', -, hq'⟩
    · rw [messages_event hc] at h
      cases h
    · exact H.latest p c q' hq' hc
  · rw [hown]
    exact H.told
  · rw [hvis]
    exact H.placed
  · rw [hvis]
    exact H.asked

/-- What a trip's history says of its last update. -/
theorem TripSince.lastUpdate (H : TripSince en s v pre e post t) :
    ∃ b, (messages v (pre ++ .event e :: post)).getLast? = some b ∧ t.lastUpdate = b.timestamp := by
  have hc : messages v (.event e :: post) = e :: messages v post := by
    rw [← List.singleton_append, messages_append, messages_event H.sent, List.singleton_append]
  obtain ⟨b, hb⟩ : ∃ b, (messages v (.event e :: post)).getLast? = some b := by
    rw [hc, List.getLast?_cons]
    exact ⟨_, rfl⟩
  refine ⟨b, ?_, H.told.lastUpdate b hb⟩
  rw [messages_append, List.getLast?_append, hb, Option.some_or]

/-- Every trip stored has a history, and is no train's. -/
theorem tripSince_of_lookup (h0 : s.trips.lookup v = none) (hv : ∀ e ∈ messages v as, e.key.dataowner ≠ TRAIN_DATAOWNER)
    (ht : (s.after en as).trips.lookup v = some t) :
    t.key.dataowner ≠ TRAIN_DATAOWNER ∧ ∃ pre e post, as = pre ++ .event e :: post ∧ TripSince en s v pre e post t := by
  induction as using List.reverseRecOn generalizing t with
  | nil =>
    rw [LiveState.after, List.foldl_nil, h0] at ht
    cases ht
  | append_singleton as a ih =>
    rw [messages_append] at hv
    have hpre : ∀ e ∈ messages v as, e.key.dataowner ≠ TRAIN_DATAOWNER := fun e he => hv e (List.mem_append_left _ he)
    by_cases ha : messages v [a] = []
    · -- another vehicle's message, a sweep the trip survives, or new delay curves
      rw [after_snoc, lookup_act_other ha, Option.filter_eq_some_iff] at ht
      obtain ⟨hk, pre, e, post, rfl, H⟩ := ih hpre ht.1
      exact ⟨hk, pre, e, post ++ [a], by simp, H.other ha⟩
    · obtain ⟨b, rfl, hb⟩ := exists_event_of_messages ha
      have hown : b.key.dataowner ≠ TRAIN_DATAOWNER := hv b (by simp [messages_event hb])
      obtain ⟨hk, hkey⟩ := lookup_act_key hb (after_snoc (s := s) as (.event b) ▸ ht)
      cases hs : startsTrip ((s.after en as).trips.lookup v) b with
      | true =>
        rw [baseTrip, if_pos hs] at hkey
        exact ⟨by rw [hkey]; exact hown, as, b, [], rfl, .start hb hown hs ht⟩
      | false =>
        obtain ⟨u, hu⟩ : ∃ u, (s.after en as).trips.lookup v = some u := by
          cases hu : (s.after en as).trips.lookup v with
          | none => simp [startsTrip, hu, hk] at hs
          | some u => exact ⟨u, rfl⟩
        rw [hu] at hkey hs
        obtain ⟨huk, pre, e, post, rfl, H⟩ := ih hpre hu
        have hbase : baseTrip (some u) b = u := by simp [baseTrip, hs]
        rw [hbase] at hkey
        rw [List.append_assoc, List.cons_append] at ht
        exact ⟨by rw [hkey]; exact huk, pre, e, post ++ [.event b], by simp, H.message hb huk hk hu hs ht⟩

/-! ## When a vehicle has no trip -/

omit [Platform] in
/-- After one more action a vehicle has no trip if that action takes it away,
or is no message of a vehicle that has none. -/
theorem gone_snoc {stale : Int} :
    Gone stale v (as ++ [a]) ↔ Removes stale v as a ∨ messages v [a] = [] ∧ Gone stale v as := by
  constructor
  · rintro (h | ⟨pre, b, post, hp, hr, hs⟩)
    · rw [messages_append, List.append_eq_nil_iff] at h
      exact .inr ⟨h.2, .inl h.1⟩
    · rcases snoc_eq_append_cons hp with ⟨rfl, rfl, -⟩ | ⟨post', rfl, hp'⟩
      · exact .inl hr
      · rw [messages_append, List.append_eq_nil_iff] at hs
        exact .inr ⟨hs.2, .inr ⟨pre, b, post', hp', hr, hs.1⟩⟩
  · rintro (h | ⟨ha, h | ⟨pre, b, post, rfl, hr, hs⟩⟩)
    · exact .inr ⟨as, a, [], rfl, h, rfl⟩
    · exact .inl (by rw [messages_append, h, ha, List.append_nil])
    · exact .inr ⟨pre, b, post ++ [a], by simp, hr, by rw [messages_append, hs, ha, List.append_nil]⟩

theorem after_staleAfter (as : List LiveAction) : (s.after en as).staleAfter = s.staleAfter := by
  induction as using List.reverseRecOn with
  | nil => rfl
  | append_singleton as a ih => rw [after_snoc, LiveState.act_staleAfter, ih]

/-- A sweep takes a vehicle's trip away when its last message is too old. -/
theorem removes_prune_iff (h0 : s.trips.lookup v = none) (hv : ∀ e ∈ messages v as, e.key.dataowner ≠ TRAIN_DATAOWNER)
    (ht : (s.after en as).trips.lookup v = some t) (now : Instant) :
    Removes s.staleAfter v as (.prune now) ↔ t.lastUpdate < now - s.staleAfter := by
  obtain ⟨-, pre, e, post, rfl, H⟩ := tripSince_of_lookup h0 hv ht
  obtain ⟨b, hb, hlast⟩ := H.lastUpdate
  simp only [Removes, hb, hlast, Option.some.injEq]
  constructor
  · rintro ⟨c, rfl, hc⟩
    exact hc
  · intro h
    exact ⟨b, rfl, h⟩

/-- A vehicle has no trip exactly when the log says so. -/
theorem lookup_eq_none_iff (h0 : s.trips.lookup v = none) (hv : ∀ e ∈ messages v as, e.key.dataowner ≠ TRAIN_DATAOWNER) :
    (s.after en as).trips.lookup v = none ↔ Gone s.staleAfter v as := by
  induction as using List.reverseRecOn with
  | nil => exact ⟨fun _ => .inl rfl, fun _ => h0⟩
  | append_singleton as a ih =>
    have hpre : ∀ e ∈ messages v as, e.key.dataowner ≠ TRAIN_DATAOWNER := by
      intro e he
      apply hv e
      rw [messages_append]
      exact List.mem_append_left _ he
    rw [gone_snoc, ← ih hpre, after_snoc]
    cases a with
    | event b =>
      by_cases hb : b.key.id = v
      · have hne : messages v [.event b] ≠ [] := by simp [messages_event hb]
        rw [lookup_act_event hb]
        by_cases hk : b.kind = .end_
        · simp [LiveState.eventTrip_end hk, Removes, hb, hk]
        · simp [eventTrip_eq hk, Removes, hk, hne]
      · have ha : messages v [.event b] = [] := by simp [messages, hb]
        rw [lookup_act_other ha]
        cases (s.after en as).trips.lookup v <;> simp [Removes, hb, ha, Option.filter]
    | prune now =>
      have ha : messages v [.prune now] = [] := rfl
      rw [lookup_act_other ha, after_staleAfter]
      cases ht : (s.after en as).trips.lookup v with
      | none => simp [ha]
      | some t =>
        rw [removes_prune_iff h0 hpre ht]
        simp only [Option.filter_eq_none_iff, Option.some.injEq, forall_eq', decide_eq_true_eq, not_le, ha,
          reduceCtorEq, and_false, or_false]
    | delays d =>
      have ha : messages v [.delays d] = [] := rfl
      rw [lookup_act_other ha]
      cases (s.after en as).trips.lookup v <;> simp [Removes, ha, Option.filter]

theorem after_of_run (h : Run (LiveState.Step en) s as u) : u = s.after en as := by
  induction h with
  | nil => rfl
  | snoc _ hr ih => rw [after_snoc, ← ih]; exact hr.symm

theorem run_after (as : List LiveAction) : Run (LiveState.Step en) s as (s.after en as) := by
  induction as using List.reverseRecOn with
  | nil => exact .nil
  | append_singleton as a ih => exact ih.snoc (after_snoc as a).symm

/-- In every reachable state a vehicle that is no train is absent exactly when
its log says it is gone, and otherwise its trip is what its own messages since
the trip's start tell. -/
theorem LiveState.trip_is_history (en : Enricher) (stale : Int) (v : String) (as : List LiveAction) (s : LiveState)
    (hrun : Run (LiveState.Step en) (LiveState.new stale) as s)
    (hv : ∀ e ∈ messages v as, e.key.dataowner ≠ TRAIN_DATAOWNER) :
    (s.trips.lookup v = none ↔ Gone (stale * nanos) v as) ∧
      ∀ t, s.trips.lookup v = some t →
        ∃ pre e post, as = pre ++ .event e :: post ∧ TripSince en (LiveState.new stale) v pre e post t := by
  have h0 : (LiveState.new stale).trips.lookup v = none := AList.lookup_empty v
  obtain rfl := after_of_run hrun
  exact ⟨lookup_eq_none_iff h0 hv, fun t ht => (tripSince_of_lookup h0 hv ht).2⟩

/-- A metro without a fix, while a bus comes and goes. -/
def metroLog : List LiveAction :=
  let metro : VehicleKey := { dataowner := "RET", vehicleNumber := "1" }
  let bus : VehicleKey := { dataowner := "RET", vehicleNumber := "2" }
  [.event { key := metro, kind := .init, journeyNumber := some "7", timestamp := 0 },
    .event { key := bus, kind := .init, timestamp := 1 },
    .event { key := metro, kind := .arrival, punctuality := some 30, userStopCode := some "s", timestamp := 2 },
    .event { key := bus, kind := .end_, timestamp := 3 },
    .prune 4]

/-- A timetable that names the station at which a trip with a delay is. -/
def stationEnricher : Enricher :=
  { NoEnricher with scheduledPosition := fun t => if t.delaySeconds = 0 then none else some (.fin 52, .fin 4.5) }

omit [Platform] in
/-- The metro is placed by its schedule, at the station it arrived at. -/
theorem LiveState.trip_is_history_metro :
    let _ := plainPlatform
    ∃ t, ((LiveState.new 600).after stationEnricher metroLog).trips.lookup "RET:1" = some t ∧
      (t.atStop = true ∧ t.schedulePositioned = true ∧ t.lat = .fin 52 ∧ t.lon = .fin 4.5) ∧
      ∃ pre e post, metroLog = pre ++ .event e :: post ∧
        TripSince stationEnricher (LiveState.new 600) "RET:1" pre e post t := by
  intro _
  obtain ⟨t, ht⟩ := Option.isSome_iff_exists.mp
    (show (((LiveState.new 600).after stationEnricher metroLog).trips.lookup "RET:1").isSome by decide +kernel)
  have hplaced : (((LiveState.new 600).after stationEnricher metroLog).trips.lookup "RET:1").any fun t =>
      t.atStop = true ∧ t.schedulePositioned = true ∧ t.lat = .fin 52 ∧ t.lon = .fin 4.5 := by
    decide +kernel
  rw [ht] at hplaced
  exact ⟨t, ht, of_decide_eq_true hplaced, (LiveState.trip_is_history stationEnricher 600 "RET:1" metroLog _
    (run_after metroLog) (by decide +kernel)).2 t ht⟩

end

end OV.Impl
