import Ovlive.Proof.Api.Handlers

/-!
# What the limits bound

A limiter for addresses or for accounts is a bucket for each of them, and a
run uses such a bucket as a bucket is used: charges and sweeps, at times that
do not decrease (`admitted_eq`). So from the start of a process the passwords
verified for an address (`verified_bounded`) and the requests served for an
account, through whichever of its keys (`served_bounded`), keep to the quota.
-/

namespace OV.Impl

/-- What a limiter is keyed by: an address, or an account. -/
abbrev Payer := IpAddr ⊕ Uuid

/-- What an operation charges. -/
def AccountOp.payer : AccountOp → Option Payer
  | .checkIp ip => some (.inl ip)
  | .checkUser id => some (.inr id)
  | _ => none

/-- A charge that was let through. -/
def Passed (c : Payer) : AccountEvent → Bool
  | ⟨.checkIp ip, x⟩ => x && c = .inl ip
  | ⟨.checkUser id, x⟩ => x && c = .inr id
  | _ => false

section

variable [Governor]

namespace Keyed

variable {K : Type} [DecidableEq K] (m : Keyed K) (k : K) (now : Nat)

theorem state_checkKey (j : K) :
    (m.checkKey k now).2.state j = if j = k then (m.bucket.charge (m.state k) now).2 else m.state j := by
  rw [state, checkKey]
  by_cases h : j = k
  · rw [if_pos h, h, AList.lookup_insert, Option.getD_some]
  · rw [if_neg h, AList.lookup_insert_ne h]
    rfl

/-- A sweep drops a bucket as a bucket is dropped. -/
theorem state_retainRecent : (m.retainRecent now).state k = m.bucket.step (m.state k) (.prune now) := by
  rw [state, retainRecent, Map.lookup_retain, Bucket.step, state]
  cases m.states.lookup k with
  | none =>
    rw [Option.filter_none, Option.getD_none, Option.getD_none, ite_self]
    rfl
  | some s =>
    by_cases h : m.bucket.recent s now = true
    · simp [Option.filter_some, h]
    · simp [Option.filter_some, h]
      rfl

end Keyed

namespace RateLimits

/-- The bucket and the state of an address or an account. -/
def bucket (m : RateLimits) : Payer → Bucket Governor.State
  | .inl _ => m.perIp.bucket
  | .inr _ => m.perUser.bucket

def state (m : RateLimits) : Payer → Governor.State
  | .inl ip => m.perIp.state ip
  | .inr id => m.perUser.state id

end RateLimits

end

namespace Accounts

open Service

section

variable [Crypto] [Governor]

theorem exec_now (a : Accounts) (l : Luck) (o : AccountOp) : (exec l o a).2.now = a.now := by
  cases o <;> first | rfl | (simp only [exec, write]; split <;> rfl)

theorem exec_bucket (a : Accounts) (l : Luck) (o : AccountOp) (c : Payer) :
    (exec l o a).2.limits.bucket c = a.limits.bucket c := by
  cases c <;> cases o <;> first | rfl | (simp only [exec, write]; split <;> rfl)

/-- An operation charges its bucket, and leaves the others. -/
theorem exec_state (a : Accounts) (l : Luck) (o : AccountOp) (c : Payer) :
    (exec l o a).2.limits.state c =
      if o.payer = some c then ((a.limits.bucket c).charge (a.limits.state c) a.now).2 else a.limits.state c := by
  cases o with
  | checkIp ip =>
    cases c with
    | inl ip' =>
      show (a.limits.perIp.checkKey ip a.now).2.state ip' = _
      rw [Keyed.state_checkKey]
      by_cases h : ip' = ip
      · subst h
        simp [AccountOp.payer, RateLimits.bucket, RateLimits.state]
      · simp [AccountOp.payer, RateLimits.state, h, Ne.symm h]
    | inr id => rfl
  | checkUser id =>
    cases c with
    | inl ip => rfl
    | inr id' =>
      show (a.limits.perUser.checkKey id a.now).2.state id' = _
      rw [Keyed.state_checkKey]
      by_cases h : id' = id
      · subst h
        simp [AccountOp.payer, RateLimits.bucket, RateLimits.state]
      · simp [AccountOp.payer, RateLimits.state, h, Ne.symm h]
  | _ => cases c <;> first | rfl | (simp only [exec, write]; split <;> rfl)

/-- A charge is let through by its bucket. -/
theorem passed_exec (a : Accounts) (l : Luck) (o : AccountOp) (c : Payer) :
    Passed c ⟨o, (exec l o a).1⟩ = (decide (o.payer = some c) && ((a.limits.bucket c).charge (a.limits.state c) a.now).1) := by
  cases o with
  | checkIp ip =>
    cases c with
    | inl ip' =>
      by_cases h : ip' = ip
      · subst h
        simp [Passed, AccountOp.payer, exec, Keyed.checkKey, RateLimits.bucket, RateLimits.state]
      · simp [Passed, AccountOp.payer, h, Ne.symm h]
    | inr id => simp [Passed, AccountOp.payer]
  | checkUser id =>
    cases c with
    | inl ip => simp [Passed, AccountOp.payer]
    | inr id' =>
      by_cases h : id' = id
      · subst h
        simp [Passed, AccountOp.payer, exec, Keyed.checkKey, RateLimits.bucket, RateLimits.state]
      · simp [Passed, AccountOp.payer, h, Ne.symm h]
  | _ => simp [Passed, AccountOp.payer]

def isBoot : Does → Bool
  | .env (.boot ..) => true
  | _ => false

/-- The process does not end. -/
def NoBoot (as : List Does) : Prop := ∀ a ∈ as, isBoot a = false

/-- What a run does to a bucket, from a time on. -/
def uses (c : Payer) : Nat → List Does → List Use
  | _, [] => []
  | now, .start _ _ :: as => uses c now as
  | now, .did _ e _ :: as => if e.op.payer = some c then .charge now :: uses c now as else uses c now as
  | now, .env x :: as =>
    match x with
    | .pass elapsed => uses c (now + elapsed) as
    | .gc => .prune now :: uses c now as
    | .boot .. => uses c now as

/-- The charges let through, each with its time and its task. -/
def admitted (c : Payer) : Nat → List Does → List (Nat × Nat)
  | _, [] => []
  | now, .start _ _ :: as => admitted c now as
  | now, .did i e _ :: as => if Passed c e then (now, i) :: admitted c now as else admitted c now as
  | now, .env x :: as =>
    match x with
    | .pass elapsed => admitted c (now + elapsed) as
    | .gc | .boot .. => admitted c now as

variable {s t : Pool Accounts AccountOp AccountOp.Ans AccountResponse} {as bs : List Does} {c : Payer}

omit [Governor] [Crypto] in
/-- Times do not decrease. -/
theorem le_uses (c : Payer) (now : Nat) (as : List Does) : ∀ u ∈ uses c now as, now ≤ u.now := by
  induction as generalizing now with
  | nil => nofun
  | cons a as ih =>
    intro u hu
    match a with
    | .start _ _ => exact ih now u hu
    | .did _ e _ =>
      rw [uses] at hu
      split at hu
      · rcases List.mem_cons.mp hu with rfl | hu
        · exact Nat.le_refl _
        · exact ih now u hu
      · exact ih now u hu
    | .env (.pass elapsed) => exact (Nat.le_add_right _ _).trans (ih _ u hu)
    | .env .gc =>
      rcases List.mem_cons.mp hu with rfl | hu
      · exact Nat.le_refl _
      · exact ih now u hu
    | .env (.boot ..) => exact ih now u hu

omit [Governor] [Crypto] in
theorem pairwise_uses (c : Payer) (now : Nat) (as : List Does) : ((uses c now as).map Use.now).Pairwise (· ≤ ·) := by
  induction as generalizing now with
  | nil => exact .nil
  | cons a as ih =>
    have hcons : ∀ u : Use, u.now = now → ((u :: uses c now as).map Use.now).Pairwise (· ≤ ·) := by
      intro u hu
      rw [List.map_cons, List.pairwise_cons]
      refine ⟨fun m hm => ?_, ih now⟩
      obtain ⟨v, hv, rfl⟩ := List.mem_map.mp hm
      exact hu ▸ le_uses c now as v hv
    match a with
    | .start _ _ => exact ih now
    | .did _ e _ =>
      rw [uses]
      split
      · exact hcons _ rfl
      · exact ih now
    | .env (.pass elapsed) => exact ih _
    | .env .gc => exact hcons _ rfl
    | .env (.boot ..) => exact ih now

/-- The charges a run lets through are those that the bucket lets through. -/
theorem admitted_eq (h : Run server.Step s as t) (hb : NoBoot as) :
    (admitted c s.shared.now as).map Prod.fst =
      (s.shared.limits.bucket c).passed (s.shared.limits.state c) (uses c s.shared.now as) := by
  induction as generalizing s with
  | nil => rfl
  | cons a as ih =>
    obtain ⟨u, hr, hrun⟩ := h.first
    have ih := ih hrun fun x hx => hb x (List.mem_cons_of_mem _ hx)
    cases hr with
    | start _ r => exact ih
    | did hbusy l =>
      rename_i i o k
      have hpass := passed_exec s.shared l o c
      have ih : (admitted c s.shared.now as).map Prod.fst =
          (s.shared.limits.bucket c).passed ((exec l o s.shared).2.limits.state c) (uses c s.shared.now as) := by
        rw [← exec_bucket s.shared l o c, ← exec_now s.shared l o]
        exact ih
      rw [admitted, uses]
      have hpass' : Passed c ⟨o, (server.exec l o s.shared).1⟩ = _ := hpass
      rw [hpass']
      rw [exec_state] at ih
      by_cases ho : o.payer = some c
      · simp only [ho, decide_true, Bool.true_and, if_true, Bucket.passed, Bucket.step] at ih ⊢
        split
        · rw [List.map_cons, ih]
        · exact ih
      · simpa only [ho, decide_false, Bool.false_and, if_false, Bool.false_eq_true] using ih
    | env x =>
      cases x with
      | pass elapsed => exact ih
      | boot => cases hb _ List.mem_cons_self
      | gc =>
        have hstate : (s.shared.limits.gc s.shared.now).state c =
            (s.shared.limits.bucket c).step (s.shared.limits.state c) (.prune s.shared.now) := by
          cases c <;> exact Keyed.state_retainRecent _ _ _
        have hbucket : (s.shared.limits.gc s.shared.now).bucket c = s.shared.limits.bucket c := by cases c <;> rfl
        have ih : (admitted c s.shared.now as).map Prod.fst =
            ((s.shared.limits.gc s.shared.now).bucket c).passed ((s.shared.limits.gc s.shared.now).state c)
              (uses c s.shared.now as) := ih
        rw [hstate, hbucket] at ih
        exact ih

/-- The charges of a run are let through during the run. -/
theorem admitted_within (h : Run server.Step s as t) :
    s.shared.now ≤ t.shared.now ∧
      ∀ x ∈ admitted c s.shared.now as, s.shared.now ≤ x.1 ∧ x.1 ≤ t.shared.now := by
  induction as generalizing s with
  | nil =>
    rw [h.eq_of_nil]
    exact ⟨Nat.le_refl _, nofun⟩
  | cons a as ih =>
    obtain ⟨u, hr, hrun⟩ := h.first
    have ih := ih hrun
    cases hr with
    | start => exact ih
    | did hbusy l =>
      rename_i i o k
      have ih : s.shared.now ≤ t.shared.now ∧
          ∀ x ∈ admitted c s.shared.now as, s.shared.now ≤ x.1 ∧ x.1 ≤ t.shared.now := by
        rw [← exec_now s.shared l o]
        exact ih
      refine ⟨ih.1, fun x hx => ?_⟩
      rw [admitted] at hx
      split at hx
      · rcases List.mem_cons.mp hx with rfl | hx
        · exact ⟨Nat.le_refl _, ih.1⟩
        · exact ih.2 x hx
      · exact ih.2 x hx
    | env x =>
      cases x with
      | pass elapsed =>
        have hle : s.shared.now ≤ s.shared.now + elapsed := Nat.le_add_right _ _
        exact ⟨hle.trans ih.1, fun x hx => ⟨hle.trans (ih.2 x hx).1, (ih.2 x hx).2⟩⟩
      | gc | boot => exact ih

omit [Governor] [Crypto] in
theorem mem_admitted {i : Nat} {e : AccountEvent} {l : Luck} (he : Passed c e = true) (hmem : .did i e l ∈ as) (now : Nat) :
    i ∈ (admitted c now as).map Prod.snd := by
  induction as generalizing now with
  | nil => cases hmem
  | cons a as ih =>
    rcases List.mem_cons.mp hmem with rfl | hmem'
    · rw [admitted, if_pos he]
      exact List.mem_cons_self
    · match a with
      | .start _ _ => exact ih hmem' now
      | .did _ d _ =>
        rw [admitted]
        split
        · exact List.mem_cons_of_mem _ (ih hmem' now)
        · exact ih hmem' now
      | .env (.pass elapsed) => exact ih hmem' _
      | .env .gc | .env (.boot ..) => exact ih hmem' now

/-- The quota of an address or an account, a minute. -/
def quota (ipPerMin userPerMin : Nat) : Payer → Nat
  | .inl _ => max ipPerMin 1
  | .inr _ => max userPerMin 1

/-- From the start of a process tasks that each charged a bucket keep to its quota. -/
theorem charged_bounded {ipPerMin userPerMin : Nat} (hnew : s.shared.limits = .new ipPerMin userPerMin)
    (h : Run server.Step s as t) (hb : NoBoot as) {is : List Nat} (hn : is.Nodup)
    (his : ∀ i ∈ is, ∃ e l, .did i e l ∈ as ∧ Passed c e = true) :
    is.length * (60 * 10 ^ 9 / quota ipPerMin userPerMin c) ≤
      t.shared.now - s.shared.now + quota ipPerMin userPerMin c * (60 * 10 ^ 9 / quota ipPerMin userPerMin c) := by
  have hpos : 0 < quota ipPerMin userPerMin c := by cases c <;> exact lt_max_of_lt_right Nat.one_pos
  have hbucket : s.shared.limits.bucket c = Governor.perMinute (quota ipPerMin userPerMin c) := by
    rw [hnew]
    cases c <;> rfl
  have hfresh : s.shared.limits.state c = (Governor.perMinute (quota ipPerMin userPerMin c)).fresh := by
    rw [hnew]
    cases c <;> rfl
  obtain ⟨hle, hwithin⟩ := admitted_within (c := c) h
  have hall : Bucket.count s.shared.now t.shared.now ((admitted c s.shared.now as).map Prod.fst) =
      (admitted c s.shared.now as).length := by
    rw [Bucket.count, List.countP_eq_length.mpr, List.length_map]
    intro n hnow
    obtain ⟨x, hx, rfl⟩ := List.mem_map.mp hnow
    simpa using hwithin x hx
  have hbound := Governor.bounded hpos (uses c s.shared.now as) (pairwise_uses c _ as) _ _ hle
  rw [← hfresh, ← hbucket, ← admitted_eq h hb, hall] at hbound
  have hlen : is.length ≤ (admitted c s.shared.now as).length := by
    rw [← List.length_map (f := Prod.snd)]
    refine (List.subperm_of_subset hn fun i hi => ?_).length_le
    obtain ⟨e, l, hmem, he⟩ := his i hi
    exact mem_admitted he hmem _
  exact (Nat.mul_le_mul_right _ hlen).trans hbound

/-- Whichever keys they come with, requests of one account keep to its quota. -/
theorem served_bounded {ipPerMin userPerMin : Nat} (hq : s.Quiet) (hnew : s.shared.limits = .new ipPerMin userPerMin)
    (h : Run server.Step s as t) (hb : NoBoot as) (id : Uuid) {is : List Nat} (hn : is.Nodup)
    (his : ∀ i ∈ is, ∃ r u k, .start i r ∈ as ∧ t.slot i = .busy (.ret (.served (some (u, k)))) ∧ u.id = id) :
    is.length * (60 * 10 ^ 9 / max userPerMin 1) ≤
      t.shared.now - s.shared.now + max userPerMin 1 * (60 * 10 ^ 9 / max userPerMin 1) := by
  refine charged_bounded (c := .inr id) hnew h hb hn fun i hi => ?_
  obtain ⟨r, u, k, hstart, hslot, rfl⟩ := his i hi
  have hended := result_of_run handle_sat hq h hstart hslot
  obtain ⟨l, hl⟩ := mem_events.mp hended.1
  exact ⟨_, l, hl, by simp [Passed]⟩

end

section

attribute [local instance] Crypto.plain Governor.standard

/-- A key, and the process starts again. -/
def keyed : Moves :=
  booted :: request 0 (.createKey (withPassword "root@x:password") (some { name := none, ratePerMin := none }))
    [{}, {}, {}, { bytes := [1, 2] }, { uuid := 4 }] ++ [booted]

/-- Two requests with the key. -/
def serving : Moves :=
  request 1 (.data (withKey "ovl_0102")) (List.replicate 6 {}) ++
    .env (.pass 5) :: request 2 (.data (withKey "ovl_0102")) (List.replicate 6 {})

theorem served_bounded_serving :
    2 * (60 * 10 ^ 9 / max 100 1) ≤
      (server.played (server.played start keyed rfl).2 serving rfl).2.shared.now -
        (server.played start keyed rfl).2.shared.now + max 100 1 * (60 * 10 ^ 9 / max 100 1) := by
  have hn : [1, 2].Nodup := by decide
  refine served_bounded (quiet_played _ rfl _) rfl (run_played _ rfl) (by unfold NoBoot; decide +kernel) 1 hn
    fun i hi => ?_
  simp only [List.mem_cons, List.not_mem_nil, or_false] at hi
  rcases hi with rfl | rfl
  · exact ⟨_, _, _, List.mem_cons_self, rfl, rfl⟩
  · exact ⟨_, _, _, List.mem_of_getElem? (i := 8) rfl, rfl, rfl⟩

end

section

variable [Crypto] [Governor] {s t : Pool Accounts AccountOp AccountOp.Ans AccountResponse} {as : List Does}

/-- The tasks that verified a password, once for each time. -/
def verifiers (as : List Does) : List Nat :=
  as.filterMap fun
    | .did i e _ => if e.op.isVerify then some i else none
    | _ => none

omit [Governor] [Crypto] in
theorem verifiers_append (as bs : List Does) : verifiers (as ++ bs) = verifiers as ++ verifiers bs :=
  List.filterMap_append

omit [Governor] [Crypto] in
theorem mem_verifiers {i : Nat} : i ∈ verifiers as ↔ ∃ e l, .did i e l ∈ as ∧ e.op.isVerify = true := by
  rw [verifiers, List.mem_filterMap]
  constructor
  · rintro ⟨a, ha, hi⟩
    cases a with
    | did j e l =>
      obtain ⟨he, hji⟩ := Option.ite_none_right_eq_some.mp hi
      exact ⟨e, l, Option.some.inj hji ▸ ha, he⟩
    | _ => cases hi
  · rintro ⟨e, l, hmem, he⟩
    exact ⟨_, hmem, if_pos he⟩

/-- A task verifies one password at most. -/
theorem nodup_verifiers (hq : s.Quiet) (h : Run server.Step s as t) : (verifiers as).Nodup := by
  induction h with
  | nil => exact List.nodup_nil
  | snoc h hr ih =>
    rename_i as w a t
    rw [verifiers_append, List.nodup_append']
    refine ⟨ih, ?_, ?_⟩
    · cases a <;> simp only [verifiers, List.filterMap_cons, List.filterMap_nil] <;> first | simp | (split <;> simp)
    · intro i hi hi'
      obtain ⟨e, l, hmem, he⟩ := mem_verifiers.mp hi'
      obtain rfl := List.mem_singleton.mp hmem
      obtain ⟨d, l', hmem', hd⟩ := mem_verifiers.mp hi
      obtain ⟨r, -, hallowed⟩ := sat_of_run handle_sat hq (h.snoc hr)
      obtain ⟨o, x⟩ := e
      cases o with
      | verifyPassword =>
        have := hallowed.2 d (mem_events.mpr ⟨l', hmem'⟩)
        rw [hd] at this
        cases this
      | _ => cases he

/-- A verification is charged to the address of its request first. -/
theorem charged_of_verify (hq : s.Quiet) {bs cs : List Does} {i : Nat} {e : AccountEvent} {l : Luck}
    (h : Run server.Step s (bs ++ .did i e l :: cs) t) (he : e.op.isVerify = true) :
    ∃ r parts, .start i r ∈ bs ∧ r.parts? = some parts ∧
      ∃ d l', .did i d l' ∈ bs ∧ Passed (.inl (clientIp parts.toParts)) d = true := by
  obtain ⟨r, hstart, hallowed⟩ := sat_of_run handle_sat hq h
  obtain ⟨o, x⟩ := e
  cases o with
  | verifyPassword =>
    obtain ⟨⟨parts, hparts, hcharged⟩, -⟩ := hallowed
    obtain ⟨l', hl'⟩ := mem_events.mp hcharged
    exact ⟨r, parts, hstart, hparts, _, l', hl', by simp [Passed]⟩
  | _ => cases he

/-- The passwords verified for an address keep to its quota: a request verifies
one at most, and its address is charged first. -/
theorem verified_bounded {ipPerMin userPerMin : Nat} (hq : s.Quiet) (hnew : s.shared.limits = .new ipPerMin userPerMin)
    (h : Run server.Step s as t) (hb : NoBoot as) :
    (verifiers as).Nodup ∧
    (∀ (bs cs : List Does) (i : Nat) (e : AccountEvent) (l : Luck), as = bs ++ .did i e l :: cs →
      e.op.isVerify = true → ∃ r parts, .start i r ∈ bs ∧ r.parts? = some parts ∧
        ∃ d l', .did i d l' ∈ bs ∧ Passed (.inl (clientIp parts.toParts)) d = true) ∧
    ∀ (ip : IpAddr) (is : List Nat), is.Sublist (verifiers as) →
      (∀ i ∈ is, ∃ r parts, .start i r ∈ as ∧ r.parts? = some parts ∧ clientIp parts.toParts = ip) →
      is.length * (60 * 10 ^ 9 / max ipPerMin 1) ≤
        t.shared.now - s.shared.now + max ipPerMin 1 * (60 * 10 ^ 9 / max ipPerMin 1) := by
  have hcharged : ∀ (bs cs : List Does) (i : Nat) (e : AccountEvent) (l : Luck), as = bs ++ .did i e l :: cs →
      e.op.isVerify = true → ∃ r parts, .start i r ∈ bs ∧ r.parts? = some parts ∧
        ∃ d l', .did i d l' ∈ bs ∧ Passed (.inl (clientIp parts.toParts)) d = true := by
    rintro bs cs i e l rfl he
    exact charged_of_verify hq h he
  have hnodup := nodup_verifiers hq h
  refine ⟨hnodup, hcharged, fun ip is hsub his => ?_⟩
  refine charged_bounded (c := .inl ip) hnew h hb (hnodup.sublist hsub) fun i hi => ?_
  obtain ⟨r, parts, hstart, hparts, rfl⟩ := his i hi
  obtain ⟨e, l, hmem, he⟩ := mem_verifiers.mp (hsub.subset hi)
  obtain ⟨bs, cs, heq⟩ := List.append_of_mem hmem
  obtain ⟨r', parts', hstart', hparts', d, l', hd, hpassed⟩ := hcharged bs cs i e l heq he
  have hbs : bs ⊆ as := heq ▸ List.subset_append_left _ _
  obtain rfl := started_once h hstart (hbs hstart')
  obtain rfl : parts = parts' := Option.some.inj (hparts.symm.trans hparts')
  exact ⟨d, l', hbs hd, hpassed⟩

end

section

attribute [local instance] Crypto.plain Governor.standard

/-- Two requests with a password. -/
def verifying : Moves :=
  request 1 (.listKeys (withPassword "root@x:password")) (List.replicate 4 {}) ++
    .env .gc :: request 2 (.listKeys (withPassword "root@x:wrong")) (List.replicate 3 {})

theorem verified_bounded_verifying :
    let as := (server.played (server.played start [booted] rfl).2 verifying rfl).1
    (verifiers as).Nodup ∧
    (∀ (bs cs : List Does) (i : Nat) (e : AccountEvent) (l : Luck), as = bs ++ .did i e l :: cs →
      e.op.isVerify = true → ∃ r parts, .start i r ∈ bs ∧ r.parts? = some parts ∧
        ∃ d l', .did i d l' ∈ bs ∧ Passed (.inl (clientIp parts.toParts)) d = true) ∧
    2 * (60 * 10 ^ 9 / max 100 1) ≤
      (server.played (server.played start [booted] rfl).2 verifying rfl).2.shared.now -
        (server.played start [booted] rfl).2.shared.now + max 100 1 * (60 * 10 ^ 9 / max 100 1) := by
  intro as
  have hsub : [1, 2].Sublist (verifiers as) := by decide +kernel
  have hnew : (server.played start [booted] rfl).2.shared.limits = .new 100 100 := rfl
  have hrun : Run server.Step (server.played start [booted] rfl).2 as _ := run_played _ rfl
  obtain ⟨hnodup, hcharged, hbounded⟩ := verified_bounded (quiet_played [] rfl _) hnew hrun
    (by unfold NoBoot; decide +kernel)
  refine ⟨hnodup, hcharged, hbounded (.v4 0 0 0 0) [1, 2] hsub fun i hi => ?_⟩
  simp only [List.mem_cons, List.not_mem_nil, or_false] at hi
  rcases hi with rfl | rfl
  · exact ⟨_, _, List.mem_cons_self, rfl, rfl⟩
  · exact ⟨_, _, List.mem_of_getElem? (i := 6) rfl, rfl, rfl⟩

end

end Accounts

end OV.Impl
