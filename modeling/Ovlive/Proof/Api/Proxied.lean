import Mathlib.Data.List.TakeWhile
import Ovlive.Impl.Web.Nginx
import Ovlive.Proof.Api.Auth

/-!
# The rate-limit identity behind the bundled proxy

What the server reads of the headers nginx forwards (`headerIp_forward`,
`forwardedFor_forward`): `CF-Connecting-IP` is the client's own, and so is the
leftmost hop of `X-Forwarded-For` if the client sent that header, since nginx
puts the address it saw behind the client's. `charged_iff` says for which
requests the address charged is the one nginx saw all the same.
-/

namespace OV.Impl.Nginx

variable {loc : Location} {remote : RemoteAddr} {peer : IpAddr} {r : Request}

/-- The address the server charges for a request through nginx. -/
def charged (loc : Location) (remote : RemoteAddr) (peer : IpAddr) (r : Request) : IpAddr :=
  clientIp { peer := some peer, headers := forward loc remote r }

theorem RemoteAddr.plain_mem (remote : RemoteAddr) {c : Char} (hc : c ∈ remote.text) :
    visible c = true ∧ c ≠ ',' ∧ Text.isWhite c = false := by
  have h := List.all_eq_true.mp remote.plain c hc
  simpa [and_assoc] using h

theorem get_append (h h' : Headers) (name : String) :
    Headers.get (h ++ h') name = (Headers.get h name).or (Headers.get h' name) := by
  simp only [Headers.get, List.find?_append]
  cases List.find? (fun f => decide (f.1 = name)) h <;> rfl

theorem get_eq_none {h : Headers} {name : String} (hn : name ∉ h.map Prod.fst) : Headers.get h name = none := by
  rw [Headers.get, Option.map_eq_none_iff, List.find?_eq_none]
  intro f hf
  have hne : f.1 ≠ name := fun e => hn (e ▸ List.mem_map_of_mem hf)
  simpa using hne

theorem get_filter {h : Headers} {name : String} {p : String × List Char → Bool}
    (hp : ∀ f ∈ h, f.1 = name → p f = true) : Headers.get (h.filter p) name = Headers.get h name := by
  rw [Headers.get, Headers.get, List.find?_filter]
  congr 1
  induction h with
  | nil => rfl
  | cons f h ih =>
    have ih := ih fun g hg => hp g (List.mem_cons_of_mem _ hg)
    by_cases hf : f.1 = name
    · simp [hf, hp f List.mem_cons_self hf]
    · rw [List.find?_cons_of_neg (by simp [hf]), List.find?_cons_of_neg (by simpa using hf), ih]

theorem setHeaders_names (loc : Location) (remote : RemoteAddr) (r : Request) :
    (setHeaders loc remote r).map Prod.fst =
      (match loc with | .stream => ["upgrade", "connection"] | .api => []) ++
        ["host", "x-forwarded-for", "x-forwarded-proto"] := by
  cases loc <;> rfl

/-- A header that is not set is passed on. -/
theorem get_forward_of_notMem {name : String} (h : name ∉ (setHeaders loc remote r).map Prod.fst) :
    (forward loc remote r).get name = r.headers.get name := by
  have hset : Headers.get ((setHeaders loc remote r).filter fun f => f.2 ≠ []) name = none := by
    apply get_eq_none
    intro hmem
    obtain ⟨f, hf, rfl⟩ := List.mem_map.mp hmem
    exact h (List.mem_map_of_mem (List.mem_of_mem_filter hf))
  rw [forward, get_append, hset, Option.none_or, get_filter]
  rintro f - rfl
  simpa using h

theorem proxyAddXForwardedFor_ne_nil : proxyAddXForwardedFor remote r.headers ≠ [] := by
  have htext : remote.text ≠ [] := by
    intro h
    have hp := remote.parses
    rw [h, show IpAddr.parse? [] = none by decide +kernel] at hp
    cases hp
  unfold proxyAddXForwardedFor
  cases lines r.headers "x-forwarded-for" with
  | nil => exact htext
  | cons v vs => simp

/-- `X-Forwarded-For` is what nginx makes of it. -/
theorem get_forward_xff :
    (forward loc remote r).get "x-forwarded-for" = some (proxyAddXForwardedFor remote r.headers) := by
  have hset : Headers.get (setHeaders loc remote r) "x-forwarded-for" =
      some (proxyAddXForwardedFor remote r.headers) := by
    cases loc <;> simp [setHeaders, Headers.get]
  rw [forward, get_append, get_filter, hset, Option.some_or]
  intro f hf hname
  have hf' : f = ("x-forwarded-for", proxyAddXForwardedFor remote r.headers) := by
    cases loc <;> simp [setHeaders] at hf <;> rcases hf with rfl | rfl | rfl | rfl | rfl <;> simp at hname ⊢
  rw [hf']
  simpa using proxyAddXForwardedFor_ne_nil

theorem headerIp_forward :
    headerIp (forward loc remote r) "cf-connecting-ip" = headerIp r.headers "cf-connecting-ip" := by
  have h : "cf-connecting-ip" ∉ (setHeaders loc remote r).map Prod.fst := by
    rw [setHeaders_names]
    cases loc <;> decide
  rw [headerIp, get_forward_of_notMem h, headerIp]

/-! ## The leftmost hop -/

/-- Whether the client's own hops can be read at all. -/
def readable (hops : List (List Char)) : Bool := hops.all fun v => v.all visible

/-- What precedes the first comma of the header: the client's first hop, if it
sent one, or else the address nginx saw. -/
theorem takeWhile_proxyAdd :
    (proxyAddXForwardedFor remote r.headers).takeWhile (· ≠ ',') =
      match lines r.headers "x-forwarded-for" with
      | [] => remote.text
      | v :: _ => v.takeWhile (· ≠ ',') := by
  unfold proxyAddXForwardedFor
  cases lines r.headers "x-forwarded-for" with
  | nil =>
    rw [List.foldr_nil, List.takeWhile_eq_self_iff]
    intro c hc
    simpa using (remote.plain_mem hc).2.1
  | cons v vs =>
    rw [List.foldr_cons]
    have h : ∀ rest : List Char, (v ++ ',' :: rest).takeWhile (· ≠ ',') = v.takeWhile (· ≠ ',') := by
      intro rest
      induction v with
      | nil => simp
      | cons c v ih =>
        by_cases hc : c = ','
        · simp [hc]
        · rw [List.cons_append, List.takeWhile_cons_of_pos (by simpa using hc), ih,
            List.takeWhile_cons_of_pos (by simpa using hc)]
    exact h _

theorem all_visible_proxyAdd :
    (proxyAddXForwardedFor remote r.headers).all visible = readable (lines r.headers "x-forwarded-for") := by
  unfold proxyAddXForwardedFor readable
  induction lines r.headers "x-forwarded-for" with
  | nil => simpa using fun c hc => (remote.plain_mem hc).1
  | cons v vs ih =>
    have hsep : visible ',' = true ∧ visible ' ' = true := by decide
    rw [List.foldr_cons, List.all_append, List.all_cons, List.all_cons, ih, hsep.1, hsep.2]
    rfl

/-- The hop the server reads of a header. -/
theorem forwardedFor_of_get {h : Headers} {hops : List Char} (hget : h.get "x-forwarded-for" = some hops) :
    forwardedFor h =
      if hops.all visible then IpAddr.parse? (Text.trim (hops.takeWhile (· ≠ ','))) else none := by
  rw [forwardedFor, hget, Option.bind_eq_bind, Option.bind_some, toStr]
  cases hops.all visible with
  | false => rfl
  | true => rw [if_pos rfl, if_pos rfl, Option.bind_some, Text.head?_split, Option.bind_some]

/-- And behind nginx. -/
theorem forwardedFor_forward :
    forwardedFor (forward loc remote r) =
      match lines r.headers "x-forwarded-for" with
      | [] => some remote.addr
      | v :: vs => if readable (v :: vs) then IpAddr.parse? (Text.trim (v.takeWhile (· ≠ ','))) else none := by
  rw [forwardedFor_of_get get_forward_xff, all_visible_proxyAdd, takeWhile_proxyAdd]
  cases lines r.headers "x-forwarded-for" with
  | nil =>
    have htrim : Text.trim remote.text = remote.text :=
      Text.trim_of_no_white fun c hc => (remote.plain_mem hc).2.2
    simp only [readable, List.all_nil, if_true, htrim, remote.parses]
  | cons v vs => rfl

/-! ## Who is charged -/

/-- The request without the headers by which a client can name an address. -/
def unclaimed (r : Request) : Request :=
  { r with headers := r.headers.filter fun f => f.1 ≠ "cf-connecting-ip" && f.1 ≠ "x-forwarded-for" }

/-- A request that names no address but the one nginx saw: that is the address
of its `CF-Connecting-IP`, if that is one; and if not, of the first hop of its
`X-Forwarded-For`, if it sends that. A first hop that is no address leaves
nginx's own to be charged. -/
def Honest (remote : RemoteAddr) (peer : IpAddr) (r : Request) : Prop :=
  match headerIp r.headers "cf-connecting-ip" with
  | some ip => ip = remote.addr
  | none =>
    match lines r.headers "x-forwarded-for" with
    | [] => True
    | v :: vs =>
      (if readable (v :: vs) then IpAddr.parse? (Text.trim (v.takeWhile (· ≠ ','))) else none).getD peer = remote.addr

theorem charged_eq (hpeer : isTrustedProxy peer = true) :
    charged loc remote peer r =
      ((headerIp r.headers "cf-connecting-ip").or (forwardedFor (forward loc remote r))).getD peer := by
  rw [charged, clientIp_of_trusted hpeer, headerIp_forward]

theorem charged_eq_iff (hpeer : isTrustedProxy peer = true) :
    charged loc remote peer r = remote.addr ↔ Honest remote peer r := by
  rw [charged_eq hpeer, forwardedFor_forward, Honest]
  cases headerIp r.headers "cf-connecting-ip" with
  | some ip => rfl
  | none =>
    rw [Option.none_or]
    cases lines r.headers "x-forwarded-for" with
    | nil => simp
    | cons v vs => rfl

/-- Without those headers it is the address nginx saw. -/
theorem charged_unclaimed (hpeer : isTrustedProxy peer = true) : charged loc remote peer (unclaimed r) = remote.addr := by
  have hcf : headerIp (unclaimed r).headers "cf-connecting-ip" = none := by
    have hget : Headers.get (unclaimed r).headers "cf-connecting-ip" = none := by
      apply get_eq_none
      intro hmem
      obtain ⟨f, hf, hname⟩ := List.mem_map.mp hmem
      have hp := (List.mem_filter.mp hf).2
      simp [hname] at hp
    rw [headerIp, hget]
    rfl
  have hxff : lines (unclaimed r).headers "x-forwarded-for" = [] := by
    rw [lines, List.map_eq_nil_iff, List.filter_eq_nil_iff]
    intro f hf hname
    have hp := (List.mem_filter.mp hf).2
    rw [decide_eq_true_eq] at hname
    simp [hname] at hp
  rw [charged_eq_iff hpeer, Honest, hcf, hxff]
  trivial

/-- Behind nginx a request is charged to the address nginx saw, as it would be
without its own headers, exactly if it names no other. -/
theorem charged_iff (loc : Location) (remote : RemoteAddr) (peer : IpAddr) (hpeer : isTrustedProxy peer = true)
    (r : Request) :
    (charged loc remote peer r = remote.addr ∧ charged loc remote peer r = charged loc remote peer (unclaimed r)) ↔
      Honest remote peer r := by
  rw [charged_unclaimed hpeer, and_self]
  exact charged_eq_iff hpeer

/-- A visitor with an address of a documentation block. -/
def visitor : RemoteAddr where
  addr := .v4 203 0 113 5
  text := "203.0.113.5".toList
  parses := by decide +kernel
  plain := by decide +kernel

/-- It is charged to it, with no header of its own. -/
theorem charged_visitor :
    charged .api visitor (.v4 172 18 0 4) { host := [], scheme := [], headers := [] } = .v4 203 0 113 5 :=
  ((charged_iff .api visitor (.v4 172 18 0 4) (by decide) { host := [], scheme := [], headers := [] }).mpr
    trivial).1

/-- With `CF-Connecting-IP` it is charged to whatever address it names there. -/
theorem charged_claimed :
    ¬ ∀ (loc : Location) (remote : RemoteAddr) (peer : IpAddr), isTrustedProxy peer = true → ∀ r : Request,
      charged loc remote peer r = charged loc remote peer (unclaimed r) := by
  intro h
  have hspoof := h .api visitor (.v4 172 18 0 4) (by decide)
    { host := [], scheme := [], headers := [("cf-connecting-ip", "198.51.100.7".toList)] }
  exact absurd hspoof (by decide +kernel)

end OV.Impl.Nginx
