import Ovlive.Impl.Api.Auth

/-!
# Whose word is taken for an address

`isTrustedProxy_iff` compares the hand-written test with the blocks it is
documented to accept (`INTERNAL`): they are accepted, and besides them all of
100.0.0.0/8, of which only 100.64.0.0/10 is carrier-grade NAT. A peer outside
the blocks can therefore choose the address it is accounted to exactly if it is
in that block (`clientIp_unforgeable_iff`).
-/

namespace OV.Impl

/-- Loopback, RFC 1918, carrier-grade NAT, link-local and unique local addresses. -/
def INTERNAL : List IpBlock :=
  [⟨.v4 127 0 0 0, 8⟩, ⟨.v4 10 0 0 0, 8⟩, ⟨.v4 172 16 0 0, 12⟩, ⟨.v4 192 168 0 0, 16⟩, ⟨.v4 100 64 0 0, 10⟩,
    ⟨.v4 169 254 0 0, 16⟩, ⟨.v6 0 0 0 0 0 0 0 1, 128⟩, ⟨.v6 0xfe80 0 0 0 0 0 0 0, 10⟩, ⟨.v6 0xfc00 0 0 0 0 0 0 0, 7⟩]

/-- Whether an address is not one of the internet's. -/
def internal (ip : IpAddr) : Bool := INTERNAL.any fun b => b.has ip

/-- The block of the first octet 100. -/
def block100 : IpBlock := ⟨.v4 100 0 0 0, 8⟩

/-- Masking the low `k` bits of a segment rounds it down. -/
theorem and_mask {k mask : Nat} (hk : mask / 2 ^ k = 2 ^ (16 - k) - 1) (hm : mask % 2 ^ k = 0) (h16 : k ≤ 16)
    {x : Nat} (hx : x < 2 ^ 16) : x &&& mask = 2 ^ k * (x / 2 ^ k) := by
  have hdiv : (x &&& mask) / 2 ^ k = x / 2 ^ k := by
    rw [Nat.and_div_two_pow, hk, Nat.and_two_pow_sub_one_eq_mod]
    apply Nat.mod_eq_of_lt
    rw [Nat.div_lt_iff_lt_mul (by positivity), ← Nat.pow_add, Nat.sub_add_cancel h16]
    exact hx
  have hmod : (x &&& mask) % 2 ^ k = 0 := by rw [Nat.and_mod_two_pow, hm, Nat.and_zero]
  rw [← Nat.div_add_mod (x &&& mask) (2 ^ k), hdiv, hmod, Nat.add_zero]

/-- The IPv4 test: the documented blocks, and all of 100.0.0.0/8. -/
theorem isTrustedProxy_v4 (a b c d : UInt8) :
    isTrustedProxy (.v4 a b c d) = true ↔ internal (.v4 a b c d) = true ∨ block100.has (.v4 a b c d) = true := by
  have ha := a.toNat_lt
  have hb := b.toNat_lt
  have hc := c.toNat_lt
  have hd := d.toNat_lt
  simp only [isTrustedProxy, internal, INTERNAL, block100, List.any_cons, List.any_nil, IpBlock.has_v4,
    IpBlock.not_has_v6_v4, IpAddr.toNat, Bool.or_eq_true, Bool.and_eq_true, decide_eq_true_eq, ← UInt8.toNat_inj,
    UInt8.le_iff_toNat_le, Bool.false_eq_true, or_false, UInt8.reduceToNat]
  omega

/-- The IPv6 test is the documented one. -/
theorem isTrustedProxy_v6 (a b c d e f g h : UInt16) :
    isTrustedProxy (.v6 a b c d e f g h) = true ↔ internal (.v6 a b c d e f g h) = true := by
  have ha := a.toNat_lt
  have hb := b.toNat_lt
  have hc := c.toNat_lt
  have hd := d.toNat_lt
  have he := e.toNat_lt
  have hf := f.toNat_lt
  have hg := g.toNat_lt
  have hh := h.toNat_lt
  have h1 : (a &&& 0xfe00).toNat = 2 ^ 9 * (a.toNat / 2 ^ 9) := and_mask (by decide) (by decide) (by decide) ha
  have h2 : (a &&& 0xffc0).toNat = 2 ^ 6 * (a.toNat / 2 ^ 6) := and_mask (by decide) (by decide) (by decide) ha
  simp only [isTrustedProxy, internal, INTERNAL, List.any_cons, List.any_nil, IpBlock.has_v6, IpBlock.not_has_v4_v6,
    IpAddr.toNat, Bool.or_eq_true, decide_eq_true_eq, IpAddr.v6.injEq, ← UInt16.toNat_inj, h1, h2,
    Bool.false_eq_true, or_false, false_or, UInt16.reduceToNat]
  omega

theorem isTrustedProxy_iff (ip : IpAddr) :
    isTrustedProxy ip = true ↔ internal ip = true ∨ block100.has ip = true := by
  cases ip with
  | v4 a b c d => exact isTrustedProxy_v4 a b c d
  | v6 a b c d e f g h =>
    have hno : block100.has (.v6 a b c d e f g h) = false := IpBlock.not_has_v4_v6
    rw [isTrustedProxy_v6, hno]
    simp

/-- A peer that is not trusted is accounted to itself. -/
theorem clientIp_of_untrusted {peer : IpAddr} (h : isTrustedProxy peer = false) (headers : Headers) :
    clientIp { peer := some peer, headers := headers } = peer := by
  simp [clientIp, h]

/-- One that is, to the address it names first. -/
theorem clientIp_of_trusted {peer : IpAddr} (h : isTrustedProxy peer = true) (headers : Headers) :
    clientIp { peer := some peer, headers := headers } =
      ((headerIp headers "cf-connecting-ip").or (forwardedFor headers)).getD peer := by
  simp [clientIp, h]

/-- A peer of the internet is accounted to its own address, whatever headers it
sends, exactly if it is not in 100.0.0.0/8. -/
theorem clientIp_unforgeable_iff (peer : IpAddr) (hpublic : internal peer = false) :
    (∀ h h' : Headers,
        clientIp { peer := some peer, headers := h } = clientIp { peer := some peer, headers := h' } ∧
          clientIp { peer := some peer, headers := h } = peer) ↔
      block100.has peer = false := by
  have htrust := isTrustedProxy_iff peer
  rw [hpublic] at htrust
  constructor
  · intro h
    rw [← Bool.not_eq_true]
    intro h100
    -- a peer in the block is believed to be 0.0.0.0, which is not in it
    have hspoof := (h [("cf-connecting-ip", "0.0.0.0".toList)] []).2
    have hip : headerIp [("cf-connecting-ip", "0.0.0.0".toList)] "cf-connecting-ip" = some (.v4 0 0 0 0) := by
      decide +kernel
    rw [clientIp_of_trusted (htrust.mpr (.inr h100)), hip, Option.some_or, Option.getD_some] at hspoof
    rw [← hspoof] at h100
    exact absurd h100 (by decide)
  · intro h100 h h'
    have hno : isTrustedProxy peer = false := by
      rw [← Bool.not_eq_true, htrust, h100]
      simp
    rw [clientIp_of_untrusted hno, clientIp_of_untrusted hno]
    exact ⟨rfl, rfl⟩

/-- A peer of a documentation block cannot choose. -/
theorem clientIp_unforgeable_doc :
    clientIp { peer := some (.v4 203 0 113 1), headers := [("cf-connecting-ip", "198.51.100.7".toList)] } =
        clientIp { peer := some (.v4 203 0 113 1), headers := [] } ∧
      clientIp { peer := some (.v4 203 0 113 1), headers := [("cf-connecting-ip", "198.51.100.7".toList)] } =
        .v4 203 0 113 1 :=
  (clientIp_unforgeable_iff (.v4 203 0 113 1) (by decide)).mpr (by decide) _ _

/-- 100.0.0.1 is an address of the internet, and can. -/
theorem clientIp_forgeable :
    ¬ ∀ peer : IpAddr, internal peer = false → ∀ h h' : Headers,
      clientIp { peer := some peer, headers := h } = clientIp { peer := some peer, headers := h' } ∧
        clientIp { peer := some peer, headers := h } = peer := by
  intro h
  have hspoof := (h (.v4 100 0 0 1) (by decide) [("cf-connecting-ip", "198.51.100.7".toList)] []).1
  exact absurd hspoof (by decide +kernel)

end OV.Impl
