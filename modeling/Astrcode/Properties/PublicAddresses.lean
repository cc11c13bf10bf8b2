import Astrcode.Extensions.Network
import Mathlib.Data.Nat.Bitwise

/-!
# Requests reach public addresses

What a public address is, by the ranges that are set aside and by the ways in which an IPv4
address can be part of an IPv6 address. The check of the client looks at all these ranges and at
most of these ways. What it does not look at is what an address has to satisfy besides.
-/
namespace Astrcode

open Library List

/-- Addresses that begin with some octets or segments, followed by one out of a range. -/
def InRange : List Nat → Nat → Nat → List Nat → Prop
  | [], low, high, part :: _ => low ≤ part ∧ part ≤ high
  | lead :: leads, low, high, part :: parts => part = lead ∧ InRange leads low high parts
  | _, _, _, [] => False

/-- Loopback, private, link-local, shared, documentation, benchmarking, multicast and reserved. -/
def reservedIpv4 : List (List Nat × Nat × Nat) :=
  [([], 0, 0), ([], 10, 10), ([], 127, 127), ([100], 64, 127), ([169], 254, 254), ([172], 16, 31),
    ([192, 0], 0, 0), ([192, 0], 2, 2), ([192, 88], 99, 99), ([192], 168, 168), ([198], 18, 19),
    ([198, 51], 100, 100), ([203, 0], 113, 113), ([], 224, 255)]

def reservedIpv6 : List (List Nat × Nat × Nat) :=
  [([0, 0, 0, 0, 0, 0, 0], 0, 0), ([0, 0, 0, 0, 0, 0, 0], 1, 1), ([0x64, 0xff9b], 1, 1),
    ([0x64, 0xff9b, 0, 0, 0], 0, 0), ([0x100, 0, 0], 0, 0), ([0x2001], 0, 0x1ff),
    ([0x2001], 0xdb8, 0xdb8), ([], 0xfc00, 0xfdff), ([], 0xfe80, 0xfebf), ([], 0xfec0, 0xfeff),
    ([], 0xff00, 0xffff), ([], 0x2002, 0x2002), ([0x3fff], 0, 0xfff), ([], 0x5f00, 0x5f00)]

def Ipv4Addr.Public (ip : Ipv4Addr) : Prop :=
  ∀ range ∈ reservedIpv4, ¬InRange range.1 range.2.1 range.2.2 [ip.a, ip.b, ip.c, ip.d]

namespace Ipv6Addr

variable (ip : Ipv6Addr)

/-- IPv4-compatible, IPv4-translated and ISATAP addresses end with an IPv4 address. -/
def EmbedsUnchecked : Prop :=
  ip.segments.take 6 ∈ [[0, 0, 0, 0, 0, 0], [0, 0, 0, 0, 0xffff, 0]] ∨
    ip.s4.val ∈ [0, 0x200] ∧ ip.s5.val = 0x5efe

instance : Decidable ip.EmbedsUnchecked := inferInstanceAs (Decidable (_ ∨ _))

/-- So do IPv4-mapped addresses and those for NAT64; 6to4 has it behind the first segment. -/
def embedded : Option Ipv4Addr :=
  if ip.segments.take 6 ∈ [[0, 0, 0, 0, 0, 0xffff], [0x64, 0xff9b, 0, 0, 0, 0]] ∨
      ip.EmbedsUnchecked then some (.ofSegments ip.s6 ip.s7)
  else if ip.s0.val = 0x2002 then some (.ofSegments ip.s1 ip.s2)
  else none

end Ipv6Addr

namespace IpAddr

def Public : IpAddr → Prop
  | .v4 ip => ip.Public
  | .v6 ip => (∀ range ∈ reservedIpv6, ¬InRange range.1 range.2.1 range.2.2 ip.segments) ∧
      ∀ ipv4, ip.embedded = some ipv4 → ipv4.Public

/-- What the check of an IPv6 address leaves out. -/
def UncheckedPublic : IpAddr → Prop
  | .v4 _ => True
  | .v6 ip => ip.EmbedsUnchecked → (Ipv4Addr.ofSegments ip.s6 ip.s7).Public

end IpAddr

theorem public_of_isPublicIpv4 {ip : Ipv4Addr} (accepted : isPublicIpv4 ip = true) : ip.Public := by
  simp only [isPublicIpv4, Bool.not_eq_true', decide_eq_false_iff_not, not_or] at accepted
  simp only [Ipv4Addr.Public, reservedIpv4, forall_mem_cons, InRange, not_mem_nil,
    false_implies, forall_const, and_true]
  revert accepted
  repeat' apply And.imp
  all_goals omega

private theorem and_shiftLeft (x mask places : Nat) :
    x &&& mask <<< places = ((x >>> places) &&& mask) <<< places := by
  apply Nat.eq_of_testBit_eq
  intro i
  by_cases low : places ≤ i
  · simp [Nat.testBit_shiftLeft, Nat.testBit_shiftRight, low]
  · simp [Nat.testBit_shiftLeft, low]

/-- A mask that leaves the high bits. -/
private theorem and_mask {x : Nat} (bits places value : Nat) (small : x < 2 ^ (bits + places)) :
    x &&& (2 ^ bits - 1) <<< places = value <<< places ↔ x / 2 ^ places = value := by
  have top : x / 2 ^ places < 2 ^ bits := by
    rw [Nat.div_lt_iff_lt_mul (Nat.two_pow_pos places), ← Nat.pow_add]
    exact small
  rw [and_shiftLeft, Nat.and_two_pow_sub_one_eq_mod, Nat.shiftRight_eq_div_pow,
    Nat.mod_eq_of_lt top, Nat.shiftLeft_eq, Nat.shiftLeft_eq,
    Nat.mul_left_inj (Nat.ne_of_gt (Nat.two_pow_pos places))]

private theorem masks (s : Fin 65536) :
    (s.val &&& 0xfe00 = 0xfc00 ↔ s.val / 512 = 126) ∧
      (s.val &&& 0xffc0 = 0xfe80 ↔ s.val / 64 = 1018) ∧
      (s.val &&& 0xffc0 = 0xfec0 ↔ s.val / 64 = 1019) ∧
      (s.val &&& 0xff00 = 0xff00 ↔ s.val / 256 = 255) ∧ (s.val &&& 0xf000 = 0 ↔ s.val / 4096 = 0) :=
  ⟨and_mask 7 9 126 s.isLt, and_mask 10 6 1018 s.isLt, and_mask 10 6 1019 s.isLt,
    and_mask 8 8 255 s.isLt, and_mask 4 12 0 s.isLt⟩

/-- What passes lies outside of every range, and what it embeds in a way that is looked at is
public. -/
theorem isPublicIpv6_cases {ip : Ipv6Addr} (accepted : isPublicIpv6 ip = true) :
    (∀ range ∈ reservedIpv6, ¬InRange range.1 range.2.1 range.2.2 ip.segments) ∧
      ∀ ipv4, ¬ ip.EmbedsUnchecked → ip.embedded = some ipv4 → ipv4.Public := by
  simp only [isPublicIpv6, Ipv6Addr.toIpv4Mapped] at accepted
  by_cases mapped : ip.segments.take 6 = [0, 0, 0, 0, 0, 0xffff]
  · rw [if_pos mapped] at accepted
    refine ⟨?_, fun ipv4 _ found => ?_⟩
    · simp [Ipv6Addr.segments] at mapped
      simp [reservedIpv6, InRange, Ipv6Addr.segments, mapped]
    · have same : ip.embedded = some (.ofSegments ip.s6 ip.s7) := by
        simp [Ipv6Addr.embedded, mapped]
      cases same.symm.trans found
      exact public_of_isPublicIpv4 accepted
  · rw [if_neg mapped] at accepted
    simp only [Bool.not_eq_true', decide_eq_false_iff_not, and_or_left, or_assoc, not_or, masks,
      Ipv6Addr.segments, cons.injEq, and_true] at accepted
    refine ⟨?_, fun ipv4 checked found => ?_⟩
    · simp only [reservedIpv6, forall_mem_cons, InRange, Ipv6Addr.segments, not_mem_nil,
        false_implies, forall_const, and_true]
      revert accepted
      repeat' apply And.imp
      all_goals omega
    · -- the ways that are left lie in ranges that are refused
      rw [Ipv6Addr.embedded] at found
      split at found
      · next embeds =>
        have nat64 := (mem_cons.mp (embeds.resolve_right checked)).resolve_left mapped
        simp [Ipv6Addr.segments] at nat64
        simp [nat64] at accepted
      · split at found
        · next same => simp [same] at accepted
        · cases found

/-- An address that passes is public, unless it embeds an address in a way that is not looked at. -/
theorem public_iff_unchecked {ip : IpAddr} (accepted : isPublicIp ip = true) :
    ip.Public ↔ ip.UncheckedPublic := by
  cases ip with
  | v4 ip => exact ⟨fun _ => trivial, fun _ => public_of_isPublicIpv4 accepted⟩
  | v6 ip =>
    have embedded (unchecked : ip.EmbedsUnchecked) :
        ip.embedded = some (.ofSegments ip.s6 ip.s7) := if_pos (.inr unchecked)
    obtain ⟨outside, checked⟩ := isPublicIpv6_cases accepted
    constructor
    · exact fun isPublic unchecked => isPublic.2 _ (embedded unchecked)
    · refine fun rest => ⟨outside, fun ipv4 found => ?_⟩
      by_cases unchecked : ip.EmbedsUnchecked
      · cases (embedded unchecked).symm.trans found
        exact rest unchecked
      · exact checked ipv4 unchecked found

/-! ### Requests -/

section

variable {text : IpText} {host : List Char} {hop : Hop}

theorem isPublicIp_of_validateHostName {ip : IpAddr} (valid : validateHostName text host = .ok ())
    (literal : text.parse (ipLiteral host) = some ip) : isPublicIp ip = true := by
  obtain ⟨_, -, checked⟩ := bind_ok_iff.mp valid
  rw [text.parse_trim host ip literal] at checked
  exact ensure_ok_iff.mp checked

theorem isPublicIp_of_resolve {answer : Except String (List IpAddr)} {resolved : List IpAddr}
    (ok : resolve text host answer = .ok resolved) : ∀ ip ∈ resolved, isPublicIp ip = true := by
  simp only [resolve, bind_ok_iff] at ok
  obtain ⟨_, -, addresses, -, _, checked, same⟩ := ok
  cases same
  simp only [validateResolvedAddresses, bind_ok_iff] at checked
  obtain ⟨_, -, checked⟩ := checked
  split at checked
  · cases checked
  · next none => simpa using none

/-- Nothing but an address that passes the check is opened on the way to a URL that passes. -/
theorem isPublicIp_of_opened (valid : validateNetworkUrl text hop.url = .ok ()) :
    ∀ ip ∈ hop.opened text, isPublicIp ip = true := by
  simp only [validateNetworkUrl, bind_ok_iff] at valid
  obtain ⟨_, -, _, -, valid⟩ := valid
  intro ip member
  rw [Hop.opened] at member
  split at member
  · cases member
  · next host found =>
    rw [found] at valid
    split at member
    · next literal =>
      cases mem_singleton.mp member
      exact isPublicIp_of_validateHostName valid literal
    · obtain ⟨answer, -, inside⟩ := mem_flatMap.mp member
      cases resolved : resolve text host answer with
      | error e => simp [resolved, Except.toOption] at inside
      | ok addresses =>
        rw [resolved] at inside
        exact isPublicIp_of_resolve resolved ip inside

theorem followRedirects_valid (redirects : List Hop) (previous : Nat) :
    (∀ hop ∈ (followRedirects text previous redirects).1,
        validateNetworkUrl text hop.url = .ok ()) ∧
      (followRedirects text previous redirects).1.length ≤ maxRedirects + 1 - previous := by
  induction redirects generalizing previous with
  | nil => exact ⟨nofun, Nat.zero_le _⟩
  | cons hop rest ih =>
    rw [followRedirects]
    split
    · exact ⟨nofun, Nat.zero_le _⟩
    · next valid =>
      obtain ⟨_, limit, valid⟩ := bind_ok_iff.mp valid
      have few := ensure_ok_iff.mp limit
      obtain ⟨later, count⟩ := ih (previous + 1)
      refine ⟨forall_mem_cons.mpr ⟨valid, later⟩, ?_⟩
      rw [length_cons]
      omega

/-- A name whose address is the loopback address, written as an IPv4-compatible one. -/
def compatibleLoopback : Hop :=
  ⟨⟨"http", "", none, some "example.com".toList⟩, [.ok [.v6 ⟨0, 0, 0, 0, 0, 0, 0x7f00, 1⟩]]⟩

end

end Astrcode
