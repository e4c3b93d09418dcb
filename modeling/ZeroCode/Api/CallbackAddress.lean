import Mathlib.Tactic.IntervalCases
import ZeroCode.Api.CallbackUrl
import ZeroCode.Foundation.AddressBlock
import ZeroCode.Foundation.FlatKeyed

/-!
# Addresses a callback may name

The networks that are not the public one are blocks of addresses, and an address of version
6 can carry one of version 4. The check of a callback URL tells the blocks of version 4 and
most of those of version 6; of the link-local block it knows one segment, and it never looks
at a carried address. It is right about all other addresses.
-/

namespace ZeroCode.Api

open ZeroCode.Foundation

/-- The number of an address of version 4. -/
def Ipv4Addr.value (ip : Ipv4Addr) : ℕ :=
  ip.a.toNat * 2 ^ 24 + ip.b.toNat * 2 ^ 16 + ip.c.toNat * 2 ^ 8 + ip.d.toNat

/-- The first segment of an address of version 6. -/
def Ipv6Addr.first (ip : Ipv6Addr) : UInt16 := ip.segments.get 0

/-- The number of an address of version 6 below its first segment. -/
def Ipv6Addr.lower (ip : Ipv6Addr) : ℕ :=
  ip.segments[1].toNat * 2 ^ 96 + ip.segments[2].toNat * 2 ^ 80 + ip.segments[3].toNat * 2 ^ 64 +
    ip.segments[4].toNat * 2 ^ 48 + ip.segments[5].toNat * 2 ^ 32 + ip.segments[6].toNat * 2 ^ 16 +
    ip.segments[7].toNat

/-- The number of an address of version 6. -/
def Ipv6Addr.value (ip : Ipv6Addr) : ℕ := ip.first.toNat * 2 ^ 112 + ip.lower

/-- Loopback, the three private networks, link-local and unspecified. -/
def internalBlocks4 : List Block :=
  [⟨127 * 2 ^ 24, 24⟩, ⟨10 * 2 ^ 24, 24⟩, ⟨172 * 2 ^ 24 + 16 * 2 ^ 16, 20⟩, ⟨192 * 2 ^ 24 + 168 * 2 ^ 16, 16⟩,
    ⟨169 * 2 ^ 24 + 254 * 2 ^ 16, 16⟩, ⟨0, 0⟩]

/-- The link-local block of version 6, all of `fe80::/10`. -/
def linkLocalBlock6 : Block := ⟨0xfe80 * 2 ^ 112, 6 + 112⟩

/-- The unique local block of version 6, `fc00::/7`. -/
def uniqueLocalBlock6 : Block := ⟨0xfc00 * 2 ^ 112, 9 + 112⟩

/-- Loopback, unspecified, link-local and unique local. -/
def internalBlocks6 : List Block := [⟨1, 0⟩, ⟨0, 0⟩, linkLocalBlock6, uniqueLocalBlock6]

/-- The address of version 6 that carries one of version 4, `::ffff:a.b.c.d`. -/
def Ipv4Addr.toIpv6Mapped (ip : Ipv4Addr) : Ipv6Addr :=
  ⟨#v[0, 0, 0, 0, 0, 0xffff, ip.a.toUInt16 <<< 8 ||| ip.b.toUInt16, ip.c.toUInt16 <<< 8 ||| ip.d.toUInt16]⟩

/-- An address of version 4 inside one of the blocks. -/
def Ipv4Addr.Internal (ip : Ipv4Addr) : Prop := ∃ b ∈ internalBlocks4, b.Contains ip.value

/-- The address carries an internal one of version 4. -/
def Ipv6Addr.CarriesInternal (ip : Ipv6Addr) : Prop := ∃ v4 : Ipv4Addr, v4.Internal ∧ ip = v4.toIpv6Mapped

/-- An address that is not one of the public network. -/
def IpAddr.Internal : IpAddr → Prop
  | .v4 ip => ip.Internal
  | .v6 ip => (∃ b ∈ internalBlocks6, b.Contains ip.value) ∨ ip.CarriesInternal

/-- The addresses the check does not know: the link-local ones past the first segment's worth, and those that carry
an internal one. -/
def IpAddr.Overlooked : IpAddr → Prop
  | .v4 _ => False
  | .v6 ip => (linkLocalBlock6.Contains ip.value ∧ ip.first ≠ 0xfe80) ∨ ip.CarriesInternal

/-- The numbers of an address of version 4, with dots. -/
def Ipv4Addr.display (ip : Ipv4Addr) : String :=
  Nat.repr ip.a.toNat ++ "." ++ Nat.repr ip.b.toNat ++ "." ++ Nat.repr ip.c.toNat ++ "." ++ Nat.repr ip.d.toNat

/-- The URL with an address as its host: the host's text is the address of version 4, or the one of version 6 in
brackets. -/
def Url.ofIp (writeIpv6 : Ipv6Addr → String) (scheme : String) : IpAddr → Url
  | .v4 v4 => ⟨scheme, some v4.display, some (.ipv4 v4)⟩
  | .v6 v6 => ⟨scheme, some ("[" ++ writeIpv6 v6 ++ "]"), some (.ipv6 v6)⟩

/-- The private and local addresses of version 4 are those in the blocks. -/
theorem Ipv4Addr.internal_iff (ip : Ipv4Addr) : ip.Internal ↔ isPrivateOrLoopback (.v4 ip) = true := by
  obtain ⟨a, b, c, d⟩ := ip
  have ha := a.toNat_lt
  have hb := b.toNat_lt
  have hc := c.toNat_lt
  have hd := d.toNat_lt
  have hloopback : (Block.mk (127 * 2 ^ 24) 24).Contains (Ipv4Addr.value ⟨a, b, c, d⟩) ↔ a.toNat = 127 := by
    simp only [Block.Contains, Ipv4Addr.value]
    omega
  have hzero : (Block.mk 0 0).Contains (Ipv4Addr.value ⟨a, b, c, d⟩) ↔
      a.toNat = 0 ∧ b.toNat = 0 ∧ c.toNat = 0 ∧ d.toNat = 0 := by
    simp only [Block.contains_single, Ipv4Addr.value]
    omega
  have hten : (Block.mk (10 * 2 ^ 24) 24).Contains (Ipv4Addr.value ⟨a, b, c, d⟩) ↔ a.toNat = 10 := by
    simp only [Block.Contains, Ipv4Addr.value]
    omega
  have htwelve : (Block.mk (172 * 2 ^ 24 + 16 * 2 ^ 16) 20).Contains (Ipv4Addr.value ⟨a, b, c, d⟩) ↔
      a.toNat = 172 ∧ 16 ≤ b.toNat ∧ b.toNat ≤ 31 := by
    simp only [Block.Contains, Ipv4Addr.value]
    omega
  have hsixteen : (Block.mk (192 * 2 ^ 24 + 168 * 2 ^ 16) 16).Contains (Ipv4Addr.value ⟨a, b, c, d⟩) ↔
      a.toNat = 192 ∧ b.toNat = 168 := by
    simp only [Block.Contains, Ipv4Addr.value]
    omega
  have hlocal : (Block.mk (169 * 2 ^ 24 + 254 * 2 ^ 16) 16).Contains (Ipv4Addr.value ⟨a, b, c, d⟩) ↔
      a.toNat = 169 ∧ b.toNat = 254 := by
    simp only [Block.Contains, Ipv4Addr.value]
    omega
  simp only [Ipv4Addr.Internal, internalBlocks4, List.exists_mem_cons_iff, List.not_mem_nil, false_and, exists_false,
    or_false, hloopback, hzero, hten, htwelve, hsixteen, hlocal, isPrivateOrLoopback, Ipv4Addr.isLoopback,
    Ipv4Addr.isPrivate, Ipv4Addr.isLinkLocal, Ipv4Addr.isUnspecified, Bool.or_eq_true, Bool.and_eq_true, beq_iff_eq,
    decide_eq_true_eq, Ipv4Addr.mk.injEq, UInt8.le_iff_toNat_le, ← UInt8.toNat_inj, UInt8.reduceToNat, or_assoc]

/-- The number below the first segment fits its bits. -/
theorem Ipv6Addr.lower_lt (ip : Ipv6Addr) : ip.lower < 2 ^ 112 := by
  have hsegment (i : ℕ) (hi : i < 8) : ip.segments[i].toNat < 2 ^ 16 := UInt16.toNat_lt _
  have h1 := hsegment 1 (by decide)
  have h2 := hsegment 2 (by decide)
  have h3 := hsegment 3 (by decide)
  have h4 := hsegment 4 (by decide)
  have h5 := hsegment 5 (by decide)
  have h6 := hsegment 6 (by decide)
  have h7 := hsegment 7 (by decide)
  unfold Ipv6Addr.lower
  omega

/-- An address of version 6 is told by its segments. -/
theorem Ipv6Addr.segments_eq_iff (ip : Ipv6Addr) (s0 s1 s2 s3 s4 s5 s6 s7 : UInt16) :
    ip.segments = #v[s0, s1, s2, s3, s4, s5, s6, s7] ↔
      ip.first = s0 ∧ ip.segments[1] = s1 ∧ ip.segments[2] = s2 ∧ ip.segments[3] = s3 ∧
        ip.segments[4] = s4 ∧ ip.segments[5] = s5 ∧ ip.segments[6] = s6 ∧ ip.segments[7] = s7 := by
  constructor
  · intro h
    simp only [Ipv6Addr.first, h]
    exact ⟨rfl, rfl, rfl, rfl, rfl, rfl, rfl, rfl⟩
  · rintro ⟨h0, h1, h2, h3, h4, h5, h6, h7⟩
    apply Vector.ext
    intro i hi
    interval_cases i
    · exact h0
    · exact h1
    · exact h2
    · exact h3
    · exact h4
    · exact h5
    · exact h6
    · exact h7

/-- The unspecified address is the one with the number zero. -/
theorem Ipv6Addr.isUnspecified_iff (ip : Ipv6Addr) : ip.isUnspecified = true ↔ ip.value = 0 := by
  simp only [Ipv6Addr.isUnspecified, beq_iff_eq, Ipv6Addr.segments_eq_iff, ← UInt16.toNat_inj, UInt16.reduceToNat,
    Ipv6Addr.value, Ipv6Addr.lower]
  omega

/-- The loopback address is the one with the number one. -/
theorem Ipv6Addr.isLoopback_iff (ip : Ipv6Addr) : ip.isLoopback = true ↔ ip.value = 1 := by
  have hlast : ip.segments[7].toNat < 2 ^ 16 := UInt16.toNat_lt _
  simp only [Ipv6Addr.isLoopback, beq_iff_eq, Ipv6Addr.segments_eq_iff, ← UInt16.toNat_inj, UInt16.reduceToNat,
    Ipv6Addr.value, Ipv6Addr.lower]
  omega

/-- The mask of the check tells the unique local block. -/
theorem Ipv6Addr.uniqueLocal_iff (ip : Ipv6Addr) :
    (ip.first &&& 0xfe00 == 0xfc00) = true ↔ uniqueLocalBlock6.Contains ip.value := by
  have hsegment : ip.first.toNat < 2 ^ (9 + 7) := UInt16.toNat_lt _
  have hmask := Block.contains_iff_and 0x7e 7 9 hsegment
  have hshift := Block.contains_shift 0xfc00 9 112 ip.lower_lt ip.first.toNat
  rw [uniqueLocalBlock6, Ipv6Addr.value, hshift]
  rw [beq_iff_eq, ← UInt16.toNat_inj, UInt16.toNat_and]
  exact hmask.symm

/-- The link-local block by its first segment. -/
theorem Ipv6Addr.linkLocal_iff (ip : Ipv6Addr) :
    linkLocalBlock6.Contains ip.value ↔ 0xfe80 ≤ ip.first.toNat ∧ ip.first.toNat < 0xfec0 := by
  have hshift := Block.contains_shift 0xfe80 6 112 ip.lower_lt ip.first.toNat
  rw [linkLocalBlock6, Ipv6Addr.value, hshift]
  exact Block.contains_iff_le_lt 0x3fa 6 ip.first.toNat

/-- What the check knows of an address of version 6. -/
theorem Ipv6Addr.isPrivateOrLoopback_iff (ip : Ipv6Addr) :
    isPrivateOrLoopback (.v6 ip) = true ↔
      ip.value = 1 ∨ ip.value = 0 ∨ ip.first = 0xfe80 ∨ uniqueLocalBlock6.Contains ip.value := by
  change (ip.isLoopback || ip.isUnspecified || ip.first == 0xfe80 || ip.first &&& 0xfe00 == 0xfc00) = true ↔ _
  rw [Bool.or_eq_true, Bool.or_eq_true, Bool.or_eq_true, ip.isLoopback_iff, ip.isUnspecified_iff, ip.uniqueLocal_iff,
    beq_iff_eq, or_assoc, or_assoc]

/-- The blocks of version 6. -/
theorem Ipv6Addr.exists_block_iff (ip : Ipv6Addr) :
    (∃ b ∈ internalBlocks6, b.Contains ip.value) ↔
      ip.value = 1 ∨ ip.value = 0 ∨ linkLocalBlock6.Contains ip.value ∨ uniqueLocalBlock6.Contains ip.value := by
  simp only [internalBlocks6, List.exists_mem_cons_iff, List.not_mem_nil, false_and, exists_false, or_false,
    Block.contains_single]

/-- The check knows no address that carries one of version 4. -/
theorem Ipv4Addr.not_isPrivateOrLoopback_toIpv6Mapped (ip : Ipv4Addr) :
    ¬ isPrivateOrLoopback (.v6 ip.toIpv6Mapped) = true := by
  simp [isPrivateOrLoopback, Ipv6Addr.isLoopback, Ipv6Addr.isUnspecified, Ipv4Addr.toIpv6Mapped]

/-- The check knows no link-local address outside one segment. -/
theorem Ipv6Addr.not_isPrivateOrLoopback_of_linkLocal {ip : Ipv6Addr} (hlocal : linkLocalBlock6.Contains ip.value)
    (hsegment : ip.first ≠ 0xfe80) : ¬ isPrivateOrLoopback (.v6 ip) = true := by
  rw [ip.isPrivateOrLoopback_iff]
  have hrange := ip.linkLocal_iff.mp hlocal
  have hvalue : ip.value = ip.first.toNat * 2 ^ 112 + ip.lower := rfl
  rintro (hone | hzero | hfe80 | hunique)
  · omega
  · omega
  · exact hsegment hfe80
  · have hupper := (Block.contains_shift 0xfc00 9 112 ip.lower_lt ip.first.toNat).mp hunique
    have hinterval := (Block.contains_iff_le_lt 0x7e 9 ip.first.toNat).mp hupper
    omega

/-- The check is right about an address exactly when it is not one of those it overlooks. -/
theorem isPrivateOrLoopback_iff (ip : IpAddr) : (isPrivateOrLoopback ip = true ↔ ip.Internal) ↔ ¬ ip.Overlooked := by
  cases ip with
  | v4 ip => simp only [IpAddr.Internal, IpAddr.Overlooked, ip.internal_iff, not_false_eq_true]
  | v6 ip =>
    simp only [IpAddr.Internal, IpAddr.Overlooked]
    constructor
    · rintro hright (⟨hlocal, hsegment⟩ | ⟨v4, hinternal, rfl⟩)
      · refine Ipv6Addr.not_isPrivateOrLoopback_of_linkLocal hlocal hsegment (hright.mpr (Or.inl ?_))
        exact ip.exists_block_iff.mpr (Or.inr (Or.inr (Or.inl hlocal)))
      · exact v4.not_isPrivateOrLoopback_toIpv6Mapped (hright.mpr (Or.inr ⟨v4, hinternal, rfl⟩))
    · intro hknown
      obtain ⟨hlocal, hcarries⟩ := not_or.mp hknown
      have hsegment : linkLocalBlock6.Contains ip.value ↔ ip.first = 0xfe80 := by
        constructor
        · intro hblock
          by_contra hne
          exact hlocal ⟨hblock, hne⟩
        · intro heq
          rw [ip.linkLocal_iff, heq]
          decide
      rw [ip.isPrivateOrLoopback_iff, ip.exists_block_iff, hsegment, or_iff_left hcarries]

/-- The text of an address of version 4 in characters. -/
theorem Ipv4Addr.display_toList (ip : Ipv4Addr) :
    ip.display.toList = Nat.toDigits 10 ip.a.toNat ++ '.' :: (Nat.toDigits 10 ip.b.toNat ++ '.' ::
      (Nat.toDigits 10 ip.c.toNat ++ '.' :: Nat.toDigits 10 ip.d.toNat)) := by
  simp [Ipv4Addr.display, Nat.repr]

/-- Different addresses of version 4 have different texts. -/
theorem Ipv4Addr.display_injective : Function.Injective Ipv4Addr.display := by
  have front {m n : ℕ} {rest rest' : List Char}
      (h : Nat.toDigits 10 m ++ '.' :: rest = Nat.toDigits 10 n ++ '.' :: rest') : m = n ∧ rest = rest' := by
    have hdot (k : ℕ) : '.' ∉ Nat.toDigits 10 k := fun hmem => absurd (isDigit_of_mem_digits hmem) (by decide)
    obtain ⟨hsame, hrest⟩ := append_cons_inj (hdot m) (hdot n) h
    exact ⟨toDigits_injective hsame, hrest⟩
  intro x y h
  have htext : x.display.toList = y.display.toList := congrArg String.toList h
  rw [x.display_toList, y.display_toList] at htext
  obtain ⟨ha, htext⟩ := front htext
  obtain ⟨hb, htext⟩ := front htext
  obtain ⟨hc, htext⟩ := front htext
  have hd := toDigits_injective htext
  cases x
  cases y
  simp only [Ipv4Addr.mk.injEq, ← UInt8.toNat_inj]
  exact ⟨ha, hb, hc, hd⟩

/-- The text of an address of version 4 has digits and dots only. -/
theorem Ipv4Addr.isDigit_or_dot {ip : Ipv4Addr} {c : Char} (h : c ∈ ip.display.toList) : c.isDigit = true ∨ c = '.' := by
  rw [ip.display_toList] at h
  simp only [List.mem_append, List.mem_cons] at h
  rcases h with h | h | h | h | h | h | h
  · exact Or.inl (isDigit_of_mem_digits h)
  · exact Or.inr h
  · exact Or.inl (isDigit_of_mem_digits h)
  · exact Or.inr h
  · exact Or.inl (isDigit_of_mem_digits h)
  · exact Or.inr h
  · exact Or.inl (isDigit_of_mem_digits h)

/-- Lowering the letters of an address of version 4 changes nothing. -/
theorem Ipv4Addr.map_toLower_display (ip : Ipv4Addr) : ip.display.map Char.toLower = ip.display := by
  apply String.toList_inj.mp
  rw [String.toList_map]
  refine (List.map_congr_left fun c hc => ?_).trans (List.map_id _)
  rcases Ipv4Addr.isDigit_or_dot hc with hdigit | rfl
  · have hbounds : 48 ≤ c.toNat ∧ c.toNat ≤ 57 := by simpa [Char.isDigit, UInt32.le_iff_toNat_le] using hdigit
    have hupper : ¬ (c.val ≥ 'A'.val ∧ c.val ≤ 'Z'.val) := by
      have hvalue : c.val.toNat = c.toNat := rfl
      simp [UInt32.le_iff_toNat_le]
      omega
    exact dif_neg hupper
  · rfl

/-- The only address of version 4 among the names that are never called is link-local. -/
theorem Ipv4Addr.isPrivateOrLoopback_of_mem_badHosts {ip : Ipv4Addr} (h : ip.display ∈ badHosts) :
    isPrivateOrLoopback (.v4 ip) = true := by
  have hletter {name : String} {c : Char} (hname : ip.display = name) (hc : c ∈ name.toList) :
      c.isDigit = true ∨ c = '.' := Ipv4Addr.isDigit_or_dot (hname ▸ hc)
  simp only [badHosts, List.mem_cons, List.not_mem_nil, or_false] at h
  rcases h with h | h | h
  · exact absurd (hletter h (by decide : 'l' ∈ "localhost".toList)) (by decide)
  · exact absurd (hletter h (by decide : 'm' ∈ "metadata.google.internal".toList)) (by decide)
  · have hmetadata : ip.display = (⟨169, 254, 169, 254⟩ : Ipv4Addr).display := h.trans (by decide)
    rw [Ipv4Addr.display_injective hmetadata]
    decide

/-- An address of version 4 does not end like a name of the private zone. -/
theorem Ipv4Addr.display_not_internal (ip : Ipv4Addr) : endsWith ip.display ".internal" = false := by
  rw [endsWith, Bool.eq_false_iff, Ne, List.isSuffixOf_iff_suffix]
  intro hsuffix
  exact absurd (Ipv4Addr.isDigit_or_dot (hsuffix.subset (by decide : 'i' ∈ ".internal".toList))) (by decide)

/-- Nothing that is an address in brackets ends like a name. -/
theorem bracketed_not_bad (text : String) :
    ("[" ++ text ++ "]").map Char.toLower ∉ badHosts ∧
      endsWith (("[" ++ text ++ "]").map Char.toLower) ".internal" = false := by
  have hlast : (("[" ++ text ++ "]").map Char.toLower).toList = ("[" ++ text).toList.map Char.toLower ++ [']'] := by
    simp
  constructor
  · intro hbad
    have hbracket {name : String} (h : ("[" ++ text ++ "]").map Char.toLower = name) : ']' ∈ name.toList := by
      rw [← h, hlast]
      exact List.mem_append_right _ (List.mem_singleton_self _)
    simp only [badHosts, List.mem_cons, List.not_mem_nil, or_false] at hbad
    rcases hbad with h | h | h
    · exact absurd (hbracket h) (by decide)
    · exact absurd (hbracket h) (by decide)
    · exact absurd (hbracket h) (by decide)
  · rw [endsWith, hlast, Bool.eq_false_iff, Ne, List.isSuffixOf_iff_suffix]
    intro hsuffix
    have hsame := hsuffix.getLast (by decide)
    simp at hsame

/-- A URL with an address as its host is accepted when the address is not private. -/
theorem validateCallbackUrl_ofIp {parseIp : String → Option IpAddr} {display : IpAddr → String}
    {writeIpv6 : Ipv6Addr → String} {scheme : String} (hweb : scheme = "http" ∨ scheme = "https") (ip : IpAddr) :
    validateCallbackUrl parseIp display (.ofIp writeIpv6 scheme ip) = .ok () ↔ isPrivateOrLoopback ip = false := by
  rw [validateCallbackUrl_eq_ok_iff]
  cases ip with
  | v4 ip =>
    simp only [Url.ofIp, Url.ip, hweb, true_and, Option.some.injEq, exists_eq_left', forall_eq', ip.map_toLower_display]
    constructor
    · rintro ⟨-, -, hpublic⟩
      exact hpublic
    · intro hpublic
      refine ⟨fun hbad => ?_, ip.display_not_internal, hpublic⟩
      exact Bool.false_ne_true (hpublic.symm.trans (Ipv4Addr.isPrivateOrLoopback_of_mem_badHosts hbad))
  | v6 ip =>
    have hbracketed := bracketed_not_bad (writeIpv6 ip)
    simp only [Url.ofIp, Url.ip, hweb, true_and, Option.some.injEq, exists_eq_left', forall_eq', hbracketed,
      not_false_eq_true]

/-- The check turns away every URL with an internal address as its host and accepts every other one, exactly when the
address is not one of those it overlooks. -/
theorem validateCallbackUrl_literal_iff (parseIp : String → Option IpAddr) (display : IpAddr → String)
    (writeIpv6 : Ipv6Addr → String) {scheme : String} (hweb : scheme = "http" ∨ scheme = "https") (ip : IpAddr) :
    ((ip.Internal → ∃ msg, validateCallbackUrl parseIp display (.ofIp writeIpv6 scheme ip) = .error msg) ∧
        (¬ ip.Internal → validateCallbackUrl parseIp display (.ofIp writeIpv6 scheme ip) = .ok ())) ↔
      ¬ ip.Overlooked := by
  have hok := @validateCallbackUrl_ofIp parseIp display writeIpv6 scheme hweb ip
  rw [← isPrivateOrLoopback_iff]
  constructor
  · rintro ⟨hinternal, hpublic⟩
    constructor
    · intro hprivate
      by_contra hnot
      exact absurd (hok.mp (hpublic hnot)) (ne_false_of_eq_true hprivate)
    · intro hin
      obtain ⟨msg, herror⟩ := hinternal hin
      by_contra hnot
      have haccepted := hok.mpr (Bool.eq_false_iff.mpr hnot)
      rw [herror] at haccepted
      cases haccepted
  · intro hright
    constructor
    · intro hin
      cases hresult : validateCallbackUrl parseIp display (.ofIp writeIpv6 scheme ip) with
      | error msg => exact ⟨msg, rfl⟩
      | ok value => exact absurd (hok.mp hresult) (ne_false_of_eq_true (hright.mpr hin))
    · intro hnot
      exact hok.mpr (Bool.eq_false_iff.mpr (mt hright.mp hnot))

/-- A public address is accepted. -/
theorem validateCallbackUrl_literal_iff_public :
    ((IpAddr.v4 ⟨93, 184, 216, 34⟩).Internal →
        ∃ msg, validateCallbackUrl (fun _ => none) (fun _ => "") (.ofIp (fun _ => "") "https" (.v4 ⟨93, 184, 216, 34⟩)) =
          .error msg) ∧
      (¬ (IpAddr.v4 ⟨93, 184, 216, 34⟩).Internal →
        validateCallbackUrl (fun _ => none) (fun _ => "") (.ofIp (fun _ => "") "https" (.v4 ⟨93, 184, 216, 34⟩)) =
          .ok ()) :=
  (validateCallbackUrl_literal_iff _ _ _ (Or.inr rfl) _).mpr fun h => h

/-- The address `fe81::1`. -/
def linkLocalAddr : IpAddr := .v6 ⟨#v[0xfe81, 0, 0, 0, 0, 0, 0, 1]⟩

/-- The address `::ffff:169.254.169.254`. -/
def carriedMetadata : IpAddr := .v6 (Ipv4Addr.toIpv6Mapped ⟨169, 254, 169, 254⟩)

/-- A link-local address and an address that carries the one of the metadata service are internal, and both are
accepted. -/
theorem internal_address_accepted :
    (linkLocalAddr.Internal ∧
        validateCallbackUrl (fun _ => none) (fun _ => "") (.ofIp (fun _ => "fe81::1") "http" linkLocalAddr) = .ok ()) ∧
      carriedMetadata.Internal ∧
        validateCallbackUrl (fun _ => none) (fun _ => "")
          (.ofIp (fun _ => "::ffff:a9fe:a9fe") "http" carriedMetadata) = .ok () := by
  have hlocal : linkLocalAddr.Internal := Or.inl ⟨linkLocalBlock6, by decide, by decide +kernel⟩
  have hcarried : carriedMetadata.Internal := Or.inr ⟨_, (Ipv4Addr.internal_iff _).mpr (by decide), rfl⟩
  exact ⟨⟨hlocal, by decide +kernel⟩, hcarried, by decide +kernel⟩

end ZeroCode.Api
