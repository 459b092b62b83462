import Amatl.Security

/-! Which IPv6 addresses the check rejects: those of the listed blocks, and of those that
embed a rejected IPv4 address the mapped ones. -/

namespace Amatl

open Net

def octetPair (high low : UInt8) : UInt16 := high.toUInt16 <<< 8 ||| low.toUInt16

def mappedAddress (x : Ipv4Addr) : Ipv6Addr where
  segments := [0, 0, 0, 0, 0, 0xffff, octetPair x.a x.b, octetPair x.c x.d]
  size := rfl

def compatibleAddress (x : Ipv4Addr) : Ipv6Addr where
  segments := [0, 0, 0, 0, 0, 0, octetPair x.a x.b, octetPair x.c x.d]
  size := rfl

/-- An address as a number of 128 bits. -/
def addressValue (x : Ipv6Addr) : Nat :=
  x.segments.foldl (fun value segment => value * 2 ^ 16 + segment.toNat) 0

/-- The addresses that agree with the first bits of the network. -/
structure AddressBlock where
  network : Nat
  bits : Nat

def AddressBlock.contains (block : AddressBlock) (x : Ipv6Addr) : Bool :=
  addressValue x / 2 ^ (128 - block.bits) == block.network / 2 ^ (128 - block.bits)

/-- `::1`, `::`, `ff00::/8`, `fc00::/7`, `fe80::/10` and `2001:db8::/32`. -/
def listedBlocks : List AddressBlock :=
  [⟨1, 128⟩, ⟨0, 128⟩, ⟨0xff00 * 2 ^ 112, 8⟩, ⟨0xfc00 * 2 ^ 112, 7⟩, ⟨0xfe80 * 2 ^ 112, 10⟩,
    ⟨0x20010db8 * 2 ^ 96, 32⟩]

theorem octetPair_toNat (high low : UInt8) :
    (octetPair high low).toNat = high.toNat * 2 ^ 8 + low.toNat := by
  have hhigh := high.toNat_lt
  have hlow := low.toNat_lt
  have shifted : (high.toUInt16 <<< 8).toNat = high.toNat <<< 8 := by
    rw [UInt16.toNat_shiftLeft]
    simp only [UInt8.toNat_toUInt16, Nat.shiftLeft_eq]
    change high.toNat * 2 ^ 8 % 2 ^ 16 = high.toNat * 2 ^ 8
    omega
  rw [octetPair, UInt16.toNat_or, shifted, UInt8.toNat_toUInt16,
    ← Nat.shiftLeft_add_eq_or_of_lt hlow, Nat.shiftLeft_eq]

theorem octetPair_high (high low : UInt8) : (octetPair high low >>> 8).toUInt8 = high := by
  have hhigh := high.toNat_lt
  have hlow := low.toNat_lt
  apply UInt8.toNat_inj.mp
  rw [UInt16.toNat_toUInt8, UInt16.toNat_shiftRight, octetPair_toNat, Nat.shiftRight_eq_div_pow]
  change (high.toNat * 2 ^ 8 + low.toNat) / 2 ^ 8 % 2 ^ 8 = high.toNat
  omega

theorem octetPair_low (high low : UInt8) : (octetPair high low).toUInt8 = low := by
  have hlow := low.toNat_lt
  apply UInt8.toNat_inj.mp
  rw [UInt16.toNat_toUInt8, octetPair_toNat]
  omega

theorem mappedAddress_toIpv4Mapped (x : Ipv4Addr) : (mappedAddress x).toIpv4Mapped = some x := by
  simp [mappedAddress, Ipv6Addr.toIpv4Mapped, octetPair_high, octetPair_low]

theorem publicV6_mappedAddress (x : Ipv4Addr) : publicV6 (mappedAddress x) = publicV4 x := by
  rw [publicV6, mappedAddress_toIpv4Mapped]

theorem octetPair_eq_iff (high low value : UInt8) :
    octetPair high low = value.toUInt16 ↔ high = 0 ∧ low = value := by
  have hhigh := high.toNat_lt
  have hlow := low.toNat_lt
  have hvalue := value.toNat_lt
  rw [← UInt16.toNat_inj, octetPair_toNat, UInt8.toNat_toUInt16, ← UInt8.toNat_inj,
    ← UInt8.toNat_inj]
  have zero : (0 : UInt8).toNat = 0 := rfl
  omega

theorem toIpv4Mapped_eq_none {x : Ipv6Addr} (h : x.segment 0 ≠ 0 ∨ x.segment 5 ≠ 0xffff) :
    x.toIpv4Mapped = none := by
  unfold Ipv6Addr.toIpv4Mapped
  split
  · rename_i segments
    simp [Ipv6Addr.segment, segments] at h
  · rfl

theorem publicV6_low {x : Ipv6Addr} {high low : UInt16}
    (hx : x.segments = [0, 0, 0, 0, 0, 0, high, low]) :
    publicV6 x = false ↔ high = 0 ∧ (low = 1 ∨ low = 0) := by
  have unmapped : x.toIpv4Mapped = none := by
    refine toIpv4Mapped_eq_none (Or.inr ?_)
    rw [Ipv6Addr.segment, hx]
    exact (by decide : (0 : UInt16) ≠ 0xffff)
  have first : x.segment 0 = 0 := by rw [Ipv6Addr.segment, hx]; rfl
  rw [publicV6, unmapped, Ipv6Addr.isLoopback, Ipv6Addr.isUnspecified, Ipv6Addr.isMulticast, first,
    hx]
  by_cases hhigh : high = 0
  · by_cases hone : low = 1
    · simp [hhigh, hone]
    · simp [hhigh, hone]
  · simp [hhigh]

theorem publicV6_compatibleAddress (x : Ipv4Addr) :
    publicV6 (compatibleAddress x) = false ↔ x = ⟨0, 0, 0, 0⟩ ∨ x = ⟨0, 0, 0, 1⟩ := by
  have high : octetPair x.a x.b = 0 ↔ x.a = 0 ∧ x.b = 0 := octetPair_eq_iff x.a x.b 0
  have zero : octetPair x.c x.d = 0 ↔ x.c = 0 ∧ x.d = 0 := octetPair_eq_iff x.c x.d 0
  have one : octetPair x.c x.d = 1 ↔ x.c = 0 ∧ x.d = 1 := octetPair_eq_iff x.c x.d 1
  rw [publicV6_low rfl, high, zero, one]
  obtain ⟨a, b, c, d⟩ := x
  simp only [Ipv4Addr.mk.injEq]
  constructor
  · rintro ⟨⟨rfl, rfl⟩, ⟨rfl, rfl⟩ | ⟨rfl, rfl⟩⟩ <;> simp
  · rintro (⟨rfl, rfl, rfl, rfl⟩ | ⟨rfl, rfl, rfl, rfl⟩) <;> simp

theorem exists_segments (x : Ipv6Addr) : ∃ s0 s1 s2 s3 s4 s5 s6 s7,
    x.segments = [s0, s1, s2, s3, s4, s5, s6, s7] := by
  obtain ⟨segments, size⟩ := x
  match segments, size with
  | [s0, s1, s2, s3, s4, s5, s6, s7], _ => exact ⟨s0, s1, s2, s3, s4, s5, s6, s7, rfl⟩

theorem addressValue_eq (x : Ipv6Addr) : ∃ low < 2 ^ 96,
    addressValue x = (x.segment 0).toNat * 2 ^ 112 + (x.segment 1).toNat * 2 ^ 96 + low := by
  obtain ⟨s0, s1, s2, s3, s4, s5, s6, s7, hx⟩ := exists_segments x
  have h2 := s2.toNat_lt
  have h3 := s3.toNat_lt
  have h4 := s4.toNat_lt
  have h5 := s5.toNat_lt
  have h6 := s6.toNat_lt
  have h7 := s7.toNat_lt
  refine ⟨s2.toNat * 2 ^ 80 + s3.toNat * 2 ^ 64 + s4.toNat * 2 ^ 48 + s5.toNat * 2 ^ 32 +
    s6.toNat * 2 ^ 16 + s7.toNat, by omega, ?_⟩
  simp only [addressValue, Ipv6Addr.segment, hx, List.foldl_cons, List.foldl_nil, List.getD_cons_zero,
    List.getD_cons_succ]
  omega

theorem segments_of_small {x : Ipv6Addr} {value : Nat} (small : value < 2 ^ 16)
    (h : addressValue x = value) : x.segments = [0, 0, 0, 0, 0, 0, 0, UInt16.ofNat value] := by
  obtain ⟨s0, s1, s2, s3, s4, s5, s6, s7, hx⟩ := exists_segments x
  have h0 := s0.toNat_lt
  simp only [addressValue, hx, List.foldl_cons, List.foldl_nil] at h
  have zero (s : UInt16) (hs : s.toNat = 0) : s = 0 := UInt16.toNat_inj.mp hs
  have last : s7 = UInt16.ofNat value := by
    rw [← UInt16.ofNat_toNat (x := s7)]
    congr 1
    omega
  rw [hx, last, zero s0 (by omega), zero s1 (by omega), zero s2 (by omega), zero s3 (by omega),
    zero s4 (by omega), zero s5 (by omega), zero s6 (by omega)]

theorem masked_of_div {x : UInt16} {network mask width : Nat}
    (all : ∀ low < width, UInt16.ofNat (network + low) &&& UInt16.ofNat mask = UInt16.ofNat network)
    (below : network ≤ x.toNat) (above : x.toNat < network + width) :
    x &&& UInt16.ofNat mask = UInt16.ofNat network := by
  have hx : x = UInt16.ofNat (network + (x.toNat - network)) := by
    rw [Nat.add_sub_cancel' below, UInt16.ofNat_toNat]
  rw [hx]
  exact all _ (by omega)

theorem publicV6_of_first {x : Ipv6Addr} (nonzero : x.segment 0 ≠ 0)
    (listed : x.isMulticast = true ∨ x.segment 0 &&& 0xfe00 = 0xfc00 ∨
      x.segment 0 &&& 0xffc0 = 0xfe80 ∨ (x.segment 0 = 0x2001 ∧ x.segment 1 = 0x0db8)) :
    publicV6 x = false := by
  rw [publicV6, toIpv4Mapped_eq_none (Or.inl nonzero)]
  rcases listed with multicast | unique | link | documentation
  · simp [multicast]
  · simp [unique]
  · simp [link]
  · simp [documentation]

theorem listedBlocks_rejected {block : AddressBlock} (mem : block ∈ listedBlocks) {x : Ipv6Addr}
    (inside : block.contains x = true) : publicV6 x = false := by
  obtain ⟨low, hlow, value⟩ := addressValue_eq x
  have h0 := (x.segment 0).toNat_lt
  have h1 := (x.segment 1).toNat_lt
  have nonzero (positive : 0 < (x.segment 0).toNat) : x.segment 0 ≠ 0 := by
    intro zero
    rw [zero] at positive
    exact absurd positive (by decide)
  rw [AddressBlock.contains, beq_iff_eq, value] at inside
  simp only [listedBlocks, List.mem_cons, List.not_mem_nil, or_false] at mem
  rcases mem with rfl | rfl | rfl | rfl | rfl | rfl
  · have one : x.segments = [0, 0, 0, 0, 0, 0, 0, UInt16.ofNat 1] := by
      refine segments_of_small (by decide) ?_
      simp only at inside
      omega
    exact (publicV6_low one).mpr ⟨rfl, .inl rfl⟩
  · have zero : x.segments = [0, 0, 0, 0, 0, 0, 0, UInt16.ofNat 0] := by
      refine segments_of_small (by decide) ?_
      simp only at inside
      omega
    exact (publicV6_low zero).mpr ⟨rfl, .inr rfl⟩
  · have range : 0xff00 ≤ (x.segment 0).toNat ∧ (x.segment 0).toNat < 0xff00 + 256 := by
      simp only at inside
      omega
    have masked : x.segment 0 &&& 0xff00 = 0xff00 :=
      masked_of_div (by decide +kernel) range.1 range.2
    exact publicV6_of_first (nonzero (by omega)) (.inl (by simp [Ipv6Addr.isMulticast, masked]))
  · have range : 0xfc00 ≤ (x.segment 0).toNat ∧ (x.segment 0).toNat < 0xfc00 + 512 := by
      simp only at inside
      omega
    exact publicV6_of_first (nonzero (by omega))
      (.inr (.inl (masked_of_div (by decide +kernel) range.1 range.2)))
  · have range : 0xfe80 ≤ (x.segment 0).toNat ∧ (x.segment 0).toNat < 0xfe80 + 64 := by
      simp only at inside
      omega
    exact publicV6_of_first (nonzero (by omega))
      (.inr (.inr (.inl (masked_of_div (by decide +kernel) range.1 range.2))))
  · have parts : (x.segment 0).toNat = 0x2001 ∧ (x.segment 1).toNat = 0x0db8 := by
      simp only at inside
      omega
    refine publicV6_of_first (nonzero (by omega)) (.inr (.inr (.inr ⟨?_, ?_⟩)))
    · exact UInt16.toNat_inj.mp parts.1
    · exact UInt16.toNat_inj.mp parts.2

/-- Of a rejected IPv4 address the mapped embedding is always rejected, and both are if and
only if it is one of the two whose compatible embedding is `::` or `::1`; the listed blocks are
rejected as a whole. -/
theorem embeddings_rejected (x : Ipv4Addr) (rejected : isPublicIp (.v4 x) = false) :
    isPublicIp (.v6 (mappedAddress x)) = false ∧
    ((isPublicIp (.v6 (mappedAddress x)) = false ∧
        isPublicIp (.v6 (compatibleAddress x)) = false) ↔
      x = ⟨0, 0, 0, 0⟩ ∨ x = ⟨0, 0, 0, 1⟩) ∧
    ∀ block ∈ listedBlocks, ∀ address, block.contains address = true →
      isPublicIp (.v6 address) = false := by
  have mapped : isPublicIp (.v6 (mappedAddress x)) = false := by
    rw [isPublicIp, publicV6_mappedAddress]
    exact rejected
  refine ⟨mapped, ?_, fun block mem address inside => listedBlocks_rejected mem inside⟩
  rw [← publicV6_compatibleAddress x]
  exact and_iff_right mapped

theorem unspecified_rejected :
    isPublicIp (.v4 ⟨0, 0, 0, 0⟩) = false ∧
      isPublicIp (.v6 (compatibleAddress ⟨0, 0, 0, 0⟩)) = false := by
  have rejected : isPublicIp (.v4 ⟨0, 0, 0, 0⟩) = false := by decide
  exact ⟨rejected, ((embeddings_rejected _ rejected).2.1.mpr (.inl rfl)).2⟩

/-- The compatible embedding of a private address passes. -/
theorem compatiblePrivate_public :
    isPublicIp (.v4 ⟨10, 0, 0, 1⟩) = false ∧
      isPublicIp (.v6 (compatibleAddress ⟨10, 0, 0, 1⟩)) = true := by
  decide

end Amatl
