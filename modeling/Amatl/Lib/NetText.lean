import Amatl.Lib.Net
import Mathlib.Data.List.Basic
import Mathlib.Data.List.TakeWhile

/-! The `Display` and `Debug` texts of addresses and of lists of them, and that
these texts determine the addresses. -/

namespace Text

theorem digitValue_digitChar : ∀ radix ≤ 16, ∀ d < radix,
    digitValue radix (Nat.digitChar d) = some d := by
  decide

theorem digitsValue_append {radix : Nat} (s : List Char) (c : Char) {acc : Option Nat} {n d : Nat}
    (hs : digitsValue radix s acc = some n) (hc : digitValue radix c = some d) :
    digitsValue radix (s ++ [c]) acc = some (n * radix + d) := by
  induction s generalizing acc with
  | nil =>
    simp only [digitsValue] at hs
    simp [digitsValue, hc, hs]
  | cons e s ih =>
    simp only [digitsValue, List.cons_append] at hs ⊢
    split at hs
    · cases hs
    · exact ih hs

theorem digitsValue_toDigits {radix : Nat} (hlow : 1 < radix) (hhigh : radix ≤ 16) (n : Nat) :
    digitsValue radix (Nat.toDigits radix n) none = some n := by
  induction n using Nat.strong_induction_on with
  | _ n ih =>
    by_cases h : n < radix
    · simp [Nat.toDigits_of_lt_base h, digitsValue, digitValue_digitChar radix hhigh n h]
    · have hdiv : n / radix < n := Nat.div_lt_self (by omega) hlow
      have hmod : n % radix < radix := Nat.mod_lt _ (by omega)
      rw [Nat.toDigits_of_base_le hlow (by omega)]
      rw [digitsValue_append _ _ (ih _ hdiv) (digitValue_digitChar radix hhigh _ hmod)]
      rw [Nat.div_add_mod']

theorem digitValue_of_mem_toDigits {radix : Nat} (hlow : 1 < radix) (hhigh : radix ≤ 16) {n : Nat}
    {c : Char} (hc : c ∈ Nat.toDigits radix n) : (digitValue radix c).isSome = true := by
  induction n using Nat.strong_induction_on with
  | _ n ih =>
    by_cases h : n < radix
    · rw [Nat.toDigits_of_lt_base h, List.mem_singleton] at hc
      rw [hc, digitValue_digitChar radix hhigh n h]
      rfl
    · rw [Nat.toDigits_of_base_le hlow (by omega), List.mem_append, List.mem_singleton] at hc
      rcases hc with hc | hc
      · exact ih _ (Nat.div_lt_self (by omega) hlow) hc
      · rw [hc, digitValue_digitChar radix hhigh _ (Nat.mod_lt _ (by omega))]
        rfl

theorem toDigits_injective {radix : Nat} (hlow : 1 < radix) (hhigh : radix ≤ 16) :
    Function.Injective (Nat.toDigits radix) := by
  intro m n h
  have hm := digitsValue_toDigits hlow hhigh m
  rw [h, digitsValue_toDigits hlow hhigh n] at hm
  exact (Option.some.inj hm).symm

theorem append_cons_inj_left {α : Type*} {a : α} {x x' y y' : List α} (hx : a ∉ x) (hx' : a ∉ x')
    (h : x ++ a :: y = x' ++ a :: y') : x = x' ∧ y = y' := by
  induction x generalizing x' with
  | nil =>
    rcases x' with _ | ⟨b, x'⟩
    · exact ⟨rfl, by simpa using h⟩
    · exact absurd (by simp [(List.cons.inj h).1]) hx'
  | cons c x ih =>
    rcases x' with _ | ⟨b, x'⟩
    · exact absurd (by simp [(List.cons.inj h).1]) hx
    · obtain ⟨hhead, htail⟩ := List.cons.inj h
      obtain ⟨hx, hy⟩ := ih (fun hm => hx (by simp [hm])) (fun hm => hx' (by simp [hm])) htail
      exact ⟨by rw [hhead, hx], hy⟩

theorem append_cons_inj_right {α : Type*} {a : α} {x x' y y' : List α} (hy : a ∉ y) (hy' : a ∉ y')
    (h : x ++ a :: y = x' ++ a :: y') : x = x' ∧ y = y' := by
  have hrev : y.reverse ++ a :: x.reverse = y'.reverse ++ a :: x'.reverse := by
    simpa using congrArg List.reverse h
  obtain ⟨h₁, h₂⟩ := append_cons_inj_left (by simpa using hy) (by simpa using hy') hrev
  exact ⟨List.reverse_injective h₂, List.reverse_injective h₁⟩

/-- Pieces without the first character of the separator are recovered from
their joined text. -/
theorem join_injective {c : Char} {sep : List Char} {ws vs : List (List Char)} (hws : ws ≠ [])
    (hvs : vs ≠ []) (hw : ∀ w ∈ ws, c ∉ w) (hv : ∀ v ∈ vs, c ∉ v)
    (h : join (c :: sep) ws = join (c :: sep) vs) : ws = vs := by
  induction ws generalizing vs with
  | nil => exact absurd rfl hws
  | cons w ws ih =>
    rcases vs with _ | ⟨v, vs⟩
    · exact absurd rfl hvs
    have hcw : c ∉ w := hw w (by simp)
    have hcv : c ∉ v := hv v (by simp)
    rcases ws with _ | ⟨w₂, ws⟩ <;> rcases vs with _ | ⟨v₂, vs⟩
    · simpa [join] using h
    · simp only [join] at h
      exact absurd (by simp [h]) hcw
    · simp only [join] at h
      exact absurd (by simp [← h]) hcv
    · simp only [join, List.append_assoc, List.cons_append] at h
      obtain ⟨hhead, htail⟩ := append_cons_inj_left hcw hcv h
      have hrest := ih (by simp) (by simp) (fun u hu => hw u (List.mem_cons_of_mem _ hu))
        (fun u hu => hv u (List.mem_cons_of_mem _ hu)) (List.append_cancel_left htail)
      rw [hhead, hrest]

theorem mem_join {c : Char} {sep : List Char} {ws : List (List Char)} (h : c ∈ join sep ws) :
    c ∈ sep ∨ ∃ w ∈ ws, c ∈ w := by
  induction ws with
  | nil => simp [join] at h
  | cons w ws ih =>
    rcases ws with _ | ⟨v, ws⟩
    · exact Or.inr ⟨w, by simp, by simpa [join] using h⟩
    · simp only [join, List.mem_append] at h
      rcases h with (h | h) | h
      · exact Or.inr ⟨w, by simp, h⟩
      · exact Or.inl h
      · rcases ih h with h | ⟨u, hu, hc⟩
        · exact Or.inl h
        · exact Or.inr ⟨u, List.mem_cons_of_mem _ hu, hc⟩

end Text

namespace Net

open Text

def Ipv4Addr.display (x : Ipv4Addr) : List Char :=
  join ['.'] ([x.a, x.b, x.c, x.d].map (fun octet => Nat.toDigits 10 octet.toNat))

structure Span where
  start : Nat
  len : Nat
  deriving DecidableEq, Repr

/-- The first of the longest runs of zero segments, as the standard library
finds it: `current` ends at the segment read last. -/
def zeroesFrom (index : Nat) (longest current : Span) : List UInt16 → Span
  | [] => longest
  | segment :: rest =>
    if segment = 0 then
      let current : Span := ⟨if current.len = 0 then index else current.start, current.len + 1⟩
      zeroesFrom (index + 1) (if longest.len < current.len then current else longest) current rest
    else zeroesFrom (index + 1) longest ⟨0, 0⟩ rest

def zeroes (segments : List UInt16) : Span := zeroesFrom 0 ⟨0, 0⟩ ⟨0, 0⟩ segments

def hexPieces (segments : List UInt16) : List (List Char) :=
  segments.map (fun segment => Nat.toDigits 16 segment.toNat)

def Ipv6Addr.display (x : Ipv6Addr) : List Char :=
  match x.toIpv4Mapped with
  | some mapped => "::ffff:".toList ++ mapped.display
  | none =>
    let zeroes := zeroes x.segments
    if 1 < zeroes.len then
      join [':'] (hexPieces (x.segments.take zeroes.start)) ++ [':', ':'] ++
        join [':'] (hexPieces (x.segments.drop (zeroes.start + zeroes.len)))
    else join [':'] (hexPieces x.segments)

/-- A DNS answer has neither flow information nor a scope, so none is printed. -/
def SocketAddr.display (x : SocketAddr) : List Char :=
  match x.ip with
  | .v4 address => address.display ++ ':' :: Nat.toDigits 10 x.port.toNat
  | .v6 address => '[' :: address.display ++ ']' :: ':' :: Nat.toDigits 10 x.port.toNat

/-- `format!("{addresses:?}")`. -/
def debugAddresses (addresses : List SocketAddr) : List Char :=
  '[' :: join [',', ' '] (addresses.map SocketAddr.display) ++ [']']

theorem notMem_toDigits {radix : Nat} (hlow : 1 < radix) (hhigh : radix ≤ 16) (n : Nat) {c : Char}
    (hc : digitValue radix c = none) : c ∉ Nat.toDigits radix n := by
  intro h
  have hsome := digitValue_of_mem_toDigits hlow hhigh h
  simp [hc] at hsome

theorem notMem_decimal (n : Nat) {c : Char} (hc : digitValue 10 c = none) :
    c ∉ Nat.toDigits 10 n :=
  notMem_toDigits (by decide) (by decide) n hc

theorem notMem_hexPieces {c : Char} (hc : digitValue 16 c = none) {segments : List UInt16} :
    ∀ piece ∈ hexPieces segments, c ∉ piece := by
  intro piece hp
  obtain ⟨segment, -, rfl⟩ := List.mem_map.mp hp
  exact notMem_toDigits (by decide) (by decide) _ hc

theorem hexPieces_ne_nil {segments : List UInt16} : ∀ piece ∈ hexPieces segments, piece ≠ [] := by
  intro piece hp
  obtain ⟨segment, -, rfl⟩ := List.mem_map.mp hp
  exact Nat.toDigits_ne_nil

theorem hexPieces_injective : Function.Injective hexPieces :=
  List.map_injective_iff.mpr (fun _ _ h =>
    UInt16.toNat_inj.mp (toDigits_injective (by decide) (by decide) h))

theorem Ipv4Addr.display_injective : Function.Injective Ipv4Addr.display := by
  intro x y h
  have hpieces : ∀ z : Ipv4Addr,
      ∀ piece ∈ [z.a, z.b, z.c, z.d].map (fun octet => Nat.toDigits 10 octet.toNat),
        '.' ∉ piece := by
    intro z piece hp
    obtain ⟨octet, -, rfl⟩ := List.mem_map.mp hp
    exact notMem_decimal _ (by decide)
  have hlist := join_injective (by simp) (by simp) (hpieces x) (hpieces y) h
  have hinj : ∀ m n : UInt8, Nat.toDigits 10 m.toNat = Nat.toDigits 10 n.toNat → m = n :=
    fun m n he => UInt8.toNat_inj.mp (toDigits_injective (by decide) (by decide) he)
  simp only [List.map_cons, List.map_nil, List.cons.injEq, and_true] at hlist
  obtain ⟨ha, hb, hc, hd⟩ := hlist
  exact Ipv4Addr.ext (hinj _ _ ha) (hinj _ _ hb) (hinj _ _ hc) (hinj _ _ hd)

theorem Ipv4Addr.mem_display {x : Ipv4Addr} {c : Char} (h : c ∈ x.display) :
    c = '.' ∨ (digitValue 10 c).isSome = true := by
  rcases mem_join h with h | ⟨piece, hp, hc⟩
  · exact Or.inl (by simpa using h)
  · obtain ⟨octet, -, rfl⟩ := List.mem_map.mp hp
    exact Or.inr (digitValue_of_mem_toDigits (by decide) (by decide) hc)

/-- The span lies in the list and covers zeros only. -/
def ZeroSpan (segments : List UInt16) (span : Span) : Prop :=
  span.start + span.len ≤ segments.length ∧
    ∀ i, span.start ≤ i → i < span.start + span.len → segments[i]? = some 0

theorem ZeroSpan.append {segments : List UInt16} {span : Span} (h : ZeroSpan segments span)
    (rest : List UInt16) : ZeroSpan (segments ++ rest) span := by
  refine ⟨by simpa using Nat.le_add_right_of_le h.1, fun i hlow hhigh => ?_⟩
  rw [List.getElem?_append_left (by have := h.1; omega)]
  exact h.2 i hlow hhigh

theorem ZeroSpan.extend {segments : List UInt16} {span : Span} (h : ZeroSpan segments span)
    (hend : span.len = 0 ∨ span.start + span.len = segments.length) :
    ZeroSpan (segments ++ [0])
      ⟨if span.len = 0 then segments.length else span.start, span.len + 1⟩ := by
  refine ⟨by simp; split <;> omega, fun i hlow hhigh => ?_⟩
  simp only at hlow hhigh
  by_cases hlast : i = segments.length
  · simp [hlast]
  · rw [List.getElem?_append_left (by split at hlow <;> split at hhigh <;> omega)]
    apply h.2 i <;> split at hlow <;> split at hhigh <;> omega

theorem zeroesFrom_zeroSpan (rest done : List UInt16) {longest current : Span}
    (hlongest : ZeroSpan done longest) (hcurrent : ZeroSpan done current)
    (hend : current.len = 0 ∨ current.start + current.len = done.length) :
    ZeroSpan (done ++ rest) (zeroesFrom done.length longest current rest) := by
  induction rest generalizing done longest current with
  | nil => simpa [zeroesFrom] using hlongest
  | cons segment rest ih =>
    have hlen : (done ++ [segment]).length = done.length + 1 := by simp
    have hsplit : done ++ segment :: rest = (done ++ [segment]) ++ rest := by simp
    by_cases hz : segment = 0
    · subst hz
      have hnext := hcurrent.extend hend
      simp only [zeroesFrom, if_true]
      rw [hsplit, ← hlen]
      apply ih
      · split
        · exact hnext
        · exact hlongest.append [0]
      · exact hnext
      · right
        simp only [List.length_append, List.length_singleton]
        split <;> omega
    · simp only [zeroesFrom, if_neg hz]
      rw [hsplit, ← hlen]
      exact ih _ (hlongest.append _) ⟨by simp, fun i _ h => by simp at h⟩ (Or.inl rfl)

theorem zeroes_zeroSpan (segments : List UInt16) : ZeroSpan segments (zeroes segments) := by
  have hempty : ZeroSpan [] ⟨0, 0⟩ := ⟨by simp, fun i _ h => by simp at h⟩
  simpa [zeroes] using zeroesFrom_zeroSpan segments [] hempty hempty (Or.inl rfl)

theorem ZeroSpan.decompose {segments : List UInt16} {span : Span} (h : ZeroSpan segments span) :
    segments = segments.take span.start ++ List.replicate span.len 0 ++
      segments.drop (span.start + span.len) := by
  have hmid : (segments.drop span.start).take span.len = List.replicate span.len 0 := by
    apply List.ext_getElem?
    intro i
    by_cases hi : i < span.len
    · rw [List.getElem?_take_of_lt hi, List.getElem?_drop, h.2 _ (by omega) (by omega)]
      simp [hi]
    · rw [List.getElem?_eq_none (by simp; omega), List.getElem?_eq_none (by simp; omega)]
  rw [← hmid, List.append_assoc, ← List.drop_drop, List.take_append_drop, List.take_append_drop]

def sidePieces (part : List UInt16) : List (List Char) :=
  if part = [] then [[]] else hexPieces part

/-- What stands between the colons of an address that is not mapped. -/
def colonPieces (segments : List UInt16) : List (List Char) :=
  let zeroes := zeroes segments
  if 1 < zeroes.len then
    sidePieces (segments.take zeroes.start) ++
      [] :: sidePieces (segments.drop (zeroes.start + zeroes.len))
  else hexPieces segments

theorem sidePieces_ne_nil (part : List UInt16) : sidePieces part ≠ [] := by
  unfold sidePieces
  split
  · simp
  · simpa [hexPieces] using ‹_›

theorem join_sidePieces (part : List UInt16) :
    join [':'] (sidePieces part) = join [':'] (hexPieces part) := by
  unfold sidePieces
  split
  · simp_all [hexPieces, join]
  · rfl

theorem filter_hexPieces (part : List UInt16) :
    (hexPieces part).filter (fun piece => !piece.isEmpty) = hexPieces part := by
  rw [List.filter_eq_self]
  intro piece hp
  simpa using hexPieces_ne_nil piece hp

theorem filter_sidePieces (part : List UInt16) :
    (sidePieces part).filter (fun piece => !piece.isEmpty) = hexPieces part := by
  unfold sidePieces
  split
  · simp_all [hexPieces]
  · exact filter_hexPieces part

theorem join_append {sep : List Char} {ws vs : List (List Char)} (hws : ws ≠ []) (hvs : vs ≠ []) :
    join sep (ws ++ vs) = join sep ws ++ sep ++ join sep vs := by
  induction ws with
  | nil => exact absurd rfl hws
  | cons w ws ih =>
    rcases ws with _ | ⟨v, ws⟩
    · rcases vs with _ | ⟨v, vs⟩
      · exact absurd rfl hvs
      · simp [join]
    · have htail := ih (by simp)
      simp only [List.cons_append] at htail
      simp [join, htail]

theorem Ipv6Addr.display_eq_join {x : Ipv6Addr} (h : x.toIpv4Mapped = none) :
    x.display = join [':'] (colonPieces x.segments) := by
  have hcons : ∀ part, join [':'] ([] :: sidePieces part) = ':' :: join [':'] (hexPieces part) := by
    intro part
    have happend : join [':'] ([[]] ++ sidePieces part)
        = join [':'] [[]] ++ [':'] ++ join [':'] (sidePieces part) :=
      join_append (by simp) (sidePieces_ne_nil part)
    simpa [join, join_sidePieces] using happend
  simp only [Ipv6Addr.display, h, colonPieces]
  split
  · rw [join_append (sidePieces_ne_nil _) (by simp), join_sidePieces, hcons]
    simp
  · rfl

/-- The segments' texts, with the zeros a double colon stands for put back. -/
def expandPieces (pieces : List (List Char)) : List (List Char) :=
  let head := pieces.takeWhile (fun piece => !piece.isEmpty)
  let tail := (pieces.dropWhile (fun piece => !piece.isEmpty)).filter (fun piece => !piece.isEmpty)
  head ++ List.replicate (8 - head.length - tail.length) ['0'] ++ tail

theorem expandPieces_gap {head tail : List UInt16} {gap : List (List Char)}
    (hgap : gap.filter (fun piece => !piece.isEmpty) = hexPieces tail) :
    expandPieces (hexPieces head ++ [] :: gap) =
      hexPieces (head ++ List.replicate (8 - head.length - tail.length) 0 ++ tail) := by
  have hall : ∀ piece ∈ hexPieces head, (!piece.isEmpty) = true := by
    intro piece hp
    simpa using hexPieces_ne_nil piece hp
  simp only [expandPieces, List.takeWhile_append_of_pos hall, List.dropWhile_append_of_pos hall,
    List.takeWhile_cons, List.dropWhile_cons, List.isEmpty_nil, Bool.not_true, Bool.false_eq_true,
    if_false, List.filter_cons, hgap, List.append_nil]
  simp [hexPieces]

theorem expandPieces_hexPieces {segments : List UInt16} (hsize : segments.length = 8) :
    expandPieces (hexPieces segments) = hexPieces segments := by
  have hall : ∀ piece ∈ hexPieces segments, (!piece.isEmpty) = true := by
    intro piece hp
    simpa using hexPieces_ne_nil piece hp
  have hlen : (hexPieces segments).length = 8 := by simpa [hexPieces] using hsize
  unfold expandPieces
  rw [List.takeWhile_eq_self_iff.mpr hall, List.dropWhile_eq_nil_iff.mpr hall]
  simp [hlen]

theorem expandPieces_colonPieces {segments : List UInt16} (hsize : segments.length = 8) :
    expandPieces (colonPieces segments) = hexPieces segments := by
  have hspan := zeroes_zeroSpan segments
  simp only [colonPieces]
  split
  · set head := segments.take (zeroes segments).start with hhead
    set tail := segments.drop ((zeroes segments).start + (zeroes segments).len) with htail
    have hlen : 8 - head.length - tail.length = (zeroes segments).len := by
      have := hspan.1
      simp only [hhead, htail, List.length_take, List.length_drop]
      omega
    have hwhole : head ++ List.replicate (8 - head.length - tail.length) 0 ++ tail = segments := by
      rw [hlen]
      exact hspan.decompose.symm
    rw [← hwhole]
    by_cases hnil : head = []
    · have hgap := @expandPieces_gap head tail ([] :: sidePieces tail)
        (by simpa using filter_sidePieces tail)
      simpa [hnil, sidePieces, hexPieces] using hgap
    · rw [sidePieces, if_neg hnil]
      exact expandPieces_gap (filter_sidePieces tail)
  · exact expandPieces_hexPieces hsize

theorem notMem_colonPieces {c : Char} (hc : digitValue 16 c = none) (segments : List UInt16) :
    ∀ piece ∈ colonPieces segments, c ∉ piece := by
  have hside : ∀ part, ∀ piece ∈ sidePieces part, c ∉ piece := by
    intro part piece hp
    unfold sidePieces at hp
    split at hp
    · simp_all
    · exact notMem_hexPieces hc piece hp
  intro piece hp
  simp only [colonPieces] at hp
  split at hp
  · rcases List.mem_append.mp hp with hp | hp
    · exact hside _ piece hp
    · rcases List.mem_cons.mp hp with rfl | hp
      · simp
      · exact hside _ piece hp
  · exact notMem_hexPieces hc piece hp

theorem colonPieces_ne_nil {segments : List UInt16} (hsize : segments.length = 8) :
    colonPieces segments ≠ [] := by
  intro h
  have hexpand := expandPieces_colonPieces hsize
  rw [h, show expandPieces [] = List.replicate 8 ['0'] from rfl] at hexpand
  have hzero : hexPieces (List.replicate 8 0) = hexPieces segments := by
    rw [← hexpand]
    rfl
  have hsegments := hexPieces_injective hzero
  rw [← hsegments] at h
  exact absurd h (by decide)

theorem Ipv6Addr.toIpv4Mapped_injective {x y : Ipv6Addr} {mapped : Ipv4Addr}
    (hx : x.toIpv4Mapped = some mapped) (hy : y.toIpv4Mapped = some mapped) : x = y := by
  have hbytes : ∀ m n : UInt16, (m >>> 8).toUInt8 = (n >>> 8).toUInt8 →
      m.toUInt8 = n.toUInt8 → m = n := by
    intro m n hhigh hlow
    have h₁ := congrArg UInt8.toNat hhigh
    have h₂ := congrArg UInt8.toNat hlow
    have hm := m.toNat_lt
    have hn := n.toNat_lt
    simp [Nat.shiftRight_eq_div_pow] at h₁ h₂
    apply UInt16.toNat_inj.mp
    omega
  have hshape : ∀ z : Ipv6Addr, z.toIpv4Mapped = some mapped → ∃ high low,
      z.segments = [0, 0, 0, 0, 0, 0xffff, high, low] ∧
        mapped = ⟨(high >>> 8).toUInt8, high.toUInt8, (low >>> 8).toUInt8, low.toUInt8⟩ := by
    intro z hz
    unfold Ipv6Addr.toIpv4Mapped at hz
    split at hz
    · rename_i high low hsegments
      exact ⟨high, low, hsegments, (Option.some.inj hz).symm⟩
    · cases hz
  obtain ⟨h₁, l₁, hsx, hmx⟩ := hshape x hx
  obtain ⟨h₂, l₂, hsy, hmy⟩ := hshape y hy
  rw [hmx, Ipv4Addr.mk.injEq] at hmy
  apply Ipv6Addr.ext
  rw [hsx, hsy, hbytes h₁ h₂ hmy.1 hmy.2.1, hbytes l₁ l₂ hmy.2.2.1 hmy.2.2.2]

theorem Ipv6Addr.dot_notMem_display {x : Ipv6Addr} (h : x.toIpv4Mapped = none) :
    '.' ∉ x.display := by
  rw [Ipv6Addr.display_eq_join h]
  intro hm
  rcases mem_join hm with hm | ⟨piece, hp, hc⟩
  · simp at hm
  · exact notMem_colonPieces (by decide) _ piece hp hc

theorem Ipv6Addr.dot_mem_display {x : Ipv6Addr} {mapped : Ipv4Addr}
    (h : x.toIpv4Mapped = some mapped) : '.' ∈ x.display := by
  simp [Ipv6Addr.display, h, Ipv4Addr.display, join]

theorem Ipv6Addr.display_injective : Function.Injective Ipv6Addr.display := by
  intro x y h
  cases hx : x.toIpv4Mapped with
  | none =>
    cases hy : y.toIpv4Mapped with
    | none =>
      rw [display_eq_join hx, display_eq_join hy] at h
      have hpieces := join_injective (colonPieces_ne_nil x.size) (colonPieces_ne_nil y.size)
        (notMem_colonPieces (by decide) _) (notMem_colonPieces (by decide) _) h
      apply Ipv6Addr.ext
      apply hexPieces_injective
      rw [← expandPieces_colonPieces x.size, ← expandPieces_colonPieces y.size, hpieces]
    | some mapped => exact absurd (h ▸ dot_mem_display hy) (dot_notMem_display hx)
  | some mapped =>
    cases hy : y.toIpv4Mapped with
    | none => exact absurd (h ▸ dot_mem_display hx) (dot_notMem_display hy)
    | some mapped' =>
      have hmapped : mapped = mapped' := by
        simp only [display, hx, hy] at h
        exact Ipv4Addr.display_injective (List.append_cancel_left h)
      exact toIpv4Mapped_injective hx (hmapped ▸ hy)

theorem SocketAddr.head_display_v4 (x : Ipv4Addr) (port : UInt16) :
    (SocketAddr.mk (.v4 x) port).display.head? ≠ some '[' := by
  rcases hd : x.display with _ | ⟨c, cs⟩
  · simp [Ipv4Addr.display, join] at hd
  · have hmem : c ∈ x.display := by simp [hd]
    intro hc
    have hc : c = '[' := by simpa [SocketAddr.display, hd] using hc
    subst hc
    rcases Ipv4Addr.mem_display hmem with hdot | hdigit
    · exact absurd hdot (by decide)
    · exact absurd hdigit (by decide)

theorem SocketAddr.head_display_v6 (x : Ipv6Addr) (port : UInt16) :
    (SocketAddr.mk (.v6 x) port).display.head? = some '[' := rfl

theorem SocketAddr.display_injective : Function.Injective SocketAddr.display := by
  intro x y h
  have hport : ∀ z : UInt16, ':' ∉ Nat.toDigits 10 z.toNat := fun z => notMem_decimal _ (by decide)
  have hports : ∀ m n : UInt16, Nat.toDigits 10 m.toNat = Nat.toDigits 10 n.toNat → m = n :=
    fun m n he => UInt16.toNat_inj.mp (toDigits_injective (by decide) (by decide) he)
  obtain ⟨ipx, px⟩ := x
  obtain ⟨ipy, py⟩ := y
  cases ipx with
  | v4 x =>
    cases ipy with
    | v4 y =>
      obtain ⟨hip, hp⟩ := append_cons_inj_right (hport px) (hport py) h
      rw [Ipv4Addr.display_injective hip, hports _ _ hp]
    | v6 y => exact absurd (h ▸ head_display_v6 y py) (head_display_v4 x px)
  | v6 x =>
    cases ipy with
    | v4 y => exact absurd (h ▸ head_display_v6 x px) (head_display_v4 y py)
    | v6 y =>
      have hsplit : ('[' :: x.display ++ [']']) ++ ':' :: Nat.toDigits 10 px.toNat =
          ('[' :: y.display ++ [']']) ++ ':' :: Nat.toDigits 10 py.toNat := by
        simpa [SocketAddr.display] using h
      obtain ⟨hip, hp⟩ := append_cons_inj_right (hport px) (hport py) hsplit
      have hdisplay : x.display = y.display := by simpa using hip
      rw [Ipv6Addr.display_injective hdisplay, hports _ _ hp]

theorem Ipv4Addr.notMem_display {c : Char} (hdot : c ≠ '.') (hdecimal : digitValue 10 c = none)
    (x : Ipv4Addr) : c ∉ x.display := by
  intro h
  rcases mem_display h with h | h
  · exact hdot h
  · simp [hdecimal] at h

theorem Ipv6Addr.notMem_display {c : Char} (hpunctuation : c ∉ ['.', ':'])
    (hdecimal : digitValue 10 c = none) (hhex : digitValue 16 c = none) (x : Ipv6Addr) :
    c ∉ x.display := by
  have hf : c ≠ 'f' := by
    rintro rfl
    exact absurd hhex (by decide)
  simp only [List.mem_cons, List.not_mem_nil, or_false, not_or] at hpunctuation
  cases hx : x.toIpv4Mapped with
  | none =>
    rw [display_eq_join hx]
    intro h
    rcases mem_join h with h | ⟨piece, hp, h⟩
    · exact hpunctuation.2 (by simpa using h)
    · exact notMem_colonPieces hhex _ piece hp h
  | some mapped =>
    have hv4 := Ipv4Addr.notMem_display hpunctuation.1 hdecimal mapped
    simp [display, hx, hv4, hf, hpunctuation.2]

theorem SocketAddr.notMem_display {c : Char} (hpunctuation : c ∉ ['.', ':', '[', ']'])
    (hdecimal : digitValue 10 c = none) (hhex : digitValue 16 c = none) (x : SocketAddr) :
    c ∉ x.display := by
  have hport := notMem_decimal x.port.toNat hdecimal
  simp only [List.mem_cons, List.not_mem_nil, or_false, not_or] at hpunctuation
  obtain ⟨hdot, hcolon, hopen, hclose⟩ := hpunctuation
  unfold SocketAddr.display
  split
  · simp [Ipv4Addr.notMem_display hdot hdecimal, hcolon, hport]
  · rename_i address _
    have hv6 := Ipv6Addr.notMem_display (by simp [hdot, hcolon]) hdecimal hhex address
    simp [hv6, hopen, hclose, hcolon, hport]

theorem SocketAddr.display_ne_nil (x : SocketAddr) : x.display ≠ [] := by
  unfold SocketAddr.display
  split <;> simp

theorem debugAddresses_injective : Function.Injective debugAddresses := by
  intro xs ys h
  have hjoin : join [',', ' '] (xs.map SocketAddr.display) =
      join [',', ' '] (ys.map SocketAddr.display) := by
    simpa [debugAddresses] using h
  have hcomma : ∀ zs : List SocketAddr, ∀ piece ∈ zs.map SocketAddr.display, ',' ∉ piece := by
    intro zs piece hp
    obtain ⟨z, -, rfl⟩ := List.mem_map.mp hp
    exact z.notMem_display (by decide) (by decide) (by decide)
  have hnil : ∀ zs : List SocketAddr, join [',', ' '] (zs.map SocketAddr.display) = [] → zs = [] := by
    intro zs hz
    rcases zs with _ | ⟨z, _ | ⟨z', zs⟩⟩
    · rfl
    · exact absurd hz (by simpa [join] using z.display_ne_nil)
    · simp [join] at hz
  by_cases hx : xs = []
  · rw [hx] at hjoin ⊢
    exact (hnil ys hjoin.symm).symm
  by_cases hy : ys = []
  · rw [hy] at hjoin
    exact absurd (hnil xs hjoin) hx
  have hpieces := join_injective (by simpa using hx) (by simpa using hy) (hcomma xs) (hcomma ys)
    hjoin
  exact List.map_injective_iff.mpr SocketAddr.display_injective hpieces

theorem bar_notMem_debugAddresses (addresses : List SocketAddr) : '|' ∉ debugAddresses addresses := by
  intro h
  have hjoin : '|' ∈ join [',', ' '] (addresses.map SocketAddr.display) := by
    simpa [debugAddresses] using h
  rcases mem_join hjoin with h | ⟨piece, hp, h⟩
  · exact absurd h (by decide)
  · obtain ⟨z, -, rfl⟩ := List.mem_map.mp hp
    exact z.notMem_display (by decide) (by decide) (by decide) h

end Net
