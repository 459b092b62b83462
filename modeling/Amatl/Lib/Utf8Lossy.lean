import Amatl.Lib.Utf8

/-! The bytes of a lossily converted text, unit by unit: ASCII and whole sequences stay, and three
bytes stand for what cannot be completed. Before an ASCII byte the conversion starts afresh. -/

namespace Utf8

/-- The bytes of `from_utf8_lossy`. -/
def lossy (bytes : List UInt8) : List UInt8 :=
  (fromUtf8Lossy bytes).flatMap String.utf8EncodeChar

def replacement : List UInt8 := [0xef, 0xbf, 0xbd]

/-- Bytes cut into units, with what becomes of them. -/
inductive Units : List UInt8 → List UInt8 → Prop where
  | nil : Units [] []
  | ascii {b : UInt8} {rest read : List UInt8} (small : b < 128) (later : Units rest read) :
      Units (b :: rest) (b :: read)
  | whole {unit rest read : List UInt8} (high : ∀ b ∈ unit, 128 ≤ b) (filled : unit ≠ [])
      (later : Units rest read) : Units (unit ++ rest) (unit ++ read)
  | broken {unit rest read : List UInt8} (high : ∀ b ∈ unit, 128 ≤ b) (filled : unit ≠ [])
      (short : unit.length ≤ 3) (other : unit ≠ replacement) (later : Units rest read) :
      Units (unit ++ rest) (replacement ++ read)

/-! What one step of the decoder takes. -/

def isFollower (b : UInt8) : Bool := 0x80 ≤ b && b ≤ 0xbf

/-- The value that followers add their bits to. -/
def gather (value : Nat) (more : List UInt8) : Nat :=
  more.foldl (fun value b => value * 64 + (b.toNat - 0x80)) value

theorem gather_cons (value : Nat) (b : UInt8) (more : List UInt8) :
    gather value (b :: more) = gather (value * 64 + (b.toNat - 0x80)) more := by
  rw [gather, gather, List.foldl_cons]

/-- What is followed: all that was asked for, or a beginning of it. -/
theorem follow_spec {need : Nat} {low high : UInt8} (lower : 0x80 ≤ low) (upper : high ≤ 0xbf)
    (value : Nat) (rest : List UInt8) :
    ∃ more, rest = more ++ (follow need low high value rest).2 ∧
      (∀ b ∈ more, isFollower b = true) ∧ (∀ b ∈ more.head?, low ≤ b ∧ b ≤ high) ∧
      ((follow need low high value rest).1 = some (Char.ofNat (gather value more)) ∧
          more.length = need ∨
        (follow need low high value rest).1 = none ∧ more.length < need) := by
  induction rest generalizing need low high value with
  | nil =>
    cases need with
    | zero => exact ⟨[], rfl, by simp, by simp, Or.inl ⟨rfl, rfl⟩⟩
    | succ need => exact ⟨[], rfl, by simp, by simp, Or.inr ⟨rfl, Nat.succ_pos _⟩⟩
  | cons b rest ih =>
    cases need with
    | zero => exact ⟨[], rfl, by simp, by simp, Or.inl ⟨rfl, rfl⟩⟩
    | succ need =>
      by_cases inside : (decide (low ≤ b) && decide (b ≤ high)) = true
      · obtain ⟨more, split, followers, -, ends⟩ :=
          @ih need 0x80 0xbf (by decide) (by decide) (value * 64 + (b.toNat - 0x80))
        have range : low ≤ b ∧ b ≤ high := by simpa using inside
        have first : isFollower b = true := by
          simp only [isFollower, Bool.and_eq_true, decide_eq_true_eq]
          exact ⟨UInt8.le_trans lower range.1, UInt8.le_trans range.2 upper⟩
        rw [follow, if_pos inside]
        refine ⟨b :: more, congrArg (b :: ·) split, ?_, ?_, ?_⟩
        · exact List.forall_mem_cons.mpr ⟨first, followers⟩
        · rintro b' mem
          cases mem
          exact range
        · rcases ends with ⟨found, all⟩ | ⟨none, few⟩
          · exact Or.inl ⟨by rw [gather_cons, found], by rw [List.length_cons, all]⟩
          · exact Or.inr ⟨none, Nat.succ_lt_succ few⟩
      · rw [follow, if_neg inside]
        exact ⟨[], rfl, by simp, by simp, Or.inr ⟨rfl, Nat.succ_pos _⟩⟩

/-- What is followed does not depend on what comes behind an ASCII byte. -/
theorem follow_append {need : Nat} {low high : UInt8} (lower : 0x80 ≤ low) (value : Nat)
    {rest tail : List UInt8} (small : ∀ b ∈ tail.head?, b < 128) :
    follow need low high value (rest ++ tail) =
      ((follow need low high value rest).1, (follow need low high value rest).2 ++ tail) := by
  induction rest generalizing need low high value with
  | nil =>
    cases need with
    | zero => rfl
    | succ need =>
      cases tail with
      | nil => rfl
      | cons b tail =>
        have low_b : ¬ low ≤ b := by
          have := UInt8.lt_iff_toNat_lt.mp (small b rfl)
          have := UInt8.le_iff_toNat_le.mp lower
          rw [UInt8.le_iff_toNat_le]
          simp only [UInt8.toNat_ofNat] at *
          omega
        have outside : ¬(decide (low ≤ b) && decide (b ≤ high)) = true := by simp [low_b]
        change follow (need + 1) low high value (b :: tail) = (none, b :: tail)
        rw [follow, if_neg outside]
  | cons b rest ih =>
    cases need with
    | zero => rfl
    | succ need =>
      rw [List.cons_append, follow, follow]
      split
      · exact ih (by decide) _
      · rfl

/-! Whole sequences are what their characters are written as. -/

theorem encode_eq {v : Nat} (valid : v.isValidChar) :
    String.utf8EncodeChar (Char.ofNat v) =
      if v ≤ 0x7f then [UInt8.ofNat v]
      else if v ≤ 0x7ff then [UInt8.ofNat (v / 64 % 32 + 0xc0), UInt8.ofNat (v % 64 + 0x80)]
      else if v ≤ 0xffff then
        [UInt8.ofNat (v / 4096 % 16 + 0xe0), UInt8.ofNat (v / 64 % 64 + 0x80),
          UInt8.ofNat (v % 64 + 0x80)]
      else
        [UInt8.ofNat (v / 262144 % 8 + 0xf0), UInt8.ofNat (v / 4096 % 64 + 0x80),
          UInt8.ofNat (v / 64 % 64 + 0x80), UInt8.ofNat (v % 64 + 0x80)] := by
  have value : (Char.ofNat v).val.toNat = v := by
    rw [Char.ofNat, dif_pos valid]
    rfl
  rw [String.utf8EncodeChar, value]

theorem byte_eq {n : Nat} {b : UInt8} (same : n = b.toNat) : UInt8.ofNat n = b := by
  rw [same, UInt8.ofNat_toNat]

theorem isFollower_iff {b : UInt8} :
    isFollower b = true ↔ 0x80 ≤ b.toNat ∧ b.toNat ≤ 0xbf := by
  simp [isFollower, UInt8.le_iff_toNat_le]

theorem sequence_two {b x : UInt8} (low : 0xc2 ≤ b.toNat) (high : b.toNat ≤ 0xdf)
    (next : isFollower x = true) :
    String.utf8EncodeChar (Char.ofNat (gather (b.toNat - 0xc0) [x])) = [b, x] := by
  rw [isFollower_iff] at next
  have value : gather (b.toNat - 0xc0) [x] = (b.toNat - 0xc0) * 64 + (x.toNat - 0x80) := rfl
  generalize gather (b.toNat - 0xc0) [x] = v at value
  have valid : v.isValidChar := Or.inl (by omega)
  have first : UInt8.ofNat (v / 64 % 32 + 0xc0) = b := byte_eq (by omega)
  have second : UInt8.ofNat (v % 64 + 0x80) = x := byte_eq (by omega)
  rw [encode_eq valid, if_neg (by omega), if_pos (by omega), first, second]

/-- Three bytes are no longer than it takes, and no surrogate. -/
theorem sequence_three {b x y : UInt8} (low : 0xe0 ≤ b.toNat) (high : b.toNat ≤ 0xef)
    (next : isFollower x = true) (last : isFollower y = true)
    (long : b.toNat = 0xe0 → 0xa0 ≤ x.toNat) (scalar : b.toNat = 0xed → x.toNat ≤ 0x9f) :
    String.utf8EncodeChar (Char.ofNat (gather (b.toNat - 0xe0) [x, y])) = [b, x, y] := by
  rw [isFollower_iff] at next last
  have value : gather (b.toNat - 0xe0) [x, y] =
      ((b.toNat - 0xe0) * 64 + (x.toNat - 0x80)) * 64 + (y.toNat - 0x80) := rfl
  generalize gather (b.toNat - 0xe0) [x, y] = v at value
  have valid : v.isValidChar := by
    by_cases before : v < 0xd800
    · exact Or.inl before
    · exact Or.inr ⟨by omega, by omega⟩
  have first : UInt8.ofNat (v / 4096 % 16 + 0xe0) = b := byte_eq (by omega)
  have second : UInt8.ofNat (v / 64 % 64 + 0x80) = x := byte_eq (by omega)
  have third : UInt8.ofNat (v % 64 + 0x80) = y := byte_eq (by omega)
  rw [encode_eq valid, if_neg (by omega), if_neg (by omega), if_pos (by omega), first, second,
    third]

/-- Four bytes are no longer than it takes, and end before `0x110000`. -/
theorem sequence_four {b x y z : UInt8} (low : 0xf0 ≤ b.toNat) (high : b.toNat ≤ 0xf4)
    (next : isFollower x = true) (middle : isFollower y = true) (last : isFollower z = true)
    (long : b.toNat = 0xf0 → 0x90 ≤ x.toNat) (scalar : b.toNat = 0xf4 → x.toNat ≤ 0x8f) :
    String.utf8EncodeChar (Char.ofNat (gather (b.toNat - 0xf0) [x, y, z])) = [b, x, y, z] := by
  rw [isFollower_iff] at next middle last
  have value : gather (b.toNat - 0xf0) [x, y, z] =
      (((b.toNat - 0xf0) * 64 + (x.toNat - 0x80)) * 64 + (y.toNat - 0x80)) * 64 +
        (z.toNat - 0x80) := rfl
  generalize gather (b.toNat - 0xf0) [x, y, z] = v at value
  have valid : v.isValidChar := Or.inr ⟨by omega, by omega⟩
  have first : UInt8.ofNat (v / 262144 % 8 + 0xf0) = b := byte_eq (by omega)
  have second : UInt8.ofNat (v / 4096 % 64 + 0x80) = x := byte_eq (by omega)
  have third : UInt8.ofNat (v / 64 % 64 + 0x80) = y := byte_eq (by omega)
  have fourth : UInt8.ofNat (v % 64 + 0x80) = z := byte_eq (by omega)
  rw [encode_eq valid, if_neg (by omega), if_neg (by omega), if_neg (by omega), first, second,
    third, fourth]

/-- What a leading byte asks for are followers, and they complete a character with it. -/
structure Leads (b : UInt8) (need : Nat) (low high : UInt8) (value : Nat) : Prop where
  lower : 0x80 ≤ low
  upper : high ≤ 0xbf
  few : need ≤ 3
  replaced : b = 0xef → need = 2
  whole : ∀ more : List UInt8, more.length = need → (∀ x ∈ more, isFollower x = true) →
    (∀ x ∈ more.head?, low ≤ x ∧ x ≤ high) →
      String.utf8EncodeChar (Char.ofNat (gather value more)) = b :: more

theorem leads_two {b low high : UInt8} (bounds : 0xc2 ≤ b.toNat ∧ b.toNat ≤ 0xdf)
    (lower : 0x80 ≤ low) (upper : high ≤ 0xbf) : Leads b 1 low high (b.toNat - 0xc0) where
  lower := lower
  upper := upper
  few := by omega
  replaced same := absurd (congrArg UInt8.toNat same) (by simp; omega)
  whole more one followers _ := by
    obtain ⟨x, rfl⟩ := List.length_eq_one_iff.mp one
    exact sequence_two bounds.1 bounds.2 (followers x List.mem_cons_self)

theorem leads_three {b low high : UInt8} (bounds : 0xe0 ≤ b.toNat ∧ b.toNat ≤ 0xef)
    (lower : 0x80 ≤ low) (upper : high ≤ 0xbf) (long : b.toNat = 0xe0 → 0xa0 ≤ low.toNat)
    (scalar : b.toNat = 0xed → high.toNat ≤ 0x9f) : Leads b 2 low high (b.toNat - 0xe0) where
  lower := lower
  upper := upper
  few := by omega
  replaced _ := rfl
  whole more two followers first := by
    obtain ⟨x, y, rfl⟩ := List.length_eq_two.mp two
    obtain ⟨least, most⟩ := first x rfl
    rw [UInt8.le_iff_toNat_le] at least most
    refine sequence_three bounds.1 bounds.2 (followers x (by simp)) (followers y (by simp))
      (fun same => ?_) (fun same => ?_)
    · have := long same
      omega
    · have := scalar same
      omega

theorem leads_four {b low high : UInt8} (bounds : 0xf0 ≤ b.toNat ∧ b.toNat ≤ 0xf4)
    (lower : 0x80 ≤ low) (upper : high ≤ 0xbf) (long : b.toNat = 0xf0 → 0x90 ≤ low.toNat)
    (scalar : b.toNat = 0xf4 → high.toNat ≤ 0x8f) : Leads b 3 low high (b.toNat - 0xf0) where
  lower := lower
  upper := upper
  few := by omega
  replaced same := absurd (congrArg UInt8.toNat same) (by simp; omega)
  whole more three followers first := by
    obtain ⟨x, y, z, rfl⟩ := List.length_eq_three.mp three
    obtain ⟨least, most⟩ := first x rfl
    rw [UInt8.le_iff_toNat_le] at least most
    refine sequence_four bounds.1 bounds.2 (followers x (by simp)) (followers y (by simp))
      (followers z (by simp)) (fun same => ?_) (fun same => ?_)
    · have := long same
      omega
    · have := scalar same
      omega

theorem leads_of_lead {b : UInt8} {need : Nat} {low high : UInt8} {value : Nat}
    (found : lead b = some (need, low, high, value)) : Leads b need low high value := by
  unfold lead at found
  simp only [Bool.and_eq_true, decide_eq_true_eq, beq_iff_eq, UInt8.le_iff_toNat_le,
    UInt8.reduceToNat] at found
  split at found
  · rename_i range
    cases found
    exact leads_two range (by decide) (by decide)
  split at found
  · rename_i same
    cases found
    subst same
    exact leads_three (by decide) (by decide) (by decide) (by decide) (by decide)
  split at found
  · rename_i same
    cases found
    subst same
    exact leads_three (by decide) (by decide) (by decide) (by decide) (by decide)
  split at found
  · rename_i zero surrogate range
    cases found
    exact leads_three ⟨by omega, range.2⟩ (by decide) (by decide)
      (fun same => absurd (UInt8.toNat_inj.mp same) zero)
      (fun same => absurd (UInt8.toNat_inj.mp same) surrogate)
  split at found
  · rename_i same
    cases found
    subst same
    exact leads_four (by decide) (by decide) (by decide) (by decide) (by decide)
  split at found
  · rename_i zero range
    cases found
    exact leads_four ⟨by omega, by omega⟩ (by decide) (by decide)
      (fun same => absurd (UInt8.toNat_inj.mp same) zero) (fun same => by omega)
  split at found
  · rename_i same
    cases found
    subst same
    exact leads_four (by decide) (by decide) (by decide) (by decide) (by decide)
  · cases found

/-! Units. -/

/-- What a step of the decoder takes and gives. -/
theorem next_spec (b : UInt8) (rest : List UInt8) :
    ∃ more, rest = more ++ (next b rest).2 ∧
      (b < 128 ∧ more = [] ∧ (next b rest).1 = some (Char.ofNat b.toNat) ∨
        128 ≤ b ∧ (∀ x ∈ more, 128 ≤ x) ∧
          ((∃ c, (next b rest).1 = some c ∧ String.utf8EncodeChar c = b :: more) ∨
            (next b rest).1 = none ∧ (b :: more).length ≤ 3 ∧ b :: more ≠ replacement)) := by
  by_cases small : b < 0x80
  · rw [next, if_pos small]
    exact ⟨[], rfl, Or.inl ⟨small, rfl, rfl⟩⟩
  · have high : 128 ≤ b := UInt8.not_lt.mp small
    rw [next, if_neg small]
    cases found : lead b with
    | none =>
      refine ⟨[], rfl, Or.inr ⟨high, by simp, Or.inr ⟨rfl, by simp, ?_⟩⟩⟩
      simp [replacement]
    | some asked =>
      obtain ⟨need, low, high', value⟩ := asked
      have leads := leads_of_lead found
      obtain ⟨more, split, followers, first, ends⟩ :=
        @follow_spec need low high' leads.lower leads.upper value rest
      refine ⟨more, split, Or.inr ⟨high, fun x mem => ?_, ?_⟩⟩
      · have follower := isFollower_iff.mp (followers x mem)
        exact UInt8.le_iff_toNat_le.mpr follower.1
      · rcases ends with ⟨whole, all⟩ | ⟨broken, few⟩
        · exact Or.inl ⟨_, whole, leads.whole more all followers first⟩
        · refine Or.inr ⟨broken, ?_, ?_⟩
          · have := leads.few
            rw [List.length_cons]
            omega
          · rintro same
            obtain ⟨lead, rfl⟩ := List.cons_eq_cons.mp same
            rw [leads.replaced lead] at few
            exact absurd few (by decide)

theorem next_shorter (b : UInt8) (rest : List UInt8) :
    (next b rest).2.length ≤ rest.length := by
  obtain ⟨more, split, -⟩ := next_spec b rest
  have same := congrArg List.length split
  rw [List.length_append] at same
  omega

theorem decodeFrom_enough {fuel : Nat} {bytes : List UInt8} (enough : bytes.length ≤ fuel) :
    decodeFrom fuel bytes = decode bytes := by
  have both : ∀ (n m : Nat) (bytes : List UInt8), bytes.length ≤ n → bytes.length ≤ m →
      decodeFrom n bytes = decodeFrom m bytes := by
    intro n
    induction n with
    | zero =>
      intro m bytes none _
      rw [List.eq_nil_of_length_eq_zero (Nat.le_zero.mp none)]
      cases m <;> rfl
    | succ n ih =>
      intro m bytes first second
      cases bytes with
      | nil => cases m <;> rfl
      | cons b rest =>
        cases m with
        | zero => cases second
        | succ m =>
          have shorter := next_shorter b rest
          rw [List.length_cons] at first second
          rw [decodeFrom, decodeFrom, ih m _ (by omega) (by omega)]
  exact both fuel bytes.length bytes enough (Nat.le_refl _)

theorem lossy_nil : lossy [] = [] := rfl

theorem lossy_cons (b : UInt8) (rest : List UInt8) :
    lossy (b :: rest) =
      String.utf8EncodeChar ((next b rest).1.getD (Char.ofNat 0xfffd)) ++
        lossy (next b rest).2 := by
  have step : decode (b :: rest) = (next b rest).1 :: decode (next b rest).2 := by
    rw [decode, List.length_cons, decodeFrom, decodeFrom_enough (next_shorter b rest)]
  rw [lossy, fromUtf8Lossy, step, List.map_cons, List.flatMap_cons]
  rfl

theorem encode_ascii {b : UInt8} (small : b < 128) :
    String.utf8EncodeChar (Char.ofNat b.toNat) = [b] := by
  have bound : b.toNat < 128 := UInt8.lt_iff_toNat_lt.mp small
  rw [encode_eq (Or.inl (by omega)), if_pos (by omega), UInt8.ofNat_toNat]

theorem encode_replacement : String.utf8EncodeChar (Char.ofNat 0xfffd) = replacement := by decide

theorem units_lossy (bytes : List UInt8) : Units bytes (lossy bytes) := by
  induction length : bytes.length using Nat.strongRecOn generalizing bytes with
  | ind n ih =>
    cases bytes with
    | nil => exact .nil
    | cons b rest =>
      obtain ⟨more, split, unit⟩ := next_spec b rest
      have shorter : (next b rest).2.length < n :=
        length ▸ Nat.lt_succ_of_le (next_shorter b rest)
      have later := ih _ shorter _ rfl
      have cut : b :: rest = (b :: more) ++ (next b rest).2 := congrArg (b :: ·) split
      rw [lossy_cons]
      rcases unit with ⟨small, rfl, found⟩ | ⟨high, followers, unit⟩
      · rw [found, Option.getD_some, encode_ascii small, cut]
        exact .ascii small later
      · have all : ∀ x ∈ b :: more, 128 ≤ x := List.forall_mem_cons.mpr ⟨high, followers⟩
        rcases unit with ⟨c, found, written⟩ | ⟨none, short, other⟩
        · rw [found, Option.getD_some, written, cut]
          exact .whole all (List.cons_ne_nil _ _) later
        · rw [none, Option.getD_none, encode_replacement, cut]
          exact .broken all (List.cons_ne_nil _ _) short other later

/-- Before an ASCII byte the conversion starts afresh. -/
theorem lossy_append (bytes : List UInt8) {tail : List UInt8}
    (small : ∀ b ∈ tail.head?, b < 128) : lossy (bytes ++ tail) = lossy bytes ++ lossy tail := by
  induction length : bytes.length using Nat.strongRecOn generalizing bytes with
  | ind n ih =>
    cases bytes with
    | nil => rfl
    | cons b rest =>
      have shorter : (next b rest).2.length < n :=
        length ▸ Nat.lt_succ_of_le (next_shorter b rest)
      have step : next b (rest ++ tail) = ((next b rest).1, (next b rest).2 ++ tail) := by
        unfold next
        split
        · rfl
        · split
          · rfl
          · rename_i found
            exact follow_append (leads_of_lead found).lower _ small
      rw [List.cons_append, lossy_cons, lossy_cons, step, List.append_assoc,
        ← ih _ shorter _ rfl]

theorem lossy_cons_ascii {b : UInt8} (small : b < 128) (rest : List UInt8) :
    lossy (b :: rest) = b :: lossy rest := by
  have step : next b rest = (some (Char.ofNat b.toNat), rest) := if_pos small
  rw [lossy_cons, step, Option.getD_some, encode_ascii small]
  rfl

theorem lossy_ascii {bytes : List UInt8} (small : ∀ b ∈ bytes, b < 128) (rest : List UInt8) :
    lossy (bytes ++ rest) = bytes ++ lossy rest := by
  induction bytes with
  | nil => rfl
  | cons b bytes ih =>
    obtain ⟨first, others⟩ := List.forall_mem_cons.mp small
    rw [List.cons_append, lossy_cons_ascii first, ih others]
    rfl

/-- What stands between ASCII bytes is converted by itself. -/
theorem lossy_between {a b : UInt8} (first : a < 128) (last : b < 128) (inner tail : List UInt8) :
    lossy (a :: (inner ++ b :: tail)) = a :: (lossy inner ++ b :: lossy tail) := by
  have small : ∀ c ∈ (b :: tail).head?, c < 128 := by
    intro c mem
    cases mem
    exact last
  rw [lossy_cons_ascii first, lossy_append inner small, lossy_cons_ascii last]

theorem replacement_high : ∀ b ∈ replacement, 128 ≤ b := by
  simp [replacement]

theorem forall_units {bytes read : List UInt8} (units : Units bytes read) {P : UInt8 → Prop}
    (high : ∀ b, 128 ≤ b → P b) (all : ∀ b ∈ bytes, P b) : ∀ b ∈ read, P b := by
  induction units with
  | nil => exact all
  | ascii small later ih =>
    obtain ⟨first, others⟩ := List.forall_mem_cons.mp all
    exact List.forall_mem_cons.mpr ⟨first, ih others⟩
  | whole inside filled later ih =>
    obtain ⟨first, others⟩ := List.forall_mem_append.mp all
    exact List.forall_mem_append.mpr ⟨first, ih others⟩
  | broken inside filled short other later ih =>
    obtain ⟨-, others⟩ := List.forall_mem_append.mp all
    exact List.forall_mem_append.mpr ⟨fun b mem => high b (replacement_high b mem), ih others⟩

theorem filterMap_units {bytes read : List UInt8} (units : Units bytes read) {α : Type}
    {f : UInt8 → Option α} (high : ∀ b, 128 ≤ b → f b = none) :
    read.filterMap f = bytes.filterMap f := by
  have skipped : ∀ {unit : List UInt8}, (∀ b ∈ unit, 128 ≤ b) → ∀ rest : List UInt8,
      (unit ++ rest).filterMap f = rest.filterMap f := by
    intro unit inside rest
    have none : unit.filterMap f = [] :=
      List.filterMap_eq_nil_iff.mpr (fun b mem => high b (inside b mem))
    rw [List.filterMap_append, none, List.nil_append]
  induction units with
  | nil => rfl
  | ascii small later ih => rw [List.filterMap_cons, List.filterMap_cons, ih]
  | whole inside filled later ih => rw [skipped inside, skipped inside, ih]
  | broken inside filled short other later ih =>
    rw [skipped inside, skipped replacement_high, ih]

end Utf8
