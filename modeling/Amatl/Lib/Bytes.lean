import Amatl.Lib.Text

/-! A text addressed by its bytes. A slice has to begin and end between characters, and ranges may
tile a text up to what is blank. -/

namespace Bytes

open Text

@[simp] theorem utf8Length_nil : utf8Length [] = 0 := rfl

@[simp] theorem utf8Length_cons (c : Char) (text : List Char) :
    utf8Length (c :: text) = c.utf8Size + utf8Length text := rfl

@[simp] theorem utf8Length_append (a b : List Char) :
    utf8Length (a ++ b) = utf8Length a + utf8Length b := by
  simp [utf8Length]

theorem utf8Length_pos {text : List Char} (h : text ≠ []) : 0 < utf8Length text := by
  obtain ⟨c, rest, rfl⟩ := List.exists_cons_of_ne_nil h
  have size := c.utf8Size_pos
  rw [utf8Length_cons]
  omega

/-- The text up to a byte and from it on, where it lies between characters. -/
def splitAt : List Char → Nat → Option (List Char × List Char)
  | text, 0 => some ([], text)
  | [], _ + 1 => none
  | c :: rest, i + 1 =>
    if c.utf8Size ≤ i + 1 then
      (splitAt rest (i + 1 - c.utf8Size)).map (fun parts => (c :: parts.1, parts.2))
    else none

theorem splitAt_append (a b : List Char) : splitAt (a ++ b) (utf8Length a) = some (a, b) := by
  induction a with
  | nil => cases b <;> rfl
  | cons c a ih =>
    have size := c.utf8Size_pos
    obtain ⟨n, sum⟩ : ∃ n, utf8Length (c :: a) = n + 1 :=
      ⟨utf8Length (c :: a) - 1, by rw [utf8Length_cons]; omega⟩
    have fits : c.utf8Size ≤ n + 1 := by
      rw [← sum, utf8Length_cons]
      omega
    have rest : n + 1 - c.utf8Size = utf8Length a := by
      rw [← sum, utf8Length_cons]
      omega
    rw [List.cons_append, sum, splitAt, if_pos fits, rest, ih]
    rfl

theorem splitAt_eq_some {text a b : List Char} {i : Nat} (h : splitAt text i = some (a, b)) :
    text = a ++ b ∧ utf8Length a = i := by
  induction text generalizing i a with
  | nil =>
    cases i with
    | zero =>
      cases h
      exact ⟨rfl, rfl⟩
    | succ i => cases h
  | cons c text ih =>
    cases i with
    | zero =>
      cases h
      exact ⟨rfl, rfl⟩
    | succ i =>
      rw [splitAt] at h
      split_ifs at h with fits
      cases rest : splitAt text (i + 1 - c.utf8Size) with
      | none =>
        rw [rest] at h
        cases h
      | some parts =>
        rw [rest] at h
        cases h
        obtain ⟨rfl, length⟩ := ih rest
        refine ⟨rfl, ?_⟩
        rw [utf8Length_cons, length]
        omega

def isCharBoundary (text : List Char) (i : Nat) : Bool := (splitAt text i).isSome

theorem isCharBoundary_iff {text : List Char} {i : Nat} :
    isCharBoundary text i = true ↔ ∃ a b, text = a ++ b ∧ utf8Length a = i := by
  constructor
  · intro h
    obtain ⟨parts, split⟩ := Option.isSome_iff_exists.mp h
    obtain ⟨whole, length⟩ := splitAt_eq_some split
    exact ⟨parts.1, parts.2, whole, length⟩
  · rintro ⟨a, b, rfl, rfl⟩
    rw [isCharBoundary, splitAt_append]
    rfl

/-- The bytes from `start` up to `stop`; there are none where a character is cut. -/
def slice (text : List Char) (start stop : Nat) : Option (List Char) :=
  if start ≤ stop then
    (splitAt text stop).bind (fun parts => (splitAt parts.1 start).map Prod.snd)
  else none

theorem slice_append (before mid behind : List Char) :
    slice (before ++ mid ++ behind) (utf8Length before) (utf8Length before + utf8Length mid) =
      some mid := by
  have whole := splitAt_append (before ++ mid) behind
  rw [utf8Length_append] at whole
  rw [slice, if_pos (Nat.le_add_right _ _), whole, Option.bind_some, splitAt_append]
  rfl

theorem slice_eq_some {text mid : List Char} {start stop : Nat}
    (h : slice text start stop = some mid) : ∃ before behind, text = before ++ mid ++ behind ∧
      utf8Length before = start ∧ utf8Length before + utf8Length mid = stop := by
  unfold slice at h
  split_ifs at h with ordered
  cases first : splitAt text stop with
  | none =>
    rw [first] at h
    cases h
  | some parts =>
    rw [first, Option.bind_some] at h
    cases second : splitAt parts.1 start with
    | none =>
      rw [second] at h
      cases h
    | some pieces =>
      rw [second] at h
      cases h
      obtain ⟨whole, length⟩ := splitAt_eq_some first
      obtain ⟨front, from'⟩ := splitAt_eq_some second
      refine ⟨pieces.1, parts.2, by rw [whole, front], from', ?_⟩
      rw [← utf8Length_append, ← front, length]

theorem append_inj {a b a' b' : List Char} (whole : a ++ b = a' ++ b')
    (length : utf8Length a = utf8Length a') : a = a' ∧ b = b' := by
  have first := splitAt_append a b
  rw [whole, length, splitAt_append] at first
  cases first
  exact ⟨rfl, rfl⟩

theorem split_part {text before mid behind : List Char} {i : Nat}
    (whole : text = before ++ mid ++ behind) (boundary : isCharBoundary text i = true)
    (least : utf8Length before ≤ i) (most : i ≤ utf8Length before + utf8Length mid) :
    ∃ a b, mid = a ++ b ∧ i = utf8Length before + utf8Length a := by
  obtain ⟨front, rest, split, rfl⟩ := isCharBoundary_iff.mp boundary
  rw [split, List.append_assoc] at whole
  rcases List.append_eq_append_iff.mp whole with ⟨part, rfl, inner⟩ | ⟨part, rfl, inner⟩
  · refine ⟨[], mid, rfl, ?_⟩
    rw [utf8Length_append] at least ⊢
    rw [utf8Length_nil]
    omega
  · rcases List.append_eq_append_iff.mp inner with ⟨tail, rfl, -⟩ | ⟨tail, rfl, -⟩
    · refine ⟨mid, [], by rw [List.append_nil], ?_⟩
      rw [utf8Length_append, utf8Length_append] at most
      rw [utf8Length_append, utf8Length_append]
      omega
    · exact ⟨part, tail, rfl, utf8Length_append before part⟩

/-- Ranges one behind the other over a text that begins at byte `i`. Each is a part of the text
without blanks at its ends, of a bounded length, and between them is nothing but blanks. -/
inductive Tiled (blank : Char → Bool) (limit : Nat) : Nat → List Char → List (Nat × Nat) → Prop
  | rest {i : Nat} {text : List Char} (blanks : ∀ c ∈ text, blank c = true) :
      Tiled blank limit i text []
  | range {i : Nat} {gap core text : List Char} {ranges : List (Nat × Nat)}
      (blanks : ∀ c ∈ gap, blank c = true) (some_text : core ≠ [])
      (first : ∀ c, core.head? = some c → blank c = false)
      (last : ∀ c, core.getLast? = some c → blank c = false) (short : utf8Length core ≤ limit)
      (others : Tiled blank limit (i + utf8Length gap + utf8Length core) text ranges) :
      Tiled blank limit i (gap ++ core ++ text)
        ((i + utf8Length gap, i + utf8Length gap + utf8Length core) :: ranges)

namespace Tiled

variable {blank : Char → Bool} {limit i : Nat} {text : List Char} {ranges : List (Nat × Nat)}

theorem blanks_append {gap : List Char} (blanks : ∀ c ∈ gap, blank c = true)
    (h : Tiled blank limit (i + utf8Length gap) text ranges) :
    Tiled blank limit i (gap ++ text) ranges := by
  generalize start : i + utf8Length gap = j at h
  cases h with
  | rest others =>
    refine .rest (fun c mem => ?_)
    rcases List.mem_append.mp mem with inside | inside
    · exact blanks c inside
    · exact others c inside
  | @range _ gap' core text ranges more some_text first last short others =>
    subst start
    have tiled : Tiled blank limit i ((gap ++ gap') ++ core ++ text)
        ((i + utf8Length (gap ++ gap'), i + utf8Length (gap ++ gap') + utf8Length core) ::
          ranges) := by
      refine .range (fun c mem => ?_) some_text first last short ?_
      · rcases List.mem_append.mp mem with inside | inside
        · exact blanks c inside
        · exact more c inside
      · rw [utf8Length_append, ← Nat.add_assoc]
        exact others
    rw [utf8Length_append, ← Nat.add_assoc] at tiled
    rw [← List.append_assoc, ← List.append_assoc]
    exact tiled

theorem append {behind : List Char} {more : List (Nat × Nat)} (h : Tiled blank limit i text ranges)
    (h' : Tiled blank limit (i + utf8Length text) behind more) :
    Tiled blank limit i (text ++ behind) (ranges ++ more) := by
  induction h with
  | rest blanks => exact h'.blanks_append blanks
  | @range i gap core text ranges blanks some_text first last short others ih =>
    rw [utf8Length_append, utf8Length_append, ← Nat.add_assoc, ← Nat.add_assoc] at h'
    rw [List.append_assoc]
    exact .range blanks some_text first last short (ih h')

theorem start_le (h : Tiled blank limit i text ranges) {r : Nat × Nat} (mem : r ∈ ranges) :
    i ≤ r.1 := by
  induction h with
  | rest => cases mem
  | range _ _ _ _ _ _ ih =>
    rcases List.mem_cons.mp mem with rfl | later
    · exact Nat.le_add_right _ _
    · have := ih later
      omega

theorem sorted (h : Tiled blank limit i text ranges) :
    ranges.Pairwise (fun r s => r.2 ≤ s.1) := by
  induction h with
  | rest => exact List.Pairwise.nil
  | range _ _ _ _ _ others ih => exact .cons (fun s mem => others.start_le mem) ih

theorem slice (h : Tiled blank limit i text ranges) {before : List Char}
    (starts : utf8Length before = i) {r : Nat × Nat} (mem : r ∈ ranges) :
    ∃ core, Bytes.slice (before ++ text) r.1 r.2 = some core ∧ core ≠ [] ∧
      utf8Length core ≤ limit ∧ (∀ c, core.head? = some c → blank c = false) ∧
      ∀ c, core.getLast? = some c → blank c = false := by
  induction h generalizing before with
  | rest => cases mem
  | @range i gap core text ranges blanks some_text first last short others ih =>
    rcases List.mem_cons.mp mem with rfl | later
    · have cut := slice_append (before ++ gap) core text
      rw [utf8Length_append, starts] at cut
      refine ⟨core, ?_, some_text, short, first, last⟩
      rw [← cut]
      simp only [List.append_assoc]
    · have length : utf8Length (before ++ gap ++ core) =
          i + utf8Length gap + utf8Length core := by
        rw [utf8Length_append, utf8Length_append, starts]
      have found := ih length later
      simpa only [List.append_assoc] using found

theorem covers (h : Tiled blank limit i text ranges) {a b : List Char} {c : Char}
    (whole : text = a ++ c :: b) (visible : blank c = false) :
    ∃ r ∈ ranges, r.1 ≤ i + utf8Length a ∧ i + utf8Length a + c.utf8Size ≤ r.2 := by
  induction h generalizing a with
  | rest blanks =>
    have bad := blanks c (by rw [whole]; simp)
    rw [visible] at bad
    cases bad
  | @range i gap core text ranges blanks some_text first last short others ih =>
    rw [List.append_assoc] at whole
    rcases List.append_eq_append_iff.mp whole with ⟨a', rfl, inner⟩ | ⟨gap', rfl, inner⟩
    · rcases List.append_eq_append_iff.mp inner with ⟨a'', rfl, left⟩ | ⟨core', rfl, left⟩
      · obtain ⟨r, mem, starts, stops⟩ := ih left
        refine ⟨r, List.mem_cons_of_mem _ mem, ?_, ?_⟩
        · simp only [utf8Length_append]
          omega
        · simp only [utf8Length_append]
          omega
      · cases core' with
        | nil =>
          obtain ⟨r, mem, starts, stops⟩ := ih (a := []) left.symm
          refine ⟨r, List.mem_cons_of_mem _ mem, ?_, ?_⟩
          · simp only [List.append_nil, utf8Length_nil, utf8Length_append] at *
            omega
          · simp only [List.append_nil, utf8Length_nil, utf8Length_append] at *
            omega
        | cons d core' =>
          obtain ⟨rfl, -⟩ := List.cons.inj left
          refine ⟨_, List.mem_cons_self, ?_, ?_⟩
          · simp only [utf8Length_append]
            omega
          · simp only [utf8Length_append, utf8Length_cons]
            omega
    · cases gap' with
      | nil =>
        obtain ⟨d, core', rfl⟩ := List.exists_cons_of_ne_nil some_text
        obtain ⟨rfl, -⟩ := List.cons.inj inner
        refine ⟨_, List.mem_cons_self, ?_, ?_⟩
        · simp only [List.append_nil]
          omega
        · simp only [List.append_nil, utf8Length_cons]
          omega
      | cons d gap' =>
        obtain ⟨rfl, -⟩ := List.cons.inj inner
        have bad := blanks c (by simp)
        rw [visible] at bad
        cases bad

end Tiled

end Bytes
