import Amatl.Lib.Text

/-! Patterns whose stars stand for any characters. The segments between the stars are placed in
their order, and placing each as early as possible leaves the most. -/

namespace Text

/-- A star stands for any characters and every other character for itself. -/
inductive Glob : List Char → List Char → Prop
  | nil : Glob [] []
  | star {pattern text : List Char} (gap : List Char) (rest : Glob pattern text) :
    Glob ('*' :: pattern) (gap ++ text)
  | char {c : Char} {pattern text : List Char} (literal : c ≠ '*') (rest : Glob pattern text) :
    Glob (c :: pattern) (c :: text)

/-- The segments stand in the text in this order, and this much is left behind the last. -/
def Placed : List (List Char) → List Char → List Char → Prop
  | [], text, left => text = left
  | segment :: segments, text, left =>
    ∃ gap after, text = gap ++ segment ++ after ∧ Placed segments after left

def behind (segment text : List Char) : Option (List Char) :=
  if segment.isEmpty then some text else (splitOnce segment text).map Prod.snd

/-- What is left behind the segments when each is placed as early as possible. -/
def earliest : List (List Char) → List Char → Option (List Char)
  | [], text => some text
  | segment :: segments, text => (behind segment text).bind (earliest segments)

theorem behind_some {segment text left : List Char} (h : behind segment text = some left) :
    (∃ gap, text = gap ++ segment ++ left) ∧
      ∀ gap after, text = gap ++ segment ++ after → after <:+ left := by
  unfold behind at h
  by_cases empty : segment.isEmpty = true
  · rw [if_pos empty] at h
    cases h
    have hsegment : segment = [] := List.isEmpty_iff.mp empty
    exact ⟨⟨[], by simp [hsegment]⟩, fun gap after equal => ⟨gap ++ segment, equal.symm⟩⟩
  · rw [if_neg empty] at h
    obtain ⟨⟨gap, rest⟩, found, heq⟩ := Option.map_eq_some_iff.mp h
    cases heq
    obtain ⟨htext, longest⟩ := splitOnce_first found
    exact ⟨⟨gap, htext⟩, longest⟩

theorem behind_none {segment text : List Char} (h : behind segment text = none)
    (gap after : List Char) : text ≠ gap ++ segment ++ after := by
  unfold behind at h
  by_cases empty : segment.isEmpty = true
  · rw [if_pos empty] at h
    cases h
  · rw [if_neg empty, Option.map_eq_none_iff] at h
    exact splitOnce_none h gap after

theorem behind_find {segment : List Char} (nonempty : segment.isEmpty = false) (text : List Char) :
    behind segment text =
      (find segment text).map (fun found => text.drop (found + segment.length)) := by
  rw [behind, nonempty, if_neg Bool.false_ne_true, find_splitOnce]
  cases split : splitOnce segment text with
  | none => rfl
  | some pair =>
    have whole := (splitOnce_first split).1
    have dropped : text.drop (pair.1.length + segment.length) = pair.2 := by
      rw [whole, ← List.length_append, List.drop_left]
    rw [Option.map_some, Option.map_some, Option.map_some, dropped]

theorem find_front {segment : List Char} (nonempty : segment.isEmpty = false)
    (rest : List Char) : find segment (segment ++ rest) = some 0 := by
  cases segment with
  | nil => cases nonempty
  | cons c segment =>
    have starts : (c :: segment).isPrefixOf (c :: (segment ++ rest)) = true :=
      List.isPrefixOf_iff_prefix.mpr ⟨rest, rfl⟩
    rw [List.cons_append, find, if_pos starts]

theorem front_of_find {segment text : List Char} (found : find segment text = some 0) :
    ∃ rest, text = segment ++ rest := by
  rw [find_splitOnce] at found
  obtain ⟨⟨front, rest⟩, split, position⟩ := Option.map_eq_some_iff.mp found
  have whole := (splitOnce_first split).1
  have starts : front = [] := List.length_eq_zero_iff.mp position
  rw [starts] at whole
  exact ⟨rest, whole⟩

theorem placed_of_earliest {segments : List (List Char)} {text left : List Char}
    (h : earliest segments text = some left) : Placed segments text left := by
  induction segments generalizing text with
  | nil =>
    cases h
    rfl
  | cons segment segments ih =>
    obtain ⟨rest, first, later⟩ := Option.bind_eq_some_iff.mp h
    obtain ⟨gap, htext⟩ := (behind_some first).1
    exact ⟨gap, rest, htext, ih later⟩

/-- Segments that are placed as early as possible leave the most, and can be placed wherever
any text behind some beginning has them. -/
theorem earliest_longest {segments : List (List Char)} {text part other : List Char}
    (inside : part <:+ text) (placed : Placed segments part other) :
    ∃ left, earliest segments text = some left ∧ other <:+ left := by
  induction segments generalizing text part with
  | nil =>
    subst placed
    exact ⟨text, rfl, inside⟩
  | cons segment segments ih =>
    obtain ⟨gap, after, hpart, rest⟩ := placed
    obtain ⟨front, hfront⟩ := inside
    have occurs : text = front ++ gap ++ segment ++ after := by
      rw [← hfront, hpart]
      simp only [List.append_assoc]
    rw [earliest]
    cases first : behind segment text with
    | none => exact absurd occurs (behind_none first _ _)
    | some left =>
      have later := (behind_some first).2 _ _ occurs
      exact ih later rest

theorem placed_iff_front {segments : List (List Char)} {text left : List Char} :
    Placed segments text left ↔ ∃ front, text = front ++ left ∧ Placed segments front [] := by
  induction segments generalizing text with
  | nil =>
    constructor
    · rintro rfl
      exact ⟨[], rfl, rfl⟩
    · rintro ⟨front, rfl, rfl⟩
      rfl
  | cons segment segments ih =>
    constructor
    · rintro ⟨gap, after, rfl, placed⟩
      obtain ⟨front, rfl, earlier⟩ := ih.mp placed
      exact ⟨gap ++ segment ++ front, by simp only [List.append_assoc], gap, front, rfl, earlier⟩
    · rintro ⟨front, rfl, gap, after, rfl, placed⟩
      exact ⟨gap, after ++ left, by simp only [List.append_assoc],
        ih.mpr ⟨after, rfl, placed⟩⟩

theorem placed_iff_isSome {segments : List (List Char)} {text : List Char} :
    (∃ left, Placed segments text left) ↔ (earliest segments text).isSome = true := by
  constructor
  · rintro ⟨left, placed⟩
    obtain ⟨rest, found, -⟩ := earliest_longest (List.suffix_refl text) placed
    rw [found]
    rfl
  · intro some
    obtain ⟨left, found⟩ := Option.isSome_iff_exists.mp some
    exact ⟨left, placed_of_earliest found⟩

theorem earliest_nil_iff {segments : List (List Char)} {text : List Char} :
    earliest segments text = some [] ↔
      Placed segments text [] ∧ ∀ left, Placed segments text left → left = [] := by
  constructor
  · intro found
    refine ⟨placed_of_earliest found, fun left placed => ?_⟩
    obtain ⟨most, hmost, inside⟩ := earliest_longest (List.suffix_refl text) placed
    rw [found] at hmost
    cases hmost
    exact List.suffix_nil.mp inside
  · rintro ⟨placed, only⟩
    obtain ⟨left, found, -⟩ := earliest_longest (List.suffix_refl text) placed
    rw [found, only left (placed_of_earliest found)]

theorem placed_open {segments : List (List Char)} {text left : List Char}
    (last : segments.getLast? = some []) (placed : Placed segments text left) :
    Placed segments text [] := by
  induction segments generalizing text with
  | nil => cases last
  | cons segment segments ih =>
    obtain ⟨gap, after, htext, rest⟩ := placed
    cases segments with
    | nil =>
      cases last
      exact ⟨text, [], by simp, rfl⟩
    | cons second segments =>
      rw [List.getLast?_cons_cons] at last
      exact ⟨gap, after, htext, ih last rest⟩

theorem splitBy_star (body : List Char) :
    splitBy (· == '*') ('*' :: body) = [] :: splitBy (· == '*') body := by
  simp [splitBy]

theorem splitBy_char {c : Char} (star : c ≠ '*') {body first : List Char}
    {segments : List (List Char)} (h : splitBy (· == '*') body = first :: segments) :
    splitBy (· == '*') (c :: body) = (c :: first) :: segments := by
  simp [splitBy, star, h]

/-- A pattern stands for the texts that start with its first segment and have the others in their
order behind it, the last one at the end. -/
theorem glob_iff {pattern first : List Char} {segments : List (List Char)}
    (hsplit : splitBy (· == '*') pattern = first :: segments) (text : List Char) :
    Glob pattern text ↔ ∃ rest, text = first ++ rest ∧ Placed segments rest [] := by
  induction pattern generalizing text first segments with
  | nil =>
    cases hsplit
    constructor
    · rintro ⟨⟩
      exact ⟨[], rfl, rfl⟩
    · rintro ⟨rest, rfl, rfl⟩
      exact .nil
  | cons c pattern ih =>
    obtain ⟨word, words, hbody⟩ :=
      List.exists_cons_of_ne_nil (splitBy_ne_nil (· == '*') pattern)
    by_cases star : c = '*'
    · subst star
      rw [splitBy_star, hbody] at hsplit
      cases hsplit
      constructor
      · intro matched
        cases matched with
        | star gap later =>
          obtain ⟨rest, rfl, placed⟩ := (ih hbody _).mp later
          exact ⟨_, rfl, gap, rest, (List.append_assoc gap word rest).symm, placed⟩
        | char literal => exact absurd rfl literal
      · rintro ⟨rest, rfl, gap, after, rfl, placed⟩
        have later : Glob pattern (word ++ after) := (ih hbody _).mpr ⟨after, rfl, placed⟩
        rw [List.append_assoc]
        exact .star gap later
    · rw [splitBy_char star hbody] at hsplit
      cases hsplit
      constructor
      · intro matched
        cases matched with
        | star => exact absurd rfl star
        | char _ later =>
          obtain ⟨rest, rfl, placed⟩ := (ih hbody _).mp later
          exact ⟨rest, rfl, placed⟩
      · rintro ⟨rest, rfl, placed⟩
        exact .char star ((ih hbody _).mpr ⟨rest, rfl, placed⟩)

end Text
