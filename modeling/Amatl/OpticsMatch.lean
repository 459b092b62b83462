import Amatl.Adjustments
import Amatl.Lib.Glob

/-! What a pattern of an optics rule matches. The fragments between the stars are looked for from
the left, and the last one is then asked to stand at the end. -/

namespace Amatl

open Text

def anchoredAtStart (pattern : List Char) : Bool := pattern.head? == some '|'

def behindStart (pattern : List Char) : List Char :=
  if anchoredAtStart pattern then pattern.tail else pattern

def anchoredAtEnd (pattern : List Char) : Bool := (behindStart pattern).getLast? == some '|'

def globOf (pattern : List Char) : List Char :=
  if anchoredAtEnd pattern then (behindStart pattern).dropLast else behindStart pattern

/-- The text contains a match of the pattern, at its start and its end where the pattern is held
there. -/
def HoldsMatch (pattern text : List Char) : Prop :=
  ∃ front middle back, text = front ++ middle ++ back ∧ Glob (globOf pattern) middle ∧
    (anchoredAtStart pattern = true → front = []) ∧ (anchoredAtEnd pattern = true → back = [])

/-- Behind the last star the pattern goes on up to the end of the text, and it matches the text as
well as a beginning of it. -/
def EndsTwice (pattern text : List Char) : Prop :=
  (∃ front last, globOf pattern = front ++ '*' :: last ∧ last ≠ [] ∧ '*' ∉ last) ∧
    anchoredAtEnd pattern = true ∧ HoldsMatch pattern text ∧
    ∃ short extra, extra ≠ [] ∧ text = short ++ extra ∧ HoldsMatch pattern short

theorem fragmentsMatch_iff (anchoredStart anchoredEnd : Bool) (fragments : List (List Char))
    (text : List Char) :
    fragmentsMatch anchoredStart anchoredEnd false fragments text = true ↔
      ∃ left, earliest fragments text = some left ∧
        (anchoredEnd = true → (fragments.getLast?.getD []) ≠ [] → left = []) := by
  induction fragments generalizing text with
  | nil => simp [fragmentsMatch, earliest]
  | cons fragment rest ih =>
    have last : rest ≠ [] → (fragment :: rest).getLast?.getD [] = rest.getLast?.getD [] := by
      intro more
      obtain ⟨second, others, rfl⟩ := List.exists_cons_of_ne_nil more
      rw [List.getLast?_cons_cons]
    rw [fragmentsMatch, earliest]
    by_cases empty : fragment.isEmpty = true
    · have none_here : behind fragment text = some text := by rw [behind, if_pos empty]
      rw [if_pos empty, ih, none_here]
      by_cases more : rest = []
      · subst more
        have nothing : fragment = [] := List.isEmpty_iff.mp empty
        simp [earliest, nothing]
      · rw [last more]
        rfl
    · rw [if_neg empty, behind_find (by simpa using empty)]
      cases found : find fragment text with
      | none => simp
      | some position =>
        simp only [Option.map_some, Option.bind_some, Bool.false_and, Bool.false_eq_true, if_false]
        by_cases more : rest = []
        · subst more
          have some : fragment ≠ [] := by simpa using empty
          cases anchoredEnd <;>
            simp [fragmentsMatch, earliest, some]
        · have inner : rest.isEmpty = false := by simpa using more
          simp only [inner, Bool.false_and, Bool.false_eq_true, if_false, ih, last more]

/-- The segments can be placed, up to the end where they are held there. -/
def Placeable (segments : List (List Char)) (atEnd : Bool) (text : List Char) : Prop :=
  ∃ left, Placed segments text left ∧ (atEnd = true → left = [])

/-- The earliest placement decides whether the segments fit, unless the last one is held at the
end and the segments fit a beginning of the text, too. -/
theorem fragmentsMatch_fits {segments : List (List Char)} (some : segments ≠ [])
    (anchoredStart anchoredEnd : Bool) (text : List Char) :
    (fragmentsMatch anchoredStart anchoredEnd false segments text = true ↔
        Placeable segments anchoredEnd text) ↔
      ¬(anchoredEnd = true ∧ segments.getLast?.getD [] ≠ [] ∧ Placeable segments anchoredEnd text ∧
        ∃ short extra, extra ≠ [] ∧ text = short ++ extra ∧ Placeable segments anchoredEnd short) := by
  rw [fragmentsMatch_iff]
  have placed_some : (∃ left, Placed segments text left) ↔
      ∃ left, earliest segments text = .some left := by
    rw [placed_iff_isSome, Option.isSome_iff_exists]
  cases anchoredEnd with
  | false =>
    simp only [Placeable, Bool.false_eq_true, false_and, not_false_eq_true, iff_true, false_imp_iff,
      and_true]
    exact placed_some.symm
  | true =>
    by_cases closed : segments.getLast?.getD [] = []
    · have last : segments.getLast? = .some [] := by
        rcases List.eq_nil_or_concat segments with rfl | ⟨front, final, rfl⟩
        · exact absurd rfl some
        · rw [List.concat_eq_append, List.getLast?_concat] at closed ⊢
          exact congrArg Option.some closed
      have fits : Placeable segments true text ↔ ∃ left, Placed segments text left := by
        constructor
        · rintro ⟨left, placed, -⟩
          exact ⟨left, placed⟩
        · rintro ⟨left, placed⟩
          exact ⟨[], placed_open last placed, fun _ => rfl⟩
      rw [fits, placed_some]
      simp [closed]
    · have fits : ∀ text, Placeable segments true text ↔ Placed segments text [] := by
        intro text
        constructor
        · rintro ⟨left, placed, ends⟩
          rw [ends rfl] at placed
          exact placed
        · exact fun placed => ⟨[], placed, fun _ => rfl⟩
      have greedy : (∃ left, earliest segments text = .some left ∧
          (true = true → segments.getLast?.getD [] ≠ [] → left = [])) ↔
          earliest segments text = .some [] := by
        constructor
        · rintro ⟨left, found, ends⟩
          rw [ends rfl closed] at found
          exact found
        · exact fun found => ⟨[], found, fun _ _ => rfl⟩
      rw [greedy, earliest_nil_iff]
      simp only [fits]
      constructor
      · rintro same ⟨-, -, placed, short, extra, more, rfl, earlier⟩
        have only := (same.mpr placed).2
        exact more (only extra (placed_iff_front.mpr ⟨short, rfl, earlier⟩))
      · intro once
        refine ⟨And.left, fun placed => ⟨placed, fun left leaves => ?_⟩⟩
        by_contra more
        obtain ⟨front, htext, earlier⟩ := placed_iff_front.mp leaves
        exact once ⟨trivial, closed, placed, front, left, more, htext, earlier⟩

theorem holdsMatch_start {pattern first : List Char} {segments : List (List Char)}
    (hsplit : splitBy (· == '*') (globOf pattern) = first :: segments)
    (start : anchoredAtStart pattern = true) (text : List Char) :
    HoldsMatch pattern text ↔
      ∃ rest, text = first ++ rest ∧ Placeable segments (anchoredAtEnd pattern) rest := by
  constructor
  · rintro ⟨front, middle, back, rfl, matched, atStart, atEnd⟩
    obtain ⟨rest, rfl, placed⟩ := (glob_iff hsplit middle).mp matched
    refine ⟨rest ++ back, ?_, back, placed_iff_front.mpr ⟨rest, rfl, placed⟩, atEnd⟩
    rw [atStart start, List.nil_append, List.append_assoc]
  · rintro ⟨rest, rfl, left, leaves, atEnd⟩
    obtain ⟨front, rfl, placed⟩ := placed_iff_front.mp leaves
    refine ⟨[], first ++ front, left, ?_, ?_, fun _ => rfl, atEnd⟩
    · rw [List.nil_append, List.append_assoc]
    · exact (glob_iff hsplit _).mpr ⟨front, rfl, placed⟩

theorem holdsMatch_anywhere {pattern first : List Char} {segments : List (List Char)}
    (hsplit : splitBy (· == '*') (globOf pattern) = first :: segments)
    (start : anchoredAtStart pattern = false) (text : List Char) :
    HoldsMatch pattern text ↔ Placeable (first :: segments) (anchoredAtEnd pattern) text := by
  constructor
  · rintro ⟨front, middle, back, rfl, matched, -, atEnd⟩
    obtain ⟨rest, rfl, placed⟩ := (glob_iff hsplit middle).mp matched
    refine ⟨back, ⟨front, rest ++ back, by simp only [List.append_assoc], ?_⟩, atEnd⟩
    exact placed_iff_front.mpr ⟨rest, rfl, placed⟩
  · rintro ⟨left, ⟨gap, after, rfl, leaves⟩, atEnd⟩
    obtain ⟨front, rfl, placed⟩ := placed_iff_front.mp leaves
    refine ⟨gap, first ++ front, left, by simp only [List.append_assoc], ?_, ?_, atEnd⟩
    · exact (glob_iff hsplit _).mpr ⟨front, rfl, placed⟩
    · intro anchored
      rw [start] at anchored
      cases anchored

theorem fragmentsMatch_start {first : List Char} {segments : List (List Char)}
    (some : segments ≠ []) (anchoredEnd : Bool) (text : List Char) :
    fragmentsMatch true anchoredEnd true (first :: segments) text = true ↔
      ∃ rest, text = first ++ rest ∧
        fragmentsMatch true anchoredEnd false segments rest = true := by
  have inner : segments.isEmpty = false := by simpa using some
  rw [fragmentsMatch]
  by_cases empty : first.isEmpty = true
  · have nothing : first = [] := List.isEmpty_iff.mp empty
    rw [if_pos empty, nothing]
    simp
  · have nonempty : first.isEmpty = false := by simpa using empty
    rw [if_neg empty]
    cases found : find first text with
    | none =>
      constructor
      · nofun
      · rintro ⟨rest, rfl, -⟩
        rw [find_front nonempty] at found
        cases found
    | some position =>
      simp only [inner, Bool.true_and, Bool.false_and, Bool.false_eq_true, if_false, bne_iff_ne,
        ne_eq, ite_not]
      by_cases here : position = 0
      · rw [here] at found
        rw [if_pos here, here, Nat.zero_add]
        obtain ⟨rest, rfl⟩ := front_of_find found
        rw [List.drop_left]
        simp
      · rw [if_neg here]
        constructor
        · nofun
        · rintro ⟨rest, rfl, -⟩
          rw [find_front nonempty] at found
          exact absurd (Option.some.inj found).symm here

theorem splitBy_lastStar {body : List Char} (mem : '*' ∈ body) :
    ∃ front last first more, body = front ++ '*' :: last ∧ '*' ∉ last ∧
      splitBy (· == '*') front = first :: more ∧
      splitBy (· == '*') body = first :: (more ++ [last]) := by
  obtain ⟨back, front, reversed, absent⟩ := List.eq_append_cons_of_mem (List.mem_reverse.mpr mem)
  have whole : body = front.reverse ++ '*' :: back.reverse := by
    have twice := congrArg List.reverse reversed
    simpa using twice
  have clean : '*' ∉ back.reverse := by simpa using absent
  obtain ⟨first, more, hfront⟩ :=
    List.exists_cons_of_ne_nil (splitBy_ne_nil (· == '*') front.reverse)
  refine ⟨_, _, first, more, whole, clean, hfront, ?_⟩
  rw [whole, splitBy_append (by simp), splitBy_clean clean, hfront]
  rfl

theorem lastStar_unique {front last front' last' : List Char} (clean : '*' ∉ last)
    (clean' : '*' ∉ last') (same : front ++ '*' :: last = front' ++ '*' :: last') :
    last = last' := by
  have pieces := congrArg (splitBy (· == '*')) same
  rw [splitBy_append (by simp), splitBy_append (by simp), splitBy_clean clean,
    splitBy_clean clean'] at pieces
  have final := congrArg List.getLast? pieces
  rw [List.getLast?_concat, List.getLast?_concat] at final
  exact Option.some.inj final

theorem holdsMatch_plain {pattern : List Char} (plain : '*' ∉ globOf pattern) (text : List Char) :
    HoldsMatch pattern text ↔
      ∃ front back, text = front ++ globOf pattern ++ back ∧
        (anchoredAtStart pattern = true → front = []) ∧
        (anchoredAtEnd pattern = true → back = []) := by
  have only : ∀ middle, Glob (globOf pattern) middle ↔ middle = globOf pattern := by
    intro middle
    rw [glob_iff (splitBy_clean plain)]
    constructor
    · rintro ⟨rest, rfl, nothing⟩
      rw [show rest = [] from nothing, List.append_nil]
    · rintro rfl
      exact ⟨[], (List.append_nil _).symm, rfl⟩
  constructor
  · rintro ⟨front, middle, back, rfl, matched, atStart, atEnd⟩
    rw [(only middle).mp matched]
    exact ⟨front, back, rfl, atStart, atEnd⟩
  · rintro ⟨front, back, rfl, atStart, atEnd⟩
    exact ⟨front, _, back, rfl, (only _).mpr rfl, atStart, atEnd⟩

/-- The body of `pattern_matches` on the lower-cased texts. -/
def foldedMatches (pattern text : List Char) : Bool :=
  let fragments := splitBy (· == '*') (globOf pattern)
  if fragments.length ≤ 1 then
    match anchoredAtStart pattern, anchoredAtEnd pattern with
    | true, true => text == globOf pattern
    | true, false => (globOf pattern).isPrefixOf text
    | false, true => (globOf pattern).isSuffixOf text
    | false, false => contains (globOf pattern) text
  else fragmentsMatch (anchoredAtStart pattern) (anchoredAtEnd pattern) true fragments text

theorem patternMatches_folded [UnicodeTables] (pattern haystack : List Char) :
    patternMatches pattern haystack =
      foldedMatches (UnicodeTables.strToLowercase pattern)
        (UnicodeTables.strToLowercase haystack) := rfl

theorem foldedMatches_plain {pattern : List Char} (plain : '*' ∉ globOf pattern)
    (text : List Char) : foldedMatches pattern text = true ↔ HoldsMatch pattern text := by
  rw [holdsMatch_plain plain, foldedMatches, splitBy_clean plain, if_pos (by simp)]
  cases anchoredAtStart pattern <;> cases anchoredAtEnd pattern
  · simp only [Bool.false_eq_true, false_imp_iff, and_true]
    exact contains_iff
  · simp only [Bool.false_eq_true, false_imp_iff, true_and, forall_const]
    rw [List.isSuffixOf_iff_suffix]
    constructor
    · rintro ⟨front, rfl⟩
      exact ⟨front, [], (List.append_nil _).symm, rfl⟩
    · rintro ⟨front, back, rfl, nothing⟩
      rw [nothing, List.append_nil]
      exact List.suffix_append front _
  · simp only [Bool.false_eq_true, false_imp_iff, and_true, forall_const]
    rw [List.isPrefixOf_iff_prefix]
    constructor
    · rintro ⟨back, rfl⟩
      exact ⟨[], back, rfl, rfl⟩
    · rintro ⟨front, back, rfl, nothing⟩
      rw [nothing]
      exact List.prefix_append _ back
  · simp only [forall_const, beq_iff_eq]
    constructor
    · rintro rfl
      exact ⟨[], [], (List.append_nil _).symm, rfl, rfl⟩
    · rintro ⟨front, back, rfl, rfl, rfl⟩
      exact List.append_nil _

theorem foldedMatches_starred {pattern first : List Char} {segments : List (List Char)}
    (hsplit : splitBy (· == '*') (globOf pattern) = first :: segments) (some : segments ≠ [])
    (text : List Char) :
    foldedMatches pattern text =
      fragmentsMatch (anchoredAtStart pattern) (anchoredAtEnd pattern) true (first :: segments)
        text := by
  obtain ⟨second, others, rfl⟩ := List.exists_cons_of_ne_nil some
  rw [foldedMatches, hsplit, if_neg (by simp)]

/-- A pattern matches what it means, unless it goes on behind its last star up to the end and fits a
beginning of the text, too. -/
theorem foldedMatches_iff (pattern text : List Char) :
    (foldedMatches pattern text = true ↔ HoldsMatch pattern text) ↔ ¬EndsTwice pattern text := by
  by_cases plain : '*' ∉ globOf pattern
  · have right := foldedMatches_plain plain text
    refine ⟨fun _ => ?_, fun _ => right⟩
    rintro ⟨⟨front, last, hglob, -⟩, -⟩
    rw [hglob] at plain
    simp at plain
  · rw [not_not] at plain
    obtain ⟨front, last, first, more, hglob, clean, -, hsplit⟩ := splitBy_lastStar plain
    have some : more ++ [last] ≠ [] := by simp
    have final : (more ++ [last]).getLast?.getD [] = last := by
      rw [List.getLast?_concat, Option.getD_some]
    have goesOn : (∃ front last, globOf pattern = front ++ '*' :: last ∧ last ≠ [] ∧
        '*' ∉ last) ↔ last ≠ [] := by
      constructor
      · rintro ⟨front', last', hglob', nonempty, clean'⟩
        rw [lastStar_unique clean clean' (hglob.symm.trans hglob')]
        exact nonempty
      · exact fun nonempty => ⟨front, last, hglob, nonempty, clean⟩
    rw [EndsTwice, goesOn, foldedMatches_starred hsplit some]
    cases start : anchoredAtStart pattern with
    | false =>
      have first_free : fragmentsMatch false (anchoredAtEnd pattern) true
          (first :: (more ++ [last])) text = fragmentsMatch false (anchoredAtEnd pattern) false
          (first :: (more ++ [last])) text := by
        rw [fragmentsMatch, fragmentsMatch]
        simp only [Bool.false_and, Bool.and_false, Bool.false_eq_true, if_false]
      have whole := fragmentsMatch_fits (List.cons_ne_nil first (more ++ [last])) false
        (anchoredAtEnd pattern) text
      have final' : (first :: (more ++ [last])).getLast?.getD [] = last := by
        rw [← List.cons_append, List.getLast?_concat, Option.getD_some]
      rw [final'] at whole
      simp only [first_free, holdsMatch_anywhere hsplit start]
      rw [whole]
      exact not_congr ⟨fun ⟨ends, h⟩ => ⟨h.1, ends, h.2⟩, fun ⟨h, ends, rest⟩ => ⟨ends, h, rest⟩⟩
    | true =>
      simp only [fragmentsMatch_start some, holdsMatch_start hsplit start]
      by_cases starts : ∃ rest, text = first ++ rest
      · obtain ⟨rest, rfl⟩ := starts
        have whole := fragmentsMatch_fits some true (anchoredAtEnd pattern) rest
        rw [final] at whole
        simp only [List.append_cancel_left_eq, exists_eq_left']
        rw [whole]
        refine not_congr ⟨?_, ?_⟩
        · rintro ⟨ends, nonempty, fits, short, extra, some_left, rfl, earlier⟩
          exact ⟨nonempty, ends, fits, first ++ short, extra, some_left,
            by rw [List.append_assoc], short, rfl, earlier⟩
        · rintro ⟨nonempty, ends, fits, -, extra, some_left, htext, short, rfl, earlier⟩
          rw [List.append_assoc] at htext
          exact ⟨ends, nonempty, fits, short, extra, some_left, List.append_cancel_left htext,
            earlier⟩
      · constructor
        · rintro - ⟨-, -, ⟨rest, htext, -⟩, -⟩
          exact starts ⟨rest, htext⟩
        · intro _
          constructor
          · rintro ⟨rest, htext, -⟩
            exact absurd ⟨rest, htext⟩ starts
          · rintro ⟨rest, htext, -⟩
            exact absurd ⟨rest, htext⟩ starts

/-- A pattern matches a text as it says, unless it goes on behind its last star up to the end and
fits a beginning of the text, too. -/
theorem patternMatches_iff [UnicodeTables] (pattern haystack : List Char) :
    (patternMatches pattern haystack = true ↔
        HoldsMatch (UnicodeTables.strToLowercase pattern)
          (UnicodeTables.strToLowercase haystack)) ↔
      ¬EndsTwice (UnicodeTables.strToLowercase pattern)
        (UnicodeTables.strToLowercase haystack) := by
  rw [patternMatches_folded]
  exact foldedMatches_iff _ _

/-- The text ends as the pattern asks for, and has the ending before that, too. -/
theorem laterEnd_missed :
    letI := asciiTables
    patternMatches "*ab|".toList "abab".toList = false ∧
      HoldsMatch "*ab|".toList "abab".toList := by
  refine ⟨by decide +kernel, [], "abab".toList, [], rfl, ?_, fun _ => rfl, fun _ => rfl⟩
  have pieces : splitBy (· == '*') (globOf "*ab|".toList) = [] :: ["ab".toList] := by
    decide +kernel
  exact (glob_iff pieces _).mpr ⟨"abab".toList, rfl, "ab".toList, [], rfl, rfl⟩

end Amatl
