import Amatl.Deep.Robots
import Amatl.Lib.Glob

/-! Which paths a pattern of `robots.txt` matches. The matcher places each segment between the
stars as early as it can, which is right for a pattern that matches a beginning of the path. -/

namespace Amatl

open Text

/-- A star stands for any characters, a dollar at the end for the end of the path, and every
other character for itself. -/
def rfcMatches : List Char → List Char → Bool
  | [], _ => true
  | ['$'], path => path.isEmpty
  | '*' :: pattern, path => path.tails.any (rfcMatches pattern)
  | c :: pattern, d :: path => c == d && rfcMatches pattern path
  | _ :: _, [] => false

theorem afterSegments_eq (segments : List (List Char)) (text : List Char) :
    afterSegments segments text = earliest segments text := by
  induction segments generalizing text with
  | nil => rfl
  | cons segment segments ih =>
    rw [afterSegments, earliest, behind]
    by_cases empty : segment.isEmpty = true
    · rw [if_pos empty, if_pos empty]
      exact ih text
    · rw [if_neg empty, if_neg empty]
      cases splitOnce segment text with
      | none => rfl
      | some pair => exact ih pair.2

theorem rfcMatches_star (pattern path : List Char) :
    rfcMatches ('*' :: pattern) path = path.tails.any (rfcMatches pattern) := by
  rw [rfcMatches]

theorem rfcMatches_char {c : Char} {pattern : List Char} (star : c ≠ '*')
    (literal : c ≠ '$' ∨ pattern ≠ []) (path : List Char) :
    rfcMatches (c :: pattern) path = true ↔
      ∃ rest, path = c :: rest ∧ rfcMatches pattern rest = true := by
  have single : c = '$' → pattern = [] → False := by
    rintro rfl rfl
    simp at literal
  cases path with
  | nil =>
    rw [rfcMatches]
    · simp
    · exact single
    · exact star
  | cons d path =>
    rw [rfcMatches]
    · simp only [Bool.and_eq_true, beq_iff_eq, List.cons.injEq]
      constructor
      · rintro ⟨rfl, matched⟩
        exact ⟨path, ⟨rfl, rfl⟩, matched⟩
      · rintro ⟨rest, ⟨rfl, rfl⟩, matched⟩
        exact ⟨rfl, matched⟩
    · exact single
    · exact star

/-- A pattern matches a path that starts with its first segment and has the others in their
order behind it, with what is left as the end of the pattern asks for. -/
theorem rfcMatches_iff {tail : List Char} {ends : List Char → Prop}
    (hends : ∀ path, rfcMatches tail path = true ↔ ends path) {body : List Char}
    (literal : tail ≠ [] ∨ body.getLast? ≠ some '$') {first : List Char}
    {segments : List (List Char)} (hsplit : splitBy (· == '*') body = first :: segments)
    (path : List Char) :
    rfcMatches (body ++ tail) path = true ↔
      ∃ rest left, path = first ++ rest ∧ Placed segments rest left ∧ ends left := by
  induction body generalizing path first segments with
  | nil =>
    cases hsplit
    rw [List.nil_append, hends]
    constructor
    · intro h
      exact ⟨path, path, rfl, rfl, h⟩
    · rintro ⟨rest, left, rfl, rfl, h⟩
      exact h
  | cons c body ih =>
    obtain ⟨word, words, hbody⟩ := List.exists_cons_of_ne_nil (splitBy_ne_nil (· == '*') body)
    have literal' : tail ≠ [] ∨ body.getLast? ≠ some '$' := by
      refine literal.imp_right (fun last => ?_)
      cases body with
      | nil => simp
      | cons d body => simpa using last
    by_cases star : c = '*'
    · subst star
      rw [splitBy_star, hbody] at hsplit
      cases hsplit
      rw [List.cons_append, rfcMatches_star, List.any_eq_true]
      constructor
      · rintro ⟨part, mem, matched⟩
        obtain ⟨gap, hgap⟩ := (List.mem_tails _ _).mp mem
        obtain ⟨rest, left, rfl, placed, h⟩ := (ih literal' hbody part).mp matched
        exact ⟨path, left, rfl, ⟨gap, rest, by rw [← hgap, List.append_assoc], placed⟩, h⟩
      · rintro ⟨rest, left, rfl, ⟨gap, after, hrest, placed⟩, h⟩
        refine ⟨word ++ after, (List.mem_tails _ _).mpr ⟨gap, by simp [hrest]⟩, ?_⟩
        exact (ih literal' hbody _).mpr ⟨after, left, rfl, placed, h⟩
    · rw [splitBy_char star hbody] at hsplit
      cases hsplit
      have single : c ≠ '$' ∨ body ++ tail ≠ [] := by
        rcases literal with nonempty | last
        · exact Or.inr (by simp [nonempty])
        · cases body with
          | nil => exact Or.inl (by simpa using last)
          | cons d body => exact Or.inr (by simp)
      rw [List.cons_append, rfcMatches_char star single]
      constructor
      · rintro ⟨rest, rfl, matched⟩
        obtain ⟨after, left, rfl, placed, h⟩ := (ih literal' hbody rest).mp matched
        exact ⟨after, left, rfl, placed, h⟩
      · rintro ⟨after, left, rfl, placed, h⟩
        exact ⟨word ++ after, rfl, (ih literal' hbody _).mpr ⟨after, left, rfl, placed, h⟩⟩

theorem matchLength_isSome {pattern body first path : List Char} {segments : List (List Char)}
    (hbody : body = if pattern.getLast? == some '$' then pattern.dropLast else pattern)
    (hsplit : splitBy (· == '*') body = first :: segments) :
    (matchLength pattern path).isSome = true ↔
      ∃ rest left, path = first ++ rest ∧ earliest segments rest = some left ∧
        (pattern.getLast? = some '$' → left = []) := by
  unfold matchLength
  dsimp only
  rw [← hbody, hsplit]
  dsimp only
  by_cases starts : first.isPrefixOf path = true
  · obtain ⟨rest, rfl⟩ := List.isPrefixOf_iff_prefix.mp starts
    simp only [starts, Bool.not_true, Bool.false_eq_true, if_false, List.drop_left, afterSegments_eq]
    cases found : earliest segments rest with
    | none => simp [found]
    | some left =>
      by_cases anchored : pattern.getLast? = some '$'
      · cases left with
        | nil => simp [found, anchored]
        | cons c left => simp [found, anchored]
      · simp [found, anchored]
  · simp only [starts, Bool.not_false, if_true]
    constructor
    · intro h
      cases h
    · rintro ⟨rest, left, rfl, -⟩
      simp at starts

/-- An end anchor that the pattern meets twice: at the end of the path and before it. -/
def endsTwice (pattern path : List Char) : Bool :=
  pattern.getLast? == some '$' && rfcMatches pattern path &&
    path.inits.dropLast.any (rfcMatches pattern)

theorem mem_inits_dropLast {short path : List Char} :
    short ∈ path.inits.dropLast ↔ ∃ extra, extra ≠ [] ∧ path = short ++ extra := by
  induction path generalizing short with
  | nil => simp
  | cons c path ih =>
    have nonempty : (path.inits.map (List.cons c)) ≠ [] := by
      cases path <;> simp
    rw [List.inits_cons, List.dropLast_cons_of_ne_nil nonempty, List.mem_cons, ← List.map_dropLast,
      List.mem_map]
    constructor
    · rintro (rfl | ⟨front, mem, rfl⟩)
      · exact ⟨c :: path, by simp, rfl⟩
      · obtain ⟨extra, hextra, rfl⟩ := ih.mp mem
        exact ⟨extra, hextra, rfl⟩
    · rintro ⟨extra, hextra, equal⟩
      cases short with
      | nil => exact Or.inl rfl
      | cons d short =>
        rw [List.cons_append, List.cons.injEq] at equal
        obtain ⟨rfl, hpath⟩ := equal
        exact Or.inr ⟨short, ih.mpr ⟨extra, hextra, hpath⟩, rfl⟩

theorem endsTwice_iff {pattern path : List Char} :
    endsTwice pattern path = true ↔
      pattern.getLast? = some '$' ∧ rfcMatches pattern path = true ∧
        ∃ short extra, extra ≠ [] ∧ path = short ++ extra ∧ rfcMatches pattern short = true := by
  simp only [endsTwice, Bool.and_eq_true, beq_iff_eq, List.any_eq_true, mem_inits_dropLast,
    and_assoc]
  constructor
  · rintro ⟨anchored, whole, short, ⟨extra, hextra, hpath⟩, matched⟩
    exact ⟨anchored, whole, short, extra, hextra, hpath, matched⟩
  · rintro ⟨anchored, whole, short, extra, hextra, hpath, matched⟩
    exact ⟨anchored, whole, short, ⟨extra, hextra, hpath⟩, matched⟩

theorem matchLength_unanchored {pattern path : List Char} (open' : pattern.getLast? ≠ some '$') :
    (matchLength pattern path).isSome = true ↔ rfcMatches pattern path = true := by
  obtain ⟨first, segments, hsplit⟩ := List.exists_cons_of_ne_nil (splitBy_ne_nil (· == '*') pattern)
  have hbody : pattern = if pattern.getLast? == some '$' then pattern.dropLast else pattern := by
    simp [open']
  have anything : ∀ path, rfcMatches [] path = true ↔ True := fun path => by simp [rfcMatches]
  have matched := rfcMatches_iff anything (Or.inr open') hsplit path
  rw [List.append_nil] at matched
  rw [matched, matchLength_isSome hbody hsplit]
  constructor
  · rintro ⟨rest, left, hpath, found, -⟩
    exact ⟨rest, left, hpath, placed_of_earliest found, trivial⟩
  · rintro ⟨rest, left, hpath, placed, -⟩
    obtain ⟨found, hfound⟩ :=
      Option.isSome_iff_exists.mp (placed_iff_isSome.mp ⟨left, placed⟩)
    exact ⟨rest, found, hpath, hfound, fun anchored => absurd anchored open'⟩

theorem matchLength_anchored {pattern path : List Char} (anchored : pattern.getLast? = some '$') :
    (matchLength pattern path).isSome = true ↔
      rfcMatches pattern path = true ∧
        ¬ ∃ short extra, extra ≠ [] ∧ path = short ++ extra ∧ rfcMatches pattern short = true := by
  obtain ⟨first, segments, hsplit⟩ :=
    List.exists_cons_of_ne_nil (splitBy_ne_nil (· == '*') pattern.dropLast)
  have hbody : pattern.dropLast =
      if pattern.getLast? == some '$' then pattern.dropLast else pattern := by simp [anchored]
  have hpattern : pattern.dropLast ++ ['$'] = pattern := by
    obtain ⟨front, rfl⟩ := List.getLast?_eq_some_iff.mp anchored
    simp
  have atEnd : ∀ path, rfcMatches ['$'] path = true ↔ path = [] := fun path => by
    simp [rfcMatches]
  have matches' : ∀ path, rfcMatches pattern path = true ↔
      ∃ rest, path = first ++ rest ∧ Placed segments rest [] := fun path => by
    rw [← hpattern, rfcMatches_iff atEnd (Or.inl (by simp)) hsplit path]
    simp only [exists_and_left, exists_eq_right]
  rw [matchLength_isSome hbody hsplit, matches' path]
  constructor
  · rintro ⟨rest, left, hpath, found, ends⟩
    obtain rfl := ends anchored
    refine ⟨⟨rest, hpath, placed_of_earliest found⟩, ?_⟩
    rintro ⟨short, extra, hextra, hshort, matched⟩
    obtain ⟨front, rfl, earlier⟩ := (matches' short).mp matched
    have hrest : rest = front ++ extra := by
      rw [hpath, List.append_assoc] at hshort
      exact List.append_cancel_left hshort
    -- The early placement leaves something, so the earliest one does.
    obtain ⟨most, hmost, inside⟩ := earliest_longest (List.suffix_refl rest)
      (placed_iff_front.mpr ⟨front, hrest, earlier⟩)
    rw [found] at hmost
    cases hmost
    exact hextra (List.suffix_nil.mp inside)
  · rintro ⟨⟨rest, hpath, placed⟩, once⟩
    obtain ⟨left, found, -⟩ := earliest_longest (List.suffix_refl rest) placed
    refine ⟨rest, left, hpath, found, fun _ => ?_⟩
    by_contra nonempty
    obtain ⟨front, hrest, earlier⟩ := placed_iff_front.mp (placed_of_earliest found)
    refine once ⟨first ++ front, left, nonempty, ?_, (matches' _).mpr ⟨front, rfl, earlier⟩⟩
    rw [hpath, hrest, List.append_assoc]

/-- The matcher decides as the rules of the format do, except for an anchored pattern that
matches a beginning of the path as well as the whole. -/
theorem matchLength_rfc_iff (pattern path : List Char) :
    (matchLength pattern path).isSome = rfcMatches pattern path ↔
      endsTwice pattern path = false := by
  rw [← Bool.not_eq_true (endsTwice pattern path), endsTwice_iff]
  by_cases anchored : pattern.getLast? = some '$'
  · have exact' : (matchLength pattern path).isSome = true ↔ _ := matchLength_anchored anchored
    constructor
    · rintro equal ⟨-, whole, twice⟩
      rw [equal] at exact'
      exact (exact'.mp whole).2 twice
    · intro once
      rw [Bool.eq_iff_iff, exact']
      constructor
      · exact And.left
      · intro whole
        exact ⟨whole, fun twice => once ⟨anchored, whole, twice⟩⟩
  · constructor
    · rintro - ⟨ends, -⟩
      exact anchored ends
    · intro _
      rw [Bool.eq_iff_iff]
      exact matchLength_unanchored anchored

/-- Documents that end in `.pdf` are disallowed, and the name of this one has `.pdf` twice. -/
theorem secondEnding_missed :
    rfcMatches "/*.pdf$".toList "/a.pdf.pdf".toList = true ∧
      matchLength "/*.pdf$".toList "/a.pdf.pdf".toList = none := by
  decide +kernel

end Amatl
