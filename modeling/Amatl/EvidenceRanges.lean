import Amatl.Evidence
import Amatl.Lib.Traverse

/-! The ranges of evidence. Each step of the cutting takes a part of the content that begins and
ends between characters, so no slice panics, and what it leaves out is blank. -/

namespace Amatl

open Text Bytes Traverse

/-! What each function does with a part `mid` of the content. -/

theorem floorCharBoundary_spec (content : List Char) (index : Nat) :
    isCharBoundary content (floorCharBoundary content index) = true ∧
      floorCharBoundary content index ≤ index ∧
      ∀ i ≤ index, isCharBoundary content i = true → i ≤ floorCharBoundary content index := by
  induction index with
  | zero =>
    refine ⟨isCharBoundary_iff.mpr ⟨[], content, rfl, rfl⟩, Nat.le_refl 0, fun i le _ => le⟩
  | succ index ih =>
    rw [floorCharBoundary]
    by_cases here : isCharBoundary content (index + 1) = true
    · rw [if_pos here]
      exact ⟨here, Nat.le_refl _, fun i le _ => le⟩
    · rw [if_neg here]
      obtain ⟨boundary, le, greatest⟩ := ih
      refine ⟨boundary, by omega, fun i small inside => ?_⟩
      by_cases same : i = index + 1
      · exact absurd (same ▸ inside) here
      · exact greatest i (by omega) inside

theorem skipStart_spec (before mid behind : List Char) : ∃ gap core, mid = gap ++ core ∧
    (∀ c ∈ gap, isWhitespace c = true) ∧ (∀ c, core.head? = some c → isWhitespace c = false) ∧
    skipStart (before ++ mid ++ behind) (utf8Length before) (utf8Length before + utf8Length mid) =
      some (some (utf8Length before + utf8Length gap)) := by
  induction mid generalizing before with
  | nil =>
    refine ⟨[], [], rfl, by simp, by simp, ?_⟩
    rw [skipStart, if_neg (by simp)]
    rfl
  | cons character rest ih =>
    have size := character.utf8Size_pos
    have cut := slice_append before (character :: rest) behind
    have some_text : utf8Length before < utf8Length before + utf8Length (character :: rest) := by
      rw [utf8Length_cons]
      omega
    rw [skipStart, if_pos some_text, cut]
    by_cases blank : isWhitespace character = true
    · obtain ⟨gap, core, rfl, blanks, first, skipped⟩ := ih (before ++ [character])
      refine ⟨character :: gap, core, rfl, ?_, first, ?_⟩
      · intro c mem
        rcases List.mem_cons.mp mem with rfl | later
        · exact blank
        · exact blanks c later
      · simp only [utf8Length_append, utf8Length_cons, utf8Length_nil, Nat.add_zero,
          List.append_assoc, List.singleton_append, ← Nat.add_assoc] at skipped ⊢
        rw [if_pos blank]
        exact skipped
    · rw [Bool.not_eq_true] at blank
      refine ⟨[], character :: rest, rfl, by simp, ?_, ?_⟩
      · intro c same
        obtain rfl := Option.some.inj same
        exact blank
      · simp [blank]

theorem skipEnd_spec (before mid behind : List Char) : ∃ core gap, mid = core ++ gap ∧
    (∀ c ∈ gap, isWhitespace c = true) ∧ (∀ c, core.getLast? = some c → isWhitespace c = false) ∧
    skipEnd (before ++ mid ++ behind) (utf8Length before) (utf8Length before + utf8Length mid) =
      some (some (utf8Length before + utf8Length core)) := by
  induction mid using List.reverseRecOn generalizing behind with
  | nil =>
    refine ⟨[], [], rfl, by simp, by simp, ?_⟩
    rw [skipEnd, if_neg (by simp)]
  | append_singleton rest character ih =>
    have size := character.utf8Size_pos
    have cut := slice_append before (rest ++ [character]) behind
    have some_text :
        utf8Length before < utf8Length before + utf8Length (rest ++ [character]) := by
      rw [utf8Length_append, utf8Length_cons]
      omega
    have last : (rest ++ [character]).getLast? = some character := by simp
    rw [skipEnd, if_pos some_text, cut]
    simp only [last]
    by_cases blank : isWhitespace character = true
    · obtain ⟨core, gap, rfl, blanks, ends, skipped⟩ := ih (character :: behind)
      refine ⟨core, gap ++ [character], by rw [List.append_assoc], ?_, ends, ?_⟩
      · intro c mem
        rcases List.mem_append.mp mem with inside | single
        · exact blanks c inside
        · rwa [List.mem_singleton.mp single]
      · have stop : utf8Length before + utf8Length (core ++ gap ++ [character]) -
            character.utf8Size = utf8Length before + utf8Length (core ++ gap) := by
          simp only [utf8Length_append, utf8Length_cons, utf8Length_nil]
          omega
        rw [if_pos blank, stop]
        simp only [List.append_assoc, List.singleton_append] at skipped ⊢
        exact skipped
    · rw [Bool.not_eq_true] at blank
      refine ⟨rest ++ [character], [], by simp, by simp, ?_, ?_⟩
      · intro c same
        rw [last] at same
        obtain rfl := Option.some.inj same
        exact blank
      · simp [blank]

theorem trimRange_spec (before mid behind : List Char) :
    ((∀ c ∈ mid, isWhitespace c = true) ∧
      trimRange (before ++ mid ++ behind) (utf8Length before)
        (utf8Length before + utf8Length mid) = some none) ∨
    ∃ gap core gap', mid = gap ++ core ++ gap' ∧ (∀ c ∈ gap, isWhitespace c = true) ∧
      (∀ c ∈ gap', isWhitespace c = true) ∧ core ≠ [] ∧
      (∀ c, core.head? = some c → isWhitespace c = false) ∧
      (∀ c, core.getLast? = some c → isWhitespace c = false) ∧
      trimRange (before ++ mid ++ behind) (utf8Length before)
          (utf8Length before + utf8Length mid) =
        some (some (utf8Length before + utf8Length gap,
          utf8Length before + utf8Length gap + utf8Length core)) := by
  obtain ⟨gap, rest, rfl, blanks, first, start⟩ := skipStart_spec before mid behind
  obtain ⟨core, gap', rfl, blanks', last, stop⟩ := skipEnd_spec (before ++ gap) rest behind
  have ends : utf8Length (before ++ gap) + utf8Length (core ++ gap') =
      utf8Length before + utf8Length (gap ++ (core ++ gap')) := by
    simp only [utf8Length_append]
    omega
  have text : before ++ gap ++ (core ++ gap') ++ behind =
      before ++ (gap ++ (core ++ gap')) ++ behind := by
    simp only [List.append_assoc]
  rw [ends, text, utf8Length_append before gap] at stop
  have found : trimRange (before ++ (gap ++ (core ++ gap')) ++ behind) (utf8Length before)
      (utf8Length before + utf8Length (gap ++ (core ++ gap'))) =
        some (if utf8Length before + utf8Length gap <
            utf8Length before + utf8Length gap + utf8Length core then
          some (utf8Length before + utf8Length gap,
            utf8Length before + utf8Length gap + utf8Length core) else none) := by
    rw [trimRange, start]
    simp only [stop]
  by_cases empty : core = []
  · left
    subst empty
    refine ⟨fun c mem => ?_, ?_⟩
    · rcases List.mem_append.mp mem with inside | inside
      · exact blanks c inside
      · exact blanks' c inside
    · rw [found, if_neg (by simp)]
  · right
    have size := utf8Length_pos empty
    refine ⟨gap, core, gap', by rw [List.append_assoc], blanks, blanks', empty, ?_, last, ?_⟩
    · intro c head
      refine first c ?_
      rw [List.head?_append, head]
      rfl
    · rw [found, if_pos (by omega)]

theorem trimRange_tiled {limit : Nat} (before mid behind : List Char)
    (short : utf8Length mid ≤ limit) : ∃ range,
      trimRange (before ++ mid ++ behind) (utf8Length before)
        (utf8Length before + utf8Length mid) = some range ∧
      Tiled isWhitespace limit (utf8Length before) mid range.toList := by
  rcases trimRange_spec before mid behind with ⟨blanks, trimmed⟩ |
    ⟨gap, core, gap', rfl, blanks, blanks', some_text, first, last, trimmed⟩
  · exact ⟨none, trimmed, .rest blanks⟩
  · refine ⟨_, trimmed, .range blanks some_text first last ?_ (.rest blanks')⟩
    simp only [utf8Length_append] at short
    omega

theorem splitPoints_spec (minimum position : Nat) (text : List Char) (points : SplitPoints)
    {p : Nat} (h : (splitPoints minimum position text points).sentence = some p ∨
      (splitPoints minimum position text points).whitespace = some p) :
    (points.sentence = some p ∨ points.whitespace = some p) ∨
      ∃ a b, text = a ++ b ∧ a ≠ [] ∧ p = position + utf8Length a := by
  induction text generalizing position points with
  | nil => exact .inl h
  | cons character rest ih =>
    rcases ih (position + character.utf8Size) _ h with seen | ⟨a, b, rfl, -, rfl⟩
    · have see : (points.sentence = some p ∨ points.whitespace = some p) ∨
          p = position + character.utf8Size := by
        unfold SplitPoints.see at seen
        split_ifs at seen
        · exact .inl seen
        · rcases seen with here | before
          · exact .inr (Option.some.inj here).symm
          · exact .inl (.inr before)
        · rcases seen with before | here
          · exact .inl (.inl before)
          · exact .inr (Option.some.inj here).symm
        · exact .inl seen
      rcases see with before | rfl
      · exact .inl before
      · exact .inr ⟨[character], rest, rfl, List.cons_ne_nil _ _, by simp⟩
    · refine .inr ⟨character :: a, b, rfl, List.cons_ne_nil _ _, ?_⟩
      rw [utf8Length_cons]
      omega

theorem preferredSplit_spec (before mid behind : List Char) (some_text : mid ≠ []) :
    ∃ a b, mid = a ++ b ∧ a ≠ [] ∧
      preferredSplit (before ++ mid ++ behind) (utf8Length before)
        (utf8Length before + utf8Length mid) = some (utf8Length before + utf8Length a) := by
  obtain ⟨s, points⟩ : ∃ s, splitPoints (utf8Length before +
      (utf8Length before + utf8Length mid - utf8Length before) / 2) (utf8Length before) mid {} = s :=
    ⟨_, rfl⟩
  have chosen : preferredSplit (before ++ mid ++ behind) (utf8Length before)
      (utf8Length before + utf8Length mid) =
        some ((s.sentence.or s.whitespace).getD (utf8Length before + utf8Length mid)) := by
    rw [preferredSplit, slice_append, ← points]
    rfl
  have inside : ∀ p, (s.sentence = some p ∨ s.whitespace = some p) →
      ∃ a b, mid = a ++ b ∧ a ≠ [] ∧ p = utf8Length before + utf8Length a := by
    intro p seen
    rw [← points] at seen
    rcases splitPoints_spec _ _ _ _ seen with (none | none) | found
    · cases none
    · cases none
    · exact found
  rw [chosen]
  cases sentence : s.sentence with
  | some p =>
    obtain ⟨a, b, whole, nonempty, rfl⟩ := inside p (.inl sentence)
    exact ⟨a, b, whole, nonempty, rfl⟩
  | none =>
    cases whitespace : s.whitespace with
    | some p =>
      obtain ⟨a, b, whole, nonempty, rfl⟩ := inside p (.inr whitespace)
      exact ⟨a, b, whole, nonempty, rfl⟩
    | none => exact ⟨mid, [], by rw [List.append_nil], some_text, rfl⟩

theorem nextBoundary_boundary {content : List Char} {cursor : Nat} (stop : Nat)
    (boundary : isCharBoundary content cursor = true) :
    nextBoundary content cursor stop = cursor := by
  rw [nextBoundary, if_neg]
  rw [boundary]
  simp

theorem rangeSplit_spec {content before mid behind : List Char}
    (whole : content = before ++ mid ++ behind) (some_text : mid ≠ []) : ∃ a b, mid = a ++ b ∧
      a ≠ [] ∧ utf8Length a ≤ evidenceFragmentBytes ∧
      rangeSplit content (utf8Length before) (utf8Length before + utf8Length mid) =
        some (utf8Length before + utf8Length a) := by
  obtain ⟨character, rest, rfl⟩ := List.exists_cons_of_ne_nil some_text
  have size := character.utf8Size_le_four
  have more := character.utf8Size_pos
  obtain ⟨boundary, le, greatest⟩ := floorCharBoundary_spec content
    (min (utf8Length before + evidenceFragmentBytes)
      (utf8Length before + utf8Length (character :: rest)))
  -- the first character fits, so the limit lies behind it
  have first : utf8Length before + character.utf8Size ≤ floorCharBoundary content
      (min (utf8Length before + evidenceFragmentBytes)
        (utf8Length before + utf8Length (character :: rest))) := by
    refine greatest _ ?_ (isCharBoundary_iff.mpr ⟨before ++ [character], rest ++ behind, ?_, ?_⟩)
    · rw [evidenceFragmentBytes, utf8Length_cons]
      omega
    · rw [whole]
      simp only [List.append_assoc, List.cons_append, List.nil_append]
    · rw [utf8Length_append, utf8Length_cons, utf8Length_nil, Nat.add_zero]
  unfold rangeSplit
  generalize floorCharBoundary content (min (utf8Length before + evidenceFragmentBytes)
    (utf8Length before + utf8Length (character :: rest))) = hardEnd at boundary le first
  obtain ⟨a, b, part, rfl⟩ := split_part whole boundary (by omega) (by omega)
  have nonempty : a ≠ [] := by
    rintro rfl
    rw [utf8Length_nil] at first
    omega
  by_cases early : utf8Length before + utf8Length a <
      utf8Length before + utf8Length (character :: rest)
  · obtain ⟨c, d, rfl, ends, split⟩ := preferredSplit_spec before a (b ++ behind) nonempty
    refine ⟨c, d ++ b, by rw [part, List.append_assoc], ends, ?_, ?_⟩
    · rw [utf8Length_append] at le
      omega
    · have text : before ++ (c ++ d) ++ (b ++ behind) = content := by
        rw [whole, part]
        simp only [List.append_assoc]
      rw [text] at split
      simp only [if_pos early]
      exact split
  · refine ⟨character :: rest, [], by rw [List.append_nil], some_text, by omega, ?_⟩
    simp only [if_neg early]

theorem fillRanges_spec {content before mid behind : List Char}
    (whole : content = before ++ mid ++ behind) (ranges : List (Nat × Nat)) : ∃ more,
      fillRanges content (utf8Length before) (utf8Length before + utf8Length mid) ranges =
        some (ranges ++ more) ∧
      Tiled isWhitespace evidenceFragmentBytes (utf8Length before) mid more := by
  induction length : mid.length using Nat.strong_induction_on generalizing before mid ranges with
  | _ n ih =>
    by_cases empty : mid = []
    · subst empty
      refine ⟨[], ?_, .rest (by simp)⟩
      rw [fillRanges, if_neg (by simp), List.append_nil]
    · have size := utf8Length_pos empty
      obtain ⟨a, b, rfl, some_text, short, split⟩ := rangeSplit_spec whole empty
      have cut : content = before ++ a ++ (b ++ behind) := by
        rw [whole]
        simp only [List.append_assoc]
      obtain ⟨range, trimmed, tiled⟩ := trimRange_tiled before a (b ++ behind) short
      rw [← cut] at trimmed
      have advance := utf8Length_pos some_text
      have boundary : isCharBoundary content (utf8Length before + utf8Length a) = true :=
        isCharBoundary_iff.mpr ⟨before ++ a, b ++ behind, cut, utf8Length_append before a⟩
      have next : nextBoundary content
          (max (utf8Length before + utf8Length a) (utf8Length before + 1))
            (utf8Length before + utf8Length (a ++ b)) = utf8Length (before ++ a) := by
        rw [Nat.max_eq_left (by omega), nextBoundary_boundary _ boundary, utf8Length_append]
      have shorter : b.length < n := by
        have one := List.length_pos_of_ne_nil some_text
        rw [List.length_append] at length
        omega
      have inner : content = (before ++ a) ++ b ++ behind := by
        rw [whole]
        simp only [List.append_assoc]
      obtain ⟨more, filled, others⟩ := ih b.length shorter inner (ranges ++ range.toList) rfl
      have ends : utf8Length (before ++ a) + utf8Length b =
          utf8Length before + utf8Length (a ++ b) := by
        simp only [utf8Length_append]
        omega
      rw [ends] at filled
      refine ⟨range.toList ++ more, ?_, ?_⟩
      · rw [fillRanges, if_pos (by omega), split, Option.bind_some, trimmed, Option.bind_some,
          next, filled, List.append_assoc]
      · rw [utf8Length_append] at others
        exact tiled.append others

theorem appendBoundedRange_spec {content before mid behind : List Char}
    (whole : content = before ++ mid ++ behind) (ranges : List (Nat × Nat)) : ∃ more,
      appendBoundedRange content (utf8Length before) (utf8Length before + utf8Length mid) ranges =
        some (ranges ++ more) ∧
      Tiled isWhitespace evidenceFragmentBytes (utf8Length before) mid more := by
  have trimmed := trimRange_spec before mid behind
  rw [← whole] at trimmed
  rcases trimmed with ⟨blanks, trimmed⟩ | ⟨gap, core, gap', rfl, blanks, blanks', -, -, -, trimmed⟩
  · refine ⟨[], ?_, .rest blanks⟩
    rw [appendBoundedRange, trimmed, List.append_nil]
  · have inner : content = (before ++ gap) ++ core ++ (gap' ++ behind) := by
      rw [whole]
      simp only [List.append_assoc]
    obtain ⟨more, filled, tiled⟩ := fillRanges_spec inner ranges
    rw [utf8Length_append] at filled tiled
    refine ⟨more, ?_, ?_⟩
    · rw [appendBoundedRange, trimmed]
      exact filled
    · have padded := (tiled.append (.rest blanks')).blanks_append blanks
      rw [List.append_nil, ← List.append_assoc] at padded
      exact padded

theorem paragraphRanges_spec {content done paragraph rest : List Char} {ranges : List (Nat × Nat)}
    (whole : content = done ++ paragraph ++ rest)
    (tiled : Tiled isWhitespace evidenceFragmentBytes 0 done ranges) : ∃ all,
      paragraphRanges content rest (utf8Length (done ++ paragraph)) (utf8Length done) ranges =
        some all ∧
      Tiled isWhitespace evidenceFragmentBytes 0 content all := by
  induction rest generalizing done paragraph ranges with
  | nil =>
    obtain ⟨more, appended, others⟩ := appendBoundedRange_spec whole ranges
    have length : utf8Length content = utf8Length done + utf8Length paragraph := by
      rw [whole, List.append_nil, utf8Length_append]
    rw [← length] at appended
    refine ⟨ranges ++ more, appended, ?_⟩
    rw [whole, List.append_nil]
    exact tiled.append (by rw [Nat.zero_add]; exact others)
  | cons character rest ih =>
    rw [paragraphRanges]
    by_cases newline : character = '\n'
    · obtain ⟨more, appended, others⟩ := appendBoundedRange_spec whole ranges
      rw [if_pos newline, utf8Length_append, appended, Option.bind_some]
      have closed : Tiled isWhitespace evidenceFragmentBytes 0 (done ++ paragraph ++ [character])
          (ranges ++ more) := by
        have both := tiled.append (by rw [Nat.zero_add]; exact others)
        have blank : ∀ c ∈ [character], isWhitespace c = true := by
          intro c mem
          rw [List.mem_singleton.mp mem, newline]
          decide
        have ended := both.append (.rest blank)
        rwa [List.append_nil] at ended
      have inner : content = (done ++ paragraph ++ [character]) ++ [] ++ rest := by
        rw [whole]
        simp
      have further := ih inner closed
      simpa only [List.append_nil, utf8Length_append, utf8Length_cons, utf8Length_nil,
        Nat.add_zero] using further
    · rw [if_neg newline]
      have inner : content = done ++ (paragraph ++ [character]) ++ rest := by
        rw [whole]
        simp
      have further := ih inner tiled
      simpa only [utf8Length_append, utf8Length_cons, utf8Length_nil, Nat.add_zero,
        Nat.add_assoc] using further

/-- The content is covered by its ranges. -/
theorem boundedContentRanges_tiled (content : List Char) : ∃ ranges,
    boundedContentRanges content = some ranges ∧
      Tiled isWhitespace evidenceFragmentBytes 0 content ranges := by
  have whole : content = [] ++ [] ++ content := rfl
  exact paragraphRanges_spec whole (.rest (by simp))

/-! The ranges and the fragments as the documents show them. -/

/-- Ranges in order that do not overlap. Each is a text of a bounded length without blanks at its
ends, and every character that is no blank lies in one of them. -/
structure BoundedRanges (content : List Char) (ranges : List (Nat × Nat)) : Prop where
  disjoint : ranges.Pairwise (fun r s => r.2 ≤ s.1)
  text : ∀ r ∈ ranges, r.1 < r.2 ∧ r.2 ≤ r.1 + 512 ∧ ∃ text, slice content r.1 r.2 = some text ∧
    (∀ c, text.head? = some c → isWhitespace c = false) ∧
    ∀ c, text.getLast? = some c → isWhitespace c = false
  covers : ∀ before c behind, content = before ++ c :: behind → isWhitespace c = false →
    ∃ r ∈ ranges, r.1 ≤ utf8Length before ∧ utf8Length before + c.utf8Size ≤ r.2

/-- At most eight of the ranges, numbered in their order, each with its text. -/
structure BoundedFragments (content : List Char) (ranges : List (Nat × Nat))
    (fragments : List EvidenceFragment) : Prop where
  count : fragments.length ≤ 8
  ordinal : ∀ i fragment, fragments[i]? = some fragment → fragment.ordinal.toNat = i + 1
  ordered : fragments.Pairwise (fun f g => f.endByte ≤ g.startByte)
  text : ∀ fragment ∈ fragments, (fragment.startByte, fragment.endByte) ∈ ranges ∧
    slice content fragment.startByte fragment.endByte = some fragment.text.toList

theorem boundedRanges_of_tiled {content : List Char} {ranges : List (Nat × Nat)}
    (tiled : Tiled isWhitespace evidenceFragmentBytes 0 content ranges) :
    BoundedRanges content ranges where
  disjoint := tiled.sorted
  text := by
    intro r mem
    have start : utf8Length [] = 0 := rfl
    obtain ⟨text, cut, some_text, short, first, last⟩ := tiled.slice start mem
    obtain ⟨before, behind, -, starts, stops⟩ := slice_eq_some cut
    have size := utf8Length_pos some_text
    rw [evidenceFragmentBytes] at short
    exact ⟨by omega, by omega, text, cut, first, last⟩
  covers := by
    intro before c behind whole visible
    obtain ⟨r, mem, starts, stops⟩ := tiled.covers whole visible
    exact ⟨r, mem, by omega, by omega⟩

section

variable [UnicodeTables] [Sha256]

def textAt (content : List Char) (start stop : Nat) : List Char :=
  (slice content start stop).getD []

omit [UnicodeTables] [Sha256] in
theorem slice_textAt {content : List Char} {ranges : List (Nat × Nat)}
    (bounded : BoundedRanges content ranges) {r : Nat × Nat} (mem : r ∈ ranges) :
    slice content r.1 r.2 = some (textAt content r.1 r.2) := by
  obtain ⟨-, -, text, cut, -⟩ := bounded.text r mem
  rw [textAt, cut]
  rfl

/-- The candidates that are shown, in the order of the content. -/
def shownCandidates (content : List Char) (queryTokens : List String)
    (ranges : List (Nat × Nat)) : List FragmentCandidate :=
  (((ranges.map (fun r => fragmentCandidate queryTokens r.1 r.2
    (textAt content r.1 r.2))).mergeSort byPriority).take evidenceMaxFragments).mergeSort byStart

omit [Sha256] in
theorem mem_shownCandidates {content : List Char} {queryTokens : List String}
    {ranges : List (Nat × Nat)} {candidate : FragmentCandidate}
    (mem : candidate ∈ shownCandidates content queryTokens ranges) :
    (candidate.start, candidate.stop) ∈ ranges := by
  have best := List.mem_of_mem_take (List.mem_mergeSort.mp mem)
  obtain ⟨r, here, rfl⟩ := List.mem_map.mp (List.mem_mergeSort.mp best)
  exact here

omit [Sha256] in
theorem shownCandidates_length (content : List Char) (queryTokens : List String)
    (ranges : List (Nat × Nat)) : (shownCandidates content queryTokens ranges).length ≤ 8 := by
  rw [shownCandidates, List.length_mergeSort]
  exact List.length_take_le _ _

omit [Sha256] in
theorem shownCandidates_ordered {content : List Char} (queryTokens : List String)
    {ranges : List (Nat × Nat)} (bounded : BoundedRanges content ranges) :
    (shownCandidates content queryTokens ranges).Pairwise (fun f g => f.stop ≤ g.start) := by
  have apart : (ranges.map (fun r => fragmentCandidate queryTokens r.1 r.2
      (textAt content r.1 r.2))).Pairwise (fun f g => f.stop ≤ g.start ∨ g.stop ≤ f.start) :=
    List.pairwise_map.mpr (bounded.disjoint.imp (fun before => .inl before))
  have symm : ∀ {f g : FragmentCandidate}, f.stop ≤ g.start ∨ g.stop ≤ f.start →
      g.stop ≤ f.start ∨ f.stop ≤ g.start := fun h => h.symm
  have best := ((List.mergeSort_perm _ byPriority).symm.pairwise apart symm).sublist
    (List.take_sublist evidenceMaxFragments _)
  have shown := (List.mergeSort_perm _ byStart).symm.pairwise best symm
  have sorted : (shownCandidates content queryTokens ranges).Pairwise
      (fun f g => byStart f g = true) := by
    refine List.pairwise_mergeSort (fun f g h => ?_) (fun f g => ?_) _
    · unfold byStart
      simp only [decide_eq_true_eq]
      omega
    · unfold byStart
      simp only [Bool.or_eq_true, decide_eq_true_eq]
      omega
  refine (shown.and sorted).imp_of_mem (fun {f g} here there h => ?_)
  have some_f := (bounded.text _ (mem_shownCandidates here)).1
  have some_g := (bounded.text _ (mem_shownCandidates there)).1
  have earlier : f.start ≤ g.start := of_decide_eq_true h.2
  simp only at some_f some_g
  rcases h.1 with before | behind <;> omega

theorem evidenceFragments_eq {content : String} {queryTokens : List String} (provenanceId : String)
    {ranges : List (Nat × Nat)} (found : boundedContentRanges content.toList = some ranges)
    (bounded : BoundedRanges content.toList ranges) :
    evidenceFragments content queryTokens provenanceId =
      some ((shownCandidates content.toList queryTokens ranges).zipIdx.map (fun entry =>
        fragmentOf provenanceId entry.1 entry.2
          (textAt content.toList entry.1.start entry.1.stop))) := by
  have candidates : ranges.mapM (fun range => (slice content.toList range.1 range.2).map
      (fragmentCandidate queryTokens range.1 range.2)) =
        some (ranges.map (fun r => fragmentCandidate queryTokens r.1 r.2
          (textAt content.toList r.1 r.2))) := by
    refine mapM_some (fun r mem => ?_)
    rw [slice_textAt bounded mem]
    rfl
  rw [evidenceFragments, found]
  simp only [Option.bind_eq_bind, Option.bind_some, candidates]
  refine mapM_some (fun entry mem => ?_)
  have shown : entry.1 ∈ shownCandidates content.toList queryTokens ranges :=
    List.fst_mem_of_mem_zipIdx mem
  rw [slice_textAt bounded (mem_shownCandidates shown)]
  rfl

/-- The ranges and the fragments of every content are there and as they are described. -/
theorem evidence_bounded (content : String) (queryTokens : List String) (provenanceId : String) :
    ∃ ranges fragments, boundedContentRanges content.toList = some ranges ∧
      evidenceFragments content queryTokens provenanceId = some fragments ∧
      BoundedRanges content.toList ranges ∧ BoundedFragments content.toList ranges fragments := by
  obtain ⟨ranges, found, tiled⟩ := boundedContentRanges_tiled content.toList
  have bounded := boundedRanges_of_tiled tiled
  have few := shownCandidates_length content.toList queryTokens ranges
  refine ⟨ranges, _, found, evidenceFragments_eq provenanceId found bounded, bounded, ?_⟩
  constructor
  · rw [List.length_map, List.length_zipIdx]
    exact few
  · intro i fragment here
    rw [List.getElem?_map, List.getElem?_zipIdx] at here
    cases shown : (shownCandidates content.toList queryTokens ranges)[i]? with
    | none =>
      rw [shown] at here
      cases here
    | some candidate =>
      rw [shown] at here
      obtain rfl := Option.some.inj here
      obtain ⟨inside, -⟩ := List.getElem?_eq_some_iff.mp shown
      have small : 0 + i + 1 < 4294967296 := by omega
      simp only [fragmentOf, if_pos small]
      rw [UInt32.toNat_ofNat_of_lt' small]
      omega
  · have ordered := shownCandidates_ordered queryTokens bounded
    have numbered : ((shownCandidates content.toList queryTokens ranges).zipIdx.map Prod.fst).Pairwise
        (fun f g => f.stop ≤ g.start) := by
      rw [List.zipIdx_map_fst]
      exact ordered
    exact List.pairwise_map.mpr (List.pairwise_map.mp numbered)
  · intro fragment mem
    obtain ⟨entry, here, rfl⟩ := List.mem_map.mp mem
    have shown := mem_shownCandidates (List.fst_mem_of_mem_zipIdx here)
    refine ⟨shown, ?_⟩
    simp only [fragmentOf, String.toList_ofList]
    exact slice_textAt bounded shown

end

end Amatl
