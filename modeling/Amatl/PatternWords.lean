import Amatl.Lib.Words
import Amatl.Classify
import Amatl.Semantics

/-! Patterns of several words, in the classifier and among the aliases. The search for them does not
look where words begin and end, so it finds them inside longer words and misses them where anything
but one space stands between their words. -/

namespace Amatl

open Text Words

/-- The words of a pattern follow each other in the text as whole tokens. -/
def WholeWords (p : Char → Bool) (pattern : String) (text : List Char) : Prop :=
  splitBy (· == ' ') pattern.toList <:+: words p text

def Occurs (pattern : String) (text : List Char) : Prop :=
  ∃ before behind, text = before ++ pattern.toList ++ behind

/-- The pattern stands in the text, at each place with a part of a word before or behind it. -/
def InsideWords (p : Char → Bool) (pattern : String) (text : List Char) : Prop :=
  Occurs pattern text ∧
    ∀ before behind, text = before ++ pattern.toList ++ behind →
      (∃ c, before.getLast? = some c ∧ p c = false) ∨ ∃ c, behind.head? = some c ∧ p c = false

/-- The words of the pattern stand in the text with something else than one space between them. -/
def Respelt (p : Char → Bool) (pattern : String) (text : List Char) : Prop :=
  ∃ phrase, phrase ≠ pattern.toList ∧ Spread p (splitBy (· == ' ') pattern.toList) phrase ∧
    Stands p phrase text

/-- The two ways to be wrong about a text: it has the pattern in longer words only, or its words
without the pattern. -/
def Misread (p : Char → Bool) (pattern : String) (text : List Char) : Prop :=
  (InsideWords p pattern text ∧ ¬Respelt p pattern text) ∨
    ¬Occurs pattern text ∧ Respelt p pattern text

theorem insideWords_iff {p : Char → Bool} {pattern : String} {ws : List (List Char)}
    (spread : Spread p ws pattern.toList) {text : List Char} : InsideWords p pattern text ↔
      Occurs pattern text ∧ ¬Stands p pattern.toList text := by
  refine and_congr_right (fun _ => ⟨?_, ?_⟩)
  · rintro longer ⟨before, behind, split, left, right⟩
    rcases longer before behind split with ⟨c, last, part⟩ | ⟨c, first, part⟩
    · have separator := spread.boundary_before.mp left c last
      rw [part] at separator
      cases separator
    · have separator := spread.boundary_behind.mp right c first
      rw [part] at separator
      cases separator
  · intro none before behind split
    by_contra free
    rw [not_or] at free
    refine none ⟨before, behind, split, .inl fun c last => ?_, .inr fun c first => ?_⟩
    · cases part : p c with
      | false => exact absurd ⟨c, last, part⟩ free.1
      | true => rfl
    · cases part : p c with
      | false => exact absurd ⟨c, first, part⟩ free.2
      | true => rfl

/-- The search for a pattern of words agrees with the words of a text it does not misread. -/
theorem contains_wholeWords_iff {p : Char → Bool} {pattern : String} (space : p ' ' = true)
    (word : ∀ w ∈ splitBy (· == ' ') pattern.toList, IsWord p w) (text : List Char) :
    (Text.contains pattern.toList text = true ↔ WholeWords p pattern text) ↔
      ¬Misread p pattern text := by
  have spread : Spread p (splitBy (· == ' ') pattern.toList) pattern.toList := by
    have joined := spread_join (splitBy_ne_nil _ _) word space
    rwa [join_splitBy] at joined
  have whole : WholeWords p pattern text ↔
      Stands p pattern.toList text ∨ Respelt p pattern text := by
    unfold WholeWords
    rw [infix_words_stands (splitBy_ne_nil _ _)]
    constructor
    · rintro ⟨phrase, words, stands⟩
      by_cases same : phrase = pattern.toList
      · exact .inl (same ▸ stands)
      · exact .inr ⟨phrase, same, words, stands⟩
    · rintro (stands | ⟨phrase, -, words, stands⟩)
      · exact ⟨pattern.toList, spread, stands⟩
      · exact ⟨phrase, words, stands⟩
  have found : Text.contains pattern.toList text = true ↔ Occurs pattern text := contains_iff
  unfold Misread
  rw [found, whole, insideWords_iff spread]
  by_cases stands : Stands p pattern.toList text
  · have there : Occurs pattern text := by
      obtain ⟨before, behind, split, -⟩ := stands
      exact ⟨before, behind, split⟩
    simp [stands, there]
  · by_cases respelt : Respelt p pattern text <;> simp [stands, respelt]

/-- Letters with single spaces between them. -/
def PlainPattern (pattern : String) : Prop :=
  ∀ w ∈ splitBy (· == ' ') pattern.toList, w ≠ [] ∧ w.all isAsciiLower = true

instance (pattern : String) : Decidable (PlainPattern pattern) :=
  inferInstanceAs (Decidable (∀ w ∈ splitBy (· == ' ') pattern.toList, _))

theorem lexicalSignals_plain : ∀ signal ∈ lexicalSignals, ∀ pattern ∈ signal.patterns,
    pattern.toList.contains ' ' = true → PlainPattern pattern := by
  decide +kernel

theorem aliasSets_plain : ∀ set ∈ aliasSets, ∀ name ∈ set.aliases,
    name.toList.contains ' ' = true → PlainPattern name := by
  decide +kernel

section

variable [UnicodeTables]

open UnicodeTables

/-- What the character tables say of the characters in the patterns. -/
structure AsciiLaws : Prop where
  space : isAlphanumeric ' ' = false
  letters : ∀ c, isAsciiLower c = true → isAlphanumeric c = true

variable (laws : AsciiLaws)

include laws in
theorem PlainPattern.isWord {pattern : String} (plain : PlainPattern pattern) {p : Char → Bool}
    (letters : ∀ c, isAlphanumeric c = true → p c = false) :
    ∀ w ∈ splitBy (· == ' ') pattern.toList, IsWord p w := by
  intro w mem
  obtain ⟨nonempty, lower⟩ := plain w mem
  exact ⟨nonempty, fun c inside => letters c (laws.letters c (List.all_eq_true.mp lower c inside))⟩

include laws in
/-- Where a pattern of several words is found exactly where its words are whole tokens. -/
theorem patterns_wholeWords_iff (text : List Char) :
    (∀ signal ∈ lexicalSignals, ∀ pattern ∈ signal.patterns, pattern.toList.contains ' ' = true →
      ((containsPattern text pattern = true ↔ WholeWords endsToken pattern text) ↔
        ¬Misread endsToken pattern text)) ∧
    ∀ set ∈ aliasSets, ∀ name ∈ set.aliases, name.toList.contains ' ' = true →
      ∀ tokens : List String,
        ((aliasPresent tokens text name = true ↔
            WholeWords (fun c => !isAlphanumeric c) name text) ↔
          ¬Misread (fun c => !isAlphanumeric c) name text) := by
  constructor
  · intro signal here pattern mem several
    have searched : containsPattern text pattern = Text.contains pattern.toList text := by
      unfold containsPattern
      rw [if_pos several]
    have space : endsToken ' ' = true := by
      unfold endsToken
      rw [laws.space]
      rfl
    have plain := lexicalSignals_plain signal here pattern mem several
    rw [searched]
    refine contains_wholeWords_iff space (plain.isWord laws fun c letter => ?_) text
    unfold endsToken
    rw [letter]
    rfl
  · intro set here name mem several tokens
    have searched : aliasPresent tokens text name = Text.contains name.toList text := by
      unfold aliasPresent
      rw [if_pos several]
    have space : (!isAlphanumeric ' ') = true := by
      rw [laws.space]
      rfl
    have plain := aliasSets_plain set here name mem several
    rw [searched]
    refine contains_wholeWords_iff (p := fun c => !isAlphanumeric c) space
      (plain.isWord laws fun c letter => ?_) text
    rw [letter]
    rfl

end

theorem asciiTables_laws :
    letI := asciiTables
    AsciiLaws :=
  letI := asciiTables
  ⟨by decide, fun c lower => by
    show (isAsciiDigit c || isAsciiLower c || isAsciiUpper c) = true
    rw [lower, Bool.or_true, Bool.true_or]⟩

theorem patterns_wholeWords_iff_sourceCode :
    letI := asciiTables
    (containsPattern "resource code".toList "source code" = true ↔
        WholeWords endsToken "source code" "resource code".toList) ↔
      ¬Misread endsToken "source code" "resource code".toList :=
  letI := asciiTables
  (patterns_wholeWords_iff asciiTables_laws "resource code".toList).1
    _ (List.mem_cons_of_mem _ List.mem_cons_self) "source code" (by decide) (by decide)

/-- A longer word ends like the pattern begins, and a hyphen stands for its space. -/
theorem sourceCode_misread :
    letI := asciiTables
    containsPattern "resource code".toList "source code" = true ∧
      ¬WholeWords endsToken "source code" "resource code".toList ∧
      containsPattern "source-code".toList "source code" = false ∧
      WholeWords endsToken "source code" "source-code".toList := by
  unfold WholeWords
  decide +kernel

end Amatl
