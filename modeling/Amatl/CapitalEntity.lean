import Amatl.Lib.Words
import Amatl.Semantics

/-! What supports the entity of a question for a capital. The text is searched for "capital of" with
a term behind it, so a name that only begins like the entity is taken for it, and an entity without
terms is found in every text. -/

namespace Amatl

open Text Words

section

variable [UnicodeTables]

open UnicodeTables

def TokenOf (title snippet : Option String) (token : String) : Prop :=
  ∃ text, (title = some text ∨ snippet = some text) ∧ token ∈ tokens text.toList

/-- The entity has terms, and each is a token of the text or the stem of one. -/
def Supported (entity : List Char) (title snippet : Option String) : Prop :=
  subjectTerms entity ≠ [] ∧ ∀ term ∈ subjectTerms entity,
    TokenOf title snippet term ∨ ∃ token, TokenOf title snippet token ∧ stem token = some term

/-- The term is no stem of a token, and where it stands in the text a letter or a digit stands right
before or right behind it. -/
def InLongerWords (title snippet : Option String) (term : String) : Prop :=
  (∀ before behind, (resultText title snippet).normalized = before ++ term.toList ++ behind →
    (∃ c, before.getLast? = some c ∧ isAlphanumeric c = true) ∨
      ∃ c, behind.head? = some c ∧ isAlphanumeric c = true) ∧
  ∀ token, TokenOf title snippet token → stem token ≠ some term

/-- The text tells of a capital of a province or a state, or of one that is not the entity's. -/
def NamesOther (entity : List Char) (text : ResultText) : Prop :=
  text.mentions "capital of the province" = true ∨ text.mentions "capital of the state" = true ∨
    text.mentions "is the capital" = true ∧
      Text.contains ("capital of ".toList ++ entity) text.normalized = false

/-- Each term stands behind "capital of", but there is none, or one that is only a part of words. -/
structure Mistaken (entity : List Char) (title snippet : Option String) : Prop where
  told : ∀ term ∈ subjectTerms entity, ∃ phrase ∈ ["capital of ", "capital city of "],
    (resultText title snippet).mentions (phrase ++ term) = true
  alone : ¬NamesOther entity (resultText title snippet)
  part : subjectTerms entity = [] ∨
    ∃ term ∈ subjectTerms entity, InLongerWords title snippet term

/-! Tokens are the words between the characters that are neither letters nor digits. -/

theorem mem_tokens {value : List Char} {token : String} :
    token ∈ tokens value ↔ token.toList ∈ words (fun c => !isAlphanumeric c) (normalizedText value) := by
  have set : tokens value =
      OrdMap.setOf ((words (fun c => !isAlphanumeric c) (normalizedText value)).map String.ofList) :=
    rfl
  rw [set, OrdMap.mem_setOf, List.mem_map]
  constructor
  · rintro ⟨word, mem, rfl⟩
    rwa [String.toList_ofList]
  · exact fun mem => ⟨token.toList, mem, String.ofList_toList⟩

theorem isWord_of_mem_subjectTerms {entity : List Char} {term : String}
    (mem : term ∈ subjectTerms entity) : IsWord (fun c => !isAlphanumeric c) term.toList :=
  isWord_of_mem (mem_tokens.mp (List.mem_filter.mp mem).1)

section

variable (space : isAlphanumeric ' ' = false) (title snippet : Option String) {term : String}

include space in
theorem tokenOf_iff : TokenOf title snippet term ↔
    term.toList ∈ words (fun c => !isAlphanumeric c) (resultText title snippet).normalized := by
  have separates : (!isAlphanumeric ' ') = true := by rw [space]; rfl
  have parts : (resultText title snippet).normalized =
      (title.map (fun t => normalizedText t.toList)).getD [] ++
        ' ' :: (snippet.map (fun t => normalizedText t.toList)).getD [] := rfl
  have one : ∀ text : Option String,
      term.toList ∈ words (fun c => !isAlphanumeric c)
          ((text.map (fun t => normalizedText t.toList)).getD []) ↔
        ∃ t, text = some t ∧ term ∈ tokens t.toList := by
    intro text
    cases text with
    | none => simp
    | some t => simp [mem_tokens]
  rw [parts, words_separator separates, List.mem_append, one, one]
  constructor
  · rintro ⟨text, here | here, mem⟩
    · exact .inl ⟨text, here, mem⟩
    · exact .inr ⟨text, here, mem⟩
  · rintro (⟨text, here, mem⟩ | ⟨text, here, mem⟩)
    · exact ⟨text, .inl here, mem⟩
    · exact ⟨text, .inr here, mem⟩

theorem mem_resultText_tokens : term ∈ (resultText title snippet).tokens ↔
    TokenOf title snippet term := by
  have set : (resultText title snippet).tokens =
      OrdMap.setOf ((title.map (fun t => tokens t.toList)).getD [] ++
        (snippet.map (fun t => tokens t.toList)).getD []) := rfl
  rw [set, OrdMap.mem_setOf, List.mem_append]
  unfold TokenOf
  cases title <;> cases snippet <;> simp

theorem has_iff : (resultText title snippet).has term = true ↔
    TokenOf title snippet term ∨ ∃ token, TokenOf title snippet token ∧ stem token = some term := by
  have stems : (resultText title snippet).stems =
      OrdMap.setOf ((resultText title snippet).tokens.filterMap stem) := rfl
  unfold ResultText.has
  rw [Bool.or_eq_true, List.contains_iff_mem, List.contains_iff_mem, mem_resultText_tokens, stems,
    OrdMap.mem_setOf, List.mem_filterMap]
  simp only [mem_resultText_tokens]

include space in
theorem inLongerWords_iff (word : IsWord (fun c => !isAlphanumeric c) term.toList) :
    InLongerWords title snippet term ↔ (resultText title snippet).has term = false := by
  unfold InLongerWords
  rw [Bool.eq_false_iff, Ne, has_iff, not_or, tokenOf_iff space, mem_words_iff word]
  refine and_congr ?_ ?_
  · constructor
    · rintro longer ⟨before, behind, split, left, right⟩
      rcases longer before behind split with ⟨c, last, letter⟩ | ⟨c, first, letter⟩
      · have separator := left c last
        rw [letter] at separator
        cases separator
      · have separator := right c first
        rw [letter] at separator
        cases separator
    · intro whole before behind split
      by_contra free
      rw [not_or] at free
      refine whole ⟨before, behind, split, fun c last => ?_, fun c first => ?_⟩
      · cases letter : isAlphanumeric c with
        | true => exact absurd ⟨c, last, letter⟩ free.1
        | false => rfl
      · cases letter : isAlphanumeric c with
        | true => exact absurd ⟨c, first, letter⟩ free.2
        | false => rfl
  · simp only [not_exists, not_and, ne_eq]

/-! The checks in these words. -/

theorem entityPresent_iff (entity : List Char) :
    entityPresent (subjectTerms entity) (resultText title snippet) = true ↔
      Supported entity title snippet := by
  unfold entityPresent Supported
  rw [Bool.and_eq_true, List.all_eq_true, and_comm]
  refine and_congr ?_ (forall₂_congr fun term _ => has_iff title snippet)
  cases subjectTerms entity <;> simp

variable {entity : List Char}

/-- Without the entity in the text, only "capital of" with each term behind it speaks for it. -/
theorem entityMatch_iff {lexical : List String}
    (absent : entityPresent (subjectTerms entity) (resultText title snippet) = false) :
    (capitalChecks entity lexical (resultText title snippet)).1 = true ↔
      (∀ term ∈ subjectTerms entity, ∃ phrase ∈ ["capital of ", "capital city of "],
        (resultText title snippet).mentions (phrase ++ term) = true) ∧
      ¬NamesOther entity (resultText title snippet) := by
  have asserts : assertsCapital (subjectTerms entity) (resultText title snippet) = true ↔
      ∀ term ∈ subjectTerms entity, ∃ phrase ∈ ["capital of ", "capital city of "],
        (resultText title snippet).mentions (phrase ++ term) = true := by
    unfold assertsCapital
    rw [absent, Bool.false_and, Bool.or_false, List.all_eq_true]
    simp only [Bool.or_eq_true, List.mem_cons, List.not_mem_nil, or_false, exists_eq_or_imp,
      exists_eq_left]
  have competing : competingCapital entity (subjectTerms entity) (resultText title snippet) =
      true ↔ NamesOther entity (resultText title snippet) := by
    unfold competingCapital NamesOther
    rw [absent]
    simp only [Bool.or_eq_true, Bool.and_eq_true, Bool.not_false, and_true, Bool.not_eq_true',
      or_assoc]
  have both : (capitalChecks entity lexical (resultText title snippet)).1 =
      (assertsCapital (subjectTerms entity) (resultText title snippet) &&
        !competingCapital entity (subjectTerms entity) (resultText title snippet)) := rfl
  rw [both, Bool.and_eq_true, asserts, Bool.not_eq_true', Bool.eq_false_iff, Ne, competing]

include space in
/-- The text supports the entity it is taken to match, unless it only begins alike. -/
theorem entityMatch_supported_iff {query : Query}
    (intent : detectIntent query = some (.factualCapital entity)) (urlBlob : String)
    (lexical : List String) :
    ((assessSemantics query title snippet urlBlob lexical).entityMatch = true →
        Supported entity title snippet) ↔ ¬Mistaken entity title snippet := by
  have checks : (assessSemantics query title snippet urlBlob lexical).entityMatch =
      (capitalChecks entity lexical (resultText title snippet)).1 := by
    unfold assessSemantics
    rw [intent]
    rfl
  rw [checks, ← entityPresent_iff]
  cases present : entityPresent (subjectTerms entity) (resultText title snippet) with
  | true =>
    refine iff_of_true (fun _ => rfl) (fun mistaken => ?_)
    obtain ⟨some', all⟩ := (entityPresent_iff title snippet entity).mp present
    rcases mistaken.part with none' | ⟨term, mem, longer⟩
    · exact some' none'
    · have has := (has_iff title snippet).mpr (all term mem)
      rw [(inLongerWords_iff space title snippet (isWord_of_mem_subjectTerms mem)).mp longer] at has
      cases has
  | false =>
    rw [entityMatch_iff title snippet present]
    constructor
    · exact fun never mistaken => absurd (never ⟨mistaken.told, mistaken.alone⟩) (by decide)
    · rintro never ⟨told, alone⟩
      refine absurd ⟨told, alone, ?_⟩ never
      by_cases empty : subjectTerms entity = []
      · exact .inl empty
      · right
        have lacking : ¬∀ term ∈ subjectTerms entity, (resultText title snippet).has term = true := by
          intro all
          have there : entityPresent (subjectTerms entity) (resultText title snippet) = true :=
            (entityPresent_iff title snippet entity).mpr
              ⟨empty, fun term mem => (has_iff title snippet).mp (all term mem)⟩
          rw [present] at there
          cases there
        push Not at lacking
        obtain ⟨term, mem, lacks⟩ := lacking
        exact ⟨term, mem, (inLongerWords_iff space title snippet
          (isWord_of_mem_subjectTerms mem)).mpr (Bool.eq_false_iff.mpr lacks)⟩

end

end

def nigerQuery : Query :=
  ⟨"capital of niger", "capital of niger", [], [], [], [], [], none, none, none, none⟩

theorem entityMatch_supported_iff_niger :
    letI := asciiTables
    ((assessSemantics nigerQuery none (some "Abuja is the capital of Nigeria.") "" []).entityMatch =
        true → Supported "niger".toList none (some "Abuja is the capital of Nigeria.")) ↔
      ¬Mistaken "niger".toList none (some "Abuja is the capital of Nigeria.") :=
  letI := asciiTables
  entityMatch_supported_iff (by decide) _ _ (by decide +kernel) _ _

/-- What is said of Nigeria supports an answer about Niger. -/
theorem nigeria_counts_for_niger :
    letI := asciiTables
    detectIntent nigerQuery = some (.factualCapital "niger".toList) ∧
      (assessSemantics nigerQuery none (some "Abuja is the capital of Nigeria.") "" []).entityMatch =
        true ∧
      ¬Supported "niger".toList none (some "Abuja is the capital of Nigeria.") := by
  let _ := asciiTables
  refine ⟨by decide +kernel, by decide +kernel, fun supported => ?_⟩
  have absent : entityPresent (subjectTerms "niger".toList)
      (resultText none (some "Abuja is the capital of Nigeria.")) = false := by decide +kernel
  rw [(entityPresent_iff _ _ _).mpr supported] at absent
  cases absent

end Amatl
