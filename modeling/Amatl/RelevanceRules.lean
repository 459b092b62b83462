import Amatl.Relevance

/-! What relevance must never do. A result is relevant by its words, or by an intent whose subject
or entity it has; a contradiction keeps it out, and no rank brings it in. -/

namespace Amatl

open Text UrlCrate

namespace RelevanceSignals

variable {s : RelevanceSignals} {t : RelevanceThresholds}

def lifted (s : RelevanceSignals) (t : RelevanceThresholds) : Bool :=
  s.lexicalStrong t || (s.lexicalModerate t && s.strongSemanticRescue) ||
    (s.intentActive && intentRescueQualifies s.semantic.queryIntent s.subjectMatch s.entityMatch
      s.aliasHits s.semanticCoverage)

theorem weakClassification_ne_relevant : s.weakClassification t ≠ .relevant := by
  unfold weakClassification demoteWeak
  split_ifs <;> decide

theorem weakClassification_notRelevant (h : s.weakClassification t = .notRelevant) :
    s.hasSnippet = true := by
  cases snippet : s.hasSnippet with
  | true => rfl
  | false =>
    unfold weakClassification demoteWeak at h
    simp only [snippet, Bool.false_and, Bool.false_eq_true, if_false] at h
    split_ifs at h

theorem rescue_not_blocking (h : s.strongSemanticRescue = true) : s.blockingNegative = false := by
  unfold strongSemanticRescue at h
  simp only [Bool.and_eq_true, Bool.not_eq_true'] at h
  exact h.1.1

/-- The branches before the partial evidence decide what is relevant, whatever their order. -/
theorem classification_relevant : s.classification t = .relevant ↔
    s.hadSufficientText = true ∧
      (s.exactPhraseMatch = true ∨ s.blockingNegative = false ∧ s.lifted t = true) := by
  have weak : s.weakClassification t ≠ .relevant := weakClassification_ne_relevant
  unfold classification lifted
  cases text : s.hadSufficientText with
  | false => simp
  | true =>
    cases phrase : s.exactPhraseMatch with
    | true => simp
    | false =>
      cases blocking : s.blockingNegative with
      | true =>
        have none : s.strongSemanticRescue = false := by
          cases rescue : s.strongSemanticRescue with
          | false => rfl
          | true => exact absurd (rescue_not_blocking rescue) (by rw [blocking]; decide)
        cases strong : s.lexicalStrong t with
        | true => cases s.hasSnippet <;> simp
        | false => simpa [none] using weak
      | false =>
        cases strong : s.lexicalStrong t with
        | true => simp
        | false =>
          cases rescue : s.lexicalModerate t && s.strongSemanticRescue with
          | true => simp
          | false =>
            cases intent : s.intentActive && intentRescueQualifies s.semantic.queryIntent
                s.subjectMatch s.entityMatch s.aliasHits s.semanticCoverage with
            | true => simp [intent]
            | false => simpa [intent] using weak

theorem classification_notRelevant (h : s.classification t = .notRelevant) :
    s.hasSnippet = true := by
  cases snippet : s.hasSnippet with
  | true => rfl
  | false =>
    have weak : s.weakClassification t ≠ .notRelevant := by
      intro bad
      rw [weakClassification_notRelevant bad] at snippet
      cases snippet
    unfold classification at h
    rw [snippet] at h
    split_ifs at h
    exact absurd h weak

theorem relevant_rankIsTop (top : Option Bool) :
    ({ s with providerRankIsTop := top }).classification t = .relevant ↔
      s.classification t = .relevant := by
  rw [classification_relevant, classification_relevant]
  exact Iff.rfl

theorem lifted_cases (h : s.lifted t = true)
    (subject : s.subjectMatch = true → s.intentActive = true) : s.lexicalStrong t = true ∨
      s.intentActive = true ∧ (s.subjectMatch = true ∨ s.entityMatch = true) := by
  unfold lifted at h
  rw [Bool.or_eq_true, Bool.or_eq_true] at h
  rcases h with (strong | rescue) | intent
  · exact .inl strong
  · rw [Bool.and_eq_true] at rescue
    have some := rescue.2
    unfold strongSemanticRescue at some
    simp only [Bool.and_eq_true] at some
    exact .inr ⟨subject some.1.2, .inl some.1.2⟩
  · rw [Bool.and_eq_true] at intent
    refine .inr ⟨intent.1, ?_⟩
    have qualifies := intent.2
    unfold intentRescueQualifies at qualifies
    split at qualifies
    · cases qualifies
    · split_ifs at qualifies
      · exact .inr qualifies
      · rw [Bool.or_eq_true, Bool.and_eq_true] at qualifies
        rcases qualifies with entity | both
        · exact .inr entity
        · exact .inl both.1
      · rw [Bool.and_eq_true] at qualifies
        exact .inl qualifies.1

end RelevanceSignals

def ResultRelevanceAssessment.lexicallyStrong (a : ResultRelevanceAssessment)
    (t : RelevanceThresholds) : Bool :=
  reaches t.relevantTitleCoverage a.titleTermCoverage ||
    reaches t.relevantCombinedCoverage (a.titleTermCoverage + 1 / 2 * a.snippetTermCoverage) ||
    (reaches t.relevantSnippetCoverage a.snippetTermCoverage && 2 ≤ a.matchedQueryTerms)

section

variable [UnicodeTables] {Url : Type} [UrlCrate Url]

/-- What the assessment of a result keeps to. -/
structure FollowsRules (query : Query) (result : DeduplicatedResult Url)
    (thresholds : RelevanceThresholds) : Prop where
  blocked : (assessResult query result thresholds).negativeEvidence.isBlocking = true →
    (assessResult query result thresholds).exactPhraseMatch = false →
      (assessResult query result thresholds).classification ≠ .relevant
  supported : (assessResult query result thresholds).classification = .relevant →
    (assessResult query result thresholds).exactPhraseMatch = false →
      (assessResult query result thresholds).lexicallyStrong thresholds = false →
        (assessResult query result thresholds).queryIntent.isSome = true ∧
          ((assessResult query result thresholds).subjectMatch = true ∨
            (assessResult query result thresholds).entityMatch = true)
  snippet : (assessResult query result thresholds).classification = .notRelevant →
    ∃ snippet, result.snippet = some snippet ∧ trim snippet.toList ≠ []
  insufficient : (assessResult query result thresholds).hadSufficientText = false →
    (assessResult query result thresholds).classification = .unknown
  ranks : ∀ ranks : List (String × Option Rank),
    (assessResult query { result with providerRanks := ranks } thresholds).classification =
        .relevant ↔
      (assessResult query result thresholds).classification = .relevant

variable (query : Query) (result : DeduplicatedResult Url) (thresholds : RelevanceThresholds)

/-- The evidence that speaks against a result is what blocks the branches. -/
theorem isBlocking_eq : (assessResult query result thresholds).negativeEvidence.isBlocking =
    (relevanceSignals query result thresholds).blockingNegative := by
  have same : (assessResult query result thresholds).negativeEvidence =
      (relevanceSignals query result thresholds).negative := rfl
  rw [same]
  exact Bool.or_comm _ _

theorem queryIntent_isSome : (assessResult query result thresholds).queryIntent.isSome =
    (relevanceSignals query result thresholds).intentActive := by
  have reported : (assessResult query result thresholds).queryIntent =
      if thresholds.semanticIntent then
        (relevanceSignals query result thresholds).semantic.queryIntent else none := rfl
  have active : (relevanceSignals query result thresholds).intentActive =
      (thresholds.semanticIntent &&
        (relevanceSignals query result thresholds).semantic.queryIntent.isSome) := rfl
  rw [reported, active]
  cases thresholds.semanticIntent <;> rfl

theorem subjectMatch_active (h : (relevanceSignals query result thresholds).subjectMatch = true) :
    (relevanceSignals query result thresholds).intentActive = true := by
  have both : ((relevanceSignals query result thresholds).intentActive &&
      (relevanceSignals query result thresholds).semantic.subjectMatch) = true := h
  rw [Bool.and_eq_true] at both
  exact both.1

theorem hasSnippet_iff : (relevanceSignals query result thresholds).hasSnippet = true ↔
    ∃ snippet, result.snippet = some snippet ∧ trim snippet.toList ≠ [] := by
  have has : (relevanceSignals query result thresholds).hasSnippet =
      (result.snippet.map (fun s => !(trim s.toList).isEmpty)).getD false := rfl
  rw [has]
  cases result.snippet with
  | none => simp
  | some snippet => simp

theorem signals_ranks (ranks : List (String × Option Rank)) :
    relevanceSignals query { result with providerRanks := ranks } thresholds =
      { relevanceSignals query result thresholds with providerRankIsTop := rankIsTop ranks } := by
  simp only [relevanceSignals, urlTokens]

theorem assessResult_followsRules : FollowsRules query result thresholds where
  blocked := by
    intro blocks phrase relevant
    rw [isBlocking_eq] at blocks
    obtain ⟨-, exact | ⟨free, -⟩⟩ := RelevanceSignals.classification_relevant.mp relevant
    · have quoted : (relevanceSignals query result thresholds).exactPhraseMatch = false := phrase
      rw [exact] at quoted
      cases quoted
    · rw [blocks] at free
      cases free
  supported := by
    intro relevant phrase weak
    obtain ⟨-, exact | ⟨-, lifted⟩⟩ := RelevanceSignals.classification_relevant.mp relevant
    · have quoted : (relevanceSignals query result thresholds).exactPhraseMatch = false := phrase
      rw [exact] at quoted
      cases quoted
    · rcases RelevanceSignals.lifted_cases lifted (subjectMatch_active query result thresholds)
        with strong | ⟨active, found⟩
      · have words : (relevanceSignals query result thresholds).lexicalStrong thresholds = false :=
          weak
        rw [strong] at words
        cases words
      · rw [queryIntent_isSome]
        exact ⟨active, found⟩
  snippet := by
    intro rejected
    exact (hasSnippet_iff query result thresholds).mp
      (RelevanceSignals.classification_notRelevant rejected)
  insufficient := by
    intro little
    have text : (relevanceSignals query result thresholds).hadSufficientText = false := little
    show (relevanceSignals query result thresholds).classification thresholds = .unknown
    unfold RelevanceSignals.classification
    simp only [text, Bool.not_false, if_true]
  ranks := by
    intro ranks
    show (relevanceSignals query { result with providerRanks := ranks } thresholds).classification
        thresholds = .relevant ↔
      (relevanceSignals query result thresholds).classification thresholds = .relevant
    rw [signals_ranks]
    exact RelevanceSignals.relevant_rankIsTop (rankIsTop ranks)

end

end Amatl
