import Amatl.CacheBounds
import Amatl.Pipeline
import Amatl.RankingV2

/-! The relevance of ranking v2 is a number between zero and one as long as the weights that count
in the first pass are not all zero. Validation looks at the sum of all weights alone. -/

namespace Amatl

open RankingV2

/-- A number from zero to one. -/
def InUnit (value : F64) : Prop := ∃ q : ℚ, value = .finite q ∧ 0 ≤ q ∧ q ≤ 1

theorem not_inUnit_nan : ¬InUnit .nan := by
  intro ⟨q, h, _⟩
  cases h

theorem unitClamp_finite (q : ℚ) : InUnit (unitClamp (.finite q)) :=
  F64.clamp_finite (by decide +kernel) q

theorem RankingV2Policy.weights {policy : RankingV2Policy} (valid : policy.validate = .ok ()) :
    InUnit policy.weightBm25 ∧ InUnit policy.weightSemantic ∧ InUnit policy.weightReranker ∧
      InUnit policy.weightRelevance ∧ InUnit policy.weightEvidence := by
  have accepted : policy.isValid = true := by
    by_contra rejected
    rw [RankingV2Policy.validate, if_neg rejected] at valid
    cases valid
  simp only [RankingV2Policy.isValid, List.cons_append, List.nil_append, List.all_cons,
    List.all_nil, Bool.and_eq_true] at accepted
  obtain ⟨⟨⟨⟨⟨-, bm25, semantic, reranker, relevance, evidence, -⟩, -⟩, -⟩, -⟩, -⟩ := accepted
  exact ⟨F64.within_finite bm25, F64.within_finite semantic, F64.within_finite reranker,
    F64.within_finite relevance, F64.within_finite evidence⟩

namespace RankingV2

theorem lt_zero_iff {weight : F64} {q : ℚ} (h : weight = .finite q) :
    F64.lt (.finite 0) weight = true ↔ 0 < q := by
  rw [h]
  exact decide_eq_true_iff

theorem weightOf_inUnit {weight : F64} (h : InUnit weight) (scores : Option (List ℚ)) :
    InUnit (weightOf scores weight) := by
  cases scores with
  | none => exact ⟨0, rfl, le_refl 0, by decide +kernel⟩
  | some _ => exact h

/-- One weight above zero is enough. -/
theorem combined_inUnit {bm25 semantic reranker : F64} (hb : InUnit bm25) (hs : InUnit semantic)
    (hr : InUnit reranker)
    (positive : F64.lt (.finite 0) bm25 = true ∨ F64.lt (.finite 0) semantic = true)
    (b s r : ℚ) : InUnit (combined bm25 semantic reranker b s r) := by
  obtain ⟨p, rfl, p0, -⟩ := hb
  obtain ⟨q, rfl, q0, -⟩ := hs
  obtain ⟨t, rfl, t0, -⟩ := hr
  have above : 0 < p ∨ 0 < q := by
    rcases positive with h | h
    · exact Or.inl ((lt_zero_iff rfl).mp h)
    · exact Or.inr ((lt_zero_iff rfl).mp h)
  have total : p + q + t ≠ 0 := by
    rcases above with h | h <;> linarith
  simp only [combined, F64.mul_finite, F64.add_finite, F64.div_finite total]
  exact unitClamp_finite _

theorem combined_unweighted (b s r : ℚ) :
    combined (.finite 0) (.finite 0) (.finite 0) b s r = .nan := by
  simp only [combined, F64.mul_finite, F64.add_finite, zero_mul, add_zero, F64.div_zero_zero]
  rfl

theorem combineRelevance_inUnit {policy : RankingV2Policy} (valid : policy.validate = .ok ())
    {bm25 : List ℚ} {semantic reranker : Option (List ℚ)}
    (positive : F64.lt (.finite 0) policy.weightBm25 = true ∨
      F64.lt (.finite 0) (weightOf semantic policy.weightSemantic) = true) :
    ∀ value ∈ combineRelevance bm25 semantic reranker policy, InUnit value := by
  intro value mem
  obtain ⟨entry, -, rfl⟩ := List.mem_map.mp mem
  have weights := RankingV2Policy.weights valid
  exact combined_inUnit weights.1 (weightOf_inUnit weights.2.1 semantic)
    (weightOf_inUnit weights.2.2.1 reranker) positive _ _ _

theorem length_combineRelevance (bm25 : List ℚ) (semantic reranker : Option (List ℚ))
    (policy : RankingV2Policy) :
    (combineRelevance bm25 semantic reranker policy).length = bm25.length := by
  rw [combineRelevance, List.length_map, List.length_zipIdx]

theorem combineRelevance_unweighted {policy : RankingV2Policy} {bm25 : List ℚ}
    {semantic : Option (List ℚ)} (lexical : policy.weightBm25 = .finite 0)
    (scored : weightOf semantic policy.weightSemantic = .finite 0) :
    ∀ value ∈ combineRelevance bm25 semantic none policy, value = .nan := by
  intro value mem
  obtain ⟨entry, -, rfl⟩ := List.mem_map.mp mem
  rw [lexical, scored]
  exact combined_unweighted _ _ _

theorem length_normalizeScores (raw : List ℚ) : (normalizeScores raw).length = raw.length := by
  change (if raw.foldl max 0 = 0 then raw else raw.map _).length = raw.length
  split
  · rfl
  · exact List.length_map _

section

variable {Url : Type} [UnicodeTables] [NaturalLog]

omit [UnicodeTables] in
theorem length_rawScores (policy : RankingV2Policy) (queryTerms : List String)
    (fields : List (List (List Char))) :
    (rawScores policy queryTerms fields).length = fields.length := by
  have grows : ∀ (queryTerms : List String) (raw : List ℚ), raw.length = fields.length →
      (queryTerms.foldl (fun raw term =>
        List.zipWith (fun field score =>
          termScore policy (averageLength fields) (inverseFrequency fields term.toList)
            term.toList field score) fields raw) raw).length = fields.length := by
    intro queryTerms
    induction queryTerms with
    | nil => exact fun raw same => same
    | cons term queryTerms ih =>
      intro raw same
      apply ih
      rw [List.length_zipWith, same, Nat.min_self]
  exact grows queryTerms _ List.length_replicate

theorem length_bm25Scores (query : Query) (documents : List (Document Url))
    (policy : RankingV2Policy) : (bm25Scores query documents policy).length = documents.length := by
  rw [bm25Scores]
  split
  · exact List.length_replicate
  · rw [length_normalizeScores, length_rawScores, List.length_map]

end

end RankingV2

namespace RankingV2Engine

variable {Url : Type}

/-- The backend of the semantic scores is asked. -/
def ScoresSemantics (engine : RankingV2Engine Url) : Prop :=
  F64.lt (.finite 0) engine.policy.weightSemantic = true ∧ engine.semantic.isSome = true

theorem semanticScores_none {engine : RankingV2Engine Url} (h : ¬engine.ScoresSemantics)
    (query : Query) (documents : List (Document Url)) :
    engine.semanticScores query documents = .ok none := by
  rw [semanticScores]
  split
  · rename_i weight present
    exact absurd ⟨weight, by rw [present]; rfl⟩ h
  · rfl

theorem semanticScores_some {engine : RankingV2Engine Url} (h : engine.ScoresSemantics)
    {query : Query} {documents : List (Document Url)} {semantic : Option (List ℚ)}
    (scored : engine.semanticScores query documents = .ok semantic) :
    semantic.isSome = true := by
  obtain ⟨backend, present⟩ := Option.isSome_iff_exists.mp h.2
  rw [semanticScores, h.1, present] at scored
  simp only at scored
  cases asked : backend.score query documents with
  | error e =>
    rw [asked] at scored
    cases scored
  | ok scores =>
    rw [asked] at scored
    cases checked : validateBackendScores scores documents.length with
    | error e => simp [bind, Except.bind, checked, Except.map] at scored
    | ok values =>
      simp only [bind, Except.bind, checked, Except.map, Except.ok.injEq] at scored
      rw [← scored]
      rfl

variable [UnicodeTables] [NaturalLog]

/-- What a call combines in its two passes, if it comes to them, is a relevance. -/
def CombinesRelevance (engine : RankingV2Engine Url) (query : Query)
    (documents : List (Document Url)) : Prop :=
  engine.benchmark.passed = true → documents ≠ [] →
    ∀ semantic, engine.semanticScores query documents = .ok semantic →
      let first := combineRelevance (bm25Scores query documents engine.policy) semantic none
        engine.policy
      (∀ value ∈ first, InUnit value) ∧
        ∀ reranker, engine.rerankerScores query documents first = .ok reranker →
          ∀ value ∈ combineRelevance (bm25Scores query documents engine.policy) semantic reranker
            engine.policy, InUnit value

/-- A call fails only where a backend does. -/
def FailsByBackend (engine : RankingV2Engine Url) (query : Query)
    (documents : List (Document Url)) : Prop :=
  ∀ evidence originalRanks error,
    engine.rank query documents evidence originalRanks = .error error →
      engine.semanticScores query documents = .error error ∨
        ∃ relevance, engine.rerankerScores query documents relevance = .error error

theorem failsByBackend (engine : RankingV2Engine Url) (query : Query)
    (documents : List (Document Url)) : engine.FailsByBackend query documents := by
  intro evidence originalRanks error failed
  rw [rank] at failed
  split at failed
  · cases failed
  · split at failed
    · cases failed
    · cases scored : engine.semanticScores query documents with
      | error e =>
        rw [scored] at failed
        cases failed
        exact Or.inl rfl
      | ok semantic =>
        rw [scored] at failed
        simp only [bind, Except.bind] at failed
        split at failed
        · rename_i e reranked
          cases failed
          exact Or.inr ⟨_, reranked⟩
        · cases failed

/-- No weight counts in the first pass, and each of its quotients is undefined. -/
theorem not_combinesRelevance {engine : RankingV2Engine Url}
    (passed : engine.benchmark.passed = true)
    (lexical : ¬F64.lt (.finite 0) engine.policy.weightBm25 = true)
    (unscored : ¬engine.ScoresSemantics) (query : Query) {documents : List (Document Url)}
    (documented : documents ≠ []) : ¬engine.CombinesRelevance query documents := by
  intro combines
  have first := (combines passed documented none (semanticScores_none unscored query documents)).1
  obtain ⟨q, weight, low, -⟩ := (RankingV2Policy.weights engine.valid).1
  have zero : q = 0 := le_antisymm (not_lt.mp (fun h => lexical ((lt_zero_iff weight).mpr h))) low
  rw [zero] at weight
  have length := length_combineRelevance (bm25Scores query documents engine.policy) none none
    engine.policy
  rw [length_bm25Scores] at length
  have filled : combineRelevance (bm25Scores query documents engine.policy) none none
      engine.policy ≠ [] := by
    intro empty
    rw [empty] at length
    exact documented (List.length_eq_zero_iff.mp length.symm)
  obtain ⟨value, mem⟩ := List.exists_mem_of_ne_nil _ filled
  have bad := first value mem
  rw [combineRelevance_unweighted weight rfl value mem] at bad
  exact not_inUnit_nan bad

/-- The relevance is a number between zero and one exactly when a weight counts in the first pass,
or no pass is made. -/
theorem combinesRelevance_iff (engine : RankingV2Engine Url) (query : Query)
    (documents : List (Document Url)) :
    engine.CombinesRelevance query documents ∧ engine.FailsByBackend query documents ↔
      engine.benchmark.passed = false ∨ documents = [] ∨
        F64.lt (.finite 0) engine.policy.weightBm25 = true ∨ engine.ScoresSemantics := by
  constructor
  · intro h
    by_contra none
    simp only [not_or, Bool.not_eq_false] at none
    obtain ⟨passed, documented, lexical, unscored⟩ := none
    exact not_combinesRelevance passed lexical unscored query documented h.1
  · intro condition
    refine ⟨fun passed documented semantic scored => ?_, engine.failsByBackend query documents⟩
    have positive : F64.lt (.finite 0) engine.policy.weightBm25 = true ∨
        F64.lt (.finite 0) (weightOf semantic engine.policy.weightSemantic) = true := by
      rcases condition with rejected | empty | lexical | scores
      · rw [passed] at rejected
        cases rejected
      · exact absurd empty documented
      · exact Or.inl lexical
      · refine Or.inr ?_
        rw [weightOf, if_pos (semanticScores_some scores scored)]
        exact scores.1
    exact ⟨combineRelevance_inUnit engine.valid positive,
      fun reranker _ => combineRelevance_inUnit engine.valid positive⟩

end RankingV2Engine

/-- All of the relevance is left to a reranker. -/
def rerankedPolicy : RankingV2Policy :=
  { RankingV2Policy.default with weightBm25 := .finite 0, weightReranker := .finite 1 }

theorem rerankedPolicy_valid : rerankedPolicy.validate = .ok () := by decide +kernel

def rerankedEngine : RankingV2Engine PlainUrl where
  policy := rerankedPolicy
  benchmark := { passed := true }
  semantic := none
  reranker := some { score := fun _ documents _ => .ok (documents.map (fun _ => .finite 1)) }
  valid := rerankedPolicy_valid

/-- The tangent of the logarithm at one. -/
@[reducible] def tangentLog : NaturalLog where
  ln q := q - 1

theorem rerankedEngine_undefined :
    letI := asciiTables
    letI := tangentLog
    ¬(rerankedEngine.CombinesRelevance (plainQuery "lean") [(plainDocument "a").payload] ∧
      rerankedEngine.FailsByBackend (plainQuery "lean") [(plainDocument "a").payload]) := by
  let _ := asciiTables
  let _ := tangentLog
  intro h
  refine RankingV2Engine.not_combinesRelevance rfl ?_ ?_ _ (List.cons_ne_nil _ _) h.1
  · decide +kernel
  · intro scores
    exact absurd scores.2 (by decide)

end Amatl
