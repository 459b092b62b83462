import Amatl.Lib.TomlEdit
import Amatl.Progressive

/-! The result policies as sections, and the sections `[ranking]` and `[deep]`. -/

namespace Amatl

open Toml

def usize (node : Node) : Option Nat := unsigned (2 ^ 64) node

def RankingPolicyV1.fields : List (RecordField RankingPolicyV1) :=
  [field "version" text (·.version) (fun v c => { c with version := v }),
   field "rrf_k" uint32 (·.rrfK) (fun v c => { c with rrfK := v }),
   field "weight_rrf" number (·.weightRrf) (fun v c => { c with weightRrf := v }),
   field "weight_title_match" number (·.weightTitleMatch)
     (fun v c => { c with weightTitleMatch := v }),
   field "weight_snippet_match" number (·.weightSnippetMatch)
     (fun v c => { c with weightSnippetMatch := v }),
   field "weight_freshness" number (·.weightFreshness) (fun v c => { c with weightFreshness := v }),
   field "weight_provider_agreement" number (·.weightProviderAgreement)
     (fun v c => { c with weightProviderAgreement := v }),
   field "freshness_half_life_days" uint32 (·.freshnessHalfLifeDays)
     (fun v c => { c with freshnessHalfLifeDays := v }),
   field "freshness_unknown" number (·.freshnessUnknown)
     (fun v c => { c with freshnessUnknown := v })]

theorem RankingPolicyV1.lawful : Lawful RankingPolicyV1.fields := by
  constructor
  · simp [RankingPolicyV1.fields, field]
  · simp [RankingPolicyV1.fields, RecordField.apart_field]
  · rintro ⟨⟩ ⟨⟩
    simp [RankingPolicyV1.fields, field]

def DiversityPolicyV1.fields : List (RecordField DiversityPolicyV1) :=
  [field "version" text (·.version) (fun v c => { c with version := v }),
   field "max_visible_per_domain" usize (·.maxVisiblePerDomain)
     (fun v c => { c with maxVisiblePerDomain := v }),
   field "max_visible_per_provider" usize (·.maxVisiblePerProvider)
     (fun v c => { c with maxVisiblePerProvider := v }),
   field "max_visible_per_result_type" usize (·.maxVisiblePerResultType)
     (fun v c => { c with maxVisiblePerResultType := v }),
   field "relevance_override_ratio" number (·.relevanceOverrideRatio)
     (fun v c => { c with relevanceOverrideRatio := v })]

theorem DiversityPolicyV1.lawful : Lawful DiversityPolicyV1.fields := by
  constructor
  · simp [DiversityPolicyV1.fields, field]
  · simp [DiversityPolicyV1.fields, RecordField.apart_field]
  · rintro ⟨⟩ ⟨⟩
    simp [DiversityPolicyV1.fields, field]

def SearchPolicyV1.fields : List (RecordField SearchPolicyV1) :=
  [field "version" text (·.version) (fun v c => { c with version := v }),
   field "first_round_min_providers" usize (·.firstRoundMinProviders)
     (fun v c => { c with firstRoundMinProviders := v }),
   field "first_round_max_providers" usize (·.firstRoundMaxProviders)
     (fun v c => { c with firstRoundMaxProviders := v }),
   field "minimum_useful_results" usize (·.minimumUsefulResults)
     (fun v c => { c with minimumUsefulResults := v }),
   field "target_useful_results" usize (·.targetUsefulResults)
     (fun v c => { c with targetUsefulResults := v }),
   field "minimum_unique_domains" usize (·.minimumUniqueDomains)
     (fun v c => { c with minimumUniqueDomains := v }),
   field "target_unique_domains" usize (·.targetUniqueDomains)
     (fun v c => { c with targetUniqueDomains := v }),
   field "low_diversity_domain_ratio" number (·.lowDiversityDomainRatio)
     (fun v c => { c with lowDiversityDomainRatio := v }),
   field "low_diversity_provider_ratio" number (·.lowDiversityProviderRatio)
     (fun v c => { c with lowDiversityProviderRatio := v }),
   field "low_diversity_result_type_ratio" number (·.lowDiversityResultTypeRatio)
     (fun v c => { c with lowDiversityResultTypeRatio := v }),
   field "minimum_marginal_gain" number (·.minimumMarginalGain)
     (fun v c => { c with minimumMarginalGain := v }),
   field "minimum_expected_marginal_gain" number (·.minimumExpectedMarginalGain)
     (fun v c => { c with minimumExpectedMarginalGain := v }),
   field "minimum_remaining_deadline_ms" uint64 (·.minimumRemainingDeadlineMs)
     (fun v c => { c with minimumRemainingDeadlineMs := v }),
   field "maximum_results_per_domain" usize (·.maximumResultsPerDomain)
     (fun v c => { c with maximumResultsPerDomain := v }),
   field "maximum_results_per_provider" usize (·.maximumResultsPerProvider)
     (fun v c => { c with maximumResultsPerProvider := v }),
   field "maximum_results_per_result_type" usize (·.maximumResultsPerResultType)
     (fun v c => { c with maximumResultsPerResultType := v }),
   field "minimum_exploration_ratio" number (·.minimumExplorationRatio)
     (fun v c => { c with minimumExplorationRatio := v })]

theorem SearchPolicyV1.lawful : Lawful SearchPolicyV1.fields := by
  constructor
  · simp [SearchPolicyV1.fields, field]
  · simp only [SearchPolicyV1.fields, RecordField.apart_field, List.pairwise_cons,
      List.forall_mem_cons]
    simp
  · rintro ⟨⟩ ⟨⟩
    simp [SearchPolicyV1.fields, field]

structure RankingV2Policy where
  version : String
  bm25K1 : F64
  bm25B : F64
  weightBm25 : F64
  weightSemantic : F64
  weightReranker : F64
  weightRelevance : F64
  weightEvidence : F64
  benchmarkMinimumNdcgDelta : F64
  benchmarkMinimumNdcg : F64
  deriving DecidableEq

def RankingV2Policy.default : RankingV2Policy where
  version := "v2"
  bm25K1 := .finite (12 / 10)
  bm25B := .finite (75 / 100)
  weightBm25 := .finite 1
  weightSemantic := .finite 0
  weightReranker := .finite 0
  weightRelevance := .finite (85 / 100)
  weightEvidence := .finite (15 / 100)
  benchmarkMinimumNdcgDelta := .finite (5 / 100)
  benchmarkMinimumNdcg := .finite (90 / 100)

def RankingV2Policy.fields : List (RecordField RankingV2Policy) :=
  [field "version" text (·.version) (fun v c => { c with version := v }),
   field "bm25_k1" number (·.bm25K1) (fun v c => { c with bm25K1 := v }),
   field "bm25_b" number (·.bm25B) (fun v c => { c with bm25B := v }),
   field "weight_bm25" number (·.weightBm25) (fun v c => { c with weightBm25 := v }),
   field "weight_semantic" number (·.weightSemantic) (fun v c => { c with weightSemantic := v }),
   field "weight_reranker" number (·.weightReranker) (fun v c => { c with weightReranker := v }),
   field "weight_relevance" number (·.weightRelevance) (fun v c => { c with weightRelevance := v }),
   field "weight_evidence" number (·.weightEvidence) (fun v c => { c with weightEvidence := v }),
   field "benchmark_minimum_ndcg_delta" number (·.benchmarkMinimumNdcgDelta)
     (fun v c => { c with benchmarkMinimumNdcgDelta := v }),
   field "benchmark_minimum_ndcg" number (·.benchmarkMinimumNdcg)
     (fun v c => { c with benchmarkMinimumNdcg := v })]

theorem RankingV2Policy.lawful : Lawful RankingV2Policy.fields := by
  constructor
  · simp [RankingV2Policy.fields, field]
  · simp [RankingV2Policy.fields, RecordField.apart_field]
  · rintro ⟨⟩ ⟨⟩
    simp [RankingV2Policy.fields, field]

/-- The sums are taken over weights that have passed the range check. -/
def RankingV2Policy.isValid (p : RankingV2Policy) : Bool :=
  let unit := F64.within (.finite 0) (.finite 1)
  let componentWeights := [p.weightBm25, p.weightSemantic, p.weightReranker]
  let finalWeights := [p.weightRelevance, p.weightEvidence]
  let sumsToOne := fun (weights : List F64) =>
    decide (|(weights.map F64.toRat).sum - 1| ≤ 1 / 10 ^ 12)
  p.version == "v2" && p.bm25K1.isFinite && F64.lt (.finite 0) p.bm25K1 && unit p.bm25B &&
    (componentWeights ++ finalWeights).all unit && sumsToOne componentWeights &&
    sumsToOne finalWeights && unit p.benchmarkMinimumNdcgDelta && unit p.benchmarkMinimumNdcg

def RankingV2Policy.validate (p : RankingV2Policy) : Except String Unit :=
  if p.isValid then .ok ()
  else .error "ranking v2 policy violates version, range or weight invariants"

structure GapPolicyV1 where
  version : String
  minimumDocuments : UInt32
  minimumUniqueDomains : UInt32
  minimumEnrichedRatio : F64
  minimumAverageEvidence : F64
  difficultConfidenceMax : F64
  difficultMinimumTerms : UInt32
  maxSubqueries : UInt32
  deriving DecidableEq

def GapPolicyV1.default : GapPolicyV1 where
  version := "v1"
  minimumDocuments := 3
  minimumUniqueDomains := 3
  minimumEnrichedRatio := .finite (60 / 100)
  minimumAverageEvidence := .finite (45 / 100)
  difficultConfidenceMax := .finite (75 / 100)
  difficultMinimumTerms := 4
  maxSubqueries := 2

def GapPolicyV1.fields : List (RecordField GapPolicyV1) :=
  [field "version" text (·.version) (fun v c => { c with version := v }),
   field "minimum_documents" uint32 (·.minimumDocuments)
     (fun v c => { c with minimumDocuments := v }),
   field "minimum_unique_domains" uint32 (·.minimumUniqueDomains)
     (fun v c => { c with minimumUniqueDomains := v }),
   field "minimum_enriched_ratio" number (·.minimumEnrichedRatio)
     (fun v c => { c with minimumEnrichedRatio := v }),
   field "minimum_average_evidence" number (·.minimumAverageEvidence)
     (fun v c => { c with minimumAverageEvidence := v }),
   field "difficult_confidence_max" number (·.difficultConfidenceMax)
     (fun v c => { c with difficultConfidenceMax := v }),
   field "difficult_minimum_terms" uint32 (·.difficultMinimumTerms)
     (fun v c => { c with difficultMinimumTerms := v }),
   field "max_subqueries" uint32 (·.maxSubqueries) (fun v c => { c with maxSubqueries := v })]

theorem GapPolicyV1.lawful : Lawful GapPolicyV1.fields := by
  constructor
  · simp [GapPolicyV1.fields, field]
  · simp [GapPolicyV1.fields, RecordField.apart_field]
  · rintro ⟨⟩ ⟨⟩
    simp [GapPolicyV1.fields, field]

def GapPolicyV1.validate (p : GapPolicyV1) : Except String Unit :=
  if p.version ≠ "v1" ∨ p.minimumDocuments = 0 ∨ p.minimumUniqueDomains = 0 ∨
      p.difficultMinimumTerms = 0 ∨ p.maxSubqueries = 0 ∨
      [p.minimumEnrichedRatio, p.minimumAverageEvidence, p.difficultConfidenceMax].any
        (fun value => !value.isFinite || !F64.within (.finite 0) (.finite 1) value) then
    .error "gap policy violates version, range or limit invariants"
  else .ok ()

structure RankingV2Config where
  enabled : Bool
  policy : RankingV2Policy
  deriving DecidableEq

def RankingV2Config.default : RankingV2Config where
  enabled := true
  policy := .default

def RankingV2Config.fields : List (RecordField RankingV2Config) :=
  [field "enabled" flag (·.enabled) (fun v c => { c with enabled := v }),
   field "policy" (record RankingV2Policy.fields .default) (·.policy)
     (fun v c => { c with policy := v })]

theorem RankingV2Config.lawful : Lawful RankingV2Config.fields := by
  constructor
  · simp [RankingV2Config.fields, field]
  · simp [RankingV2Config.fields, RecordField.apart_field]
  · rintro ⟨⟩ ⟨⟩
    simp [RankingV2Config.fields, field]

structure GapConfig where
  enabled : Bool
  maxSubqueries : UInt32
  maxCost : UInt64
  maxProviderCallsPerSubquery : UInt32
  timeoutMs : UInt64
  policy : GapPolicyV1
  deriving DecidableEq

def GapConfig.default : GapConfig where
  enabled := true
  maxSubqueries := 2
  maxCost := 2
  maxProviderCallsPerSubquery := 2
  timeoutMs := 5000
  policy := .default

def GapConfig.fields : List (RecordField GapConfig) :=
  [field "enabled" flag (·.enabled) (fun v c => { c with enabled := v }),
   field "max_subqueries" uint32 (·.maxSubqueries) (fun v c => { c with maxSubqueries := v }),
   field "max_cost" uint64 (·.maxCost) (fun v c => { c with maxCost := v }),
   field "max_provider_calls_per_subquery" uint32 (·.maxProviderCallsPerSubquery)
     (fun v c => { c with maxProviderCallsPerSubquery := v }),
   field "timeout_ms" uint64 (·.timeoutMs) (fun v c => { c with timeoutMs := v }),
   field "policy" (record GapPolicyV1.fields .default) (·.policy)
     (fun v c => { c with policy := v })]

theorem GapConfig.lawful : Lawful GapConfig.fields := by
  constructor
  · simp [GapConfig.fields, field]
  · simp [GapConfig.fields, RecordField.apart_field]
  · rintro ⟨⟩ ⟨⟩
    simp [GapConfig.fields, field]

structure OpticsConfig where
  enabled : Bool
  path : Option String
  deriving DecidableEq

def OpticsConfig.default : OpticsConfig where
  enabled := false
  path := none

def OpticsConfig.fields : List (RecordField OpticsConfig) :=
  [field "enabled" flag (·.enabled) (fun v c => { c with enabled := v }),
   field "path" (optional text) (·.path) (fun v c => { c with path := v })]

theorem OpticsConfig.lawful : Lawful OpticsConfig.fields := by
  constructor
  · simp [OpticsConfig.fields, field]
  · simp [OpticsConfig.fields, RecordField.apart_field]
  · rintro ⟨⟩ ⟨⟩
    simp [OpticsConfig.fields, field]

structure RankingConfig where
  optics : OpticsConfig
  deriving DecidableEq

def RankingConfig.default : RankingConfig where
  optics := .default

def RankingConfig.fields : List (RecordField RankingConfig) :=
  [field "optics" (record OpticsConfig.fields .default) (·.optics)
     (fun v c => { c with optics := v })]

theorem RankingConfig.lawful : Lawful RankingConfig.fields := by
  constructor
  · simp [RankingConfig.fields, field]
  · simp [RankingConfig.fields]
  · rintro ⟨⟩ ⟨⟩
    simp [RankingConfig.fields, field]

structure ExtractorConfig where
  executable : String
  version : String
  timeoutMs : UInt64
  maxOutputBytes : UInt64
  deriving DecidableEq

def ExtractorConfig.default : ExtractorConfig where
  executable := "trafilatura"
  version := "trafilatura-2.2.0-cli-json-v1"
  timeoutMs := 8000
  maxOutputBytes := 4 * 1024 * 1024

def ExtractorConfig.fields : List (RecordField ExtractorConfig) :=
  [field "executable" text (·.executable) (fun v c => { c with executable := v }),
   field "version" text (·.version) (fun v c => { c with version := v }),
   field "timeout_ms" uint64 (·.timeoutMs) (fun v c => { c with timeoutMs := v }),
   field "max_output_bytes" uint64 (·.maxOutputBytes) (fun v c => { c with maxOutputBytes := v })]

theorem ExtractorConfig.lawful : Lawful ExtractorConfig.fields := by
  constructor
  · simp [ExtractorConfig.fields, field]
  · simp [ExtractorConfig.fields, RecordField.apart_field]
  · rintro ⟨⟩ ⟨⟩
    simp [ExtractorConfig.fields, field]

structure RendererConfig where
  enabled : Bool
  maxBrowserCalls : UInt32
  timeoutMs : UInt64
  shutdownGraceMs : UInt64
  maxMemoryMb : UInt64
  maxRedirects : UInt32
  sandboxPath : String
  maxDomBytes : UInt64
  deriving DecidableEq

def RendererConfig.default : RendererConfig where
  enabled := false
  maxBrowserCalls := 2
  timeoutMs := 8000
  shutdownGraceMs := 500
  maxMemoryMb := 512
  maxRedirects := 5
  sandboxPath := "amatl-chromium-sandbox"
  maxDomBytes := 8 * 1024 * 1024

def RendererConfig.fields : List (RecordField RendererConfig) :=
  [field "enabled" flag (·.enabled) (fun v c => { c with enabled := v }),
   field "max_browser_calls" uint32 (·.maxBrowserCalls)
     (fun v c => { c with maxBrowserCalls := v }),
   field "timeout_ms" uint64 (·.timeoutMs) (fun v c => { c with timeoutMs := v }),
   field "shutdown_grace_ms" uint64 (·.shutdownGraceMs)
     (fun v c => { c with shutdownGraceMs := v }),
   field "max_memory_mb" uint64 (·.maxMemoryMb) (fun v c => { c with maxMemoryMb := v }),
   field "max_redirects" uint32 (·.maxRedirects) (fun v c => { c with maxRedirects := v }),
   field "sandbox_path" text (·.sandboxPath) (fun v c => { c with sandboxPath := v }),
   field "max_dom_bytes" uint64 (·.maxDomBytes) (fun v c => { c with maxDomBytes := v })]

theorem RendererConfig.lawful : Lawful RendererConfig.fields := by
  constructor
  · simp [RendererConfig.fields, field]
  · simp [RendererConfig.fields, RecordField.apart_field]
  · rintro ⟨⟩ ⟨⟩
    simp [RendererConfig.fields, field]

structure DeepConfig where
  topK : UInt32
  maxFetches : UInt32
  maxBytes : UInt64
  maxRedirects : UInt32
  maxCrawlUrls : UInt32
  maxDepth : UInt8
  respectRobots : Bool
  robotsTimeoutMs : UInt64
  robotsMaxBytes : UInt64
  timeoutMs : UInt64
  extractor : ExtractorConfig
  renderer : RendererConfig
  rankingV2 : RankingV2Config
  gaps : GapConfig
  deriving DecidableEq

def DeepConfig.default : DeepConfig where
  topK := 5
  maxFetches := 10
  maxBytes := 20 * 1024 * 1024
  maxRedirects := 5
  maxCrawlUrls := 10
  maxDepth := 1
  respectRobots := true
  robotsTimeoutMs := 3000
  robotsMaxBytes := 512 * 1024
  timeoutMs := 20000
  extractor := .default
  renderer := .default
  rankingV2 := .default
  gaps := .default

def DeepConfig.fields : List (RecordField DeepConfig) :=
  [field "top_k" uint32 (·.topK) (fun v c => { c with topK := v }),
   field "max_fetches" uint32 (·.maxFetches) (fun v c => { c with maxFetches := v }),
   field "max_bytes" uint64 (·.maxBytes) (fun v c => { c with maxBytes := v }),
   field "max_redirects" uint32 (·.maxRedirects) (fun v c => { c with maxRedirects := v }),
   field "max_crawl_urls" uint32 (·.maxCrawlUrls) (fun v c => { c with maxCrawlUrls := v }),
   field "max_depth" uint8 (·.maxDepth) (fun v c => { c with maxDepth := v }),
   field "respect_robots" flag (·.respectRobots) (fun v c => { c with respectRobots := v }),
   field "robots_timeout_ms" uint64 (·.robotsTimeoutMs)
     (fun v c => { c with robotsTimeoutMs := v }),
   field "robots_max_bytes" uint64 (·.robotsMaxBytes) (fun v c => { c with robotsMaxBytes := v }),
   field "timeout_ms" uint64 (·.timeoutMs) (fun v c => { c with timeoutMs := v }),
   field "extractor" (record ExtractorConfig.fields .default) (·.extractor)
     (fun v c => { c with extractor := v }),
   field "renderer" (record RendererConfig.fields .default) (·.renderer)
     (fun v c => { c with renderer := v }),
   field "ranking_v2" (record RankingV2Config.fields .default) (·.rankingV2)
     (fun v c => { c with rankingV2 := v }),
   field "gaps" (record GapConfig.fields .default) (·.gaps) (fun v c => { c with gaps := v })]

theorem DeepConfig.lawful : Lawful DeepConfig.fields := by
  constructor
  · simp [DeepConfig.fields, field]
  · simp only [DeepConfig.fields, RecordField.apart_field, List.pairwise_cons,
      List.forall_mem_cons]
    simp
  · rintro ⟨⟩ ⟨⟩
    simp [DeepConfig.fields, field]

end Amatl
