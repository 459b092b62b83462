import Amatl.Canonical
import Amatl.Diversity
import Mathlib.Data.Finset.Card

/-! The pipeline from provider outputs to the ordered results, and its
independence of the order in which providers answer. -/

namespace Amatl

section

variable {Url : Type}

structure PipelineOutput (Url : Type) where
  results : List (SearchResult Url)
  degradations : List Degradation
  diversity : DiversityMetrics
  deduped : List (DeduplicatedResult Url)
  deriving DecidableEq

def activeProviderCount (normalized : List (NormalizedResult Url)) : Nat :=
  (normalized.map (fun result => result.provider)).toFinset.card

/-- What a caller sees of a pipeline run: the ordered results, the diversity
metrics and the merged groups with their duplicate marks. -/
def SameAnswer (left right : PipelineOutput Url) : Prop :=
  left.results = right.results ∧ left.diversity = right.diversity ∧ left.deduped = right.deduped

/-- The items of `arrived` are those of `outputs`, in any order that keeps each
provider's own. -/
def Interleaved (outputs arrived : List ProviderResult) : Prop :=
  ∀ name, (arrivals arrived).filter (fun a => a.1 == name) =
    (arrivals outputs).filter (fun a => a.1 == name)

theorem arrivals_filter_provider (name : String) (results : List ProviderResult) :
    (arrivals results).filter (fun a => a.1 == name) =
      arrivals (results.filter (fun r => r.provider == name)) := by
  induction results with
  | nil => rfl
  | cons r results ih =>
    simp only [arrivals, List.flatMap_cons, List.filter_append] at ih ⊢
    by_cases h : r.provider = name
    · simp [h, ih, List.filter_map, Function.comp_def]
    · simp [h, ih, List.filter_map, Function.comp_def]

theorem filter_provider_of_nodup {results : List ProviderResult}
    (h : (results.map (fun r => r.provider)).Nodup) (name : String) :
    (results.filter (fun r => r.provider == name)).length ≤ 1 := by
  have hcount : ((results.map (fun r => r.provider)).filter (· == name)).length ≤ 1 := by
    rw [← List.countP_eq_length_filter]
    exact List.nodup_iff_count_le_one.mp h name
  simpa [List.filter_map, Function.comp_def] using hcount

/-- Every completion order of outputs with distinct names is an interleaving. -/
theorem interleaved_of_perm {outputs completed : List ProviderResult}
    (hnames : (outputs.map (fun r => r.provider)).Nodup) (hperm : completed.Perm outputs) :
    Interleaved outputs completed := by
  intro name
  rw [arrivals_filter_provider, arrivals_filter_provider]
  have hp := hperm.filter (fun r => r.provider == name)
  have hle := filter_provider_of_nodup hnames name
  rcases hlist : outputs.filter (fun r => r.provider == name) with _ | ⟨r, _ | ⟨s, rest⟩⟩
  · rw [hlist] at hp
    rw [hp.eq_nil, hlist]
  · rw [hlist] at hp
    rw [List.perm_singleton.mp hp, hlist]
  · simp [hlist] at hle

theorem activeProviderCount_eq {l r : List (NormalizedResult Url)}
    (h : ∀ name, l.filter (fun n => n.provider == name) = r.filter (fun n => n.provider == name)) :
    activeProviderCount l = activeProviderCount r := by
  have hmem : ∀ m : List (NormalizedResult Url), ∀ name,
      name ∈ m.map (fun n => n.provider) ↔ m.filter (fun n => n.provider == name) ≠ [] := by
    intro m name
    simp [List.filter_eq_nil_iff]
  unfold activeProviderCount
  congr 1
  ext name
  rw [List.mem_toFinset, List.mem_toFinset, hmem l, hmem r, h name]

variable [UrlCrate Url] [TimeCrate]

theorem normalizeOne_provider {provider : String} {item : ProviderItem}
    {result : NormalizedResult Url} (h : normalizeOne provider item = .ok result) :
    result.provider = provider := by
  unfold normalizeOne at h
  split at h
  · cases h
  · cases h
    rfl

/-- A provider's normalized results come from its own arrivals alone. -/
theorem normalize_filter_provider (name : String) (results : List ProviderResult) :
    ((normalize results).1 : List (NormalizedResult Url)).filter (fun r => r.provider == name) =
      ((arrivals results).filter (fun a => a.1 == name)).filterMap
        (fun a => (normalizeOne a.1 a.2).toOption) := by
  simp only [normalize, List.filterMap_map, List.filter_filterMap, List.filterMap_filter]
  congr 1
  funext a
  cases hone : (normalizeOne a.1 a.2 : Except Degradation (NormalizedResult Url)) with
  | error d => simp [hone, Except.toOption]
  | ok r => simp [hone, Except.toOption, Option.filter, normalizeOne_provider hone]

variable [UnicodeTables] [Powf]

/-- Adjustments that panic answer no search, and nothing is listed for them. -/
def runPipeline (trackerDomains : String → Bool) (query : Query) (rankingReferenceTime : String)
    (providerResults : List ProviderResult) (rankingPolicy : RankingPolicyV1)
    (diversityPolicy : DiversityPolicyV1) (optics : Option OpticsDocument) : PipelineOutput Url :=
  let (normalized, degradations) := normalize providerResults
  let degradations := degradations ++ normalized.flatMap (fun result => result.degradations)
  let deduped := deduplicate (normalized.map canonicalize)
  let ranked := rank query rankingReferenceTime (activeProviderCount normalized) deduped
    rankingPolicy
  let adjusted := (applyAdjustments trackerDomains optics ranked).getD []
  let diversified := diversify adjusted diversityPolicy
  { results := diversified.results, degradations, diversity := diversified.metrics, deduped }

theorem runPipeline_interleaved (trackerDomains : String → Bool) (query : Query)
    (rankingReferenceTime : String) (rankingPolicy : RankingPolicyV1)
    (diversityPolicy : DiversityPolicyV1) (optics : Option OpticsDocument)
    {outputs arrived : List ProviderResult} (h : Interleaved outputs arrived) :
    SameAnswer
      (runPipeline trackerDomains query rankingReferenceTime arrived rankingPolicy
        diversityPolicy optics : PipelineOutput Url)
      (runPipeline trackerDomains query rankingReferenceTime outputs rankingPolicy
        diversityPolicy optics) := by
  have hnorm : ∀ name,
      ((normalize arrived).1 : List (NormalizedResult Url)).filter (fun r => r.provider == name) =
        (normalize outputs).1.filter (fun r => r.provider == name) := by
    intro name
    rw [normalize_filter_provider, normalize_filter_provider, h name]
  have hcount := activeProviderCount_eq hnorm
  have hdeduped : deduplicate
        (((normalize arrived).1 : List (NormalizedResult Url)).map canonicalize) =
      deduplicate ((normalize outputs).1.map canonicalize) := by
    apply deduplicate_eq_of_provider_order
    intro name
    simp only [List.filter_map, Function.comp_def, canonicalize_provider, hnorm name]
  simp only [SameAnswer, runPipeline, hcount, hdeduped, and_self]

/-- The order in which providers answer does not reach the caller, neither item
by item nor as a completion order of whole outputs. -/
theorem runPipeline_arrival_order (trackerDomains : String → Bool) (query : Query)
    (rankingReferenceTime : String) (rankingPolicy : RankingPolicyV1)
    (diversityPolicy : DiversityPolicyV1) (optics : Option OpticsDocument)
    (outputs : List ProviderResult) (hnames : (outputs.map (fun r => r.provider)).Nodup) :
    let run : List ProviderResult → PipelineOutput Url := fun results =>
      runPipeline trackerDomains query rankingReferenceTime results rankingPolicy diversityPolicy
        optics
    (∀ arrived, Interleaved outputs arrived → SameAnswer (run arrived) (run outputs)) ∧
      ∀ completed, completed.Perm outputs → SameAnswer (run completed) (run outputs) :=
  ⟨fun _ h => runPipeline_interleaved _ _ _ _ _ _ h,
    fun _ h => runPipeline_interleaved _ _ _ _ _ _ (interleaved_of_perm hnames h)⟩

end

def oneResult (provider url : String) : ProviderResult where
  provider
  status := .success
  results :=
    [{ title := some "Lean", url, providerRank := some ⟨1, Rank.one_ne_zero⟩, snippet := none,
       resultType := none, publishedAt := none, author := none, language := none,
       fileType := none, thumbnail := none, metadata := [] }]
  acceptedFilters := []
  ignoredFilters := []
  approximatedFilters := []
  errors := []

def plainQuery (text : String) : Query where
  rawQuery := text
  normalizedQuery := text
  quotedTerms := []
  excludedTerms := []
  domains := []
  excludedDomains := []
  fileTypes := []
  language := none
  region := none
  dateFrom := none
  dateTo := none

theorem runPipeline_two_completions :
    letI := asciiTables
    letI := noDates
    letI := integerPowers
    let brave := oneResult "brave" "https://lean.example/"
    let mojeek := oneResult "mojeek" "https://lean.example/"
    let run : List ProviderResult → PipelineOutput PlainUrl := fun results =>
      runPipeline (fun _ => false) (plainQuery "lean") "" results .default .default none
    SameAnswer (run [mojeek, brave]) (run [brave, mojeek]) := by
  let _ := asciiTables
  let _ := noDates
  let _ := integerPowers
  exact (runPipeline_arrival_order (fun _ => false) (plainQuery "lean") "" .default .default none
    [oneResult "brave" "https://lean.example/", oneResult "mojeek" "https://lean.example/"]
    (by decide)).2 _ (List.Perm.swap _ _ _)

end Amatl
