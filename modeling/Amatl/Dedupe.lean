import Amatl.Canonical
import Amatl.FoldText
import Amatl.Lib.StableSort

/-! Deduplication: results with one canonical URL are merged, and titles of
different hosts are compared for possible duplicates. -/

namespace Amatl

open UrlCrate StableSort

section

variable {Url : Type} [UrlCrate Url]

def compareArrival : CanonicalResult Url → CanonicalResult Url → Ordering :=
  compareLex (compareOn (fun r => asStr r.canonicalUrl))
    (compareLex (compareOn (fun r => asStr r.originalUrl)) (compareOn (fun r => r.provider)))

instance : Std.TransCmp (@compareArrival Url _) := by
  unfold compareArrival
  infer_instance

theorem compareArrival_provider {a b : CanonicalResult Url} (h : compareArrival a b = .eq) :
    a.provider = b.provider := by
  simp only [compareArrival, compareLex_eq_eq, compareOn] at h
  exact Std.LawfulEqOrd.eq_of_compare h.2.2

def compareMember : CanonicalResult Url → CanonicalResult Url → Ordering :=
  compareLex (compareOn (fun r => !r.title.isSome))
    (compareLex (compareOn (fun r => !r.snippet.isSome))
      (compareLex (fun left right => compare right.publishedAt left.publishedAt) compareArrival))

/-- The values of the URL-keyed map of groups: in a list sorted by canonical URL
these are its runs of equal URL. -/
def groupByUrl : List (CanonicalResult Url) → List (List (CanonicalResult Url))
  | [] => []
  | r :: rest =>
    match groupByUrl rest with
    | (s :: group) :: groups =>
      if asStr r.canonicalUrl = asStr s.canonicalUrl then (r :: s :: group) :: groups
      else [r] :: (s :: group) :: groups
    | groups => [r] :: groups

def mergeRank : Option Rank → Option Rank → Option Rank
  | some left, some right => some (left.min right)
  | none, right => right
  | left, none => left

def mergedRanks (group : List (CanonicalResult Url)) : List (String × Option Rank) :=
  group.foldl (fun ranks r => OrdMap.upsert r.provider (fun
    | none => r.providerRank
    | some rank => mergeRank rank r.providerRank) ranks) []

def urlSet (urls : List Url) : List Url :=
  OrdMap.values (urls.foldl (fun m u => OrdMap.upsert (asStr u) (fun
    | none => u
    | some kept => kept) m) [])

/-- A group as `deduplicate` builds it is not empty, so it has a representative. -/
def mergeMembers (representative : CanonicalResult Url) (group : List (CanonicalResult Url)) :
    DeduplicatedResult Url :=
  let confirmed := 1 < group.length
  let originalExact := confirmed ∧
    group.all (fun r => asStr r.originalUrl == asStr representative.originalUrl)
  { title := representative.title, originalUrl := representative.originalUrl,
    canonicalUrl := representative.canonicalUrl,
    originalUrls := urlSet (group.map (fun r => r.originalUrl)),
    providers := OrdMap.setOf (group.map (fun r => r.provider)),
    representativeProvider := representative.provider,
    providerRanks := mergedRanks group, snippet := representative.snippet,
    alternateSnippets := (OrdMap.setOf (group.filterMap (fun r => r.snippet))).filter
      (fun s => some s ≠ representative.snippet),
    resultType := representative.resultType, publishedAt := representative.publishedAt,
    author := representative.author, language := representative.language,
    fileType := representative.fileType, thumbnail := representative.thumbnail,
    metadata := representative.metadata,
    observedDates := OrdMap.setOf (group.filterMap (fun r => r.publishedAt)),
    duplicateStatus := if confirmed then .confirmedDuplicate else .distinct,
    mergeReason := if confirmed then
        some (if originalExact then .originalUrlExact else .canonicalUrlExact)
      else none,
    possibleDuplicateWith := [] }

def mergeConfirmedGroup (group : List (CanonicalResult Url)) : Option (DeduplicatedResult Url) :=
  match sortBy compareMember group with
  | [] => none
  | representative :: rest => some (mergeMembers representative (representative :: rest))

variable [UnicodeTables]

def titleTokens (title : List Char) : List String :=
  alphanumericTokens (normalizedConfusableText title)

def titleSimilarity (left right : DeduplicatedResult Url) : Option ℚ :=
  if hostStr left.canonicalUrl = hostStr right.canonicalUrl then none
  else match left.title, right.title with
    | some leftTitle, some rightTitle =>
      if leftTitle.toList.length < 20 ∨ rightTitle.toList.length < 20 then none
      else
        let leftTokens := titleTokens leftTitle.toList
        let rightTokens := titleTokens rightTitle.toList
        if leftTokens.length < 4 ∨ rightTokens.length < 4 then none
        else some (OrdMap.interCount leftTokens rightTokens /
          OrdMap.unionCount leftTokens rightTokens)
    | _, _ => none

def similar (left right : DeduplicatedResult Url) : Bool :=
  match titleSimilarity left right with
  | some value => 9 / 10 ≤ value
  | none => false

def markWith (url : Url) (r : DeduplicatedResult Url) : DeduplicatedResult Url :=
  { r with
    possibleDuplicateWith := r.possibleDuplicateWith ++ [url]
    duplicateStatus := if r.duplicateStatus = .distinct then .possibleDuplicate
      else r.duplicateStatus }

/-- The inner loop: `left` against every result to its right. Titles and URLs do
not change, so marks made earlier are not seen by later comparisons. -/
def markAgainst (left : DeduplicatedResult Url) :
    List (DeduplicatedResult Url) → DeduplicatedResult Url × List (DeduplicatedResult Url)
  | [] => (left, [])
  | right :: rest =>
    if similar left right then
      let (left', rest') := markAgainst (markWith right.canonicalUrl left) rest
      (left', markWith left.canonicalUrl right :: rest')
    else
      let (left', rest') := markAgainst left rest
      (left', right :: rest')

theorem length_markAgainst (left : DeduplicatedResult Url) (rest : List (DeduplicatedResult Url)) :
    (markAgainst left rest).2.length = rest.length := by
  induction rest generalizing left with
  | nil => rfl
  | cons right rest ih =>
    by_cases h : similar left right = true
    · simp [markAgainst, h, ih]
    · simp [markAgainst, h, ih]

def markPossibleDuplicates : List (DeduplicatedResult Url) → List (DeduplicatedResult Url)
  | [] => []
  | left :: rest =>
    let marked := markAgainst left rest
    marked.1 :: markPossibleDuplicates marked.2
termination_by results => results.length
decreasing_by simp [length_markAgainst]

def deduplicate (results : List (CanonicalResult Url)) : List (DeduplicatedResult Url) :=
  markPossibleDuplicates
    ((groupByUrl (sortBy compareArrival results)).filterMap mergeConfirmedGroup)

/-- Deduplication sees the arrival order only inside each provider. -/
theorem deduplicate_eq_of_provider_order {l r : List (CanonicalResult Url)}
    (h : ∀ name, l.filter (fun c => c.provider == name) = r.filter (fun c => c.provider == name)) :
    deduplicate l = deduplicate r := by
  have hclass : ∀ x, keyClass compareArrival x l = keyClass compareArrival x r := by
    intro x
    -- A class of equal keys lies inside one provider's results.
    have hsub : ∀ c : CanonicalResult Url, (compareArrival x c == .eq) =
        ((compareArrival x c == .eq) && (c.provider == x.provider)) := by
      intro c
      by_cases hc : compareArrival x c = .eq
      · simp [hc, compareArrival_provider hc]
      · simp [hc]
    have hsplit : ∀ m : List (CanonicalResult Url), keyClass compareArrival x m =
        (m.filter (fun c => c.provider == x.provider)).filter
          (fun c => compareArrival x c == .eq) := by
      intro m
      rw [keyClass, List.filter_filter]
      exact List.filter_congr (fun c _ => hsub c)
    rw [hsplit l, hsplit r, h x.provider]
  rw [deduplicate, deduplicate, sortBy_eq_of_keyClass hclass]

end

end Amatl
