import Amatl.CacheTables
import Amatl.Lib.Json
import Amatl.Lib.NetText
import Amatl.Query

/-! The cache of provider answers. An answer is stored under the provider, the version
of its adapter, the free text of the query and one text for all filters, in which
the terms of a list are separated by commas. -/

namespace Amatl

open Text

/-- `serde_json::to_string` on a map of texts: two maps are not written the same. -/
class MapJson where
  write : List (String × String) → String
  write_injective : ∀ m m' : List (String × String), (m.map Prod.fst).Nodup →
    (m'.map Prod.fst).Nodup → write m = write m' → m = m'

def joinTerms (terms : List String) : String := String.ofList (join [','] (terms.map String.toList))

def filterEntries (query : Query) : List (String × String) :=
  [("date_from", query.dateFrom.getD ""), ("date_to", query.dateTo.getD ""),
    ("domains", joinTerms query.domains),
    ("excluded_domains", joinTerms query.excludedDomains),
    ("excluded_terms", joinTerms query.excludedTerms),
    ("file_types", joinTerms query.fileTypes),
    ("language", query.language.getD ""),
    ("quoted_terms", joinTerms query.quotedTerms),
    ("region", query.region.getD "")]

def structuredFilters [MapJson] (query : Query) : String := MapJson.write (filterEntries query)

structure CacheKey where
  provider : String
  adapterVersion : String
  normalizedQuery : String
  structuredFilters : String
  deriving DecidableEq, Repr

def searchCacheKey [MapJson] (provider adapterVersion : String) (query : Query) : CacheKey where
  provider := provider
  adapterVersion := adapterVersion
  normalizedQuery := query.normalizedQuery
  structuredFilters := structuredFilters query

/-- A row of `provider_search_cache`. -/
structure SearchCacheRow where
  key : CacheKey
  payload : String
  sizeBytes : Int
  createdAt : Int64
  lastAccessed : Int64
  deriving DecidableEq

instance : CacheRow SearchCacheRow CacheKey where
  key row := row.key
  size row := row.sizeBytes
  accessed row := row.lastAccessed.toInt
  createdAt row := row.createdAt
  touch now row := { row with lastAccessed := now }
  key_touch _ _ := rfl

def searchCacheRow (key : CacheKey) (payload : String) (now : Int64) : SearchCacheRow where
  key := key
  payload := payload
  sizeBytes := payload.utf8ByteSize
  createdAt := now
  lastAccessed := now

/-- A lookup by key; a row that is found is marked as accessed. -/
def cacheGet (rows : List SearchCacheRow) (key : CacheKey) (now : Int64) (ttlSeconds : UInt64) :
    Option String × List SearchCacheRow :=
  match rows.find? (fun row => row.key = key && isFresh now ttlSeconds row) with
  | none => (none, rows)
  | some row =>
    (some row.payload, rows.map (fun row =>
      if row.key = key then CacheRow.touch now row else row))

/-! The filters of a parsed query. -/

/-- What tells the filters of two queries apart. -/
structure QueryFilters where
  quotedTerms : List String
  excludedTerms : List String
  domains : List String
  excludedDomains : List String
  fileTypes : List String
  language : Option String
  region : Option String
  dateFrom : Option String
  dateTo : Option String
  deriving DecidableEq

def Query.filters (query : Query) : QueryFilters where
  quotedTerms := query.quotedTerms
  excludedTerms := query.excludedTerms
  domains := query.domains
  excludedDomains := query.excludedDomains
  fileTypes := query.fileTypes
  language := query.language
  region := query.region
  dateFrom := query.dateFrom
  dateTo := query.dateTo

/-- The terms of a list, cut at their commas; no term is one empty piece. -/
def commaPieces (terms : List String) : List (List Char) := cut ',' (terms.map String.toList)

/-- The filters are others, but only in how the pieces between commas are grouped
into terms, or in one empty term. -/
structure Regrouped (query other : Query) : Prop where
  normalizedQuery : query.normalizedQuery = other.normalizedQuery
  quotedTerms : commaPieces query.quotedTerms = commaPieces other.quotedTerms
  excludedTerms : commaPieces query.excludedTerms = commaPieces other.excludedTerms
  domains : commaPieces query.domains = commaPieces other.domains
  excludedDomains : commaPieces query.excludedDomains = commaPieces other.excludedDomains
  fileTypes : query.fileTypes = other.fileTypes
  language : query.language = other.language
  region : query.region = other.region
  dateFrom : query.dateFrom = other.dateFrom
  dateTo : query.dateTo = other.dateTo
  filters : query.filters ≠ other.filters

/-- The values that the parser lets through. -/
structure WellFiltered (query : Query) : Prop where
  fileTypes : ∀ fileType ∈ query.fileTypes, fileType.toList ≠ [] ∧ ',' ∉ fileType.toList
  language : query.language ≠ some ""
  region : query.region ≠ some ""
  dateFrom : query.dateFrom ≠ some ""
  dateTo : query.dateTo ≠ some ""

theorem joinTerms_eq_iff {terms others : List String} :
    joinTerms terms = joinTerms others ↔ commaPieces terms = commaPieces others := by
  rw [joinTerms, joinTerms, String.ofList_inj, join_eq_join_iff]
  rfl

theorem joinTerms_injective {terms others : List String}
    (h : ∀ term ∈ terms, term.toList ≠ [] ∧ ',' ∉ term.toList)
    (h' : ∀ term ∈ others, term.toList ≠ [] ∧ ',' ∉ term.toList)
    (eq : joinTerms terms = joinTerms others) : terms = others := by
  have texts : join [','] (terms.map String.toList) = join [','] (others.map String.toList) := by
    rwa [joinTerms, joinTerms, String.ofList_inj] at eq
  have nonempty : ∀ (first : String) (rest : List String), first.toList ≠ [] →
      join [','] ((first :: rest).map String.toList) ≠ [] := by
    intro first rest some_text nil
    cases rest with
    | nil => exact some_text (by simpa [join] using nil)
    | cons second rest => simp [join] at nil
  have same : terms.map String.toList = others.map String.toList := by
    cases terms with
    | nil =>
      cases others with
      | nil => rfl
      | cons first rest => exact absurd texts.symm (nonempty first rest (h' first (by simp)).1)
    | cons first rest =>
      cases others with
      | nil => exact absurd texts (nonempty first rest (h first (by simp)).1)
      | cons second others =>
        refine join_injective (by simp) (by simp) ?_ ?_ texts
        · intro word mem
          obtain ⟨term, hterm, rfl⟩ := List.mem_map.mp mem
          exact (h term hterm).2
        · intro word mem
          obtain ⟨term, hterm, rfl⟩ := List.mem_map.mp mem
          exact (h' term hterm).2
  exact List.map_injective_iff.mpr (fun _ _ => String.toList_injective) same

theorem notMem_comma_asciiLowercase {value : List Char}
    (h : value.all (fun c => isAsciiAlphabetic c || isAsciiDigit c) = true) :
    ',' ∉ (asciiLowercase (String.ofList value)).toList := by
  rw [asciiLowercase, String.toList_ofList, String.toList_ofList]
  intro mem
  obtain ⟨c, hc, comma⟩ := List.mem_map.mp mem
  have kind := List.all_eq_true.mp h c hc
  have small : c.toNat < 128 := by
    simp only [isAsciiAlphabetic, isAsciiLower, isAsciiUpper, isAsciiDigit, Bool.or_eq_true,
      Bool.and_eq_true, decide_eq_true_eq] at kind
    omega
  have lower := forall_ascii (P := fun c => (isAsciiAlphabetic c || isAsciiDigit c) = true →
    toAsciiLower c ≠ ',') (by decide) small
  exact lower kind comma

theorem ofList_ne_empty {text : List Char} (h : text ≠ []) : String.ofList text ≠ "" := by
  intro nil
  have texts := congrArg String.toList nil
  rw [String.toList_ofList] at texts
  exact h texts

theorem ne_nil_of_utf8Length {text : List Char} (h : 0 < utf8Length text) : text ≠ [] := by
  rintro rfl
  simp [utf8Length] at h

theorem map_ne_nil {f : Char → Char} {text : List Char} (h : text ≠ []) : text.map f ≠ [] := by
  simpa using h

namespace QueryParser

theorem filter_wellFiltered {p : QueryParser} (h : WellFiltered p.query.toQuery)
    {operator : QueryOperator} {value : List Char} (valid : operator.valid value = true) :
    WellFiltered (p.filter operator value).query.toQuery := by
  cases operator with
  | site => exact ⟨h.fileTypes, h.language, h.region, h.dateFrom, h.dateTo⟩
  | excludedSite => exact ⟨h.fileTypes, h.language, h.region, h.dateFrom, h.dateTo⟩
  | exact => exact ⟨h.fileTypes, h.language, h.region, h.dateFrom, h.dateTo⟩
  | filetype =>
    simp only [QueryOperator.valid, validFileType, Bool.and_eq_true, Bool.not_eq_true',
      List.isEmpty_eq_false_iff] at valid
    refine ⟨fun fileType mem => ?_, h.language, h.region, h.dateFrom, h.dateTo⟩
    simp only [filter, pushUnique] at mem
    split at mem
    · exact h.fileTypes fileType mem
    · rcases List.mem_append.mp mem with old | new
      · exact h.fileTypes fileType old
      · rw [List.mem_singleton.mp new]
        refine ⟨?_, notMem_comma_asciiLowercase valid.2⟩
        rw [asciiLowercase, String.toList_ofList, String.toList_ofList]
        exact map_ne_nil valid.1.1
  | lang =>
    simp only [QueryOperator.valid, validLanguage, Bool.and_eq_true, decide_eq_true_eq] at valid
    refine ⟨h.fileTypes, fun nil => ?_, h.region, h.dateFrom, h.dateTo⟩
    refine ofList_ne_empty (map_ne_nil ?_) (Option.some.inj nil)
    rw [String.toList_ofList]
    exact ne_nil_of_utf8Length (by omega)
  | region =>
    simp only [QueryOperator.valid, validRegion, Bool.and_eq_true, beq_iff_eq] at valid
    refine ⟨h.fileTypes, h.language, fun nil => ?_, h.dateFrom, h.dateTo⟩
    exact ofList_ne_empty (map_ne_nil (ne_nil_of_utf8Length (by omega))) (Option.some.inj nil)
  | after =>
    refine ⟨h.fileTypes, h.language, h.region, fun nil => ?_, h.dateTo⟩
    refine ofList_ne_empty ?_ (Option.some.inj nil)
    rintro rfl
    exact absurd valid (by decide)
  | before =>
    refine ⟨h.fileTypes, h.language, h.region, h.dateFrom, fun nil => ?_⟩
    refine ofList_ne_empty ?_ (Option.some.inj nil)
    rintro rfl
    exact absurd valid (by decide)

theorem token_wellFiltered {p : QueryParser} (h : WellFiltered p.query.toQuery)
    (text : List Char) : WellFiltered (p.token text).query.toQuery := by
  unfold token
  simp only
  split
  · split
    · rename_i valid
      exact filter_wellFiltered h valid
    · exact ⟨h.fileTypes, h.language, h.region, h.dateFrom, h.dateTo⟩
  · unfold term
    simp only
    split
    · exact ⟨h.fileTypes, h.language, h.region, h.dateFrom, h.dateTo⟩
    · split
      · exact ⟨h.fileTypes, h.language, h.region, h.dateFrom, h.dateTo⟩
      · exact h

theorem finish_wellFiltered {p : QueryParser} (h : WellFiltered p.query.toQuery) :
    WellFiltered p.finish.toQuery := by
  have kept : WellFiltered p.query.dropExcluded.dropEmptyRange.toQuery := by
    unfold ParsedQuery.dropEmptyRange
    split
    · exact ⟨h.fileTypes, h.language, h.region, nofun, nofun⟩
    · exact ⟨h.fileTypes, h.language, h.region, h.dateFrom, h.dateTo⟩
  exact ⟨kept.fileTypes, kept.language, kept.region, kept.dateFrom, kept.dateTo⟩

end QueryParser

theorem parseTokens_wellFiltered (rawQuery : String) :
    WellFiltered (parseTokens rawQuery).toQuery := by
  have kept : ∀ (tokens : List (List Char)) (p : QueryParser), WellFiltered p.query.toQuery →
      WellFiltered (tokens.foldl QueryParser.token p).query.toQuery := by
    intro tokens
    induction tokens with
    | nil => exact fun p h => h
    | cons text tokens ih => exact fun p h => ih _ (QueryParser.token_wellFiltered h text)
  exact QueryParser.finish_wellFiltered (kept _ _ ⟨nofun, nofun, nofun, nofun, nofun⟩)

theorem parseQuery_wellFiltered {rawQuery : String} {query : ParsedQuery}
    (h : parseQuery rawQuery = .ok query) : WellFiltered query.toQuery := by
  unfold parseQuery at h
  split at h
  · cases h
  · cases h
    exact parseTokens_wellFiltered rawQuery

/-! The key. -/

theorem getD_injective {a b : Option String} (ha : a ≠ some "") (hb : b ≠ some "")
    (h : a.getD "" = b.getD "") : a = b := by
  cases a with
  | none =>
    cases b with
    | none => rfl
    | some text => exact absurd (congrArg some h.symm) hb
  | some text =>
    cases b with
    | none => exact absurd (congrArg some h) ha
    | some other => exact congrArg some h

theorem filterEntries_eq_iff {query other : Query} (h : WellFiltered query)
    (h' : WellFiltered other) :
    filterEntries query = filterEntries other ↔
      commaPieces query.quotedTerms = commaPieces other.quotedTerms ∧
      commaPieces query.excludedTerms = commaPieces other.excludedTerms ∧
      commaPieces query.domains = commaPieces other.domains ∧
      commaPieces query.excludedDomains = commaPieces other.excludedDomains ∧
      query.fileTypes = other.fileTypes ∧ query.language = other.language ∧
      query.region = other.region ∧ query.dateFrom = other.dateFrom ∧
      query.dateTo = other.dateTo := by
  simp only [filterEntries, List.cons.injEq, Prod.mk.injEq, true_and, and_true]
  constructor
  · rintro ⟨dateFrom, dateTo, domains, excludedDomains, excludedTerms, fileTypes, language,
      quotedTerms, region⟩
    exact ⟨joinTerms_eq_iff.mp quotedTerms, joinTerms_eq_iff.mp excludedTerms,
      joinTerms_eq_iff.mp domains, joinTerms_eq_iff.mp excludedDomains,
      joinTerms_injective h.fileTypes h'.fileTypes fileTypes,
      getD_injective h.language h'.language language, getD_injective h.region h'.region region,
      getD_injective h.dateFrom h'.dateFrom dateFrom, getD_injective h.dateTo h'.dateTo dateTo⟩
  · rintro ⟨quotedTerms, excludedTerms, domains, excludedDomains, fileTypes, language, region,
      dateFrom, dateTo⟩
    rw [joinTerms_eq_iff.mpr quotedTerms, joinTerms_eq_iff.mpr excludedTerms,
      joinTerms_eq_iff.mpr domains, joinTerms_eq_iff.mpr excludedDomains, fileTypes, language,
      region, dateFrom, dateTo]
    simp

theorem searchCacheKey_eq_iff [MapJson] {provider adapterVersion : String} {query other : Query} :
    searchCacheKey provider adapterVersion query = searchCacheKey provider adapterVersion other ↔
      query.normalizedQuery = other.normalizedQuery ∧
        filterEntries query = filterEntries other := by
  constructor
  · intro h
    have names : ∀ q : Query, ((filterEntries q).map Prod.fst).Nodup := fun q => by
      simp [filterEntries]
    exact ⟨congrArg CacheKey.normalizedQuery h,
      MapJson.write_injective _ _ (names query) (names other)
        (congrArg CacheKey.structuredFilters h)⟩
  · rintro ⟨text, entries⟩
    simp only [searchCacheKey, structuredFilters, text, entries]

/-- Two queries with one key have the same filters, unless their terms are the same
up to grouping at commas. -/
theorem searchCacheKey_separates [MapJson] (provider adapterVersion : String) (raw other : String)
    (query query' : ParsedQuery) (parsed : parseQuery raw = .ok query)
    (parsed' : parseQuery other = .ok query') :
    (searchCacheKey provider adapterVersion query.toQuery =
        searchCacheKey provider adapterVersion query'.toQuery →
      query.filters = query'.filters) ↔ ¬Regrouped query.toQuery query'.toQuery := by
  have entries := filterEntries_eq_iff (parseQuery_wellFiltered parsed)
    (parseQuery_wellFiltered parsed')
  rw [searchCacheKey_eq_iff, entries]
  constructor
  · intro separates regrouped
    exact regrouped.filters (separates ⟨regrouped.normalizedQuery, regrouped.quotedTerms,
      regrouped.excludedTerms, regrouped.domains, regrouped.excludedDomains, regrouped.fileTypes,
      regrouped.language, regrouped.region, regrouped.dateFrom, regrouped.dateTo⟩)
  · rintro apart ⟨text, quotedTerms, excludedTerms, domains, excludedDomains, fileTypes, language,
      region, dateFrom, dateTo⟩
    by_contra differ
    exact apart ⟨text, quotedTerms, excludedTerms, domains, excludedDomains, fileTypes, language,
      region, dateFrom, dateTo, differ⟩

/-- The compact form, which is what `serde_json` writes. -/
@[reducible] def compactJson : MapJson where
  write entries := String.ofList (Json.object (entries.map (fun e => (e.1.toList, e.2.toList))))
  write_injective := by
    intro m m' _ _ h
    have same := Json.object_injective (String.ofList_injective h)
    refine List.map_injective_iff.mpr ?_ same
    rintro ⟨k, v⟩ ⟨k', v'⟩ eq
    obtain ⟨hk, hv⟩ := Prod.mk.inj eq
    exact Prod.ext (String.toList_injective hk) (String.toList_injective hv)

theorem excludedWord_separated :
    letI := compactJson
    searchCacheKey "brave" "1" (parseTokens "rust -old").toQuery ≠
      searchCacheKey "brave" "1" (parseTokens "rust -new").toQuery := by
  let _ := compactJson
  intro same
  have separates := (searchCacheKey_separates "brave" "1" "rust -old" "rust -new" _ _
    (if_neg (by decide +kernel)) (if_neg (by decide +kernel))).mpr
    (fun regrouped => absurd regrouped.excludedTerms (by decide +kernel))
  exact absurd (separates same) (by decide +kernel)

/-- One excluded term with a comma, and two excluded terms: the answer to the first
query is served for the second. -/
theorem excludedPair_served :
    letI := compactJson
    let query := (parseTokens "rust -a,b").toQuery
    let other := (parseTokens "rust -a -b").toQuery
    parseQuery "rust -a,b" = .ok (parseTokens "rust -a,b") ∧
      parseQuery "rust -a -b" = .ok (parseTokens "rust -a -b") ∧
      query.excludedTerms = ["a,b"] ∧ other.excludedTerms = ["a", "b"] ∧
      searchCacheKey "brave" "1" query = searchCacheKey "brave" "1" other ∧
      (cachePut false [] (searchCacheRow (searchCacheKey "brave" "1" query) "first" 10) 10 300 100
        1000).toOption.map (fun rows => (cacheGet rows (searchCacheKey "brave" "1" other) 20 300).1) =
        some (some "first") := by
  let _ := compactJson
  exact ⟨if_neg (by decide +kernel), if_neg (by decide +kernel), by decide +kernel,
    by decide +kernel, by decide +kernel, by decide +kernel⟩

end Amatl
