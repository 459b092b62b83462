import Amatl.QueryParts

/-! The text that a provider with the same operators is asked for. Each part of a parsed query
is written as a term again, and the terms stand behind one another, so the text can be parsed
once more and compared. -/

namespace Amatl

open Text

structure FilterUse where
  accepted : List String
  ignored : List String
  approximated : List String
  deriving DecidableEq, Repr

def queryTerms (query : Query) : List String :=
  [query.normalizedQuery] ++ query.quotedTerms.map (fun term => "\"" ++ term ++ "\"") ++
    query.excludedTerms.map (fun term => "-" ++ term) ++
    query.domains.map (fun domain => "site:" ++ domain) ++
    query.excludedDomains.map (fun domain => "-site:" ++ domain) ++
    query.fileTypes.map (fun kind => "filetype:" ++ kind)

/-- The terms that are written; an empty one is left out. -/
def writtenTerms (query : Query) : List (List Char) :=
  ((queryTerms query).filter (· != "")).map String.toList

def filterUse (query : Query) : FilterUse where
  accepted :=
    (if !query.domains.isEmpty || !query.excludedDomains.isEmpty then ["site"] else []) ++
    (if !query.fileTypes.isEmpty then ["filetype"] else []) ++
    (if query.language.isSome then ["language"] else []) ++
    (if query.region.isSome then ["region"] else []) ++
    (if query.dateFrom.isSome && query.dateTo.isSome then ["time_range"] else [])
  ignored := if query.dateFrom.isSome ^^ query.dateTo.isSome then ["time_range"] else []
  approximated := []

/-- `translated_query` of the Brave adapter. -/
def translatedQuery (query : Query) : String × FilterUse :=
  (String.ofList (join [' '] (writtenTerms query)), filterUse query)

/-- Parsing the text again gives the same parts. -/
def KeepsMeaning (query : Query) (text : String) : Prop :=
  ∃ again, parseQuery text = .ok again ∧ again.normalizedQuery = query.normalizedQuery ∧
    again.quotedTerms = query.quotedTerms ∧ again.excludedTerms = query.excludedTerms ∧
    again.domains = query.domains ∧ again.excludedDomains = query.excludedDomains ∧
    again.fileTypes = query.fileTypes

/-- Every term but the last closes its quotes. -/
def closedTerms (query : Query) : Bool :=
  (writtenTerms query).dropLast.all (fun term => !quotedAfter false term)

/-- There is a text, its terms are closed, and each quoted term is there and holds together in
its quotes. -/
def translatable (query : Query) : Bool :=
  !(writtenTerms query).isEmpty && closedTerms query &&
    query.quotedTerms.all (fun term => term != "" && unbroken false (quotedTerm term))

def filterTerms (query : Query) : List (List Char) :=
  query.quotedTerms.map quotedTerm ++ query.excludedTerms.map (fun term => '-' :: term.toList) ++
    query.domains.map (fun domain => ("site:" ++ domain).toList) ++
    query.excludedDomains.map (fun domain => ("-site:" ++ domain).toList) ++
    query.fileTypes.map (fun kind => ("filetype:" ++ kind).toList)

theorem writtenTerms_eq (query : Query) :
    writtenTerms query =
      (if query.normalizedQuery = "" then [] else [query.normalizedQuery.toList]) ++
        filterTerms query := by
  have kept : ∀ {f : String → String} {g : String → List Char} (terms : List String),
      (∀ term, (f term).toList = g term) → (∀ term, g term ≠ []) →
        ((terms.map f).filter (· != "")).map String.toList = terms.map g := by
    intro f g terms texts nonempty
    have all : (terms.map f).filter (· != "") = terms.map f := by
      rw [List.filter_eq_self]
      intro text mem
      obtain ⟨term, -, rfl⟩ := List.mem_map.mp mem
      rw [bne_iff_ne]
      intro empty
      exact nonempty term (by rw [← texts, empty]; rfl)
    rw [all, List.map_map]
    apply List.map_congr_left
    intro term _
    exact texts term
  unfold writtenTerms queryTerms filterTerms
  simp only [List.filter_append, List.map_append]
  rw [kept (g := quotedTerm) query.quotedTerms (fun term => by simp [quotedTerm])
      (by simp [quotedTerm]),
    kept (g := fun term => '-' :: term.toList) query.excludedTerms (fun term => by simp) (by simp),
    kept query.domains (fun domain => rfl) (by simp),
    kept query.excludedDomains (fun domain => rfl) (by simp),
    kept query.fileTypes (fun kind => rfl) (by simp)]
  by_cases empty : query.normalizedQuery = ""
  · simp [empty]
  · simp [empty]

/-- A term that holds together and is one part of the query. -/
structure Writes (token : List Char) (parts : Contribution) : Prop where
  nonempty : token ≠ []
  together : unbroken false token = true
  parts : contribution token = parts

theorem unbroken_of_lower {token written : List Char} (h : unbroken false token = true)
    (lower : token.map toAsciiLower = written) : unbroken false written = true := by
  rw [← lower, unbroken_lower]
  exact h

section Parsed

variable (raw : String)

theorem writes_free {term : String} (mem : term ∈ (Contribution.all (tokenize raw.toList)).free) :
    Writes term.toList { free := [term] } := by
  obtain ⟨token, htoken, part⟩ := mem_all mem
  obtain ⟨rfl, parts⟩ := contribution_free part
  obtain ⟨nonempty, together⟩ := (tokenize_whole raw.toList).1 token htoken
  rw [String.toList_ofList]
  exact ⟨nonempty, together, parts⟩

theorem writes_excluded {term : String} (mem : term ∈ (parseTokens raw).excludedTerms) :
    Writes ('-' :: term.toList) { excluded := [term] } := by
  rw [(parseTokens_parts raw).2.2.1] at mem
  obtain ⟨token, htoken, part⟩ := mem_all mem
  obtain ⟨rfl, parts⟩ := contribution_excluded part
  obtain ⟨nonempty, together⟩ := (tokenize_whole raw.toList).1 _ htoken
  exact ⟨nonempty, together, parts⟩

theorem writes_quoted {term : String} (mem : term ∈ (parseTokens raw).quotedTerms)
    (nonempty : term ≠ "") (together : unbroken false (quotedTerm term) = true) :
    Writes (quotedTerm term) { quoted := [term] } := by
  rw [(parseTokens_parts raw).2.1] at mem
  obtain ⟨token, htoken, part⟩ := mem_all mem
  obtain ⟨text, rfl⟩ := contribution_quoted part
  have there : trimQuotes text ≠ [] := by
    intro empty
    rw [empty] at nonempty
    exact nonempty rfl
  exact ⟨by simp [quotedTerm], together, contribution_quotedTerm there⟩

theorem writes_domain {domain : String} (mem : domain ∈ (parseTokens raw).domains) :
    Writes ("site:" ++ domain).toList { domains := [domain] } := by
  rw [(parseTokens_parts raw).2.2.2.1] at mem
  obtain ⟨token, htoken, part⟩ := mem_all (mem_uniques.mp (List.mem_of_mem_filter mem))
  obtain ⟨lower, value, valid, rfl⟩ := contribution_domain part
  have whole := (tokenize_whole raw.toList).1 token htoken
  exact ⟨by simp, unbroken_of_lower whole.2 lower, contribution_site valid⟩

theorem writes_excludedDomain {domain : String} (mem : domain ∈ (parseTokens raw).excludedDomains) :
    Writes ("-site:" ++ domain).toList { excludedDomains := [domain] } := by
  rw [(parseTokens_parts raw).2.2.2.2.1] at mem
  obtain ⟨token, htoken, part⟩ := mem_all (mem_uniques.mp mem)
  obtain ⟨lower, value, valid, rfl⟩ := contribution_excludedDomain part
  have whole := (tokenize_whole raw.toList).1 token htoken
  exact ⟨by simp, unbroken_of_lower whole.2 lower, contribution_excludedSite valid⟩

theorem writes_fileType {kind : String} (mem : kind ∈ (parseTokens raw).fileTypes) :
    Writes ("filetype:" ++ kind).toList { fileTypes := [kind] } := by
  rw [(parseTokens_parts raw).2.2.2.2.2] at mem
  obtain ⟨token, htoken, part⟩ := mem_all (mem_uniques.mp mem)
  obtain ⟨value, valid, rfl⟩ := contribution_fileType part
  obtain ⟨-, -, together, -⟩ := fileType_kept valid
  refine ⟨by simp, ?_, contribution_filetype valid⟩
  rw [String.toList_append, unbroken_append, asciiLowercase_lower]
  have plain : quotedAfter false "filetype:".toList = false := by decide
  rw [plain, together]
  decide

def allTerms : List (List Char) :=
  (Contribution.all (tokenize raw.toList)).free.map String.toList ++
    filterTerms (parseTokens raw).toQuery

variable {raw}

theorem flatMap_contribution {part : Contribution → List String} {g : String → List Char}
    {c : String → Contribution} {terms : List String}
    (h : ∀ term ∈ terms, Writes (g term) (c term)) :
    (terms.map g).flatMap (fun token => part (contribution token)) =
      terms.flatMap (fun term => part (c term)) := by
  rw [List.flatMap_map]
  apply List.flatMap_congr
  intro term mem
  rw [(h term mem).parts]

theorem all_allTerms (quoted : ∀ term ∈ (parseTokens raw).quotedTerms,
      term ≠ "" ∧ unbroken false (quotedTerm term) = true) :
    Contribution.all (allTerms raw) =
      { free := (Contribution.all (tokenize raw.toList)).free
        quoted := (parseTokens raw).quotedTerms
        excluded := (parseTokens raw).excludedTerms
        domains := (parseTokens raw).domains
        excludedDomains := (parseTokens raw).excludedDomains
        fileTypes := (parseTokens raw).fileTypes } := by
  have parts : ∀ part : Contribution → List String,
      (allTerms raw).flatMap (fun token => part (contribution token)) =
        (Contribution.all (tokenize raw.toList)).free.flatMap
          (fun term => part { free := [term] }) ++
        (parseTokens raw).quotedTerms.flatMap (fun term => part { quoted := [term] }) ++
        (parseTokens raw).excludedTerms.flatMap (fun term => part { excluded := [term] }) ++
        (parseTokens raw).domains.flatMap (fun term => part { domains := [term] }) ++
        (parseTokens raw).excludedDomains.flatMap
          (fun term => part { excludedDomains := [term] }) ++
        (parseTokens raw).fileTypes.flatMap (fun term => part { fileTypes := [term] }) := by
    intro part
    unfold allTerms filterTerms
    simp only [List.flatMap_append]
    rw [flatMap_contribution (fun term mem => writes_free raw mem),
      flatMap_contribution (fun term mem =>
        writes_quoted raw mem (quoted term mem).1 (quoted term mem).2),
      flatMap_contribution (fun term mem => writes_excluded raw mem),
      flatMap_contribution (fun term mem => writes_domain raw mem),
      flatMap_contribution (fun term mem => writes_excludedDomain raw mem),
      flatMap_contribution (fun term mem => writes_fileType raw mem)]
    simp only [List.append_assoc]
  have none : ∀ terms : List String, terms.flatMap (fun _ => ([] : List String)) = [] := by simp
  have each : ∀ terms : List String, terms.flatMap (fun term => [term]) = terms := by simp
  unfold Contribution.all
  rw [parts Contribution.free, parts Contribution.quoted, parts Contribution.excluded,
    parts Contribution.domains, parts Contribution.excludedDomains, parts Contribution.fileTypes]
  simp only [none, each, List.append_nil, List.nil_append]
  rfl

theorem allTerms_whole (quoted : ∀ term ∈ (parseTokens raw).quotedTerms,
      term ≠ "" ∧ unbroken false (quotedTerm term) = true) :
    ∀ t ∈ allTerms raw, t ≠ [] ∧ unbroken false t = true := by
  intro t mem
  unfold allTerms filterTerms at mem
  simp only [List.mem_append, List.mem_map, or_assoc] at mem
  rcases mem with ⟨term, there, rfl⟩ | ⟨term, there, rfl⟩ | ⟨term, there, rfl⟩ |
    ⟨term, there, rfl⟩ | ⟨term, there, rfl⟩ | ⟨term, there, rfl⟩
  · exact ⟨(writes_free raw there).nonempty, (writes_free raw there).together⟩
  · exact ⟨by simp [quotedTerm], (quoted term there).2⟩
  · exact ⟨by simp, (writes_excluded raw there).together⟩
  · exact ⟨by simp, (writes_domain raw there).together⟩
  · exact ⟨by simp, (writes_excludedDomain raw there).together⟩
  · exact ⟨by simp, (writes_fileType raw there).together⟩

theorem free_closed :
    ∀ t ∈ ((Contribution.all (tokenize raw.toList)).free.map String.toList).dropLast,
      quotedAfter false t = false := by
  intro t mem
  rw [free_eq_filter] at mem
  exact (tokenize_whole raw.toList).2 t (mem_dropLast_filter mem)

theorem writtenTerms_allTerms :
    (allTerms raw = [] → writtenTerms (parseTokens raw).toQuery = []) ∧
      join [' '] (writtenTerms (parseTokens raw).toQuery) = join [' '] (allTerms raw) ∧
      ((∀ t ∈ (writtenTerms (parseTokens raw).toQuery).dropLast, quotedAfter false t = false) →
        ∀ t ∈ (allTerms raw).dropLast, quotedAfter false t = false) := by
  have normalized := (parseTokens_parts raw).1
  have closed : ∀ t ∈ ((Contribution.all (tokenize raw.toList)).free.map String.toList).dropLast, _ :=
    free_closed
  have nonempty : ∀ t ∈ (Contribution.all (tokenize raw.toList)).free.map String.toList,
      t ≠ [] := by
    intro t mem
    obtain ⟨term, there, rfl⟩ := List.mem_map.mp mem
    exact (writes_free raw there).nonempty
  rw [writtenTerms_eq, normalized]
  unfold allTerms
  generalize (Contribution.all (tokenize raw.toList)).free.map String.toList = free
    at closed nonempty ⊢
  generalize filterTerms (parseTokens raw).toQuery = rest
  by_cases some : free = []
  · subst some
    exact ⟨fun empty => empty, rfl, fun shut => shut⟩
  · have text : String.ofList (join [' '] free) ≠ "" := by
      intro empty
      have nil := congrArg String.toList empty
      rw [String.toList_ofList] at nil
      exact join_ne_nil nonempty some nil
    rw [if_neg text, String.toList_ofList]
    obtain ⟨same, shut⟩ : join [' '] ([join [' '] free] ++ rest) = _ ∧ _ := join_free some closed
    exact ⟨fun empty => absurd (List.append_eq_nil_iff.mp empty).1 some, same, shut⟩

/-- A quoted term that is read again weighs no more than it did, and less if it is empty or falls
apart. -/
theorem quotedWeight_quotedTerm (term : String) :
    let again := quotedWeight
      ((tokenize (quotedTerm term)).flatMap (fun token => (contribution token).quoted))
    again ≤ term.length + 1 ∧
      (again = term.length + 1 → term ≠ "" ∧ unbroken false (quotedTerm term) = true) := by
  intro again
  have nonempty := fun token mem => ((tokenize_whole (quotedTerm term)).1 token mem).1
  have weight := quotedWeight_flatMap nonempty
  obtain ⟨short, whole⟩ := tokenize_length (quotedTerm term)
  have length : (quotedTerm term).length = term.length + 2 := by
    simp [quotedTerm, String.length_toList]
  by_cases none : tokenize (quotedTerm term) = []
  · have nothing : again = 0 := by
      simp only [again, none, List.flatMap_nil]
      rfl
    exact ⟨by omega, fun same => by omega⟩
  · have one : 1 ≤ (tokenize (quotedTerm term)).length := List.length_pos_iff.mpr none
    refine ⟨by omega, fun same => ⟨?_, whole (by omega)⟩⟩
    rintro rfl
    exact absurd same (by decide)

/-- Closed terms that are read again weigh as much as before only if no quoted term is lost. -/
theorem quoted_of_weight
    (same : quotedWeight (((allTerms raw).flatMap tokenize).flatMap
        (fun token => (contribution token).quoted)) = quotedWeight (parseTokens raw).quotedTerms) :
    ∀ term ∈ (parseTokens raw).quotedTerms, term ≠ "" ∧ unbroken false (quotedTerm term) = true := by
  have none : ∀ {g : String → List Char} {c : String → Contribution} {terms : List String},
      (∀ term ∈ terms, Writes (g term) (c term)) → (∀ term, (c term).quoted = []) →
        ((terms.map g).flatMap tokenize).flatMap (fun token => (contribution token).quoted) = [] := by
    intro g c terms writes free
    rw [List.flatMap_assoc, List.flatMap_eq_nil_iff]
    intro token mem
    obtain ⟨term, there, rfl⟩ := List.mem_map.mp mem
    obtain ⟨nonempty, together, parts⟩ := writes term there
    rw [tokenize_unbroken nonempty together]
    simp [parts, free]
  have read : ((allTerms raw).flatMap tokenize).flatMap (fun token => (contribution token).quoted) =
      (parseTokens raw).quotedTerms.flatMap (fun term =>
        (tokenize (quotedTerm term)).flatMap (fun token => (contribution token).quoted)) := by
    unfold allTerms filterTerms
    simp only [List.flatMap_append]
    rw [none (fun term mem => writes_free raw mem) (fun _ => rfl),
      none (fun term mem => writes_excluded raw mem) (fun _ => rfl),
      none (fun term mem => writes_domain raw mem) (fun _ => rfl),
      none (fun term mem => writes_excludedDomain raw mem) (fun _ => rfl),
      none (fun term mem => writes_fileType raw mem) (fun _ => rfl)]
    simp only [List.append_nil, List.nil_append, List.flatMap_map, List.flatMap_assoc]
  rw [read] at same
  generalize (parseTokens raw).quotedTerms = terms at same ⊢
  -- no term weighs more than before, so in equal sums each weighs as much
  have bound : ∀ terms : List String, quotedWeight (terms.flatMap (fun term =>
      (tokenize (quotedTerm term)).flatMap (fun token => (contribution token).quoted))) ≤
        quotedWeight terms := by
    intro terms
    induction terms with
    | nil => rfl
    | cons term terms ih =>
      have first := (quotedWeight_quotedTerm term).1
      simp only [quotedWeight, List.flatMap_cons, List.map_append, List.sum_append, List.map_cons,
        List.sum_cons] at first ih ⊢
      omega
  induction terms with
  | nil =>
    intro term mem
    cases mem
  | cons term terms ih =>
    have first := quotedWeight_quotedTerm term
    have later := bound terms
    simp only [quotedWeight, List.flatMap_cons, List.map_append, List.sum_append, List.map_cons,
      List.sum_cons] at first later same ih
    intro t mem
    rcases List.mem_cons.mp mem with rfl | other
    · exact first.2 (by omega)
    · exact ih (by omega) t other

theorem keepsMeaning_of_translatable {raw : String}
    (h : translatable (parseTokens raw).toQuery = true) :
    KeepsMeaning (parseTokens raw).toQuery (translatedQuery (parseTokens raw).toQuery).1 := by
  simp only [translatable, closedTerms, Bool.and_eq_true, Bool.not_eq_true',
    List.isEmpty_eq_false_iff, List.all_eq_true, bne_iff_ne] at h
  obtain ⟨⟨some, shut⟩, quoted⟩ := h
  obtain ⟨present, text, closed⟩ : _ ∧ join [' '] (writtenTerms (parseTokens raw).toQuery) = _ ∧ _ :=
    writtenTerms_allTerms
  have tokens : tokenize (join [' '] (allTerms raw)) = allTerms raw :=
    tokenize_terms (allTerms_whole quoted) (closed shut)
  have parts := parseTokens_parts (translatedQuery (parseTokens raw).toQuery).1
  have input : (translatedQuery (parseTokens raw).toQuery).1.toList = join [' '] (allTerms raw) := by
    rw [translatedQuery, String.toList_ofList, text]
  rw [input, tokens, all_allTerms quoted] at parts
  obtain ⟨normalized, hquoted, hexcluded, hdomains, hexcludedDomains, hfileTypes⟩ := parts
  obtain ⟨oldNormalized, -, -, oldDomains, oldExcluded, oldFileTypes⟩ := parseTokens_parts raw
  have nodupExcluded : (parseTokens raw).excludedDomains.Nodup := by
    rw [oldExcluded]
    exact uniques_nodup _
  have nodupFileTypes : (parseTokens raw).fileTypes.Nodup := by
    rw [oldFileTypes]
    exact uniques_nodup _
  have nodupDomains : (parseTokens raw).domains.Nodup := by
    rw [oldDomains]
    exact (uniques_nodup _).filter _
  have apart : (parseTokens raw).domains.filter
      (fun domain => !(parseTokens raw).excludedDomains.contains domain) =
        (parseTokens raw).domains := by
    rw [List.filter_eq_self, oldDomains, oldExcluded]
    intro domain mem
    exact (List.mem_filter.mp mem).2
  have accepted : parseQuery (translatedQuery (parseTokens raw).toQuery).1 =
      .ok (parseTokens (translatedQuery (parseTokens raw).toQuery).1) := by
    unfold parseQuery
    rw [if_neg]
    intro blank
    have nothing := tokenize_blank (List.isEmpty_iff.mp blank)
    rw [input, tokens] at nothing
    exact some (present nothing)
  refine ⟨_, accepted, ?_, hquoted, hexcluded, ?_, ?_, ?_⟩
  · rw [normalized, oldNormalized]
  · rw [hdomains, uniques_eq nodupDomains, uniques_eq nodupExcluded, apart]
  · rw [hexcludedDomains, uniques_eq nodupExcluded]
  · rw [hfileTypes, uniques_eq nodupFileTypes]

theorem translatable_of_keepsMeaning {raw : String}
    (closed : closedTerms (parseTokens raw).toQuery = true)
    (h : KeepsMeaning (parseTokens raw).toQuery (translatedQuery (parseTokens raw).toQuery).1) :
    translatable (parseTokens raw).toQuery = true := by
  obtain ⟨again, parsed, -, quotedTerms, -⟩ := h
  obtain ⟨nonempty, rfl⟩ := parseQuery_ok parsed
  obtain ⟨-, text, shut⟩ : _ ∧ join [' '] (writtenTerms (parseTokens raw).toQuery) = _ ∧ _ :=
    writtenTerms_allTerms
  have some : writtenTerms (parseTokens raw).toQuery ≠ [] := by
    intro empty
    rw [translatedQuery, empty, String.toList_ofList] at nonempty
    exact nonempty (by decide)
  have closed' := closed
  simp only [closedTerms, List.all_eq_true, Bool.not_eq_true'] at closed'
  have input : (translatedQuery (parseTokens raw).toQuery).1.toList =
      join [' '] (allTerms raw) := by
    rw [translatedQuery, String.toList_ofList, text]
  rw [(parseTokens_parts _).2.1, input, tokenize_join (shut closed')] at quotedTerms
  have quoted := quoted_of_weight (congrArg quotedWeight quotedTerms)
  simp only [translatable, closed, Bool.and_eq_true, Bool.not_eq_true', List.isEmpty_eq_false_iff,
    List.all_eq_true, bne_iff_ne]
  exact ⟨⟨some, trivial⟩, quoted⟩

end Parsed

/-- A translatable query means the same to a provider with the same operators, and of the queries
whose terms are closed no other does. -/
theorem translatedQuery_keepsMeaning {raw : String} {query : ParsedQuery}
    (parsed : parseQuery raw = .ok query) :
    (translatable query.toQuery = true →
        KeepsMeaning query.toQuery (translatedQuery query.toQuery).1) ∧
      (closedTerms query.toQuery = true →
        KeepsMeaning query.toQuery (translatedQuery query.toQuery).1 →
          translatable query.toQuery = true) := by
  obtain ⟨-, rfl⟩ := parseQuery_ok parsed
  exact ⟨keepsMeaning_of_translatable, translatable_of_keepsMeaning⟩

theorem docsSearch_keepsMeaning :
    ∃ query, parseQuery "rust \"async book\" site:docs.rs -old" = .ok query ∧
      KeepsMeaning query.toQuery (translatedQuery query.toQuery).1 := by
  have parsed : parseQuery "rust \"async book\" site:docs.rs -old" =
      .ok (parseTokens "rust \"async book\" site:docs.rs -old") := by
    decide +kernel
  exact ⟨_, parsed, (translatedQuery_keepsMeaning parsed).1 (by decide +kernel)⟩

/-- A quote that stays open takes the filter with it. -/
theorem openQuote_swallows :
    ∃ query, parseQuery "site:docs.rs \"rust" = .ok query ∧ query.domains = ["docs.rs"] ∧
      ¬KeepsMeaning query.toQuery (translatedQuery query.toQuery).1 := by
  refine ⟨parseTokens "site:docs.rs \"rust", by decide +kernel, by decide +kernel, ?_⟩
  rintro ⟨again, parsed, -, -, -, domains, -⟩
  obtain ⟨-, rfl⟩ := parseQuery_ok parsed
  exact absurd domains (by decide +kernel)

-- an open quote can also be closed by chance, so the terms have to be closed for the converse
example : translatable (parseTokens "\" \" \"").toQuery = false ∧
    KeepsMeaning (parseTokens "\" \" \"").toQuery
      (translatedQuery (parseTokens "\" \" \"").toQuery).1 := by
  refine ⟨by decide +kernel, parseTokens "\" \" \"", ?_⟩
  decide +kernel

end Amatl
