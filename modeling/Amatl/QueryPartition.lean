import Amatl.QueryParts

/-! Every token of a query is one part of it: free text, a term or a filter of one kind. The
fields of the query are made of the parts of their kind, and the free text is free text again. -/

namespace Amatl

open Text

inductive QueryPart where
  | free | quoted | excluded | domain | excludedDomain | fileType | language | region
  | dateFrom | dateTo
  deriving DecidableEq, Repr

def filterPart (operator : QueryOperator) (value : List Char) : QueryPart × String :=
  match operator with
  | .site => (.domain, asciiLowercase (String.ofList value))
  | .excludedSite => (.excludedDomain, asciiLowercase (String.ofList value))
  | .filetype => (.fileType, asciiLowercase (String.ofList (value.dropWhile (· == '.'))))
  | .lang => (.language, asciiLowercase (String.ofList value))
  | .region => (.region, String.ofList (value.map toAsciiUpper))
  | .after => (.dateFrom, String.ofList value)
  | .before => (.dateTo, String.ofList value)
  | .exact => (.quoted, String.ofList (trimQuotes value))

def termPart (token : List Char) : QueryPart × String :=
  if token.head? = some '-' && 1 < utf8Length token then (.excluded, String.ofList token.tail)
  else if token.head? = some '"' && token.getLast? = some '"' && 2 < utf8Length token then
    (.quoted, String.ofList (trimQuotes token))
  else (.free, String.ofList token)

/-- The one part that a token is. -/
def partOf (token : List Char) : QueryPart × String :=
  match operatorOf token with
  | some operator =>
    if operator.valid (valueOf token) then filterPart operator (valueOf token)
    else (.free, String.ofList token)
  | none => termPart token

def QueryPart.only (kind : QueryPart) (part : QueryPart × String) : List String :=
  if part.1 = kind then [part.2] else []

def valuesOf (kind : QueryPart) (tokens : List (List Char)) : List String :=
  (tokens.filter (fun token => (partOf token).1 = kind)).map (fun token => (partOf token).2)

theorem valuesOf_cons (kind : QueryPart) (token : List Char) (tokens : List (List Char)) :
    valuesOf kind (token :: tokens) =
      kind.only (partOf token) ++ valuesOf kind tokens := by
  rw [valuesOf, valuesOf, QueryPart.only]
  by_cases same : (partOf token).1 = kind
  · rw [if_pos same, List.filter_cons_of_pos (by simpa using same)]
    rfl
  · rw [if_neg same, List.filter_cons_of_neg (by simpa using same)]
    rfl

theorem partOf_filter {token : List Char} {operator : QueryOperator}
    (named : operatorOf token = some operator) (valid : operator.valid (valueOf token) = true) :
    partOf token = filterPart operator (valueOf token) := by
  rw [partOf, named]
  exact if_pos valid

theorem partOf_literal {token : List Char} {operator : QueryOperator}
    (named : operatorOf token = some operator) (invalid : ¬operator.valid (valueOf token) = true) :
    partOf token = (.free, String.ofList token) := by
  rw [partOf, named]
  exact if_neg invalid

theorem partOf_term {token : List Char} (named : operatorOf token = none) :
    partOf token = termPart token := by
  rw [partOf, named]

theorem contribution_partOf (token : List Char) :
    contribution token =
      { free := QueryPart.free.only (partOf token)
        quoted := QueryPart.quoted.only (partOf token)
        excluded := QueryPart.excluded.only (partOf token)
        domains := QueryPart.domain.only (partOf token)
        excludedDomains := QueryPart.excludedDomain.only (partOf token)
        fileTypes := QueryPart.fileType.only (partOf token) } := by
  cases named : operatorOf token with
  | some operator =>
    by_cases valid : operator.valid (valueOf token) = true
    · have contributed : contribution token = filterContribution operator (valueOf token) := by
        rw [contribution, named]
        exact if_pos valid
      rw [contributed, partOf_filter named valid]
      cases operator <;> rfl
    · have contributed : contribution token = { free := [String.ofList token] } := by
        rw [contribution, named]
        exact if_neg valid
      rw [contributed, partOf_literal named valid]
      rfl
  | none =>
    have contributed : contribution token = termContribution token := by rw [contribution, named]
    rw [contributed, partOf_term named, termContribution, termPart]
    split_ifs <;> rfl

theorem all_partOf (tokens : List (List Char)) :
    Contribution.all tokens =
      { free := valuesOf .free tokens
        quoted := valuesOf .quoted tokens
        excluded := valuesOf .excluded tokens
        domains := valuesOf .domain tokens
        excludedDomains := valuesOf .excludedDomain tokens
        fileTypes := valuesOf .fileType tokens } := by
  induction tokens with
  | nil => rfl
  | cons token tokens ih =>
    simp only [Contribution.all, Contribution.mk.injEq] at ih
    obtain ⟨free, quoted, excluded, domains, excludedDomains, fileTypes⟩ := ih
    simp only [Contribution.all, List.flatMap_cons, free, quoted, excluded, domains,
      excludedDomains, fileTypes, contribution_partOf token, valuesOf_cons]

/-- The filters that hold one value hold the last one that was set. -/
structure Latest (p q : QueryParser) (tokens : List (List Char)) : Prop where
  language : q.query.language = (valuesOf .language tokens).getLast?.or p.query.language
  region : q.query.region = (valuesOf .region tokens).getLast?.or p.query.region
  dateFrom : q.query.dateFrom = (valuesOf .dateFrom tokens).getLast?.or p.query.dateFrom
  dateTo : q.query.dateTo = (valuesOf .dateTo tokens).getLast?.or p.query.dateTo

theorem latest_token (p : QueryParser) (token : List Char) : Latest p (p.token token) [token] := by
  have single : ∀ kind : QueryPart, valuesOf kind [token] = kind.only (partOf token) := by
    intro kind
    rw [valuesOf_cons]
    exact List.append_nil _
  have read : p.token token = match operatorOf token with
      | some operator => if operator.valid (valueOf token) then p.filter operator (valueOf token)
        else p.literal operator (valueOf token) token
      | none => p.term token := rfl
  have latest : ∀ (q : QueryParser) (part : QueryPart × String), p.token token = q →
      partOf token = part →
      q.query.language = (QueryPart.language.only part).getLast?.or p.query.language →
      q.query.region = (QueryPart.region.only part).getLast?.or p.query.region →
      q.query.dateFrom = (QueryPart.dateFrom.only part).getLast?.or p.query.dateFrom →
      q.query.dateTo = (QueryPart.dateTo.only part).getLast?.or p.query.dateTo →
      Latest p (p.token token) [token] := by
    rintro q part rfl rfl language region dateFrom dateTo
    exact ⟨by rw [language, single], by rw [region, single], by rw [dateFrom, single],
      by rw [dateTo, single]⟩
  cases named : operatorOf token with
  | some operator =>
    rw [named] at read
    by_cases valid : operator.valid (valueOf token) = true
    · have filtered := read.trans (if_pos valid)
      refine latest _ _ filtered (partOf_filter named valid) ?_ ?_ ?_ ?_ <;>
        cases operator <;> rfl
    · have literal := read.trans (if_neg valid)
      exact latest _ _ literal (partOf_literal named valid) rfl rfl rfl rfl
  | none =>
    rw [named] at read
    have part := partOf_term named
    rw [termPart] at part
    dsimp only at read
    rw [QueryParser.term] at read
    by_cases minus : (token.head? = some '-' && 1 < utf8Length token) = true
    · rw [if_pos minus] at part read
      exact latest _ _ read part rfl rfl rfl rfl
    · rw [if_neg minus] at part read
      by_cases wrapped :
          (token.head? = some '"' && token.getLast? = some '"' && 2 < utf8Length token) = true
      · rw [if_pos wrapped] at part read
        exact latest _ _ read part rfl rfl rfl rfl
      · rw [if_neg wrapped] at part read
        exact latest _ _ read part rfl rfl rfl rfl

theorem latest_tokens (p : QueryParser) (tokens : List (List Char)) :
    Latest p (tokens.foldl QueryParser.token p) tokens := by
  induction tokens generalizing p with
  | nil => exact ⟨rfl, rfl, rfl, rfl⟩
  | cons token tokens ih =>
    have first := latest_token p token
    have later := ih (p.token token)
    have values : ∀ kind, valuesOf kind (token :: tokens) =
        valuesOf kind [token] ++ valuesOf kind tokens := by
      intro kind
      rw [valuesOf_cons, valuesOf_cons kind token []]
      simp [valuesOf]
    constructor
    · rw [List.foldl_cons, later.language, first.language, values, List.getLast?_append,
        Option.or_assoc]
    · rw [List.foldl_cons, later.region, first.region, values, List.getLast?_append,
        Option.or_assoc]
    · rw [List.foldl_cons, later.dateFrom, first.dateFrom, values, List.getLast?_append,
        Option.or_assoc]
    · rw [List.foldl_cons, later.dateTo, first.dateTo, values, List.getLast?_append,
        Option.or_assoc]

/-- No day lies after the one and before the other. -/
def emptyRange (dateFrom dateTo : Option String) : Bool :=
  match dateFrom, dateTo with
  | some lower, some upper => !decide (lower < upper)
  | _, _ => false

/-- The fields of a query are made of the parts of their kind. Of filters that hold one value the
last one counts, an excluded domain is not included, and dates that leave no day are dropped. -/
structure MadeOf (tokens : List (List Char)) (query : Query) : Prop where
  free : query.normalizedQuery = String.ofList (join [' ']
    (tokens.filter (fun token => (partOf token).1 = .free)))
  quoted : query.quotedTerms = valuesOf .quoted tokens
  excluded : query.excludedTerms = valuesOf .excluded tokens
  domains : query.domains = (uniques (valuesOf .domain tokens)).filter
    (fun domain => !(valuesOf .excludedDomain tokens).contains domain)
  excludedDomains : query.excludedDomains = uniques (valuesOf .excludedDomain tokens)
  fileTypes : query.fileTypes = uniques (valuesOf .fileType tokens)
  language : query.language = (valuesOf .language tokens).getLast?
  region : query.region = (valuesOf .region tokens).getLast?
  dates : (query.dateFrom, query.dateTo) =
    if emptyRange (valuesOf .dateFrom tokens).getLast? (valuesOf .dateTo tokens).getLast? then
      (none, none)
    else ((valuesOf .dateFrom tokens).getLast?, (valuesOf .dateTo tokens).getLast?)

theorem partOf_free {token : List Char} (h : (partOf token).1 = .free) :
    (partOf token).2 = String.ofList token := by
  have part := contribution_partOf token
  have mem : (partOf token).2 ∈ (contribution token).free := by
    rw [part]
    change _ ∈ QueryPart.free.only (partOf token)
    rw [QueryPart.only, if_pos h]
    exact List.mem_singleton_self _
  exact (contribution_free mem).1

theorem valuesOf_free (tokens : List (List Char)) :
    (valuesOf .free tokens).map String.toList =
      tokens.filter (fun token => (partOf token).1 = .free) := by
  rw [valuesOf, List.map_map]
  have each : ∀ token ∈ tokens.filter (fun token => (partOf token).1 = .free),
      (String.toList ∘ fun token => (partOf token).2) token = token := by
    intro token mem
    have kind : (partOf token).1 = .free := by simpa using List.of_mem_filter mem
    rw [Function.comp_apply, partOf_free kind, String.toList_ofList]
  rw [List.map_congr_left each, List.map_id']

theorem parseTokens_madeOf (raw : String) :
    MadeOf (tokenize raw.toList) (parseTokens raw).toQuery := by
  have parts := parseTokens_parts raw
  dsimp only at parts
  rw [all_partOf] at parts
  obtain ⟨free, quoted, excluded, domains, excludedDomains, fileTypes⟩ := parts
  have latest := latest_tokens
    ⟨⟨⟨raw, "", [], [], [], [], [], none, none, none, none⟩, []⟩, []⟩ (tokenize raw.toList)
  have read : parseTokens raw = ((tokenize raw.toList).foldl QueryParser.token
    ⟨⟨⟨raw, "", [], [], [], [], [], none, none, none, none⟩, []⟩, []⟩).finish := rfl
  generalize (tokenize raw.toList).foldl QueryParser.token
    ⟨⟨⟨raw, "", [], [], [], [], [], none, none, none, none⟩, []⟩, []⟩ = parser at latest read
  obtain ⟨language, region, dateFrom, dateTo⟩ := latest
  dsimp only at language region dateFrom dateTo
  rw [Option.or_none] at language region dateFrom dateTo
  have ranged : parser.query.dropExcluded.emptyRange =
      emptyRange parser.query.dateFrom parser.query.dateTo := rfl
  rw [dateFrom, dateTo] at ranged
  refine ⟨by rw [free, valuesOf_free], quoted, excluded, ?_, excludedDomains, fileTypes, ?_, ?_, ?_⟩
  · rw [domains]
    apply List.filter_congr
    intro domain _
    have same : (uniques (valuesOf .excludedDomain (tokenize raw.toList))).contains domain =
        (valuesOf .excludedDomain (tokenize raw.toList)).contains domain := by
      rw [Bool.eq_iff_iff, List.contains_iff_mem, List.contains_iff_mem, mem_uniques]
    rw [same]
  · rw [read, ← language]
    change parser.query.dropExcluded.dropEmptyRange.language = _
    unfold ParsedQuery.dropEmptyRange
    split <;> rfl
  · rw [read, ← region]
    change parser.query.dropExcluded.dropEmptyRange.region = _
    unfold ParsedQuery.dropEmptyRange
    split <;> rfl
  · rw [read, ← dateFrom, ← dateTo]
    change (parser.query.dropExcluded.dropEmptyRange.dateFrom,
      parser.query.dropExcluded.dropEmptyRange.dateTo) = _
    rw [dateFrom, dateTo, ← ranged]
    unfold ParsedQuery.dropEmptyRange
    by_cases empty : parser.query.dropExcluded.emptyRange = true
    · rw [if_pos empty, if_pos empty]
    · rw [if_neg empty, if_neg empty, ← dateFrom, ← dateTo]
      rfl

theorem toAsciiUpper_alphabetic {c : Char} (h : isAsciiAlphabetic c = true) :
    isAsciiUpper (toAsciiUpper c) = true := by
  have small : c.toNat < 128 := by
    simp only [isAsciiAlphabetic, isAsciiLower, isAsciiUpper, Bool.or_eq_true, Bool.and_eq_true,
      decide_eq_true_eq] at h
    omega
  exact forall_ascii (P := fun c => isAsciiAlphabetic c = true →
    isAsciiUpper (toAsciiUpper c) = true) (by decide) small h

theorem parseTokens_region {raw region : String} (h : (parseTokens raw).region = some region) :
    region.toList ≠ [] ∧ ∀ c ∈ region.toList, isAsciiUpper c = true := by
  have last := (parseTokens_madeOf raw).region
  rw [h] at last
  have mem := List.mem_of_getLast? last.symm
  obtain ⟨token, here, named⟩ := List.mem_map.mp mem
  have kind : (partOf token).1 = .region := by simpa using List.of_mem_filter here
  cases operated : operatorOf token with
  | none =>
    rw [partOf_term operated, termPart] at kind
    split_ifs at kind
  | some operator =>
    by_cases valid : operator.valid (valueOf token) = true
    · rw [partOf_filter operated valid] at kind named
      cases operator with
      | region =>
        change (utf8Length (valueOf token) == 2 && (valueOf token).all isAsciiAlphabetic) = true
          at valid
        rw [Bool.and_eq_true, beq_iff_eq] at valid
        obtain ⟨two, letters⟩ := valid
        have text : region.toList = (valueOf token).map toAsciiUpper := by
          rw [← named]
          exact String.toList_ofList
        rw [text]
        constructor
        · intro empty
          rw [List.map_eq_nil_iff.mp empty] at two
          cases two
        · intro c mem
          obtain ⟨d, inside, rfl⟩ := List.mem_map.mp mem
          exact toAsciiUpper_alphabetic (List.all_eq_true.mp letters d inside)
      | _ => cases kind
    · rw [partOf_literal operated valid] at kind
      cases kind

/-- The query asks for its free text and for nothing else. -/
structure Unfiltered (query : Query) : Prop where
  quoted : query.quotedTerms = []
  excluded : query.excludedTerms = []
  domains : query.domains = []
  excludedDomains : query.excludedDomains = []
  fileTypes : query.fileTypes = []
  language : query.language = none
  region : query.region = none
  dateFrom : query.dateFrom = none
  dateTo : query.dateTo = none

theorem unfiltered_of_free {tokens : List (List Char)} {query : Query} (made : MadeOf tokens query)
    (free : ∀ token ∈ tokens, (partOf token).1 = .free) : Unfiltered query := by
  have none : ∀ kind, kind ≠ .free → valuesOf kind tokens = [] := by
    intro kind other
    rw [valuesOf, List.map_eq_nil_iff, List.filter_eq_nil_iff]
    intro token mem same
    rw [free token mem, decide_eq_true_eq] at same
    exact other same.symm
  have dates := made.dates
  rw [none .dateFrom (by decide), none .dateTo (by decide)] at dates
  obtain ⟨dateFrom, dateTo⟩ := Prod.mk.inj dates
  refine ⟨?_, ?_, ?_, ?_, ?_, ?_, ?_, dateFrom, dateTo⟩
  · rw [made.quoted, none .quoted (by decide)]
  · rw [made.excluded, none .excluded (by decide)]
  · rw [made.domains, none .domain (by decide)]
    rfl
  · rw [made.excludedDomains, none .excludedDomain (by decide)]
    rfl
  · rw [made.fileTypes, none .fileType (by decide)]
    rfl
  · rw [made.language, none .language (by decide)]
    rfl
  · rw [made.region, none .region (by decide)]
    rfl

/-- Every token is one part of the query, and the free text is parsed as free text again. -/
theorem parseQuery_partitions {raw : String} {query : ParsedQuery}
    (parsed : parseQuery raw = .ok query) :
    MadeOf (tokenize raw.toList) query.toQuery ∧
      (query.normalizedQuery ≠ "" →
        ∃ again, parseQuery query.normalizedQuery = .ok again ∧
          again.normalizedQuery = query.normalizedQuery ∧ Unfiltered again.toQuery) := by
  obtain ⟨-, rfl⟩ := parseQuery_ok parsed
  have made := parseTokens_madeOf raw
  refine ⟨made, fun some => ?_⟩
  have whole := tokenize_whole raw.toList
  have text := made.free
  generalize normal : (parseTokens raw).normalizedQuery = again at some text
  have found : tokenize again.toList =
      (tokenize raw.toList).filter (fun token => (partOf token).1 = .free) := by
    rw [text, String.toList_ofList]
    exact tokenize_terms (fun token mem => whole.1 token (List.mem_of_mem_filter mem))
      (fun token mem => whole.2 token (mem_dropLast_filter mem))
  have free : ∀ token ∈ tokenize again.toList, (partOf token).1 = .free := by
    intro token mem
    rw [found] at mem
    simpa using List.of_mem_filter mem
  have reads : parseQuery again = .ok (parseTokens again) := by
    rw [parseQuery, if_neg]
    intro blank
    have nothing := tokenize_blank (List.isEmpty_iff.mp blank)
    rw [found] at nothing
    rw [nothing] at text
    exact some text
  have madeAgain := parseTokens_madeOf again
  refine ⟨_, reads, ?_, unfiltered_of_free madeAgain free⟩
  have all : (tokenize again.toList).filter (fun token => (partOf token).1 = .free) =
      tokenize again.toList :=
    List.filter_eq_self.mpr (fun token mem => by simpa using free token mem)
  rw [madeAgain.free, all, found]
  exact text.symm

theorem parseQuery_partitions_mixed :
    ∃ query, parseQuery "rust lang:es -old site:docs.rs \"a b\" lang:en site:x" = .ok query ∧
      MadeOf (tokenize "rust lang:es -old site:docs.rs \"a b\" lang:en site:x".toList)
        query.toQuery ∧
      query.normalizedQuery = "rust site:x" ∧
      ∃ again, parseQuery "rust site:x" = .ok again ∧ again.normalizedQuery = "rust site:x" ∧
        Unfiltered again.toQuery := by
  obtain ⟨query, parsed, free⟩ :
      ∃ query, parseQuery "rust lang:es -old site:docs.rs \"a b\" lang:en site:x" = .ok query ∧
        query.normalizedQuery = "rust site:x" := by
    exact ⟨_, rfl, by decide +kernel⟩
  obtain ⟨made, again⟩ := parseQuery_partitions parsed
  rw [free] at again
  exact ⟨query, parsed, made, free, again (by decide)⟩

end Amatl
