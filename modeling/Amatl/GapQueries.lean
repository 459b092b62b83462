import Amatl.Gaps
import Amatl.QueryPartition

/-! The queries that are recommended for gaps. A suffix that the query says already leaves the
query as it is; another one is appended, and is read as tokens of its own where the query closes its
quotes. -/

namespace Amatl

open Text UnicodeTables

def freeTokens (text : List Char) : List (List Char) :=
  (tokenize text).filter (fun token => (partOf token).1 = .free)

/-- A query has the terms and the filters of another one. -/
structure Query.Keeps (again query : Query) : Prop where
  quotedTerms : ∀ term ∈ query.quotedTerms, term ∈ again.quotedTerms
  excludedTerms : ∀ term ∈ query.excludedTerms, term ∈ again.excludedTerms
  domains : ∀ domain ∈ query.domains, domain ∈ again.domains
  excludedDomains : ∀ domain ∈ query.excludedDomains, domain ∈ again.excludedDomains
  fileTypes : ∀ fileType ∈ query.fileTypes, fileType ∈ again.fileTypes
  language : again.language = query.language
  region : again.region = query.region
  dateFrom : again.dateFrom = query.dateFrom
  dateTo : again.dateTo = query.dateTo

/-- A text is parsed as the query with the suffix behind it: every term and filter is kept, the free
tokens come first in their order, and the tokens of the suffix are further tokens. -/
structure Refines (query : Query) (suffix : List Char) (recommended : String) : Prop where
  reparses : ∃ again, parseQuery recommended = .ok again ∧ again.toQuery.Keeps query ∧
    again.normalizedQuery = String.ofList (join [' ']
      (freeTokens query.rawQuery.toList ++ freeTokens suffix))
  tokens : tokenize recommended.toList =
    tokenize query.rawQuery.toList ++ tokenize suffix

/-! Appending tokens that are free or file types. -/

theorem valuesOf_append (kind : QueryPart) (tokens rest : List (List Char)) :
    valuesOf kind (tokens ++ rest) = valuesOf kind tokens ++ valuesOf kind rest := by
  rw [valuesOf, List.filter_append, List.map_append]
  rfl

theorem valuesOf_none {kind : QueryPart} {tokens : List (List Char)}
    (other : ∀ token ∈ tokens, (partOf token).1 ≠ kind) : valuesOf kind tokens = [] := by
  rw [valuesOf, List.map_eq_nil_iff, List.filter_eq_nil_iff]
  intro token mem same
  exact other token mem (of_decide_eq_true same)

theorem MadeOf.keeps {tokens rest : List (List Char)} {query again : Query}
    (made : MadeOf tokens query) (remade : MadeOf (tokens ++ rest) again)
    (plain : ∀ token ∈ rest, (partOf token).1 = .free ∨ (partOf token).1 = .fileType) :
    again.Keeps query := by
  have same : ∀ kind, kind ≠ .free → kind ≠ .fileType →
      valuesOf kind (tokens ++ rest) = valuesOf kind tokens := by
    intro kind free fileType
    have none : valuesOf kind rest = [] := by
      apply valuesOf_none
      intro token mem equal
      rcases plain token mem with isFree | isFileType
      · exact free (equal.symm.trans isFree)
      · exact fileType (equal.symm.trans isFileType)
    rw [valuesOf_append, none, List.append_nil]
  have dates := remade.dates
  rw [same .dateFrom (by decide) (by decide), same .dateTo (by decide) (by decide),
    ← made.dates] at dates
  obtain ⟨dateFrom, dateTo⟩ := Prod.mk.inj dates
  refine ⟨?_, ?_, ?_, ?_, ?_, ?_, ?_, dateFrom, dateTo⟩
  · intro term mem
    rw [remade.quoted, same .quoted (by decide) (by decide), ← made.quoted]
    exact mem
  · intro term mem
    rw [remade.excluded, same .excluded (by decide) (by decide), ← made.excluded]
    exact mem
  · intro domain mem
    rw [remade.domains, same .domain (by decide) (by decide),
      same .excludedDomain (by decide) (by decide), ← made.domains]
    exact mem
  · intro domain mem
    rw [remade.excludedDomains, same .excludedDomain (by decide) (by decide),
      ← made.excludedDomains]
    exact mem
  · intro fileType mem
    rw [made.fileTypes, mem_uniques] at mem
    rw [remade.fileTypes, mem_uniques, valuesOf_append]
    exact List.mem_append_left _ mem
  · rw [remade.language, same .language (by decide) (by decide), made.language]
  · rw [remade.region, same .region (by decide) (by decide), made.region]

theorem refines_of_tokens {raw : String} {query : ParsedQuery}
    (parsed : parseQuery raw = .ok query) {suffix : List Char} {recommended : String}
    (further : tokenize suffix ≠ [])
    (plain : ∀ token ∈ tokenize suffix, (partOf token).1 = .free ∨ (partOf token).1 = .fileType)
    (apart : tokenize recommended.toList = tokenize raw.toList ++ tokenize suffix) :
    Refines query.toQuery suffix recommended := by
  obtain ⟨-, rfl⟩ := parseQuery_ok parsed
  have made := parseTokens_madeOf raw
  have remade := parseTokens_madeOf recommended
  have typed := parseTokens_rawQuery raw
  have accepted : parseQuery recommended = .ok (parseTokens recommended) := by
    unfold parseQuery
    rw [if_neg]
    intro empty
    have none := tokenize_blank (List.isEmpty_iff.mp empty)
    rw [apart] at none
    exact further (List.append_eq_nil_iff.mp none).2
  have free := remade.free
  rw [apart] at remade free
  refine ⟨⟨_, accepted, made.keeps remade plain, ?_⟩, ?_⟩
  · rw [typed, free, List.filter_append]
    rfl
  · rw [typed, apart]

/-! What is appended. -/

theorem tokenize_appended {raw : List Char} (closed : quotedAfter false raw = false)
    (suffix : List Char) :
    tokenize (trim raw ++ [' '] ++ suffix) = tokenize raw ++ tokenize suffix := by
  have shut : quotedAfter false (trim raw) = false := (quotedAfter_trim raw).trans closed
  rw [tokenize_closed shut, tokenize_trim closed]

theorem closed_of_further {raw suffix text : List Char} (further : tokenize suffix ≠ [])
    (apart : tokenize text = tokenize raw ++ tokenize suffix) : quotedAfter false raw = false := by
  apply closed_of_tokens
  intro token mem
  apply (tokenize_whole text).2 token
  rw [apart, List.dropLast_append_of_ne_nil further]
  exact List.mem_append_left _ mem

theorem appended_ne {raw : String} {suffix : List Char} (further : tokenize suffix ≠ []) :
    String.ofList (trim raw.toList ++ [' '] ++ suffix) ≠ raw := by
  intro same
  have seen : visible suffix ≠ 0 := by
    intro none
    exact further (tokenize_blank (trim_eq_nil.mpr none))
  have text := congrArg String.toList same
  rw [String.toList_ofList] at text
  have counts := congrArg visible text
  rw [visible_append, visible_append, visible_trim] at counts
  omega

def plainWord (word : List Char) : Bool := !word.isEmpty && word.all isAsciiLower

theorem plainWord_iff {word : List Char} :
    plainWord word = true ↔ word ≠ [] ∧ ∀ c ∈ word, isAsciiLower c = true := by
  simp [plainWord]

theorem unbroken_plain {word : List Char} (lower : ∀ c ∈ word, isAsciiLower c = true) :
    unbroken false word = true ∧ quotedAfter false word = false := by
  induction word with
  | nil => exact ⟨rfl, rfl⟩
  | cons c word ih =>
    have first := lower c List.mem_cons_self
    have quote : c ≠ '"' := by
      rintro rfl
      cases first
    have shown := isWhitespace_letter (Or.inl first)
    have later := ih (fun d mem => lower d (List.mem_cons_of_mem c mem))
    constructor
    · rw [unbroken, if_neg quote, shown, later.1]
      rfl
    · rw [quotedAfter, List.foldl_cons, if_neg quote]
      exact later.2

theorem partOf_plain {word : List Char} (plain : plainWord word = true) :
    (partOf word).1 = .free := by
  obtain ⟨nonempty, lower⟩ := plainWord_iff.mp plain
  have colon : ':' ∉ word.map toAsciiLower := by
    intro mem
    obtain ⟨c, here, equal⟩ := List.mem_map.mp mem
    rw [toAsciiLower_eq_iff (by decide) (by decide)] at equal
    rw [equal] at here
    exact absurd (lower ':' here) (by decide)
  cases operated : operatorOf word with
  | some operator =>
    rw [operatorOf_some operated] at colon
    simp at colon
  | none =>
    rw [partOf_term operated, termPart]
    cases word with
    | nil => exact absurd rfl nonempty
    | cons c word =>
      have first := lower c List.mem_cons_self
      have minus : c ≠ '-' := by
        rintro rfl
        cases first
      have quote : c ≠ '"' := by
        rintro rfl
        cases first
      simp [minus, quote]

theorem tokenize_plain {words : List (List Char)} (plain : words.all plainWord = true) :
    tokenize (join [' '] words) = words := by
  have each : ∀ word ∈ words, word ≠ [] ∧ ∀ c ∈ word, isAsciiLower c = true :=
    fun word mem => plainWord_iff.mp (List.all_eq_true.mp plain word mem)
  apply tokenize_terms
  · intro word mem
    exact ⟨(each word mem).1, (unbroken_plain (each word mem).2).1⟩
  · intro word mem
    exact (unbroken_plain (each word (List.mem_of_mem_dropLast mem)).2).2

/-! The suffixes of the kinds of gaps. -/

def GapType.suffix (query : Query) : GapType → String
  | .primarySource => "official primary source"
  | .recency => "recent verified update"
  | .geographicDiversity => "regional source " ++ query.region.getD ""
  | .documentation => "official documentation"
  | .pdf => "filetype:pdf"
  | .code => "source code repository"
  | .specification => "official specification standard"
  | .sourceDiversity => "independent source"

theorem regional_suffix (query : Query) :
    (GapType.suffix query .geographicDiversity).toList =
      "regional source ".toList ++ (query.region.getD "").toList := String.toList_append

/-- A regional gap is one of a query with a region, in upper-case letters as it is parsed. -/
def Suits (query : Query) (kind : GapType) : Prop :=
  kind = .geographicDiversity → ∃ region, query.region = some region ∧
    region.toList ≠ [] ∧ ∀ c ∈ region.toList, isAsciiUpper c = true

theorem rawQuery_of_parsed {raw : String} {query : ParsedQuery}
    (parsed : parseQuery raw = .ok query) : query.rawQuery = raw := by
  rw [(parseQuery_ok parsed).2, parseTokens_rawQuery]

theorem suits_of_parsed {raw : String} {query : ParsedQuery}
    (parsed : parseQuery raw = .ok query) {kind : GapType}
    (regional : kind = .geographicDiversity → query.region.isSome = true) :
    Suits query.toQuery kind := by
  obtain ⟨-, rfl⟩ := parseQuery_ok parsed
  intro same
  obtain ⟨region, known⟩ := Option.isSome_iff_exists.mp (regional same)
  exact ⟨region, known, parseTokens_region known⟩

def GapType.lead : GapType → List Char
  | .primarySource => "official p".toList
  | .recency => "recent ver".toList
  | .geographicDiversity => "regional s".toList
  | .documentation => "official d".toList
  | .pdf => "filetype:p".toList
  | .code => "source cod".toList
  | .specification => "official s".toList
  | .sourceDiversity => "independen".toList

theorem lead_injective {kind other : GapType} (same : kind.lead = other.lead) : kind = other := by
  cases kind <;> cases other <;> first | rfl | exact absurd same (by decide)

section

variable [UnicodeTables]

/-- `str::to_lowercase` changes ASCII text like `to_ascii_lowercase` does. -/
def AsciiLowercase : Prop :=
  ∀ text : List Char, text.all (fun c => decide (c.toNat < 128)) = true →
    strToLowercase text = text.map toAsciiLower

def appended (query : Query) (kind : GapType) : List Char :=
  strToLowercase (kind.suffix query).toList

variable (lower : AsciiLowercase) {query : Query} {kind : GapType} (suits : Suits query kind)

include lower suits

theorem appended_eq : appended query kind = (kind.suffix query).toList.map toAsciiLower := by
  apply lower
  cases kind with
  | geographicDiversity =>
    obtain ⟨region, known, -, upper⟩ := suits rfl
    rw [regional_suffix, known, Option.getD_some, List.all_append, Bool.and_eq_true]
    refine ⟨by decide, List.all_eq_true.mpr fun c mem => ?_⟩
    exact decide_eq_true (isAsciiUpper_lt (upper c mem))
  | _ =>
    unfold GapType.suffix
    dsimp only
    rfl

theorem appended_words (other : kind ≠ .pdf) :
    ∃ words, words ≠ [] ∧ words.all plainWord = true ∧
      appended query kind = join [' '] words := by
  rw [appended_eq lower suits]
  cases kind with
  | geographicDiversity =>
    obtain ⟨region, known, nonempty, upper⟩ := suits rfl
    have plain : plainWord (region.toList.map toAsciiLower) = true := by
      refine plainWord_iff.mpr ⟨by simpa using nonempty, fun c mem => ?_⟩
      obtain ⟨d, here, rfl⟩ := List.mem_map.mp mem
      exact isAsciiLower_toAsciiLower (upper d here)
    refine ⟨["regional".toList, "source".toList, region.toList.map toAsciiLower],
      List.cons_ne_nil _ _, ?_, ?_⟩
    · rw [List.all_cons, List.all_cons, List.all_cons, plain]
      rfl
    · rw [regional_suffix, known, Option.getD_some, List.map_append]
      rfl
  | primarySource =>
    unfold GapType.suffix
    dsimp only
    exact ⟨["official".toList, "primary".toList, "source".toList], List.cons_ne_nil _ _, rfl, rfl⟩
  | recency =>
    unfold GapType.suffix
    dsimp only
    exact ⟨["recent".toList, "verified".toList, "update".toList], List.cons_ne_nil _ _, rfl, rfl⟩
  | documentation =>
    unfold GapType.suffix
    dsimp only
    exact ⟨["official".toList, "documentation".toList], List.cons_ne_nil _ _, rfl, rfl⟩
  | code =>
    unfold GapType.suffix
    dsimp only
    exact ⟨["source".toList, "code".toList, "repository".toList], List.cons_ne_nil _ _, rfl, rfl⟩
  | specification =>
    unfold GapType.suffix
    dsimp only
    exact ⟨["official".toList, "specification".toList, "standard".toList], List.cons_ne_nil _ _,
      rfl, rfl⟩
  | sourceDiversity =>
    unfold GapType.suffix
    dsimp only
    exact ⟨["independent".toList, "source".toList], List.cons_ne_nil _ _, rfl, rfl⟩
  | pdf => exact absurd rfl other

theorem appended_tokens :
    tokenize (appended query kind) ≠ [] ∧ ∀ token ∈ tokenize (appended query kind),
      (partOf token).1 = .free ∨ (partOf token).1 = .fileType := by
  by_cases pdf : kind = .pdf
  · have text : appended query kind = "filetype:pdf".toList := by
      rw [appended_eq lower suits, pdf]
      unfold GapType.suffix
      dsimp only
      rfl
    have one : tokenize "filetype:pdf".toList = ["filetype:pdf".toList] := by decide
    rw [text, one]
    refine ⟨List.cons_ne_nil _ _, fun token mem => Or.inr ?_⟩
    rw [List.mem_singleton.mp mem]
    decide
  · obtain ⟨words, nonempty, plain, text⟩ := appended_words lower suits pdf
    rw [text, tokenize_plain plain]
    exact ⟨nonempty, fun token mem => Or.inl (partOf_plain (List.all_eq_true.mp plain token mem))⟩

theorem take_appended : (appended query kind).take 10 = kind.lead := by
  rw [appended_eq lower suits, ← List.map_take]
  cases kind with
  | geographicDiversity =>
    rw [regional_suffix, List.take_append_of_le_length (by decide)]
    rfl
  | _ =>
    unfold GapType.suffix
    dsimp only
    rfl

omit suits in
theorem appended_injective {other : GapType} (suits : Suits query kind)
    (suited : Suits query other) (same : appended query kind = appended query other) :
    kind = other := by
  apply lead_injective
  rw [← take_appended lower suits, ← take_appended lower suited, same]

end

/-! The gaps that the analyzer makes. -/

theorem mem_observe {observed : Bool} {found gap : Gap} (mem : gap ∈ observe observed found) :
    gap = found := by
  unfold observe at mem
  split at mem
  · exact List.mem_singleton.mp mem
  · cases mem

theorem observe_kinds (observed : Bool) (found : Gap) :
    ((observe observed found).map (fun gap => gap.gapType)).Sublist [found.gapType] := by
  unfold observe
  split
  · exact List.Sublist.refl _
  · exact List.nil_sublist _

section

variable [UnicodeTables]

def recommendation (query : Query) (kind : GapType) : String :=
  if alreadyAsked query (appended query kind) then query.rawQuery
  else String.ofList (trim query.rawQuery.toList ++ [' '] ++ appended query kind)

/-- A gap that recommends what its kind appends. -/
structure MadeFor (query : Query) (gap : Gap) : Prop where
  recommended : gap.recommendedQuery = some (recommendation query gap.gapType)
  regional : gap.gapType = .geographicDiversity → query.region.isSome = true

variable {Url : Type} [UrlCrate Url]

theorem madeFor_of_mem {analyzer : GapAnalyzer} {query : Query} {plan : PlanClassification}
    {documents : List (Document Url)} {evidence : List DatedEvidence} {gap : Gap}
    (mem : gap ∈ (analyzer.analyze query plan documents evidence).gaps) : MadeFor query gap := by
  unfold GapAnalyzer.analyze at mem
  simp only [List.mem_append] at mem
  rcases mem with ((((((mem | mem) | mem) | mem) | mem) | mem) | mem) | mem
  · rw [mem_observe mem]
    exact ⟨rfl, nofun⟩
  · rw [mem_observe mem]
    exact ⟨rfl, nofun⟩
  · cases known : query.region with
    | none =>
      rw [known] at mem
      cases mem
    | some region =>
      rw [known] at mem
      rw [mem_observe mem]
      refine ⟨?_, fun _ => known ▸ rfl⟩
      unfold recommendation appended GapType.suffix
      rw [known]
      rfl
  · rw [mem_observe mem]
    exact ⟨rfl, nofun⟩
  · rw [mem_observe mem]
    exact ⟨rfl, nofun⟩
  · rw [mem_observe mem]
    exact ⟨rfl, nofun⟩
  · rw [mem_observe mem]
    exact ⟨rfl, nofun⟩
  · rw [mem_observe mem]
    exact ⟨rfl, nofun⟩

theorem analyze_kinds (analyzer : GapAnalyzer) (query : Query) (plan : PlanClassification)
    (documents : List (Document Url)) (evidence : List DatedEvidence) :
    ((analyzer.analyze query plan documents evidence).gaps.map (fun gap => gap.gapType)).Nodup := by
  have all : [GapType.primarySource, .recency, .geographicDiversity, .documentation, .pdf, .code,
      .specification, .sourceDiversity].Nodup := by decide
  refine List.Nodup.sublist ?_ all
  unfold GapAnalyzer.analyze
  simp only [List.map_append]
  have absent : (List.map (fun gap : Gap => gap.gapType) []).Sublist
      [GapType.geographicDiversity] := List.nil_sublist _
  cases query.region with
  | none =>
    exact (((((((observe_kinds _ _).append (observe_kinds _ _)).append absent).append
      (observe_kinds _ _)).append (observe_kinds _ _)).append (observe_kinds _ _)).append
        (observe_kinds _ _)).append (observe_kinds _ _)
  | some region =>
    exact (((((((observe_kinds _ _).append (observe_kinds _ _)).append (observe_kinds _ _)).append
      (observe_kinds _ _)).append (observe_kinds _ _)).append (observe_kinds _ _)).append
        (observe_kinds _ _)).append (observe_kinds _ _)

omit [UnicodeTables] in
theorem mem_proposals {analyzer : GapAnalyzer} {analysis : GapAnalysis} {gap : Gap}
    (mem : gap ∈ analyzer.proposals analysis) : gap ∈ analysis.gaps := by
  unfold GapAnalyzer.proposals at mem
  split at mem
  · cases mem
  · have sorted := List.mem_of_mem_take mem
    exact List.mem_of_mem_filter (StableSort.mem_sortBy.mp sorted)

omit [UnicodeTables] in
theorem proposals_kinds {analyzer : GapAnalyzer} {analysis : GapAnalysis}
    (once : (analysis.gaps.map (fun gap => gap.gapType)).Nodup) :
    ((analyzer.proposals analysis).map (fun gap => gap.gapType)).Nodup := by
  unfold GapAnalyzer.proposals
  split
  · exact List.nodup_nil
  · refine List.Nodup.sublist ((List.take_sublist _ _).map _) ?_
    refine (((StableSort.sortBy_perm _ _).map _).nodup_iff).mpr ?_
    exact once.sublist (List.filter_sublist.map _)

/-- The recommended queries refine the query, each in its own way. -/
structure RefinedBy (query : Query) (proposed : List Gap) : Prop where
  distinct : (proposed.map (fun gap => gap.recommendedQuery)).Nodup
  different : ∀ gap ∈ proposed, gap.recommendedQuery ≠ some query.rawQuery
  refined : ∀ gap ∈ proposed, ∃ recommended, gap.recommendedQuery = some recommended ∧
    Refines query (appended query gap.gapType) recommended

variable {raw : String} {query : ParsedQuery} (parsed : parseQuery raw = .ok query)
  (lower : AsciiLowercase)

include parsed lower

/-- A recommended query refines the query exactly where the suffix is not there yet and stands
behind closed quotes. -/
theorem recommendation_refines_iff {kind : GapType} (suits : Suits query.toQuery kind) :
    (recommendation query.toQuery kind ≠ raw ∧
        Refines query.toQuery (appended query.toQuery kind) (recommendation query.toQuery kind)) ↔
      alreadyAsked query.toQuery (appended query.toQuery kind) = false ∧
        quotedAfter false raw.toList = false := by
  have typed := rawQuery_of_parsed parsed
  obtain ⟨further, plain⟩ := appended_tokens lower suits
  cases asked : alreadyAsked query.toQuery (appended query.toQuery kind) with
  | true =>
    have same : recommendation query.toQuery kind = raw := by
      rw [recommendation, if_pos asked, typed]
    exact ⟨fun h => absurd same h.1, fun h => Bool.noConfusion h.1⟩
  | false =>
    have text : recommendation query.toQuery kind =
        String.ofList (trim raw.toList ++ [' '] ++ appended query.toQuery kind) := by
      rw [recommendation, if_neg (by simp [asked]), typed]
    rw [text]
    constructor
    · rintro ⟨-, refines⟩
      have apart := refines.tokens
      rw [typed] at apart
      exact ⟨rfl, closed_of_further further apart⟩
    · rintro ⟨-, closed⟩
      refine ⟨appended_ne further, refines_of_tokens parsed further plain ?_⟩
      rw [String.toList_ofList, tokenize_appended closed]

theorem nodup_fresh {proposed : List Gap} (made : ∀ gap ∈ proposed, MadeFor query.toQuery gap)
    (kinds : (proposed.map (fun gap => gap.gapType)).Nodup)
    (fresh : ∀ gap ∈ proposed,
      alreadyAsked query.toQuery (appended query.toQuery gap.gapType) = false) :
    (proposed.map (fun gap => gap.recommendedQuery)).Nodup := by
  have texts : proposed.map (fun gap => gap.recommendedQuery) =
      (proposed.map (fun gap => gap.gapType)).map (fun kind =>
        some (String.ofList (trim query.rawQuery.toList ++ [' '] ++ appended query.toQuery kind))) := by
    rw [List.map_map]
    apply List.map_congr_left
    intro gap mem
    rw [(made gap mem).recommended, recommendation, if_neg (by simp [fresh gap mem])]
    rfl
  rw [texts]
  refine List.Nodup.map_on ?_ kinds
  intro kind here other there same
  have suits : ∀ kind ∈ proposed.map (fun gap => gap.gapType), Suits query.toQuery kind := by
    intro kind mem
    obtain ⟨gap, inside, rfl⟩ := List.mem_map.mp mem
    exact suits_of_parsed parsed (made gap inside).regional
  have lists := congrArg String.toList (Option.some.inj same)
  rw [String.toList_ofList, String.toList_ofList] at lists
  exact appended_injective lower (suits kind here) (suits other there)
    (List.append_cancel_left lists)

/-- The recommended queries refine the query exactly where none of the suffixes is there yet and the
query closes its quotes. -/
theorem refinedBy_iff {proposed : List Gap} (made : ∀ gap ∈ proposed, MadeFor query.toQuery gap)
    (kinds : (proposed.map (fun gap => gap.gapType)).Nodup) :
    RefinedBy query.toQuery proposed ↔ ∀ gap ∈ proposed,
      alreadyAsked query.toQuery (appended query.toQuery gap.gapType) = false ∧
        quotedAfter false raw.toList = false := by
  have each : ∀ gap ∈ proposed, _ := fun gap mem =>
    recommendation_refines_iff parsed lower (suits_of_parsed parsed (made gap mem).regional)
  have typed := rawQuery_of_parsed parsed
  constructor
  · rintro ⟨-, different, refined⟩ gap mem
    obtain ⟨recommended, text, refines⟩ := refined gap mem
    have other := different gap mem
    rw [(made gap mem).recommended] at text other
    cases text
    rw [typed] at other
    exact (each gap mem).mp ⟨fun same => other (congrArg some same), refines⟩
  · intro holds
    refine ⟨nodup_fresh parsed lower made kinds (fun gap mem => (holds gap mem).1), ?_, ?_⟩
    · intro gap mem same
      rw [(made gap mem).recommended, typed] at same
      exact ((each gap mem).mpr (holds gap mem)).1 (Option.some.inj same)
    · intro gap mem
      exact ⟨_, (made gap mem).recommended, ((each gap mem).mpr (holds gap mem)).2⟩

/-- Where the query says a suffix already, it is recommended as it is. The other recommended queries
differ from it and from one another, and they refine it where it closes its quotes. -/
theorem proposals_refine (analyzer : GapAnalyzer) (plan : PlanClassification)
    (documents : List (Document Url)) (evidence : List DatedEvidence) :
    let proposed := analyzer.proposals (analyzer.analyze query.toQuery plan documents evidence)
    let asked := fun gap : Gap =>
      alreadyAsked query.toQuery (appended query.toQuery gap.gapType)
    let fresh := proposed.filter (fun gap => !asked gap)
    (∀ gap ∈ proposed, asked gap = true → gap.recommendedQuery = some raw) ∧
      (fresh.map (fun gap => gap.recommendedQuery)).Nodup ∧
      (∀ gap ∈ fresh, gap.recommendedQuery ≠ some raw) ∧
      (quotedAfter false raw.toList = false → ∀ gap ∈ fresh, ∃ recommended,
        gap.recommendedQuery = some recommended ∧
          Refines query.toQuery (appended query.toQuery gap.gapType) recommended) := by
  intro proposed asked fresh
  have typed := rawQuery_of_parsed parsed
  have made : ∀ gap ∈ proposed, MadeFor query.toQuery gap :=
    fun gap mem => madeFor_of_mem (mem_proposals mem)
  have kinds : (proposed.map (fun gap => gap.gapType)).Nodup :=
    proposals_kinds (analyze_kinds analyzer query.toQuery plan documents evidence)
  have of_fresh : ∀ gap ∈ fresh, gap ∈ proposed ∧ asked gap = false := by
    intro gap mem
    exact ⟨List.mem_of_mem_filter mem, by simpa using List.of_mem_filter mem⟩
  have freshMade : ∀ gap ∈ fresh, MadeFor query.toQuery gap :=
    fun gap mem => made gap (of_fresh gap mem).1
  have freshKinds : (fresh.map (fun gap => gap.gapType)).Nodup :=
    kinds.sublist (List.filter_sublist.map _)
  refine ⟨?_, nodup_fresh parsed lower freshMade freshKinds (fun gap mem => (of_fresh gap mem).2),
    ?_, ?_⟩
  · intro gap mem said
    rw [(made gap mem).recommended, recommendation, if_pos said, typed]
  · intro gap mem same
    have suits := suits_of_parsed parsed (freshMade gap mem).regional
    have unsaid := (of_fresh gap mem).2
    rw [(freshMade gap mem).recommended, recommendation, if_neg (by simpa [asked] using unsaid),
      typed] at same
    exact appended_ne (appended_tokens lower suits).1 (Option.some.inj same)
  · intro closed
    have holds := (refinedBy_iff parsed lower freshMade freshKinds).mpr
      (fun gap mem => ⟨(of_fresh gap mem).2, closed⟩)
    exact holds.refined

end

def defaultGapAnalyzer : GapAnalyzer := ⟨.default, by decide +kernel⟩

theorem asciiTables_lowercase :
    letI := asciiTables
    AsciiLowercase := by
  intro text _
  rfl

theorem proposals_refine_region :
    letI := asciiTables
    let query := (parseTokens "rust docs region:de").toQuery
    let proposed := defaultGapAnalyzer.proposals (defaultGapAnalyzer.analyze query
      ⟨.general, .finite (1 / 2)⟩ ([] : List (Document PlainUrl)) [])
    let asked := fun gap : Gap => alreadyAsked query (appended query gap.gapType)
    let fresh := proposed.filter (fun gap => !asked gap)
    (∀ gap ∈ proposed, asked gap = true → gap.recommendedQuery = some "rust docs region:de") ∧
      (fresh.map (fun gap => gap.recommendedQuery)).Nodup ∧
      (∀ gap ∈ fresh, gap.recommendedQuery ≠ some "rust docs region:de") ∧
      (quotedAfter false "rust docs region:de".toList = false → ∀ gap ∈ fresh, ∃ recommended,
        gap.recommendedQuery = some recommended ∧
          Refines query (appended query gap.gapType) recommended) := by
  let _ := asciiTables
  have parsed : parseQuery "rust docs region:de" = .ok (parseTokens "rust docs region:de") := rfl
  exact proposals_refine parsed asciiTables_lowercase defaultGapAnalyzer _ _ _

/-- A query that says what two gaps would add: both recommend the query itself. -/
theorem codeQuery_repeated :
    letI := asciiTables
    ¬∀ (raw : String) (query : ParsedQuery), parseQuery raw = .ok query →
      ∀ (analyzer : GapAnalyzer) (plan : PlanClassification) (documents : List (Document PlainUrl))
        (evidence : List DatedEvidence), RefinedBy query.toQuery
          (analyzer.proposals (analyzer.analyze query.toQuery plan documents evidence)) := by
  let _ := asciiTables
  intro refined
  have repeated : (defaultGapAnalyzer.proposals (defaultGapAnalyzer.analyze
      (parseTokens "source code repository filetype:pdf").toQuery ⟨.general, .finite (1 / 2)⟩
        ([] : List (Document PlainUrl)) [])).map (fun gap => gap.recommendedQuery) =
      [some "source code repository filetype:pdf", some "source code repository filetype:pdf"] := by
    decide +kernel
  have distinct := (refined "source code repository filetype:pdf" _ rfl defaultGapAnalyzer
    ⟨.general, .finite (1 / 2)⟩ [] []).distinct
  rw [repeated] at distinct
  exact absurd distinct (by decide)

end Amatl
