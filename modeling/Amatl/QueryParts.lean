import Amatl.QueryTokens

/-! What a token contributes to the parts of a query, and which tokens contribute a part. A part,
written as a term, is that part again. -/

namespace Amatl

open Text

def quotedTerm (term : String) : List Char := '"' :: (term.toList ++ ['"'])

/-- The parts of a query that a token belongs to. -/
structure Contribution where
  free : List String := []
  quoted : List String := []
  excluded : List String := []
  domains : List String := []
  excludedDomains : List String := []
  fileTypes : List String := []
  deriving DecidableEq

def operatorOf (token : List Char) : Option QueryOperator :=
  QueryOperator.ofName
    (String.ofList (((splitOnce [':'] (token.map toAsciiLower)).map Prod.fst).getD []))

def valueOf (token : List Char) : List Char := ((splitOnce [':'] token).map Prod.snd).getD []

def filterContribution (operator : QueryOperator) (value : List Char) : Contribution :=
  match operator with
  | .site => { domains := [asciiLowercase (String.ofList value)] }
  | .excludedSite => { excludedDomains := [asciiLowercase (String.ofList value)] }
  | .filetype =>
    { fileTypes := [asciiLowercase (String.ofList (value.dropWhile (· == '.')))] }
  | .exact => { quoted := [String.ofList (trimQuotes value)] }
  | _ => {}

def termContribution (token : List Char) : Contribution :=
  if token.head? = some '-' && 1 < utf8Length token then { excluded := [String.ofList token.tail] }
  else if token.head? = some '"' && token.getLast? = some '"' && 2 < utf8Length token then
    { quoted := [String.ofList (trimQuotes token)] }
  else { free := [String.ofList token] }

def contribution (token : List Char) : Contribution :=
  match operatorOf token with
  | some operator =>
    if operator.valid (valueOf token) then filterContribution operator (valueOf token)
    else { free := [String.ofList token] }
  | none => termContribution token

/-- The parser has taken in the parts. -/
structure Collects (p q : QueryParser) (parts : Contribution) : Prop where
  free : q.free = p.free ++ parts.free
  quoted : q.query.quotedTerms = p.query.quotedTerms ++ parts.quoted
  excluded : q.query.excludedTerms = p.query.excludedTerms ++ parts.excluded
  domains : q.query.domains = parts.domains.foldl pushUnique p.query.domains
  excludedDomains : q.query.excludedDomains =
    parts.excludedDomains.foldl pushUnique p.query.excludedDomains
  fileTypes : q.query.fileTypes = parts.fileTypes.foldl pushUnique p.query.fileTypes

theorem collects_token (p : QueryParser) (token : List Char) :
    Collects p (p.token token) (contribution token) := by
  unfold QueryParser.token contribution
  change Collects p (match operatorOf token with
    | some operator => if operator.valid (valueOf token) then p.filter operator (valueOf token)
      else p.literal operator (valueOf token) token
    | none => p.term token) _
  cases operatorOf token with
  | some operator =>
    dsimp only
    by_cases valid : operator.valid (valueOf token) = true
    · rw [if_pos valid, if_pos valid]
      cases operator <;>
        constructor <;> simp [QueryParser.filter, filterContribution]
    · rw [if_neg valid, if_neg valid]
      constructor <;> simp [QueryParser.literal]
  | none =>
    dsimp only
    unfold QueryParser.term termContribution
    dsimp only
    split
    · constructor <;> simp
    · split <;> constructor <;> simp

def Contribution.all (tokens : List (List Char)) : Contribution where
  free := tokens.flatMap (fun token => (contribution token).free)
  quoted := tokens.flatMap (fun token => (contribution token).quoted)
  excluded := tokens.flatMap (fun token => (contribution token).excluded)
  domains := tokens.flatMap (fun token => (contribution token).domains)
  excludedDomains := tokens.flatMap (fun token => (contribution token).excludedDomains)
  fileTypes := tokens.flatMap (fun token => (contribution token).fileTypes)

theorem collects_tokens (p : QueryParser) (tokens : List (List Char)) :
    Collects p (tokens.foldl QueryParser.token p) (Contribution.all tokens) := by
  induction tokens generalizing p with
  | nil => constructor <;> simp [Contribution.all]
  | cons token tokens ih =>
    have first := collects_token p token
    have later := ih (p.token token)
    constructor
    · simp [Contribution.all, later.free, first.free]
    · simp [Contribution.all, later.quoted, first.quoted]
    · simp [Contribution.all, later.excluded, first.excluded]
    · simp [Contribution.all, later.domains, first.domains]
    · simp [Contribution.all, later.excludedDomains, first.excludedDomains]
    · simp [Contribution.all, later.fileTypes, first.fileTypes]

def uniques (values : List String) : List String := values.foldl pushUnique []

/-- The parts of a query as functions of its tokens. -/
theorem parseTokens_parts (raw : String) :
    let parts := Contribution.all (tokenize raw.toList)
    let query := parseTokens raw
    query.normalizedQuery = String.ofList (join [' '] (parts.free.map String.toList)) ∧
      query.quotedTerms = parts.quoted ∧ query.excludedTerms = parts.excluded ∧
      query.domains = (uniques parts.domains).filter
        (fun domain => !(uniques parts.excludedDomains).contains domain) ∧
      query.excludedDomains = uniques parts.excludedDomains ∧
      query.fileTypes = uniques parts.fileTypes := by
  intro parts query
  obtain ⟨q, read⟩ : ∃ q, (tokenize raw.toList).foldl QueryParser.token
      ⟨⟨⟨raw, "", [], [], [], [], [], none, none, none, none⟩, []⟩, []⟩ = q := ⟨_, rfl⟩
  have collected := collects_tokens
    ⟨⟨⟨raw, "", [], [], [], [], [], none, none, none, none⟩, []⟩, []⟩ (tokenize raw.toList)
  rw [read] at collected
  have finished : query = q.finish := by
    rw [← read]
    rfl
  obtain ⟨free, quoted, excluded, domains, excludedDomains, fileTypes⟩ := collected
  have kept : ∀ p : ParsedQuery, p.dropEmptyRange.quotedTerms = p.quotedTerms ∧
      p.dropEmptyRange.excludedTerms = p.excludedTerms ∧ p.dropEmptyRange.domains = p.domains ∧
      p.dropEmptyRange.excludedDomains = p.excludedDomains ∧
      p.dropEmptyRange.fileTypes = p.fileTypes := by
    intro p
    unfold ParsedQuery.dropEmptyRange
    split <;> simp
  obtain ⟨kq, ke, kd, kx, kf⟩ := kept q.query.dropExcluded
  simp only [List.nil_append] at free quoted excluded
  rw [finished]
  refine ⟨?_, kq.trans quoted, ke.trans excluded, kd.trans ?_, kx.trans excludedDomains,
    kf.trans fileTypes⟩
  · change String.ofList (join [' '] (List.map String.toList _)) = _
    rw [free]
  · change List.filter _ _ = _
    rw [domains, excludedDomains]
    rfl

theorem splitOnce_lower (token : List Char) :
    splitOnce [':'] (token.map toAsciiLower) =
      (splitOnce [':'] token).map (fun pair => (pair.1.map toAsciiLower, pair.2.map toAsciiLower)) := by
  have colon : ∀ c, toAsciiLower c = ':' ↔ c = ':' :=
    fun c => toAsciiLower_eq_iff (by decide) (by decide)
  cases found : splitOnce [':'] token with
  | some pair =>
    obtain ⟨htoken, absent⟩ := splitOnce_char found
    have absent' : ':' ∉ pair.1.map toAsciiLower := by
      intro mem
      obtain ⟨c, hc, equal⟩ := List.mem_map.mp mem
      rw [(colon c).mp equal] at hc
      exact absent hc
    have split := splitOnce_append absent' (pair.2.map toAsciiLower)
    rw [htoken, List.map_append, List.map_cons, (colon ':').mpr rfl, split]
    rfl
  | none =>
    have missing : ':' ∉ token := by
      intro mem
      obtain ⟨front, rest, htoken⟩ := List.append_of_mem mem
      exact splitOnce_none found front rest (by rw [htoken]; simp)
    cases lower : splitOnce [':'] (token.map toAsciiLower) with
    | none => rfl
    | some pair =>
      obtain ⟨htoken, -⟩ := splitOnce_char lower
      have mem : ':' ∈ token.map toAsciiLower := by
        rw [htoken]
        simp
      obtain ⟨c, hc, equal⟩ := List.mem_map.mp mem
      rw [(colon c).mp equal] at hc
      exact absurd hc missing

theorem ofName_some {name : String} {operator : QueryOperator}
    (h : QueryOperator.ofName name = some operator) : operator.name = name := by
  have found := List.find?_some h
  simpa using found

theorem operatorOf_some {token : List Char} {operator : QueryOperator}
    (h : operatorOf token = some operator) :
    token.map toAsciiLower =
      operator.name.toList ++ ':' :: (valueOf token).map toAsciiLower := by
  have name := ofName_some h
  unfold operatorOf at h
  unfold valueOf
  rw [splitOnce_lower] at h name
  cases found : splitOnce [':'] token with
  | none =>
    rw [found] at h
    cases operator <;> exact absurd h (by decide)
  | some pair =>
    rw [found] at name
    obtain ⟨htoken, -⟩ := splitOnce_char found
    have operator' := congrArg String.toList name
    rw [String.toList_ofList] at operator'
    rw [operator']
    conv_lhs => rw [htoken]
    simp only [List.map_append, List.map_cons, Option.map_some, Option.getD_some]
    rfl

theorem operatorOf_name (operator : QueryOperator) (value : List Char) :
    operatorOf (operator.name.toList ++ ':' :: value) = some operator ∧
      valueOf (operator.name.toList ++ ':' :: value) = value := by
  have absent : ':' ∉ operator.name.toList := by cases operator <;> decide
  have split := splitOnce_append absent value
  have lower : operator.name.toList.map toAsciiLower = operator.name.toList := by
    cases operator <;> decide
  constructor
  · unfold operatorOf
    rw [splitOnce_lower, split]
    simp only [Option.map_some, Option.getD_some, lower, String.ofList_toList]
    cases operator <;> decide
  · rw [valueOf, split]
    rfl

/-! Each part of a query, written as a term, is that part again. -/

theorem contribution_filter {operator : QueryOperator} {value : List Char}
    (valid : operator.valid value = true) :
    contribution (operator.name.toList ++ ':' :: value) = filterContribution operator value := by
  obtain ⟨named, hvalue⟩ := operatorOf_name operator value
  rw [contribution, named, hvalue]
  exact if_pos valid

theorem contribution_cases (token : List Char) :
    (∃ operator, operatorOf token = some operator ∧ operator.valid (valueOf token) = true ∧
        contribution token = filterContribution operator (valueOf token)) ∨
      contribution token = { free := [String.ofList token] } ∨
      (∃ term, token = '-' :: term ∧ contribution token = { excluded := [String.ofList term] }) ∨
      ∃ middle, token = '"' :: (middle ++ ['"']) ∧
        contribution token = { quoted := [String.ofList (trimQuotes token)] } := by
  unfold contribution
  cases found : operatorOf token with
  | some operator =>
    dsimp only
    by_cases valid : operator.valid (valueOf token) = true
    · exact Or.inl ⟨operator, rfl, valid, if_pos valid⟩
    · exact Or.inr (Or.inl (if_neg valid))
  | none =>
    dsimp only
    unfold termContribution
    by_cases minus : (token.head? = some '-' && 1 < utf8Length token) = true
    · rw [if_pos minus]
      rw [Bool.and_eq_true, decide_eq_true_eq] at minus
      obtain ⟨term, rfl⟩ := List.head?_eq_some_iff.mp minus.1
      exact Or.inr (Or.inr (Or.inl ⟨term, rfl, rfl⟩))
    · rw [if_neg minus]
      split
      · rename_i wrapped
        simp only [Bool.and_eq_true, decide_eq_true_eq] at wrapped
        obtain ⟨⟨first, last⟩, long⟩ := wrapped
        obtain ⟨rest, rfl⟩ := List.head?_eq_some_iff.mp first
        cases rest with
        | nil => exact absurd long (by decide)
        | cons c rest =>
          rw [List.getLast?_cons_cons] at last
          obtain ⟨middle, hmiddle⟩ := List.getLast?_eq_some_iff.mp last
          exact Or.inr (Or.inr (Or.inr ⟨middle, by rw [hmiddle], rfl⟩))
      · exact Or.inr (Or.inl rfl)

theorem contribution_free {token : List Char} {term : String}
    (mem : term ∈ (contribution token).free) :
    term = String.ofList token ∧ contribution token = { free := [term] } := by
  rcases contribution_cases token with ⟨operator, -, -, filter⟩ | free | ⟨rest, -, excluded⟩ |
      ⟨middle, -, quoted⟩
  · rw [filter] at mem
    cases operator <;> simp [filterContribution] at mem
  · rw [free] at mem ⊢
    have equal : term = String.ofList token := by simpa using mem
    exact ⟨equal, by rw [equal]⟩
  · rw [excluded] at mem
    simp at mem
  · rw [quoted] at mem
    simp at mem

theorem contribution_excluded {token : List Char} {term : String}
    (mem : term ∈ (contribution token).excluded) :
    token = '-' :: term.toList ∧ contribution token = { excluded := [term] } := by
  rcases contribution_cases token with ⟨operator, -, -, filter⟩ | free | ⟨rest, htoken, excluded⟩ |
      ⟨middle, -, quoted⟩
  · rw [filter] at mem
    cases operator <;> simp [filterContribution] at mem
  · rw [free] at mem
    simp at mem
  · rw [excluded] at mem
    have equal : term = String.ofList rest := by simpa using mem
    rw [equal, String.toList_ofList]
    exact ⟨htoken, excluded⟩
  · rw [quoted] at mem
    simp at mem

theorem contribution_quoted {token : List Char} {term : String}
    (mem : term ∈ (contribution token).quoted) : ∃ text, term = String.ofList (trimQuotes text) := by
  rcases contribution_cases token with ⟨operator, -, -, filter⟩ | free | ⟨rest, -, excluded⟩ |
      ⟨middle, -, quoted⟩
  · rw [filter] at mem
    cases operator with
    | exact => exact ⟨valueOf token, by simpa [filterContribution] using mem⟩
    | _ => simp [filterContribution] at mem
  · rw [free] at mem
    simp at mem
  · rw [excluded] at mem
    simp at mem
  · rw [quoted] at mem
    exact ⟨token, by simpa using mem⟩

theorem contribution_of_filter {token : List Char}
    (h : (contribution token).domains ≠ [] ∨ (contribution token).excludedDomains ≠ [] ∨
      (contribution token).fileTypes ≠ []) :
    ∃ operator, operatorOf token = some operator ∧ operator.valid (valueOf token) = true ∧
      contribution token = filterContribution operator (valueOf token) := by
  rcases contribution_cases token with filter | free | ⟨rest, -, excluded⟩ |
      ⟨middle, -, quoted⟩
  · exact filter
  · rw [free] at h
    simp at h
  · rw [excluded] at h
    simp at h
  · rw [quoted] at h
    simp at h

theorem contribution_domain {token : List Char} {domain : String}
    (mem : domain ∈ (contribution token).domains) :
    token.map toAsciiLower = ("site:" ++ domain).toList ∧
      ∃ value, validDomain value = true ∧ domain = asciiLowercase (String.ofList value) := by
  obtain ⟨operator, found, valid, filter⟩ :=
    contribution_of_filter (Or.inl (List.ne_nil_of_mem mem))
  rw [filter] at mem
  cases operator with
  | site =>
    have equal : domain = asciiLowercase (String.ofList (valueOf token)) := by
      simpa [filterContribution] using mem
    refine ⟨?_, valueOf token, valid, equal⟩
    rw [operatorOf_some found, equal]
    simp [asciiLowercase, QueryOperator.name]
  | _ => simp [filterContribution] at mem

theorem contribution_excludedDomain {token : List Char} {domain : String}
    (mem : domain ∈ (contribution token).excludedDomains) :
    token.map toAsciiLower = ("-site:" ++ domain).toList ∧
      ∃ value, validDomain value = true ∧ domain = asciiLowercase (String.ofList value) := by
  obtain ⟨operator, found, valid, filter⟩ :=
    contribution_of_filter (Or.inr (Or.inl (List.ne_nil_of_mem mem)))
  rw [filter] at mem
  cases operator with
  | excludedSite =>
    have equal : domain = asciiLowercase (String.ofList (valueOf token)) := by
      simpa [filterContribution] using mem
    refine ⟨?_, valueOf token, valid, equal⟩
    rw [operatorOf_some found, equal]
    simp [asciiLowercase, QueryOperator.name]
  | _ => simp [filterContribution] at mem

theorem contribution_fileType {token : List Char} {kind : String}
    (mem : kind ∈ (contribution token).fileTypes) :
    ∃ value, validFileType value = true ∧
      kind = asciiLowercase (String.ofList (value.dropWhile (· == '.'))) := by
  obtain ⟨operator, -, valid, filter⟩ :=
    contribution_of_filter (Or.inr (Or.inr (List.ne_nil_of_mem mem)))
  rw [filter] at mem
  cases operator with
  | filetype => exact ⟨valueOf token, valid, by simpa [filterContribution] using mem⟩
  | _ => simp [filterContribution] at mem

theorem asciiLowercase_lower (value : List Char) :
    (asciiLowercase (String.ofList value)).toList = value.map toAsciiLower := by
  simp [asciiLowercase]

theorem asciiLowercase_idem (text : String) :
    asciiLowercase (asciiLowercase text) = asciiLowercase text := by
  simp [asciiLowercase, Function.comp_def, toAsciiLower_idem]

theorem validDomain_lower {value : List Char} (h : validDomain value = true) :
    validDomain (value.map toAsciiLower) = true := by
  have same : ∀ {c d : Char}, isAsciiLower d = false → isAsciiUpper d = false →
      (toAsciiLower c == d) = (c == d) := by
    intro c d lower upper
    rw [Bool.eq_iff_iff, beq_iff_eq, beq_iff_eq]
    exact toAsciiLower_eq_iff lower upper
  have dot : '.' ∈ value.map toAsciiLower ↔ '.' ∈ value := by
    rw [List.mem_map]
    constructor
    · rintro ⟨c, mem, equal⟩
      rwa [(toAsciiLower_eq_iff (by decide) (by decide)).mp equal] at mem
    · intro mem
      exact ⟨'.', mem, by decide⟩
  simp only [validDomain, List.isEmpty_map, List.any_map, List.contains_eq_mem, dot,
    Function.comp_def, same (d := '/') (by decide) (by decide),
    same (d := ':') (by decide) (by decide)] at h ⊢
  exact h

theorem contribution_site {value : List Char} (h : validDomain value = true) :
    contribution ("site:" ++ asciiLowercase (String.ofList value)).toList =
      { domains := [asciiLowercase (String.ofList value)] } := by
  have valid : QueryOperator.site.valid (value.map toAsciiLower) = true := validDomain_lower h
  have written := contribution_filter valid
  rw [String.toList_append, asciiLowercase_lower]
  refine written.trans ?_
  rw [filterContribution, ← asciiLowercase_lower, String.ofList_toList, asciiLowercase_idem]

theorem contribution_excludedSite {value : List Char} (h : validDomain value = true) :
    contribution ("-site:" ++ asciiLowercase (String.ofList value)).toList =
      { excludedDomains := [asciiLowercase (String.ofList value)] } := by
  have valid : QueryOperator.excludedSite.valid (value.map toAsciiLower) = true :=
    validDomain_lower h
  have written := contribution_filter valid
  rw [String.toList_append, asciiLowercase_lower]
  refine written.trans ?_
  rw [filterContribution, ← asciiLowercase_lower, String.ofList_toList, asciiLowercase_idem]

theorem alphanumeric_lower {c : Char} (h : (isAsciiAlphabetic c || isAsciiDigit c) = true) :
    (isAsciiAlphabetic (toAsciiLower c) || isAsciiDigit (toAsciiLower c)) = true ∧
      (toAsciiLower c).utf8Size = c.utf8Size ∧ toAsciiLower c ≠ '.' ∧ toAsciiLower c ≠ '"' ∧
      isWhitespace (toAsciiLower c) = false := by
  have small : c.toNat < 128 := by
    simp only [isAsciiAlphabetic, isAsciiLower, isAsciiUpper, isAsciiDigit, Bool.or_eq_true,
      Bool.and_eq_true, decide_eq_true_eq] at h
    omega
  exact forall_ascii (P := fun c => (isAsciiAlphabetic c || isAsciiDigit c) = true →
    (isAsciiAlphabetic (toAsciiLower c) || isAsciiDigit (toAsciiLower c)) = true ∧
      (toAsciiLower c).utf8Size = c.utf8Size ∧ toAsciiLower c ≠ '.' ∧ toAsciiLower c ≠ '"' ∧
      isWhitespace (toAsciiLower c) = false) (by decide +kernel) small h

theorem fileType_kept {value : List Char} (h : validFileType value = true) :
    let kind := (value.dropWhile (· == '.')).map toAsciiLower
    validFileType kind = true ∧ kind.dropWhile (· == '.') = kind ∧
      unbroken false kind = true ∧ quotedAfter false kind = false := by
  intro kind
  simp only [validFileType, Bool.and_eq_true, Bool.not_eq_true', List.isEmpty_eq_false_iff,
    decide_eq_true_eq, List.all_eq_true] at h
  obtain ⟨⟨nonempty, short⟩, letters⟩ := h
  have lower : ∀ c ∈ kind, (isAsciiAlphabetic c || isAsciiDigit c) = true ∧ c ≠ '.' ∧ c ≠ '"' ∧
      isWhitespace c = false := by
    intro c mem
    obtain ⟨d, hd, rfl⟩ := List.mem_map.mp mem
    obtain ⟨letter, -, dot, quote, white⟩ := alphanumeric_lower (letters d hd)
    exact ⟨letter, dot, quote, white⟩
  have length : utf8Length kind = utf8Length (value.dropWhile (· == '.')) := by
    simp only [kind, utf8Length, List.map_map]
    congr 1
    apply List.map_congr_left
    intro c mem
    exact (alphanumeric_lower (letters c mem)).2.1
  have undotted : kind.dropWhile (· == '.') = kind := by
    cases hkind : kind with
    | nil => rfl
    | cons c rest =>
      have dot := (lower c (by rw [hkind]; exact List.mem_cons_self)).2.1
      rw [List.dropWhile_cons_of_neg (by simpa using dot)]
  have plain : ∀ text : List Char, (∀ c ∈ text, c ≠ '"' ∧ isWhitespace c = false) →
      unbroken false text = true ∧ quotedAfter false text = false := by
    intro text
    induction text with
    | nil => exact fun _ => ⟨rfl, rfl⟩
    | cons c text ih =>
      intro all
      obtain ⟨quote, white⟩ := all c List.mem_cons_self
      obtain ⟨together, closed⟩ := ih (fun d mem => all d (List.mem_cons_of_mem c mem))
      constructor
      · simp [unbroken, quote, white, together]
      · rw [quotedAfter, List.foldl_cons, if_neg quote]
        exact closed
  refine ⟨?_, undotted, plain kind (fun c mem => (lower c mem).2.2)⟩
  simp only [validFileType, undotted, Bool.and_eq_true, Bool.not_eq_true',
    List.isEmpty_eq_false_iff, decide_eq_true_eq, List.all_eq_true]
  exact ⟨⟨by simpa [kind] using nonempty, by omega⟩, fun c mem => (lower c mem).1⟩

theorem contribution_filetype {value : List Char} (h : validFileType value = true) :
    contribution ("filetype:" ++
        asciiLowercase (String.ofList (value.dropWhile (· == '.')))).toList =
      { fileTypes := [asciiLowercase (String.ofList (value.dropWhile (· == '.')))] } := by
  obtain ⟨valid, undotted, -⟩ := fileType_kept h
  have written := contribution_filter (show QueryOperator.filetype.valid _ = true from valid)
  rw [String.toList_append, asciiLowercase_lower]
  refine written.trans ?_
  rw [filterContribution, undotted, ← asciiLowercase_lower, String.ofList_toList,
    asciiLowercase_idem]

theorem trimQuotes_wrapped {text : List Char} (nonempty : trimQuotes text ≠ []) :
    trimQuotes ('"' :: (trimQuotes text ++ ['"'])) = trimQuotes text := by
  generalize hterm : trimQuotes text = term at nonempty ⊢
  have first : term.head? ≠ some '"' := by
    intro head
    obtain ⟨rest, hrest⟩ := List.head?_eq_some_iff.mp head
    obtain ⟨tail, htail⟩ := trimEndBy_head (· == '"') (text.dropWhile (· == '"'))
    have leads := List.head?_dropWhile_not (· == '"') text
    change trimEndBy _ _ = term at hterm
    rw [← htail, hterm, hrest] at leads
    simp at leads
  have last : term.getLast? ≠ some '"' := by
    intro final
    rw [← hterm] at final
    have stays := trimEndBy_last final
    simp at stays
  obtain ⟨c, rest, rfl⟩ := List.exists_cons_of_ne_nil nonempty
  have quote : c ≠ '"' := by simpa using first
  have opened : ('"' :: (c :: rest ++ ['"'])).dropWhile (· == '"') = c :: rest ++ ['"'] := by
    rw [List.dropWhile_cons_of_pos (by simp), List.cons_append,
      List.dropWhile_cons_of_neg (by simpa using quote)]
  rw [trimQuotes, opened, trimEndBy_append (by simp), trimEndBy]
  obtain ⟨d, front, hfront⟩ := List.exists_cons_of_ne_nil (show (c :: rest).reverse ≠ [] by simp)
  have ends : d ≠ '"' := by
    rintro rfl
    apply last
    rw [← List.head?_reverse, hfront]
    rfl
  rw [hfront, List.dropWhile_cons_of_neg (by simpa using ends), ← hfront, List.reverse_reverse]

theorem contribution_quotedTerm {text : List Char} (nonempty : trimQuotes text ≠ []) :
    contribution (quotedTerm (String.ofList (trimQuotes text))) =
      { quoted := [String.ofList (trimQuotes text)] } := by
  have plain : operatorOf ('"' :: (trimQuotes text ++ ['"'])) = none := by
    cases found : operatorOf ('"' :: (trimQuotes text ++ ['"'])) with
    | none => rfl
    | some operator =>
      have head := congrArg List.head? (operatorOf_some found)
      cases operator <;> injection head with first <;> exact absurd first (by decide)
  have long : 2 < utf8Length ('"' :: (trimQuotes text ++ ['"'])) := by
    obtain ⟨c, rest, hterm⟩ := List.exists_cons_of_ne_nil nonempty
    have size := Char.utf8Size_pos c
    have quote : ('"' : Char).utf8Size = 1 := by decide
    simp only [hterm, utf8Length, List.map_cons, List.map_append, List.sum_cons, List.sum_append,
      List.cons_append, quote, List.map_nil, List.sum_nil]
    omega
  have minus : ¬((('"' :: (trimQuotes text ++ ['"'])).head? = some '-' &&
      1 < utf8Length ('"' :: (trimQuotes text ++ ['"']))) = true) := by simp
  have wrapped : ((('"' :: (trimQuotes text ++ ['"'])).head? = some '"' &&
      ('"' :: (trimQuotes text ++ ['"'])).getLast? = some '"' &&
      2 < utf8Length ('"' :: (trimQuotes text ++ ['"']))) = true) := by
    have last : ('"' :: (trimQuotes text ++ ['"'])).getLast? = some '"' := by
      simp [List.getLast?_cons]
    simp only [List.head?_cons, last, long, decide_true, Bool.and_self]
  rw [quotedTerm, String.toList_ofList, contribution, plain]
  dsimp only
  rw [termContribution, if_neg minus, if_pos wrapped, trimQuotes_wrapped nonempty]

theorem mem_foldl_pushUnique {values known : List String} {value : String} :
    value ∈ values.foldl pushUnique known ↔ value ∈ known ∨ value ∈ values := by
  induction values generalizing known with
  | nil => simp
  | cons first values ih =>
    rw [List.foldl_cons, ih, pushUnique]
    by_cases old : known.contains first = true
    · rw [if_pos old, List.mem_cons]
      constructor
      · rintro (there | later)
        · exact Or.inl there
        · exact Or.inr (Or.inr later)
      · rintro (there | rfl | later)
        · exact Or.inl there
        · exact Or.inl (by simpa using old)
        · exact Or.inr later
    · rw [if_neg old, List.mem_append, List.mem_singleton, List.mem_cons, or_assoc]

theorem nodup_foldl_pushUnique {values known : List String} (h : known.Nodup) :
    (values.foldl pushUnique known).Nodup := by
  induction values generalizing known with
  | nil => exact h
  | cons first values ih =>
    rw [List.foldl_cons]
    apply ih
    rw [pushUnique]
    by_cases old : known.contains first = true
    · rw [if_pos old]
      exact h
    · rw [if_neg old]
      have new : first ∉ known := by simpa using old
      exact List.nodup_append.mpr ⟨h, by simp, by
        intro a there b single
        rw [List.mem_singleton.mp single]
        rintro rfl
        exact new there⟩

theorem foldl_pushUnique_eq {values known : List String} (h : (known ++ values).Nodup) :
    values.foldl pushUnique known = known ++ values := by
  induction values generalizing known with
  | nil => simp
  | cons first values ih =>
    have new : first ∉ known := fun mem =>
      (List.nodup_append.mp h).2.2 first mem first List.mem_cons_self rfl
    rw [List.foldl_cons, pushUnique, if_neg (by simpa using new), ih (by simpa using h),
      List.append_assoc]
    rfl

theorem uniques_eq {values : List String} (h : values.Nodup) : uniques values = values :=
  foldl_pushUnique_eq h

theorem uniques_nodup (values : List String) : (uniques values).Nodup :=
  nodup_foldl_pushUnique List.nodup_nil

theorem mem_uniques {values : List String} {value : String} :
    value ∈ uniques values ↔ value ∈ values := by
  rw [uniques, mem_foldl_pushUnique]
  simp

theorem mem_all {tokens : List (List Char)} {part : Contribution → List String} {term : String}
    (mem : term ∈ tokens.flatMap (fun token => part (contribution token))) :
    ∃ token ∈ tokens, term ∈ part (contribution token) :=
  List.mem_flatMap.mp mem

theorem free_eq_filter (tokens : List (List Char)) :
    (Contribution.all tokens).free.map String.toList =
      tokens.filter (fun token => !(contribution token).free.isEmpty) := by
  unfold Contribution.all
  dsimp only
  induction tokens with
  | nil => rfl
  | cons token tokens ih =>
    rw [List.flatMap_cons, List.map_append, ih]
    cases free : (contribution token).free with
    | nil => rw [List.filter_cons_of_neg (by simp [free])]; rfl
    | cons term rest =>
      obtain ⟨equal, whole⟩ := contribution_free (show term ∈ (contribution token).free by simp [free])
      rw [whole] at free
      cases free
      rw [List.filter_cons_of_pos (by simp [whole]), equal]
      simp

/-- How much the quoted terms weigh: each its length, and one for being there. -/
def quotedWeight (terms : List String) : Nat := (terms.map (fun term => term.length + 1)).sum

theorem trimEndBy_length (p : Char → Bool) (text : List Char) :
    (trimEndBy p text).length ≤ text.length := by
  rw [trimEndBy, List.length_reverse]
  have shorter := (List.dropWhile_sublist p (l := text.reverse)).length_le
  rwa [List.length_reverse] at shorter

theorem trimQuotes_wrapped_length (middle : List Char) :
    (trimQuotes ('"' :: (middle ++ ['"']))).length ≤ middle.length := by
  have front := (List.dropWhile_sublist (· == '"') (l := middle)).length_le
  rw [trimQuotes, List.dropWhile_cons_of_pos (by simp), List.dropWhile_append]
  by_cases empty : (middle.dropWhile (· == '"')).isEmpty = true
  · rw [if_pos empty]
    simp [trimEndBy]
  · rw [if_neg empty, trimEndBy_append (by simp)]
    have back := trimEndBy_length (· == '"') (middle.dropWhile (· == '"'))
    omega

theorem trimQuotes_length (text : List Char) : (trimQuotes text).length ≤ text.length := by
  have front := (List.dropWhile_sublist (· == '"') (l := text)).length_le
  have back := trimEndBy_length (· == '"') (text.dropWhile (· == '"'))
  unfold trimQuotes
  omega

theorem quotedWeight_contribution {token : List Char} (nonempty : token ≠ []) :
    quotedWeight (contribution token).quoted + 1 ≤ token.length := by
  have positive : 1 ≤ token.length := List.length_pos_iff.mpr nonempty
  rcases contribution_cases token with ⟨operator, named, -, filter⟩ | free |
    ⟨rest, -, excluded⟩ | ⟨middle, wrapped, quoted⟩
  · rw [filter]
    cases operator with
    | exact =>
      have length := congrArg List.length (operatorOf_some named)
      have shorter := trimQuotes_length (valueOf token)
      simp only [List.length_map, List.length_append, List.length_cons] at length
      have name : QueryOperator.exact.name.toList.length = 5 := by decide
      simp only [filterContribution, quotedWeight, List.map_cons, List.map_nil, List.sum_cons,
        List.sum_nil, String.length_ofList]
      omega
    | _ => simpa [filterContribution, quotedWeight] using positive
  · rw [free]
    simpa [quotedWeight] using positive
  · rw [excluded]
    simpa [quotedWeight] using positive
  · have shorter := trimQuotes_wrapped_length middle
    rw [quoted, wrapped]
    simp only [quotedWeight, List.map_cons, List.map_nil, List.sum_cons, List.sum_nil,
      String.length_ofList, List.length_cons, List.length_append, List.length_nil]
    omega

theorem quotedWeight_flatMap {tokens : List (List Char)} (nonempty : ∀ token ∈ tokens, token ≠ []) :
    quotedWeight (tokens.flatMap (fun token => (contribution token).quoted)) + tokens.length ≤
      (tokens.map List.length).sum := by
  induction tokens with
  | nil => simp [quotedWeight]
  | cons token tokens ih =>
    have first := quotedWeight_contribution (nonempty token List.mem_cons_self)
    have later := ih (fun t mem => nonempty t (List.mem_cons_of_mem token mem))
    simp only [quotedWeight, List.flatMap_cons, List.map_append, List.sum_append, List.map_cons,
      List.sum_cons, List.length_cons] at first later ⊢
    omega

theorem parseQuery_ok {raw : String} {query : ParsedQuery} (parsed : parseQuery raw = .ok query) :
    trim raw.toList ≠ [] ∧ query = parseTokens raw := by
  unfold parseQuery at parsed
  split at parsed
  · cases parsed
  · rename_i nonempty
    cases parsed
    exact ⟨by simpa using nonempty, rfl⟩

theorem token_rawQuery (p : QueryParser) (token : List Char) :
    (p.token token).query.rawQuery = p.query.rawQuery := by
  unfold QueryParser.token
  dsimp only
  split
  · rename_i operator _
    split
    · cases operator <;> rfl
    · rfl
  · unfold QueryParser.term
    dsimp only
    split_ifs <;> rfl

theorem parseTokens_rawQuery (raw : String) : (parseTokens raw).rawQuery = raw := by
  have folded : ∀ (tokens : List (List Char)) (p : QueryParser),
      (tokens.foldl QueryParser.token p).query.rawQuery = p.query.rawQuery := by
    intro tokens
    induction tokens with
    | nil => exact fun _ => rfl
    | cons token tokens ih =>
      intro p
      rw [List.foldl_cons, ih, token_rawQuery]
  have finished : ∀ p : QueryParser, p.finish.rawQuery = p.query.rawQuery := by
    intro p
    change p.query.dropExcluded.dropEmptyRange.rawQuery = _
    unfold ParsedQuery.dropEmptyRange
    split <;> rfl
  exact (finished _).trans (folded _ _)

end Amatl
