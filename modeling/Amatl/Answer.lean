import Amatl.Model
import Mathlib.Data.List.DropRight
import Mathlib.Tactic.Tauto

/-! The answer step: the sources that a model may cite, what it wrote, and the citations that
are read from its text and kept in it. -/

namespace Amatl

open Text

inductive AnswerError where
  | backendUnavailable | invalidEndpoint | requestFailed | responseInvalid | ungrounded | noSources
  deriving DecidableEq, Repr

def AnswerError.text : AnswerError → String
  | .backendUnavailable =>
    "answer synthesis backend is not configured or its credential is missing"
  | .invalidEndpoint => "answer synthesis endpoint is invalid"
  | .requestFailed => "answer synthesis request failed"
  | .responseInvalid => "answer synthesis response did not match the expected contract"
  | .ungrounded =>
    "answer synthesis response cited no source; treated as ungrounded, not returned"
  | .noSources => "no sources were available to ground an answer"

structure AnswerSource where
  index : UInt64
  title : Option String
  url : String
  snippet : String
  deriving DecidableEq

/-- The citations are a list of `usize` values. -/
structure Answer where
  text : List Char
  citations : List Nat
  sources : List AnswerSource
  model : String
  deriving DecidableEq

/-- A chat model: what it writes for a system and a user prompt. -/
structure CompletionBackend where
  complete : String → String → Except AnswerError (List Char)
  model : String

def bounded (text : String) (maxChars : Nat) : String := String.ofList (text.toList.take maxChars)

def buildSources {Url : Type} [UrlCrate Url] (results : List (SearchResult Url))
    (maxSources maxSourceChars : Nat) : List AnswerSource :=
  ((results.take maxSources).zipIdx 1).map (fun (result, index) =>
    { index := UInt64.ofNat index
      title := result.title
      url := UrlCrate.asStr result.canonicalUrl
      snippet := bounded (result.snippet.getD "") maxSourceChars })

def systemPrompt : String :=
  "You answer strictly from the numbered sources you are given. " ++
  "Every sentence that states a fact must end with the citation of the source " ++
  "it came from, like [2]. If the sources do not contain the answer, say " ++
  "plainly that AMATL's search did not find it — never fill the gap from your " ++
  "own knowledge. Keep the answer short. Always write the answer in clear, " ++
  "grammatically correct Spanish (español), regardless of the language of the " ++
  "query or the sources — translate facts faithfully, do not just switch " ++
  "vocabulary. Do not pad the answer with generic filler sentences that add no " ++
  "fact of their own."

def buildUserPrompt (query : String) (sources : List AnswerSource) : String :=
  sources.foldl (fun prompt source =>
    prompt ++ "[" ++ toString source.index ++ "] " ++ source.title.getD "(untitled)" ++ " — " ++
      source.url ++ "\n" ++ source.snippet ++ "\n\n")
    ("Question: " ++ query ++ "\n\nSources:\n")

def validIndices (sources : List AnswerSource) : List Nat := sources.map (·.index.toNat)

/-- `str::parse` of a `usize`. -/
def parseUsize (candidate : List Char) : Option Nat := parseUnsigned 10 (2 ^ 64) candidate

def closing (c : Char) (text : List Char) : Option (List Char × List Char) :=
  if c = '[' then splitOnce [']'] text else none

/-- A citation is listed when it names a source that is not listed yet. -/
def cite (valid citations : List Nat) (candidate : List Char) : List Nat :=
  match parseUsize candidate with
  | some value =>
    if valid.contains value && !citations.contains value then citations ++ [value] else citations
  | none => citations

/-- The loop of `extract_citations`; `skip` characters belong to a marker that is read. -/
def extractFrom (valid : List Nat) : Nat → List Nat → List Char → List Nat
  | _, citations, [] => citations
  | skip + 1, citations, _ :: text => extractFrom valid skip citations text
  | 0, citations, c :: text =>
    match closing c text with
    | some (candidate, _) =>
      extractFrom valid (candidate.length + 1) (cite valid citations candidate) text
    | none => extractFrom valid 0 citations text

def extractCitations (text : List Char) (sources : List AnswerSource) : List Nat :=
  extractFrom (validIndices sources) 0 [] text

def keeps (valid : List Nat) (candidate : List Char) : Bool :=
  match parseUsize candidate with
  | some value => valid.contains value
  | none => true

def stripFrom (valid : List Nat) : Nat → List Char → List Char
  | _, [] => []
  | skip + 1, _ :: text => stripFrom valid skip text
  | 0, c :: text =>
    match closing c text with
    | some (candidate, _) =>
      (if keeps valid candidate then '[' :: (candidate ++ [']']) else []) ++
        stripFrom valid (candidate.length + 1) text
    | none => c :: stripFrom valid 0 text

def stripInvalidCitations (text : List Char) (valid : List Nat) : List Char :=
  stripFrom valid 0 text

def synthesize (backend : CompletionBackend) (query : String) (sources : List AnswerSource) :
    Except AnswerError Answer :=
  if sources.isEmpty then .error .noSources
  else do
    let rawText ← backend.complete systemPrompt (buildUserPrompt query sources)
    let citations := extractCitations rawText sources
    if citations.isEmpty then .error .ungrounded
    else return {
      text := stripInvalidCitations rawText (validIndices sources)
      citations
      sources
      model := backend.model }

/-- The number that a text of decimal digits writes. -/
def numeral (digits : List Char) : Option Nat := digitsValue 10 digits none

def markerAt : List Char → Option Nat
  | [] => none
  | c :: text => (closing c text).bind (fun marker => numeral marker.1)

def markers (text : List Char) : List Nat := text.tails.filterMap markerAt

/-- No marker names a source that is not there, and the citations are the sources that the
markers name, in the order of their first mention. -/
structure Traceable (answer : Answer) : Prop where
  real : ∀ n ∈ markers answer.text, n ∈ validIndices answer.sources
  listed : answer.citations =
    ((markers answer.text).filter (validIndices answer.sources).contains).eraseDups

/-- The texts between brackets as the two loops find them. -/
def bracketedFrom : Nat → List Char → List (List Char)
  | _, [] => []
  | skip + 1, _ :: text => bracketedFrom skip text
  | 0, c :: text =>
    match closing c text with
    | some (candidate, _) => candidate :: bracketedFrom (candidate.length + 1) text
    | none => bracketedFrom 0 text

def bracketed (text : List Char) : List (List Char) := bracketedFrom 0 text

/-- What a reader of brackets sees: the number behind the last opening one. -/
def shownNumber (candidate : List Char) : Option Nat :=
  numeral (candidate.rtakeWhile (· != '['))

/-- The sources that the brackets name under a reading, in the order of first mention. -/
def mentions (reading : List Char → Option Nat) (valid : List Nat) (text : List Char) : List Nat :=
  (((bracketed text).filterMap reading).filter valid.contains).eraseDups

/-- Every number that brackets show is that of a source or fills them as a `usize`, and the
shown numbers mention the sources in the order in which the parsed ones do. -/
def plainlyCited (text : List Char) (sources : List AnswerSource) : Bool :=
  (bracketed text).all (fun candidate =>
    match shownNumber candidate with
    | some n => (validIndices sources).contains n || (parseUsize candidate).isSome
    | none => true) &&
  mentions shownNumber (validIndices sources) text == mentions parseUsize (validIndices sources) text

/-- How a text falls into brackets and characters outside them. -/
inductive Scanned : List Char → List (List Char) → Prop
  | nil : Scanned [] []
  | plain {c : Char} {text : List Char} {bodies : List (List Char)}
    (stray : c ≠ '[' ∨ ']' ∉ text) (rest : Scanned text bodies) : Scanned (c :: text) bodies
  | group {body text : List Char} {bodies : List (List Char)}
    (closed : ']' ∉ body) (rest : Scanned text bodies) :
    Scanned ('[' :: (body ++ ']' :: text)) (body :: bodies)

theorem closing_some {c : Char} {text body after : List Char}
    (h : closing c text = some (body, after)) :
    c = '[' ∧ text = body ++ ']' :: after ∧ ']' ∉ body := by
  unfold closing at h
  by_cases bracket : c = '['
  · rw [if_pos bracket] at h
    exact ⟨bracket, splitOnce_char h⟩
  · rw [if_neg bracket] at h
    cases h

theorem closing_plain {c : Char} {text : List Char} (stray : c ≠ '[' ∨ ']' ∉ text) :
    closing c text = none := by
  cases found : closing c text with
  | none => rfl
  | some pair =>
    obtain ⟨bracket, htext, -⟩ := closing_some found
    rcases stray with other | absent
    · exact absurd bracket other
    · exact absurd (by simp [htext]) absent

theorem closing_none {c : Char} {text : List Char} (h : closing c text = none) :
    c ≠ '[' ∨ ']' ∉ text := by
  by_cases bracket : c = '['
  · right
    intro mem
    obtain ⟨front, after, htext⟩ := List.append_of_mem mem
    rw [closing, if_pos bracket] at h
    exact splitOnce_none h front after (by rw [htext]; simp)
  · exact Or.inl bracket

theorem closing_group {body : List Char} (closed : ']' ∉ body) (text : List Char) :
    closing '[' (body ++ ']' :: text) = some (body, text) := by
  rw [closing, if_pos rfl, splitOnce_append closed]

theorem bracketedFrom_skip (skip : Nat) (text : List Char) :
    bracketedFrom skip text = bracketedFrom 0 (text.drop skip) := by
  induction text generalizing skip with
  | nil => cases skip <;> rfl
  | cons c text ih =>
    cases skip with
    | zero => rfl
    | succ skip => exact ih skip

theorem extractFrom_skip (valid : List Nat) (skip : Nat) (citations : List Nat)
    (text : List Char) :
    extractFrom valid skip citations text = extractFrom valid 0 citations (text.drop skip) := by
  induction text generalizing skip with
  | nil => cases skip <;> rfl
  | cons c text ih =>
    cases skip with
    | zero => rfl
    | succ skip => exact ih skip

theorem stripFrom_skip (valid : List Nat) (skip : Nat) (text : List Char) :
    stripFrom valid skip text = stripFrom valid 0 (text.drop skip) := by
  induction text generalizing skip with
  | nil => cases skip <;> rfl
  | cons c text ih =>
    cases skip with
    | zero => rfl
    | succ skip => exact ih skip

theorem scanned_bracketed (text : List Char) : Scanned text (bracketed text) := by
  induction hlength : text.length using Nat.strong_induction_on generalizing text with
  | h length ih =>
    cases text with
    | nil => exact .nil
    | cons c text =>
      rw [bracketed, bracketedFrom]
      rw [List.length_cons] at hlength
      cases found : closing c text with
      | none => exact .plain (closing_none found) (ih _ (by omega) text rfl)
      | some pair =>
        obtain ⟨body, after⟩ := pair
        obtain ⟨rfl, rfl, closed⟩ := closing_some found
        have rest : bracketedFrom (body.length + 1) (body ++ ']' :: after) = bracketed after := by
          rw [bracketedFrom_skip, List.drop_length_add_append]
          rfl
        rw [List.length_append, List.length_cons] at hlength
        dsimp only
        rw [rest]
        exact .group closed (ih _ (by omega) after rfl)

theorem extractFrom_scanned {valid : List Nat} {text : List Char} {bodies : List (List Char)}
    (h : Scanned text bodies) (citations : List Nat) :
    extractFrom valid 0 citations text = bodies.foldl (cite valid) citations := by
  induction h generalizing citations with
  | nil => rfl
  | plain stray rest ih => rw [extractFrom, closing_plain stray, ih]
  | group closed rest ih =>
    rw [extractFrom, closing_group closed]
    dsimp only
    rw [extractFrom_skip, List.drop_length_add_append, List.foldl_cons]
    exact ih _

theorem stripFrom_group {valid : List Nat} {body : List Char} (closed : ']' ∉ body)
    (text : List Char) :
    stripFrom valid 0 ('[' :: (body ++ ']' :: text)) =
      (if keeps valid body then '[' :: (body ++ [']']) else []) ++ stripFrom valid 0 text := by
  rw [stripFrom, closing_group closed]
  dsimp only
  rw [stripFrom_skip, List.drop_length_add_append]
  rfl

theorem mem_of_mem_stripFrom {valid : List Nat} {text : List Char} {bodies : List (List Char)}
    (h : Scanned text bodies) {c : Char} (mem : c ∈ stripFrom valid 0 text) : c ∈ text := by
  induction h with
  | nil => cases mem
  | plain stray rest ih =>
    rw [stripFrom, closing_plain stray] at mem
    rcases List.mem_cons.mp mem with rfl | later
    · exact List.mem_cons_self
    · exact List.mem_cons_of_mem _ (ih later)
  | @group body text bodies closed rest ih =>
    rw [stripFrom_group closed] at mem
    rcases List.mem_append.mp mem with marker | later
    · by_cases kept : keeps valid body = true
      · rw [if_pos kept] at marker
        simp only [List.mem_cons, List.mem_append, List.not_mem_nil, or_false] at marker ⊢
        tauto
      · rw [if_neg kept] at marker
        cases marker
    · have inside := ih later
      simp [inside]

theorem markers_cons (c : Char) (text : List Char) :
    markers (c :: text) = (markerAt (c :: text)).toList ++ markers text := by
  rw [markers, List.tails_cons, List.filterMap_cons]
  cases markerAt (c :: text) <;> rfl

theorem markers_plain {c : Char} {text : List Char} (stray : c ≠ '[' ∨ ']' ∉ text) :
    markers (c :: text) = markers text := by
  rw [markers_cons, markerAt, closing_plain stray]
  rfl

theorem digitsValue_none {c : Char} (hc : digitValue 10 c = none) {digits : List Char}
    (mem : c ∈ digits) (value : Option Nat) : digitsValue 10 digits value = none := by
  induction digits generalizing value with
  | nil => cases mem
  | cons d digits ih =>
    rw [digitsValue]
    cases hd : digitValue 10 d with
    | none => rfl
    | some v =>
      rcases List.mem_cons.mp mem with rfl | later
      · rw [hc] at hd
        cases hd
      · exact ih later _

theorem numeral_bracket {digits : List Char} (mem : '[' ∈ digits) : numeral digits = none :=
  digitsValue_none (by decide) mem none

theorem shownNumber_plain {body : List Char} (single : '[' ∉ body) :
    shownNumber body = numeral body := by
  have whole : body.rtakeWhile (· != '[') = body := by
    rw [List.rtakeWhile_eq_self_iff]
    intro c mem
    have different : c ≠ '[' := by
      rintro rfl
      exact single mem
    simpa using different
  rw [shownNumber, whole]

theorem shownNumber_cons {c : Char} {body : List Char} (h : c = '[' ∨ '[' ∈ body) :
    shownNumber (c :: body) = shownNumber body := by
  have same : (c :: body).rtakeWhile (· != '[') = body.rtakeWhile (· != '[') := by
    unfold List.rtakeWhile
    rw [List.reverse_cons, List.takeWhile_append]
    split
    · next long =>
      have whole : body.reverse.takeWhile (· != '[') = body.reverse :=
        (List.takeWhile_prefix _).eq_of_length long
      have single : '[' ∉ body := by
        intro mem
        have kept := List.takeWhile_eq_self_iff.mp whole '[' (List.mem_reverse.mpr mem)
        simp at kept
      have bracket := h.resolve_right single
      simp [bracket, whole]
    · rfl
  rw [shownNumber, same, shownNumber]

theorem markers_append {body : List Char} (closed : ']' ∉ body) (text : List Char) :
    markers (body ++ ']' :: text) =
      (if '[' ∈ body then (shownNumber body).toList else []) ++ markers text := by
  induction body with
  | nil => simp [markers_plain]
  | cons c body ih =>
    have closed' : ']' ∉ body := fun mem => closed (List.mem_cons_of_mem c mem)
    by_cases bracket : c = '['
    · subst bracket
      rw [List.cons_append, markers_cons, markerAt, closing_group closed', Option.bind_some,
        ih closed', if_pos List.mem_cons_self, shownNumber_cons (Or.inl rfl)]
      by_cases nested : '[' ∈ body
      · rw [if_pos nested, numeral_bracket nested]
        rfl
      · rw [if_neg nested, shownNumber_plain nested]
        rfl
    · rw [List.cons_append, markers_plain (Or.inl bracket), ih closed']
      by_cases nested : '[' ∈ body
      · rw [if_pos nested, if_pos (List.mem_cons_of_mem c nested),
          shownNumber_cons (Or.inr nested)]
      · rw [if_neg nested, if_neg (by simp [nested, Ne.symm bracket])]

theorem markers_group {body : List Char} (closed : ']' ∉ body) (text : List Char) :
    markers ('[' :: (body ++ ']' :: text)) = (shownNumber body).toList ++ markers text := by
  have closed' : ']' ∉ '[' :: body := by simp [closed]
  have whole := markers_append closed' text
  rwa [List.cons_append, if_pos List.mem_cons_self, shownNumber_cons (Or.inl rfl)] at whole

/-- Removing a marker uncovers no other: what is left are the numbers that the remaining
brackets show. -/
theorem markers_stripFrom {valid : List Nat} {text : List Char} {bodies : List (List Char)}
    (h : Scanned text bodies) :
    markers (stripFrom valid 0 text) = (bodies.filter (keeps valid)).filterMap shownNumber := by
  induction h with
  | nil => rfl
  | @plain c text bodies stray rest ih =>
    have stray' : c ≠ '[' ∨ ']' ∉ stripFrom valid 0 text :=
      stray.imp_right (fun absent mem => absent (mem_of_mem_stripFrom rest mem))
    rw [stripFrom, closing_plain stray]
    dsimp only
    rw [markers_plain stray', ih]
  | @group body text bodies closed rest ih =>
    rw [stripFrom_group closed]
    by_cases kept : keeps valid body = true
    · rw [if_pos kept, List.filter_cons_of_pos kept, List.cons_append, List.append_assoc,
        List.singleton_append, markers_group closed, ih, List.filterMap_cons]
      cases shownNumber body <;> rfl
    · rw [if_neg kept, List.filter_cons_of_neg kept, List.nil_append, ih]

theorem shownNumber_of_parseUsize {body : List Char} {n m : Nat} (h : parseUsize body = some n)
    (shown : shownNumber body = some m) : m = n := by
  have numbers : ∀ {digits : List Char} {k : Nat}, numeral digits = some k → '[' ∉ digits :=
    fun read mem => by
      rw [numeral_bracket mem] at read
      cases read
  unfold parseUsize parseUnsigned at h
  obtain ⟨read, -⟩ := Option.filter_eq_some_iff.mp h
  split at read
  · next digits =>
    have single : '[' ∉ '+' :: digits := by simp [numbers read]
    rw [shownNumber_plain single, numeral,
      digitsValue_none (show digitValue 10 '+' = none by decide) List.mem_cons_self] at shown
    cases shown
  · rw [shownNumber_plain (numbers read), numeral, read] at shown
    cases shown
    rfl

theorem foldl_cite (valid : List Nat) (bodies : List (List Char)) (citations : List Nat) :
    bodies.foldl (cite valid) citations =
      citations ++ (((bodies.filterMap parseUsize).filter valid.contains).filter
        (fun value => !citations.contains value)).eraseDups := by
  induction bodies generalizing citations with
  | nil => simp
  | cons body bodies ih =>
    rw [List.foldl_cons, ih, cite, List.filterMap_cons]
    cases read : parseUsize body with
    | none => rfl
    | some value =>
      dsimp only
      cases named : valid.contains value with
      | false =>
        rw [Bool.false_and, if_neg Bool.false_ne_true, List.filter_cons_of_neg (by rw [named]; decide)]
      | true =>
        rw [Bool.true_and, List.filter_cons_of_pos named]
        cases listed : citations.contains value with
        | true =>
          rw [Bool.not_true, if_neg Bool.false_ne_true,
            List.filter_cons_of_neg (by rw [listed]; decide)]
        | false =>
          rw [Bool.not_false, if_pos rfl, List.filter_cons_of_pos (by rw [listed]; rfl),
            List.eraseDups_cons, List.append_assoc, List.singleton_append, List.filter_filter,
            List.filter_filter, List.filter_filter]
          congr 3
          apply List.filter_congr
          intro other _
          simp only [List.contains_append, List.contains_cons, List.contains_nil, Bool.or_false,
            Bool.not_or]
          cases citations.contains other <;> cases other == value <;> rfl

theorem extractCitations_eq (text : List Char) (sources : List AnswerSource) :
    extractCitations text sources = mentions parseUsize (validIndices sources) text := by
  rw [extractCitations, extractFrom_scanned (scanned_bracketed text), foldl_cite, List.nil_append,
    mentions]
  congr 1
  apply List.filter_eq_self.mpr
  intro value _
  rfl

theorem synthesize_ok {backend : CompletionBackend} {query : String}
    {sources : List AnswerSource} {raw : List Char} {answer : Answer}
    (written : backend.complete systemPrompt (buildUserPrompt query sources) = .ok raw)
    (h : synthesize backend query sources = .ok answer) :
    answer.text = stripInvalidCitations raw (validIndices sources) ∧
      answer.citations = extractCitations raw sources ∧ answer.sources = sources := by
  unfold synthesize at h
  by_cases none : sources.isEmpty = true
  · rw [if_pos none] at h
    cases h
  · rw [if_neg none, written] at h
    change (if (extractCitations raw sources).isEmpty then _ else _) = _ at h
    by_cases uncited : (extractCitations raw sources).isEmpty = true
    · rw [if_pos uncited] at h
      cases h
    · rw [if_neg uncited] at h
      cases h
      exact ⟨rfl, rfl, rfl⟩

/-- The brackets that stay show the numbers of sources, unless brackets that are no number for
the loops show one. -/
theorem markers_real_iff (valid : List Nat) (text : List Char) :
    (∀ n ∈ markers (stripInvalidCitations text valid), n ∈ valid) ↔
      ∀ body ∈ bracketed text, ∀ n, shownNumber body = some n →
        n ∈ valid ∨ (parseUsize body).isSome = true := by
  rw [stripInvalidCitations, markers_stripFrom (scanned_bracketed text)]
  constructor
  · intro real body mem n shown
    cases read : parseUsize body with
    | some value => exact Or.inr rfl
    | none =>
      have kept : keeps valid body = true := by rw [keeps, read]
      exact Or.inl (real n (List.mem_filterMap.mpr
        ⟨body, List.mem_filter.mpr ⟨mem, kept⟩, shown⟩))
  · intro plain n mem
    obtain ⟨body, hbody, shown⟩ := List.mem_filterMap.mp mem
    obtain ⟨inside, kept⟩ := List.mem_filter.mp hbody
    rcases plain body inside n shown with named | read
    · exact named
    · obtain ⟨value, hvalue⟩ := Option.isSome_iff_exists.mp read
      rw [shownNumber_of_parseUsize hvalue shown]
      rw [keeps, hvalue] at kept
      simpa using kept

theorem markers_named (valid : List Nat) (text : List Char) :
    ((markers (stripInvalidCitations text valid)).filter valid.contains).eraseDups =
      mentions shownNumber valid text := by
  rw [stripInvalidCitations, markers_stripFrom (scanned_bracketed text), mentions]
  congr 1
  generalize bracketed text = bodies
  induction bodies with
  | nil => rfl
  | cons body bodies ih =>
    cases kept : keeps valid body with
    | true =>
      rw [List.filter_cons_of_pos kept, List.filterMap_cons, List.filterMap_cons]
      cases shownNumber body with
      | none => exact ih
      | some n =>
        dsimp only
        rw [List.filter_cons, List.filter_cons, ih]
    | false =>
      rw [List.filter_cons_of_neg (by rw [kept]; decide), ih, List.filterMap_cons]
      cases shown : shownNumber body with
      | none => rfl
      | some n =>
        -- A marker that is taken out is a number that no source has.
        have dropped : valid.contains n = false := by
          unfold keeps at kept
          cases read : parseUsize body with
          | none =>
            rw [read] at kept
            cases kept
          | some value =>
            rw [read] at kept
            rw [shownNumber_of_parseUsize read shown]
            exact kept
        dsimp only
        rw [List.filter_cons_of_neg (by rw [dropped]; decide)]

/-- A returned answer can be traced to its sources exactly if the text that the model wrote
cites plainly. -/
theorem synthesize_traceable_iff {backend : CompletionBackend} {query : String}
    {sources : List AnswerSource} {raw : List Char} {answer : Answer}
    (written : backend.complete systemPrompt (buildUserPrompt query sources) = .ok raw)
    (h : synthesize backend query sources = .ok answer) :
    Traceable answer ↔ plainlyCited raw sources = true := by
  obtain ⟨text, citations, hsources⟩ := synthesize_ok written h
  have real := markers_real_iff (validIndices sources) raw
  have named := markers_named (validIndices sources) raw
  rw [← text] at real named
  have plain : plainlyCited raw sources = true ↔
      (∀ body ∈ bracketed raw, ∀ n, shownNumber body = some n →
        n ∈ validIndices sources ∨ (parseUsize body).isSome = true) ∧
      mentions shownNumber (validIndices sources) raw =
        mentions parseUsize (validIndices sources) raw := by
    rw [plainlyCited, Bool.and_eq_true, List.all_eq_true, beq_iff_eq]
    apply and_congr_left'
    apply forall₂_congr
    intro body _
    cases shownNumber body with
    | none => simp
    | some n => simp
  rw [plain, ← real, ← named, ← extractCitations_eq, ← citations]
  constructor
  · intro traceable
    have first := traceable.real
    have second := traceable.listed
    rw [hsources] at first second
    exact ⟨first, second.symm⟩
  · rintro ⟨first, second⟩
    exact ⟨by rw [hsources]; exact first, by rw [hsources]; exact second.symm⟩

def fixedBackend (text : String) : CompletionBackend where
  complete _ _ := .ok text.toList
  model := "fixed"

def numberedSource (index : UInt64) : AnswerSource where
  index
  title := none
  url := "https://example.com/"
  snippet := "snippet"

/-- A made-up source is taken out, and the others are listed. -/
theorem madeUp_traceable :
    synthesize (fixedBackend "Fact [2]. Made up [9].") "q" [numberedSource 1, numberedSource 2] =
        .ok ⟨"Fact [2]. Made up .".toList, [2], [numberedSource 1, numberedSource 2], "fixed"⟩ ∧
      Traceable ⟨"Fact [2]. Made up .".toList, [2], [numberedSource 1, numberedSource 2],
        "fixed"⟩ := by
  have run : synthesize (fixedBackend "Fact [2]. Made up [9].") "q"
      [numberedSource 1, numberedSource 2] =
        .ok ⟨"Fact [2]. Made up .".toList, [2], [numberedSource 1, numberedSource 2],
          "fixed"⟩ := by
    decide +kernel
  have written : (fixedBackend "Fact [2]. Made up [9].").complete systemPrompt
      (buildUserPrompt "q" [numberedSource 1, numberedSource 2]) =
        .ok "Fact [2]. Made up [9].".toList := rfl
  exact ⟨run, (synthesize_traceable_iff written run).mpr (by decide +kernel)⟩

/-- Brackets inside brackets hide a made-up source from the loops. -/
theorem nested_madeUp :
    ∃ answer, synthesize (fixedBackend "Fact [1]. Made up [[9]].") "q" [numberedSource 1] =
        .ok answer ∧
      9 ∈ markers answer.text ∧ 9 ∉ validIndices answer.sources := by
  refine ⟨⟨"Fact [1]. Made up [[9]].".toList, [1], [numberedSource 1], "fixed"⟩, ?_⟩
  decide +kernel

end Amatl
