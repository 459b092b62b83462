import Amatl.Lib.Text
import Amatl.Model

/-! Parsing a raw query: the text is cut at white space outside of quotes, and a token
is a filter, an excluded term, a quoted term or free text. -/

namespace Amatl

open Text

structure QueryWarning where
  code : String
  operator : Option String
  value : Option String
  message : String
  deriving DecidableEq, Repr

/-- A query with what the parser has to say about it. -/
structure ParsedQuery extends Query where
  warnings : List QueryWarning
  deriving DecidableEq, Repr

inductive QueryParseError where
  | empty
  deriving DecidableEq, Repr

inductive QueryOperator where
  | site | excludedSite | filetype | lang | region | after | before | exact
  deriving DecidableEq, Repr

def QueryOperator.name : QueryOperator → String
  | .site => "site"
  | .excludedSite => "-site"
  | .filetype => "filetype"
  | .lang => "lang"
  | .region => "region"
  | .after => "after"
  | .before => "before"
  | .exact => "exact"

def QueryOperator.ofName (name : String) : Option QueryOperator :=
  [.site, .excludedSite, .filetype, .lang, .region, .after, .before, .exact].find?
    (fun operator => operator.name == name)

def isAsciiAlphabetic (c : Char) : Bool := isAsciiLower c || isAsciiUpper c

def validDomain (value : List Char) : Bool :=
  !value.isEmpty && !value.any (fun c => c == '/' || c == ':') && value.contains '.'

def validFileType (value : List Char) : Bool :=
  let value := value.dropWhile (· == '.')
  !value.isEmpty && utf8Length value ≤ 16 &&
    value.all (fun c => isAsciiAlphabetic c || isAsciiDigit c)

def validLanguage (value : List Char) : Bool :=
  2 ≤ utf8Length value && utf8Length value ≤ 15 && value.all (fun c => isAsciiAlphabetic c || c == '-')

def validRegion (value : List Char) : Bool :=
  utf8Length value == 2 && value.all isAsciiAlphabetic

/-- The days of a month, none for a month that there is not. -/
def maxDay (year month : Nat) : Option Nat :=
  if month ∈ [1, 3, 5, 7, 8, 10, 12] then some 31
  else if month ∈ [4, 6, 9, 11] then some 30
  else if month = 2 then
    some (if year % 4 = 0 ∧ (year % 100 ≠ 0 ∨ year % 400 = 0) then 29 else 28)
  else none

def validDate (value : List Char) : Bool :=
  match splitBy (· == '-') value with
  | [year, month, day] =>
    utf8Length year == 4 && utf8Length month == 2 && utf8Length day == 2 &&
      (year ++ month ++ day).all isAsciiDigit &&
      match parseUnsigned 10 (2 ^ 32) year, parseUnsigned 10 (2 ^ 32) month,
          parseUnsigned 10 (2 ^ 32) day with
      | some year, some month, some day => (maxDay year month).any (fun last => 1 ≤ day && day ≤ last)
      | _, _, _ => false
  | _ => false

def QueryOperator.valid : QueryOperator → List Char → Bool
  | .site, value | .excludedSite, value => validDomain value
  | .filetype, value => validFileType value
  | .lang, value => validLanguage value
  | .region, value => validRegion value
  | .after, value | .before, value => validDate value
  | .exact, value => !value.isEmpty

def pushUnique (values : List String) (value : String) : List String :=
  if values.contains value then values else values ++ [value]

/-- The warning of `replace_filter` when the filter was set before. -/
def repeatedFilter (target : Option String) (value code operator : String) : List QueryWarning :=
  if target.isSome then [⟨code, some operator, some value, "last valid filter wins"⟩] else []

def trimQuotes (text : List Char) : List Char :=
  trimEndBy (· == '"') (text.dropWhile (· == '"'))

structure Tokenizer where
  tokens : List (List Char)
  current : List Char
  quoted : Bool

def Tokenizer.read (t : Tokenizer) (character : Char) : Tokenizer :=
  if character = '"' then { t with quoted := !t.quoted, current := t.current ++ [character] }
  else if isWhitespace character && !t.quoted then
    if t.current.isEmpty then t else { t with tokens := t.tokens ++ [t.current], current := [] }
  else { t with current := t.current ++ [character] }

def tokenize (input : List Char) : List (List Char) :=
  let t := input.foldl Tokenizer.read ⟨[], [], false⟩
  if t.current.isEmpty then t.tokens else t.tokens ++ [t.current]

/-- Exclusions take precedence. -/
def ParsedQuery.dropExcluded (query : ParsedQuery) : ParsedQuery :=
  let dropped := query.domains.filter (fun domain => query.excludedDomains.contains domain)
  { query with
    domains := query.domains.filter (fun domain => !query.excludedDomains.contains domain)
    warnings := query.warnings ++ dropped.map (fun domain =>
      (⟨"domain_included_and_excluded", some "site", some domain,
        "domain exclusion takes precedence"⟩ : QueryWarning)) }

def ParsedQuery.emptyRange (query : ParsedQuery) : Bool :=
  match query.dateFrom, query.dateTo with
  | some lower, some upper => !decide (lower < upper)
  | _, _ => false

def ParsedQuery.dropEmptyRange (query : ParsedQuery) : ParsedQuery :=
  if query.emptyRange then
    { query with
      dateFrom := none
      dateTo := none
      warnings := query.warnings ++
        [⟨"invalid_date_range", none, none, "after must be earlier than before"⟩] }
  else query

/-- The query so far, and the free text. -/
structure QueryParser where
  query : ParsedQuery
  free : List String

namespace QueryParser

def filter (p : QueryParser) (operator : QueryOperator) (value : List Char) : QueryParser :=
  let query := p.query
  let lower := asciiLowercase (String.ofList value)
  match operator with
  | .site => { p with query := { query with domains := pushUnique query.domains lower } }
  | .excludedSite =>
    { p with query := { query with excludedDomains := pushUnique query.excludedDomains lower } }
  | .filetype =>
    let value := asciiLowercase (String.ofList (value.dropWhile (· == '.')))
    { p with query := { query with fileTypes := pushUnique query.fileTypes value } }
  | .lang =>
    { p with query := { query with
      language := some lower
      warnings := query.warnings ++
        repeatedFilter query.language lower "repeated_language_filter" "lang" } }
  | .region =>
    let upper := String.ofList (value.map toAsciiUpper)
    { p with query := { query with
      region := some upper
      warnings := query.warnings ++
        repeatedFilter query.region upper "repeated_region_filter" "region" } }
  | .after => { p with query := { query with dateFrom := some (String.ofList value) } }
  | .before => { p with query := { query with dateTo := some (String.ofList value) } }
  | .exact =>
    { p with query := { query with
      quotedTerms := query.quotedTerms ++ [String.ofList (trimQuotes value)] } }

/-- A filter whose value is not valid is free text. -/
def literal (p : QueryParser) (operator : QueryOperator) (value token : List Char) :
    QueryParser where
  query := { p.query with
    warnings := p.query.warnings ++ [⟨"invalid_filter_value", some operator.name,
      some (String.ofList value), "filter was treated as literal text"⟩] }
  free := p.free ++ [String.ofList token]

def term (p : QueryParser) (token : List Char) : QueryParser :=
  let query := p.query
  if token.head? = some '-' && 1 < utf8Length token then
    { p with query := { query with
      excludedTerms := query.excludedTerms ++ [String.ofList token.tail] } }
  else if token.head? = some '"' && token.getLast? = some '"' && 2 < utf8Length token then
    { p with query := { query with
      quotedTerms := query.quotedTerms ++ [String.ofList (trimQuotes token)] } }
  else { p with free := p.free ++ [String.ofList token] }

def token (p : QueryParser) (token : List Char) : QueryParser :=
  let operator := ((splitOnce [':'] (token.map toAsciiLower)).map Prod.fst).getD []
  let value := ((splitOnce [':'] token).map Prod.snd).getD []
  match QueryOperator.ofName (String.ofList operator) with
  | some operator =>
    if operator.valid value then p.filter operator value else p.literal operator value token
  | none => p.term token

def finish (p : QueryParser) : ParsedQuery :=
  { p.query.dropExcluded.dropEmptyRange with
    normalizedQuery := String.ofList (join [' '] (p.free.map String.toList)) }

end QueryParser

def parseTokens (rawQuery : String) : ParsedQuery :=
  let query : ParsedQuery := ⟨⟨rawQuery, "", [], [], [], [], [], none, none, none, none⟩, []⟩
  ((tokenize rawQuery.toList).foldl QueryParser.token ⟨query, []⟩).finish

def parseQuery (rawQuery : String) : Except QueryParseError ParsedQuery :=
  if (trim rawQuery.toList).isEmpty then .error .empty else .ok (parseTokens rawQuery)

end Amatl
