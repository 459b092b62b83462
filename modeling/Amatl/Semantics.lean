import Amatl.FoldText
import Amatl.Model

/-! The bounded semantic layer of relevance: stems, concepts with their aliases, the intent of a
query, and whether a text is about its subject. Every part is a named flag or a small set. -/

namespace Amatl

open Text

/-! Morphology. -/

def minStemLen : Nat := 5

/-- The longest and most specific suffixes come first. -/
def suffixRules : List (String × String) :=
  [("ization", "ize"), ("izations", "ize"), (" isation", "ise"), ("ability", "able"),
    ("ibility", "ible"), ("ational", "ate"), ("utions", "ute"), ("ution", "ute"), ("ation", "ate"),
    ("ations", "ate"), ("ition", "ite"), ("itions", "ite"), ("ingly", ""), ("edly", ""),
    ("fully", "ful"), ("ously", "ous"), ("ly", ""), ("ements", "e"), ("ement", "e"), ("ments", ""),
    ("ment", ""), ("ness", ""), ("ing", ""), ("edes", "ede"), ("ers", ""), ("ors", ""), ("er", ""),
    ("or", ""), ("ed", ""), ("ies", "y"), ("es", ""), ("s", "")]

def stripEnd (pattern text : List Char) : Option (List Char) :=
  if pattern.isSuffixOf text then some (text.take (text.length - pattern.length)) else none

/-- A doubled consonant that a removed suffix leaves is made one again. -/
def collapseDoubled (replacement out : List Char) : List Char :=
  match out.reverse with
  | last :: before :: rest =>
    if replacement.isEmpty && last == before && !"aeiou".toList.contains last then
      (before :: rest).reverse
    else out
  | _ => out

def applyRule (text : List Char) (rule : String × String) : Option (List Char) :=
  match stripEnd rule.1.toList text with
  | some root =>
    if utf8Length root + utf8Length rule.2.toList < 3 then none
    else some (collapseDoubled rule.2.toList (root ++ rule.2.toList))
  | none => none

def stripSuffix (text : List Char) : Option (List Char) := suffixRules.findSome? (applyRule text)

def stem (token : String) : Option String :=
  if utf8Length token.toList < minStemLen || !token.toList.all isAsciiLower then none
  else
    match stripSuffix token.toList with
    | some candidate =>
      if utf8Length candidate < 3 || candidate == token.toList then none
      else some (String.ofList candidate)
    | none => none

def stemSet (tokens : List String) : List String := OrdMap.setOf (tokens.filterMap stem)

/-! Concepts and their aliases. -/

structure ConceptAliasSet where
  canonical : String
  aliases : List String
  deriving DecidableEq, Repr

def aliasSets : List ConceptAliasSet :=
  [⟨"documentation", ["docs", "doc", "documentation", "reference", "manual", "api reference",
      "api docs", "handbook"]⟩,
    ⟨"repository", ["repo", "repos", "repository", "repositories", "source code"]⟩,
    ⟨"asynchronous", ["async", "asynchronous", "asynchronously", "async await", "non blocking",
      "nonblocking"]⟩,
    ⟨"database", ["db", "database", "databases", "datastore", "rdbms"]⟩,
    ⟨"kubernetes", ["k8s", "kubernetes", "kube"]⟩,
    ⟨"configuration", ["config", "configuration", "configure", "configuring", "setup", "set up"]⟩,
    ⟨"standard library", ["std", "stdlib", "standard library"]⟩,
    ⟨"tutorial", ["tutorial", "tutorials", "guide", "walkthrough", "getting started", "quickstart",
      "quick start"]⟩,
    ⟨"javascript", ["js", "javascript", "ecmascript", "node js", "nodejs"]⟩,
    ⟨"postgresql", ["postgres", "postgresql", "pg"]⟩,
    ⟨"performance", ["perf", "performance", "optimization", "optimisation", "optimize",
      "optimise"]⟩,
    ⟨"authentication", ["auth", "authentication", "authenticate"]⟩,
    ⟨"autoscaling", ["hpa", "autoscaling", "autoscaler", "horizontal pod autoscaler"]⟩,
    ⟨"specification", ["spec", "specification", "rfc"]⟩]

/-- An alias of several words is searched in the text, one of a single word among the tokens. -/
def aliasPresent (tokens : List String) (normalized : List Char) (name : String) : Bool :=
  if name.toList.contains ' ' then Text.contains name.toList normalized else tokens.contains name

def conceptsPresent (tokens : List String) (normalized : List Char) : List String :=
  OrdMap.setOf ((aliasSets.filter (fun set => set.aliases.any (aliasPresent tokens normalized))).map
    ConceptAliasSet.canonical)

/-! The intent of a query. -/

inductive QueryIntent where
  | factualCapital (entity : List Char)
  | factualAttribution (work : List Char)
  | documentation (subject : List Char)
  | tutorial (subject : List Char)
  | repository (subject : List Char)
  | definition (subject : List Char)
  deriving DecidableEq, Repr

def QueryIntent.subject : QueryIntent → List Char
  | .factualCapital entity => entity
  | .factualAttribution work => work
  | .documentation subject | .tutorial subject | .repository subject | .definition subject =>
    subject

def QueryIntent.tag : QueryIntent → String
  | .factualCapital _ => "factual_capital"
  | .factualAttribution _ => "factual_attribution"
  | .documentation _ => "documentation"
  | .tutorial _ => "tutorial"
  | .repository _ => "repository"
  | .definition _ => "definition"

section

variable [UnicodeTables]

open UnicodeTables

def trimMatches (text : List Char) : List Char :=
  trimEndBy (fun c => !isAlphanumeric c) (text.dropWhile (fun c => !isAlphanumeric c))

def cleanSubject (text : List Char) : List Char := joinWords (trimMatches (normalizedText text))

def subjectOf (text : Option (List Char)) : Option (List Char) :=
  (text.map cleanSubject).filter (fun subject => !subject.isEmpty)

def afterFirst (pattern : String) (text : List Char) : Option (List Char) :=
  (splitOnce pattern.toList text).map Prod.snd

def afterStart (pattern : String) (text : List Char) : Option (List Char) :=
  if pattern.toList.isPrefixOf text then some (text.drop pattern.toList.length) else none

def beforeEnd (pattern : String) (text : List Char) : Option (List Char) :=
  stripEnd pattern.toList text

/-- `str::trim_start_matches` of a text that is not empty; each round shortens the text. -/
def trimStartMatches (pattern : String) : Nat → List Char → List Char
  | 0, text => text
  | fuel + 1, text =>
    match afterStart pattern text with
    | some rest => trimStartMatches pattern fuel rest
    | none => text

def detectCapital (q : List Char) : Option QueryIntent :=
  ((subjectOf (afterFirst "capital of " q)).or
    ((subjectOf ((beforeEnd " capital city" q).or (beforeEnd " capital" q))).filter
      (fun entity => !Text.contains "gains".toList entity))).map .factualCapital

def detectAttribution (q : List Char) : Option QueryIntent :=
  (["who wrote ", "who painted ", "who invented ", "who discovered ", "who composed ",
    "author of ", "inventor of ", "creator of ", "composer of "].findSome?
      (fun pattern => subjectOf (afterFirst pattern q))).map .factualAttribution

def detectDocumentation (q : List Char) : Option QueryIntent :=
  ((subjectOf (afterStart "documentation for " q)).or
    ([" documentation", " docs", " api reference", " api docs", " reference", " manual",
      " cheat sheet"].findSome? (fun pattern => subjectOf (beforeEnd pattern q)))).map .documentation

def detectRepository (q : List Char) : Option QueryIntent :=
  ([" github", " repository", " repo", " source code", " on github"].findSome?
    (fun pattern => subjectOf (beforeEnd pattern q))).map .repository

def detectTutorial (q : List Char) : Option QueryIntent :=
  (([" tutorial", " guide", " walkthrough", " quickstart", " for beginners"].findSome?
    (fun pattern => subjectOf (beforeEnd pattern q))).or
      (["getting started with ", "how to use ", "how to configure ", "how to set up "].findSome?
        (fun pattern => subjectOf (afterFirst pattern q)))).map .tutorial

def detectDefinition (q : List Char) : Option QueryIntent :=
  let asked := ((afterStart "what is " q).or (afterStart "what are " q)).map (fun rest =>
    trimStartMatches "the " rest.length (trimStartMatches "a " rest.length rest))
  let short := (splitWhitespace q).length ≤ 6
  (((subjectOf asked).filter (fun _ => short)).or
    (subjectOf (afterStart "define " q))).map .definition

/-- At most one intent, the most specific first. -/
def detectIntent (query : Query) : Option QueryIntent :=
  if !query.quotedTerms.isEmpty then none
  else
    let q := normalizedText query.normalizedQuery.toList
    if (splitWhitespace q).isEmpty then none
    else (((((detectCapital q).or (detectAttribution q)).or (detectDocumentation q)).or
      (detectRepository q)).or (detectTutorial q)).or (detectDefinition q)

/-! Whether a text is about the subject, and what speaks against it. -/

structure NegativeRelevanceEvidence where
  subjectMismatch : Bool := false
  entityMismatch : Bool := false
  weakGenericMatch : Bool := false
  aliasConflict : Bool := false
  deriving DecidableEq, Repr

def knownSubjects : List String :=
  ["postgresql", "postgres", "mysql", "sqlite", "mariadb", "mongodb", "redis", "rust", "python",
    "java", "javascript", "typescript", "golang", "kotlin", "swift", "ruby", "php", "scala",
    "haskell", "erlang", "elixir", "csharp", "kubernetes", "docker", "terraform", "ansible",
    "react", "angular", "vue", "svelte", "django", "flask", "rails", "spring", "kafka", "rabbitmq",
    "nginx", "apache", "envoy"]

def aliasConflictFamilies : List (List String) :=
  [["sqlite", "postgresql", "postgres", "mysql", "mariadb", "mongodb", "oracle"],
    ["rust", "python", "java", "javascript", "typescript", "golang", "kotlin", "swift", "ruby",
      "php"],
    ["react", "angular", "vue", "svelte"], ["kubernetes", "nomad", "mesos"],
    ["kafka", "rabbitmq", "pulsar", "nats"]]

def genericTerms : List String :=
  ["capital", "gains", "tax", "rates", "country", "guide", "list", "world", "best", "top",
    "introduction", "overview", "review", "comparison"]

/-- The terms of a subject that are longer than a byte. -/
def subjectTerms (subject : List Char) : List String :=
  (tokens subject).filter (fun t => 2 ≤ utf8Length t.toList)

structure SemanticAssessment where
  stemmedTermMatches : List String := []
  aliasMatches : List String := []
  queryIntent : Option String := none
  subjectTerms : List String := []
  subjectMatch : Bool := false
  entityMatch : Bool := false
  negativeEvidence : NegativeRelevanceEvidence := {}
  deriving DecidableEq, Repr

/-- The text of a result, title and snippet, in the forms that the checks read. -/
structure ResultText where
  titleTokens : List String
  snippetTokens : List String
  tokens : List String
  stems : List String
  normalized : List Char

def resultText (title snippet : Option String) : ResultText :=
  let titleTokens := (title.map (fun t => tokens t.toList)).getD []
  let snippetTokens := (snippet.map (fun t => tokens t.toList)).getD []
  let textTokens := OrdMap.setOf (titleTokens ++ snippetTokens)
  { titleTokens, snippetTokens
    tokens := textTokens
    stems := stemSet textTokens
    normalized := (title.map (fun t => normalizedText t.toList)).getD [] ++
      ' ' :: (snippet.map (fun t => normalizedText t.toList)).getD [] }

def ResultText.has (text : ResultText) (term : String) : Bool :=
  text.tokens.contains term || text.stems.contains term

def ResultText.mentions (text : ResultText) (phrase : String) : Bool :=
  Text.contains phrase.toList text.normalized

def stemMatched (text : ResultText) (term : String) : Bool :=
  let found := (stem term).any text.has || text.stems.contains term
  found || (stem term).any (fun s => 6 ≤ utf8Length s.toList &&
    (text.stems.any (fun t => (s.toList.take 5).isPrefixOf t.toList) ||
      text.tokens.any (fun t => (s.toList.take 5).isPrefixOf t.toList && 6 ≤ utf8Length t.toList)))

def stemmedMatches (queryTokens lexical : List String) (text : ResultText) : List String :=
  OrdMap.setOf ((queryTokens.filter (fun term => !lexical.contains term && stemMatched text term)).map
    (fun term => (stem term).getD term))

/-- One term must appear, of several terms two and more than half of them. -/
def subjectPresent (terms : List String) (text : ResultText) : Bool :=
  let present := (terms.filter text.has).length
  match terms.length with
  | 0 => false
  | 1 => 0 < present
  | n => 2 ≤ present && n < present * 2

structure IntentChecks where
  subjectTerms : List String
  subjectMatch : Bool
  entityMatch : Bool
  negative : NegativeRelevanceEvidence

def subjectMismatch (terms queryTokens : List String) (text : ResultText) : Bool :=
  !terms.isEmpty && !subjectPresent terms text && knownSubjects.any (fun k =>
    text.titleTokens.contains k && !terms.contains k && !queryTokens.contains k)

def entityPresent (terms : List String) (text : ResultText) : Bool :=
  terms.all text.has && !terms.isEmpty

def assertsCapital (terms : List String) (text : ResultText) : Bool :=
  terms.all (fun t => text.mentions ("capital of " ++ t) || text.mentions ("capital city of " ++ t)) ||
    (entityPresent terms text && (text.mentions "is the capital" || text.mentions "federal capital" ||
      text.mentions "national capital"))

def competingCapital (entity : List Char) (terms : List String) (text : ResultText) : Bool :=
  text.mentions "capital of the province" || text.mentions "capital of the state" ||
    (text.mentions "is the capital" && !entityPresent terms text &&
      !Text.contains ("capital of ".toList ++ entity) text.normalized)

def genericOnly (lexical : List String) : List String :=
  lexical.filter (fun t => genericTerms.contains t)

def capitalChecks (entity : List Char) (lexical : List String) (text : ResultText) :
    Bool × NegativeRelevanceEvidence :=
  let terms := subjectTerms entity
  let asserts := assertsCapital terms text
  let competing := competingCapital entity terms text
  (asserts && !competing,
    { entityMismatch := competing && !asserts
      weakGenericMatch := !entityPresent terms text && !text.tokens.contains "capital" &&
        lexical.all (fun t => (genericOnly lexical).contains t) })

def attributionCues : List String :=
  ["wrote", "author", "written by", "painted", "co-design", "co-designing", "designed", "invented",
    "developed", "known for", "fathers of"]

def attributionMatch (work : List Char) (text : ResultText) : Bool :=
  let terms := subjectTerms work
  !terms.isEmpty && terms.length ≤ (terms.filter text.tokens.contains).length * 2 &&
    attributionCues.any text.mentions

def intentChecks (queryTokens lexical : List String) (text : ResultText) (intent : QueryIntent) :
    IntentChecks :=
  let terms := subjectTerms intent.subject
  let mismatch := subjectMismatch terms queryTokens text
  let (entityMatch, negative) : Bool × NegativeRelevanceEvidence := match intent with
    | .factualCapital entity => capitalChecks entity lexical text
    | .factualAttribution work => (attributionMatch work text, {})
    | _ => (false, {})
  { subjectTerms := terms
    subjectMatch := subjectPresent terms text
    entityMatch
    negative := { negative with subjectMismatch := mismatch } }

/-- The terms were matched in the address of the result only. -/
def onlyUrl (lexical : List String) (text : ResultText) (urlBlob : String) : Bool :=
  !lexical.isEmpty && !lexical.any (fun t => text.titleTokens.contains t ||
    text.snippetTokens.contains t) && lexical.all (fun t => Text.contains t.toList urlBlob.toList)

/-- The query names one product of a family and the text another one instead. -/
def aliasConflict (queryTokens : List String) (text : ResultText) : Bool :=
  aliasConflictFamilies.any (fun family =>
    match family.find? queryTokens.contains, family.find? text.tokens.contains with
    | some wanted, some found => wanted != found && !text.tokens.contains wanted
    | _, _ => false)

def assessSemantics (query : Query) (title snippet : Option String) (urlBlob : String)
    (lexical : List String) : SemanticAssessment :=
  let text := resultText title snippet
  let queryTokens := tokens query.normalizedQuery.toList
  let queryConcepts := conceptsPresent queryTokens (normalizedText query.normalizedQuery.toList)
  let resultConcepts := conceptsPresent text.tokens text.normalized
  let intent := detectIntent query
  let checks := match intent with
    | some intent => intentChecks queryTokens lexical text intent
    | none => ⟨[], false, false, {}⟩
  { stemmedTermMatches := stemmedMatches queryTokens lexical text
    aliasMatches := queryConcepts.filter resultConcepts.contains
    queryIntent := intent.map QueryIntent.tag
    subjectTerms := checks.subjectTerms
    subjectMatch := checks.subjectMatch
    entityMatch := checks.entityMatch
    negativeEvidence := { checks.negative with
      weakGenericMatch := checks.negative.weakGenericMatch || onlyUrl lexical text urlBlob
      aliasConflict := aliasConflict queryTokens text } }

end

end Amatl
