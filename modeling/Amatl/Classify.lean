import Mathlib.Algebra.Order.Ring.Rat
import Amatl.Lib.Text
import Amatl.Model

/-! The category of a query, from its filters and from patterns that its text has. A pattern of
several words is searched in the text, one of a single word among its tokens. -/

namespace Amatl

open Text

deriving instance Ord for Category

structure Classification where
  primaryCategory : Category
  secondaryCategories : List Category
  confidence : ℚ
  confidenceByCategory : List (Category × ℚ)
  reasons : List String
  deriving DecidableEq

abbrev Signals := List (Category × (ℚ × List String))

def addSignal (category : Category) (confidence : ℚ) (reason : String) (signals : Signals) :
    Signals :=
  OrdMap.upsert category (fun entry =>
    let found := entry.getD (confidence, [])
    (max found.1 confidence,
      if found.2.contains reason then found.2 else found.2 ++ [reason])) signals

def fileTypeSignal (signals : Signals) (fileType : String) : Signals :=
  if ["rs", "py", "js", "ts", "java", "go", "c", "cpp"].contains fileType then
    addSignal .code (98 / 100) "explicit_code_file_filter" signals
  else addSignal .documentation (95 / 100) "explicit_file_filter" signals

def domainSignal (signals : Signals) (value : String) : Signals :=
  let domain := asciiLowercase value
  let names (parts : List String) := parts.any (fun part => contains part.toList domain.toList)
  if names ["github.", "gitlab."] then
    addSignal .code (97 / 100) "explicit_code_domain" signals
  else if names ["arxiv.", "doi."] then
    addSignal .academic (97 / 100) "explicit_academic_domain" signals
  else if names ["reddit.", "stackoverflow."] then
    addSignal .forum (97 / 100) "explicit_forum_domain" signals
  else if names ["youtube.", "vimeo."] then
    addSignal .media (97 / 100) "explicit_media_domain" signals
  else if names ["linkedin.", "instagram.", "twitter."] || domain == "x.com" then
    addSignal .social (97 / 100) "explicit_social_domain" signals
  else signals

structure LexicalSignal where
  category : Category
  confidence : ℚ
  reason : String
  patterns : List String

def lexicalSignals : List LexicalSignal :=
  [⟨.navigation, 88 / 100, "navigation_lexical_signal",
      ["official website", "homepage", "login", "sign in", "navigate to"]⟩,
    ⟨.code, 86 / 100, "code_lexical_signal",
      ["source code", "code example", "stack trace", "compile error", "github", "function", "class",
        "crate"]⟩,
    ⟨.documentation, 84 / 100, "documentation_lexical_signal",
      ["documentation", "manual", "api reference", "reference guide", "docs"]⟩,
    ⟨.academic, 86 / 100, "academic_lexical_signal",
      ["research paper", "peer reviewed", "journal", "arxiv", "doi", "systematic review",
        "study"]⟩,
    ⟨.news, 84 / 100, "news_lexical_signal",
      ["news", "today", "latest", "breaking", "current events"]⟩,
    ⟨.commercial, 82 / 100, "commercial_lexical_signal",
      ["buy", "price", "pricing", "shop", "discount", "product comparison"]⟩,
    ⟨.forum, 80 / 100, "forum_lexical_signal",
      ["forum", "discussion", "reddit", "stackoverflow", "community answer"]⟩,
    ⟨.social, 80 / 100, "social_lexical_signal",
      ["social media", "linkedin", "instagram", "twitter", "mastodon"]⟩,
    ⟨.media, 80 / 100, "media_lexical_signal",
      ["video", "podcast", "image", "photo", "youtube", "livestream"]⟩,
    ⟨.technical, 76 / 100, "technical_lexical_signal",
      ["rust", "python", "compiler", "database", "algorithm", "protocol", "software", "api"]⟩]

section

variable [UnicodeTables]

def endsToken (character : Char) : Bool :=
  !UnicodeTables.isAlphanumeric character && character != '_'

def containsPattern (text : List Char) (pattern : String) : Bool :=
  if pattern.toList.contains ' ' then contains pattern.toList text
  else (splitBy endsToken text).contains pattern.toList

def lexicalSignal (text : List Char) (signals : Signals) (signal : LexicalSignal) : Signals :=
  if signal.patterns.any (containsPattern text) then
    addSignal signal.category signal.confidence signal.reason signals
  else signals

def signalsOf (query : Query) : Signals :=
  let text := UnicodeTables.strToLowercase query.normalizedQuery.toList
  let filters := query.domains.foldl domainSignal (query.fileTypes.foldl fileTypeSignal [])
  let signals := lexicalSignals.foldl (lexicalSignal text) filters
  if signals.isEmpty then [(.general, 1 / 2, ["general_fallback"])] else signals

/-- The surest signal comes first, of several the one of the first category. -/
def surer (left right : Category × (ℚ × List String)) : Bool :=
  ((compare right.2.1 left.2.1).then (compare left.1 right.1)).isLE

/-- There is none where no signal is there, which the fallback rules out. -/
def classify (query : Query) : Option Classification :=
  let ordered := (signalsOf query).mergeSort surer
  match ordered with
  | [] => none
  | first :: rest => some {
      primaryCategory := first.1
      secondaryCategories := (rest.take 2).map Prod.fst
      confidence := first.2.1
      confidenceByCategory := OrdMap.ofList ((ordered.take 3).map (fun s => (s.1, s.2.1)))
      reasons := (ordered.take 3).flatMap (fun s => s.2.2) }

end

end Amatl
