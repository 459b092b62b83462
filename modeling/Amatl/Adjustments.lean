import Amatl.Lib.F64Rounding
import Amatl.Ranking

/-! Adjustments made after ranking: the tracker penalty, whose domain list is a
bundled asset and a parameter here, and the operator's optics rules. Factors and
their products are floats that round. -/

namespace Amatl

open UrlCrate StableSort

inductive MatchField where
  | site (pattern : String)
  | domain (pattern : String)
  | title (pattern : String)
  | url (pattern : String)
  deriving DecidableEq, Repr

inductive Action where
  | boost (n : UInt32)
  | downrank (n : UInt32)
  deriving DecidableEq, Repr

def opticsStep : F64 := .ofRat (1 / 10)

def downrankFloor : F64 := .ofRat (1 / 100)

def Action.multiplier : Action → F64
  | .boost n => .plus (.finite 1) (.times (.finite n.toNat) opticsStep)
  | .downrank n => .max (.minus (.finite 1) (.times (.finite n.toNat) opticsStep)) downrankFloor

structure Rule where
  patterns : List MatchField
  action : Action
  deriving DecidableEq, Repr

structure OpticsDocument where
  rules : List Rule
  discardNonMatching : Bool
  deriving DecidableEq, Repr

structure OpticsOutcome where
  multiplier : F64
  matched : Bool
  deriving DecidableEq

/-- The fragments between `*`, each looked for in what its predecessor left of
the haystack. -/
def fragmentsMatch (anchoredStart anchoredEnd : Bool) :
    Bool → List (List Char) → List Char → Bool
  | _, [], _ => true
  | isFirst, fragment :: rest, haystack =>
    if fragment.isEmpty then fragmentsMatch anchoredStart anchoredEnd false rest haystack
    else match Text.find fragment haystack with
      | none => false
      | some found =>
        let left := haystack.drop (found + fragment.length)
        if isFirst && anchoredStart && found != 0 then false
        else if rest.isEmpty && anchoredEnd && !left.isEmpty then false
        else fragmentsMatch anchoredStart anchoredEnd false rest left

section

variable [UnicodeTables]

def patternMatches (pattern haystack : List Char) : Bool :=
  let haystack := UnicodeTables.strToLowercase haystack
  let pattern := UnicodeTables.strToLowercase pattern
  let anchoredStart := pattern.head? == some '|'
  let pattern := if anchoredStart then pattern.tail else pattern
  let anchoredEnd := pattern.getLast? == some '|'
  let pattern := if anchoredEnd then pattern.dropLast else pattern
  let fragments := Text.splitBy (· == '*') pattern
  if fragments.length ≤ 1 then
    match anchoredStart, anchoredEnd with
    | true, true => haystack == pattern
    | true, false => pattern.isPrefixOf haystack
    | false, true => pattern.isSuffixOf haystack
    | false, false => Text.contains pattern haystack
  else fragmentsMatch anchoredStart anchoredEnd true fragments haystack

variable {Url : Type} [UrlCrate Url]

def fieldMatches (result : RankedResult Url) : MatchField → Bool
  | .site pattern | .domain pattern =>
    (hostStr result.result.canonicalUrl).any (fun host => patternMatches pattern.toList host.toList)
  | .title pattern =>
    result.result.title.any (fun title => patternMatches pattern.toList title.toList)
  | .url pattern => patternMatches pattern.toList (asStr result.result.canonicalUrl).toList

def OpticsDocument.multiplierFor (document : OpticsDocument) (result : RankedResult Url) :
    OpticsOutcome :=
  document.rules.foldl (fun outcome rule =>
    if rule.patterns.any (fieldMatches result) then
      { multiplier := .times outcome.multiplier rule.action.multiplier, matched := true }
    else outcome) { multiplier := .finite 1, matched := false }

/-- `RankingScore::new`. -/
def RankingScore.new : F64 → Option RankingScore
  | .finite value =>
    if h : 0 ≤ value ∧ value ≤ 1 then some ⟨value, h.1, h.2⟩ else none
  | _ => none

/-- A product that is a NaN stays one when it is clamped. -/
def RankingScore.scaled (factor : F64) (score : RankingScore) : Option RankingScore :=
  RankingScore.new (.clamp (.finite 0) (.finite 1) (.times (.finite score.value) factor))

/-- `none` where the `expect` panics. -/
def scaleScore (factor : F64) (result : RankedResult Url) : Option (RankedResult Url) :=
  (result.score.scaled factor).map (fun score => { result with score })

def trackerPenaltyMultiplier : F64 := .ofRat (5 / 100)

def isTrackerDomain (trackerDomains : String → Bool) (url : Url) : Bool :=
  (hostStr url).any trackerDomains

def penalizeTracker (trackerDomains : String → Bool) (result : RankedResult Url) :
    Option (RankedResult Url) :=
  if isTrackerDomain trackerDomains result.result.canonicalUrl then
    scaleScore trackerPenaltyMultiplier result
  else some result

def OpticsDocument.adjust (document : OpticsDocument) (result : RankedResult Url) :
    Option (RankedResult Url) :=
  let outcome := document.multiplierFor result
  if outcome.matched && outcome.multiplier != .finite 1 then scaleScore outcome.multiplier result
  else some result

def OpticsDocument.adjustAll (document : OpticsDocument) (ranked : List (RankedResult Url)) :
    Option (List (RankedResult Url)) :=
  let kept := if document.discardNonMatching then
      ranked.filter (fun result => (document.multiplierFor result).matched)
    else ranked
  kept.mapM document.adjust

/-- `none` is the panic over a score that is a NaN: a multiplier that grew to infinity, by zero. -/
def applyAdjustments (trackerDomains : String → Bool) (optics : Option OpticsDocument)
    (ranked : List (RankedResult Url)) : Option (List (RankedResult Url)) := do
  let ranked ← ranked.mapM (penalizeTracker trackerDomains)
  let ranked ← match optics with
    | none => some ranked
    | some document => document.adjustAll ranked
  return explainTies (sortBy compareRanked ranked)

end

end Amatl
