import Amatl.Lib.Bytes
import Amatl.FoldText
import Amatl.Externals

/-! The fragments of a document that are shown as evidence. The content is cut into ranges of a
bounded length, the ranges are rated, and the best of them are given back in their order. `none`
stands for a slice inside a character, on which the process would panic. -/

namespace Amatl

open Text Bytes

def evidenceMaxFragments : Nat := 8

def evidenceFragmentBytes : Nat := 512

/-! The ranges. -/

def floorCharBoundary (content : List Char) : Nat → Nat
  | 0 => 0
  | index + 1 =>
    if isCharBoundary content (index + 1) then index + 1 else floorCharBoundary content index

/-- `chars().next()` gives up with `some none`, for a slice without characters. -/
def skipStart (content : List Char) (start stop : Nat) : Option (Option Nat) :=
  if start < stop then
    match slice content start stop with
    | none => none
    | some [] => some none
    | some (character :: _) =>
      if isWhitespace character then skipStart content (start + character.utf8Size) stop
      else some (some start)
  else some (some start)
termination_by stop - start
decreasing_by
  have size := character.utf8Size_pos
  omega

def skipEnd (content : List Char) (start stop : Nat) : Option (Option Nat) :=
  if start < stop then
    match slice content start stop with
    | none => none
    | some text =>
      match text.getLast? with
      | none => some none
      | some character =>
        if isWhitespace character then skipEnd content start (stop - character.utf8Size)
        else some (some stop)
  else some (some stop)
termination_by stop - start
decreasing_by
  have size := character.utf8Size_pos
  omega

def trimRange (content : List Char) (start stop : Nat) : Option (Option (Nat × Nat)) :=
  match skipStart content start stop with
  | none => none
  | some none => some none
  | some (some start) =>
    match skipEnd content start stop with
    | none => none
    | some none => some none
    | some (some stop) => some (if start < stop then some (start, stop) else none)

/-- The last end of a sentence and the last blank seen so far. -/
structure SplitPoints where
  sentence : Option Nat := none
  whitespace : Option Nat := none

/-- One character is looked at, which ends at the byte `after`. -/
def SplitPoints.see (minimum after : Nat) (character : Char) (points : SplitPoints) :
    SplitPoints :=
  if after < minimum then points
  else if character = '.' ∨ character = '!' ∨ character = '?' then
    { points with sentence := some after }
  else if isWhitespace character then { points with whitespace := some after }
  else points

def splitPoints (minimum : Nat) : Nat → List Char → SplitPoints → SplitPoints
  | _, [], points => points
  | position, character :: rest, points =>
    splitPoints minimum (position + character.utf8Size) rest
      (points.see minimum (position + character.utf8Size) character)

def preferredSplit (content : List Char) (start hardEnd : Nat) : Option Nat :=
  (slice content start hardEnd).map (fun text =>
    let points := splitPoints (start + (hardEnd - start) / 2) start text {}
    (points.sentence.or points.whitespace).getD hardEnd)

def nextBoundary (content : List Char) (cursor stop : Nat) : Nat :=
  if cursor < stop ∧ isCharBoundary content cursor = false then
    nextBoundary content (cursor + 1) stop
  else cursor
termination_by stop - cursor

theorem nextBoundary_ge (content : List Char) (cursor stop : Nat) :
    cursor ≤ nextBoundary content cursor stop := by
  fun_induction nextBoundary content cursor stop with
  | case1 cursor inside ih => omega
  | case2 cursor there => exact Nat.le_refl cursor

def rangeSplit (content : List Char) (cursor stop : Nat) : Option Nat :=
  let hardEnd := floorCharBoundary content (min (cursor + evidenceFragmentBytes) stop)
  if hardEnd < stop then preferredSplit content cursor hardEnd else some stop

/-- Ranges of at most `evidenceFragmentBytes` bytes, one after the other. -/
def fillRanges (content : List Char) (cursor stop : Nat) (ranges : List (Nat × Nat)) :
    Option (List (Nat × Nat)) :=
  if cursor < stop then
    (rangeSplit content cursor stop).bind (fun split =>
      (trimRange content cursor split).bind (fun range =>
        fillRanges content (nextBoundary content (max split (cursor + 1)) stop) stop
          (ranges ++ range.toList)))
  else some ranges
termination_by stop - cursor
decreasing_by
  have further := nextBoundary_ge content (max split (cursor + 1)) stop
  omega

def appendBoundedRange (content : List Char) (start stop : Nat) (ranges : List (Nat × Nat)) :
    Option (List (Nat × Nat)) :=
  match trimRange content start stop with
  | none => none
  | some none => some ranges
  | some (some (cursor, stop)) => fillRanges content cursor stop ranges

/-- Paragraph by paragraph: `index` is where `rest` begins, `paragraphStart` lies before it. -/
def paragraphRanges (content : List Char) :
    List Char → Nat → Nat → List (Nat × Nat) → Option (List (Nat × Nat))
  | [], _, paragraphStart, ranges =>
    appendBoundedRange content paragraphStart (utf8Length content) ranges
  | character :: rest, index, paragraphStart, ranges =>
    if character = '\n' then
      (appendBoundedRange content paragraphStart index ranges).bind
        (paragraphRanges content rest (index + character.utf8Size) (index + character.utf8Size))
    else paragraphRanges content rest (index + character.utf8Size) paragraphStart ranges

def boundedContentRanges (content : List Char) : Option (List (Nat × Nat)) :=
  paragraphRanges content content 0 0 []

/-! The fragments. -/

inductive EvidenceSignal where
  | queryMatch | citation | temporal | numeric
  deriving DecidableEq, Repr

structure FragmentCandidate where
  start : Nat
  stop : Nat
  priority : Nat
  matchedTerms : List String
  signals : List EvidenceSignal

structure EvidenceFragment where
  fragmentId : String
  provenanceId : String
  ordinal : UInt32
  text : String
  startByte : Nat
  endByte : Nat
  fragmentHash : String
  matchedTerms : List String
  signals : List EvidenceSignal
  deriving DecidableEq

def containsCitation (value : List Char) : Bool :=
  let value := value.map toAsciiLower
  contains "http://".toList value || contains "https://".toList value

/-- A window of ten bytes like 2024-01-31. The bytes of longer characters are neither digits nor
hyphens, so it is a window of ten characters. -/
def isoShaped (window : List Char) : Bool :=
  (window.take 4).all isAsciiDigit && window[4]? == some '-' &&
    ((window.drop 5).take 2).all isAsciiDigit && window[7]? == some '-' &&
    ((window.drop 8).take 2).all isAsciiDigit && window.length == 10

def containsIsoShapedDate (value : List Char) : Bool :=
  value.tails.any (fun behind => isoShaped (behind.take 10))

section

variable [UnicodeTables] [Sha256]

def fragmentCandidate (queryTokens : List String) (start stop : Nat) (text : List Char) :
    FragmentCandidate :=
  let fragmentTokens := tokens text
  let matchedTerms := queryTokens.filter fragmentTokens.contains
  let citation := containsCitation text
  let temporal := containsIsoShapedDate text
  let numeric := text.any isAsciiDigit
  { start, stop
    priority := matchedTerms.length * 16 + citation.toNat * 8 + temporal.toNat * 4 +
      numeric.toNat * 2 + min fragmentTokens.length 50 / 10
    matchedTerms
    signals := (if matchedTerms.isEmpty then [] else [.queryMatch]) ++
      (if citation then [.citation] else []) ++ (if temporal then [.temporal] else []) ++
      (if numeric then [.numeric] else []) }

def byPriority (left right : FragmentCandidate) : Bool :=
  right.priority < left.priority || right.priority == left.priority && left.start ≤ right.start

def byStart (left right : FragmentCandidate) : Bool := left.start ≤ right.start

def fragmentOf (provenanceId : String) (candidate : FragmentCandidate) (index : Nat)
    (text : List Char) : EvidenceFragment :=
  let fragmentHash := hexDigest (String.ofList text)
  { fragmentId := hexDigest ("evidence-fragment-v2\x00" ++ provenanceId ++ "\x00" ++
      toString candidate.start ++ "\x00" ++ toString candidate.stop ++ "\x00" ++ fragmentHash)
    provenanceId
    ordinal := if index + 1 < 4294967296 then UInt32.ofNat (index + 1) else 4294967295
    text := String.ofList text
    startByte := candidate.start
    endByte := candidate.stop
    fragmentHash
    matchedTerms := candidate.matchedTerms
    signals := candidate.signals }

def evidenceFragments (content : String) (queryTokens : List String) (provenanceId : String) :
    Option (List EvidenceFragment) := do
  let ranges ← boundedContentRanges content.toList
  let candidates ← ranges.mapM (fun range =>
    (slice content.toList range.1 range.2).map (fragmentCandidate queryTokens range.1 range.2))
  let best := (candidates.mergeSort byPriority).take evidenceMaxFragments
  ((best.mergeSort byStart).zipIdx).mapM (fun entry =>
    (slice content.toList entry.1.start entry.1.stop).map (fragmentOf provenanceId entry.1 entry.2))

end

end Amatl
