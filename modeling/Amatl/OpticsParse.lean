import Amatl.Lib.Nom
import Amatl.Adjustments

/-! The parser of optics files. The combinators are those of the `nom` crate, and the tables of
`Debug` for texts are a parameter. -/

namespace Amatl.Optics

open Nom Combinators Text

/-- `char::escape_debug`: what is neither printable nor stands by itself. -/
class DebugTables where
  escaped : Char → Bool

def debugChar [DebugTables] (c : Char) : List Char :=
  if c = '\x00' then ['\\', '0']
  else if c = '\t' then ['\\', 't']
  else if c = '\r' then ['\\', 'r']
  else if c = '\n' then ['\\', 'n']
  else if c = '"' then ['\\', '"']
  else if c = '\\' then ['\\', '\\']
  else if DebugTables.escaped c then
    ['\\', 'u', '\x7b'] ++ Nat.toDigits 16 c.toNat ++ ['\x7d']
  else [c]

def debugText [DebugTables] (text : List Char) : List Char :=
  '"' :: (text.flatMap debugChar ++ ['"'])

structure OpticsParseError where
  line : Nat
  message : String
  deriving DecidableEq, Repr

inductive Item where
  | rule (rule : Rule)
  | discardNonMatching
  deriving DecidableEq, Repr

section

variable [Combinators]

def blank : Parser Unit :=
  alt [
    value () multispace1,
    value () (tuple3 (tag "//".toList) (takeWhile1 (fun c => c != '\n')) (opt (char '\n'))),
    -- Empty `//` at end of line.
    value () (tuple2 (tag "//".toList) (opt (char '\n'))),
    value () (tuple3 (tag "/*".toList) (takeUntil "*/".toList) (tag "*/".toList))]

def skipWs : Parser Unit := value () (many0 blank)

/-- A token, with the whitespace and comments behind it. -/
def lexeme {α : Type} (inner : Parser α) : Parser α := fun input => do
  let (input, out) ← inner input
  let (input, ()) ← skipWs input
  .ok (input, out)

def symbol (s : String) : Parser (List Char) := lexeme (tag s.toList)

def stringLiteral : Parser String :=
  lexeme (map (delimited (char '"') (takeWhile1 (fun c => c != '"')) (char '"')) String.ofList)

def unsigned : Parser UInt32 :=
  lexeme (mapRes (recognize digit1) (fun s => (parseUnsigned 10 (2 ^ 32) s).map UInt32.ofNat))

def fieldOf (keyword : String) (field : String → MatchField) : Parser MatchField :=
  map (preceded (symbol keyword) (delimited (symbol "(") stringLiteral (symbol ")"))) field

def matchField : Parser MatchField :=
  alt [fieldOf "Site" .site, fieldOf "Domain" .domain, fieldOf "Title" .title, fieldOf "Url" .url]

def matchesBlock : Parser MatchField :=
  preceded (symbol "Matches") (delimited (symbol "\x7b") matchField (symbol "\x7d"))

def actionOf (keyword : String) (act : UInt32 → Action) : Parser Action :=
  map (preceded (symbol keyword) (delimited (symbol "(") unsigned (symbol ")"))) act

def action : Parser Action :=
  preceded (symbol "Action")
    (delimited (symbol "(") (alt [actionOf "Boost" .boost, actionOf "Downrank" .downrank])
      (symbol ")"))

def rule : Parser Rule := fun input => do
  let (input, _) ← symbol "Rule" input
  let (input, _) ← symbol "\x7b" input
  let (input, patterns) ← many1 (terminated matchesBlock (opt (symbol ","))) input
  let (input, action) ← action input
  let (input, _) ← opt (symbol ",") input
  let (input, _) ← symbol "\x7d" input
  let (input, _) ← opt (symbol ";") input
  .ok (input, ⟨patterns, action⟩)

def item : Parser Item :=
  alt [
    map (terminated (symbol "DiscardNonMatching") (opt (symbol ";")))
      (fun _ => .discardNonMatching),
    map rule .rule]

end

/-- The line of the remainder, the text being read up to it. -/
def lineOf (whole remainder : List Char) : Nat :=
  ((whole.take (whole.length - remainder.length)).filter (· == '\n')).length + 1

def snippet (input : List Char) : List Char := input.take 24

def OpticsDocument.push (document : OpticsDocument) : Item → OpticsDocument
  | .rule rule => { document with rules := document.rules ++ [rule] }
  | .discardNonMatching => { document with discardNonMatching := true }

def parseOptics [Combinators] [DebugTables] (input : List Char) :
    Except OpticsParseError OpticsDocument :=
  match skipWs input with
  | .error _ => .error ⟨1, "failed to scan leading whitespace"⟩
  | .ok (rest, ()) =>
    match many0 item rest with
    | .error at' =>
      .error ⟨lineOf input at', "unexpected token near " ++ String.ofList (debugText (snippet at'))⟩
    | .ok (rest, items) =>
      if !(trim rest).isEmpty then
        .error ⟨lineOf input rest, "trailing content that is not a Rule: " ++
          String.ofList (debugText (snippet rest))⟩
      else .ok (items.foldl OpticsDocument.push ⟨[], false⟩)

end Amatl.Optics
