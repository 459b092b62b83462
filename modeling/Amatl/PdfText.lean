import Amatl.Lib.Text
import Amatl.Lib.Utf8Lossy

/-! The text of PDF content streams, read without a tokenizer. An index into the bytes is the part
of them that begins there; behind a construct that was read, a count says how much of it is still to
be passed. -/

namespace Amatl

namespace Pdf

open Text

def byte (c : Char) : UInt8 := UInt8.ofNat c.toNat

/-- `byte as char`. -/
def byteChar (b : UInt8) : Char := Char.ofNat b.toNat

def isOctalDigit (b : UInt8) : Bool := byte '0' ≤ b && b ≤ byte '7'

/-- The value of the octal digits at the start, and how many there are. -/
def octalRun (value : Nat) : Nat → List UInt8 → Nat × Nat
  | limit + 1, digit :: rest =>
    if isOctalDigit digit then
      let (total, count) := octalRun (value * 8 + (digit - byte '0').toNat) limit rest
      (total, count + 1)
    else (value, 0)
  | _, _ => (value, 0)

def escapedChar (next : UInt8) : Char :=
  if next = byte 'n' then '\n'
  else if next = byte 'r' then '\r'
  else if next = byte 't' then '\t'
  else if next = byte 'b' then Char.ofNat 8
  else if next = byte 'f' then Char.ofNat 12
  else byteChar next

/-- Characters put before the text that was read. -/
def behind (text : List Char) (read : List Char × List UInt8) : List Char × List UInt8 :=
  (text ++ read.1, read.2)

/-- The loop inside a literal string, with the bytes left behind its end. -/
def literalScan (depth : Nat) : Nat → List UInt8 → Option (List Char × List UInt8)
  | _, [] => none
  | skip + 1, _ :: rest => literalScan depth skip rest
  | 0, b :: rest =>
    if b = byte '\\' then
      match rest with
      | [] => none
      | next :: _ =>
        if isOctalDigit next then
          let (value, count) := octalRun 0 3 rest
          -- The index grows by the digits and by two more.
          (literalScan depth (count + 1) rest).map (behind [Char.ofNat value])
        else (literalScan depth 1 rest).map (behind [escapedChar next])
    else if b = byte '(' then (literalScan (depth + 1) 0 rest).map (behind ['('])
    else if b = byte ')' then
      if depth - 1 = 0 then some ([], rest)
      else (literalScan (depth - 1) 0 rest).map (behind [')'])
    else (literalScan depth 0 rest).map (behind [byteChar b])

def hexValue (b : UInt8) : Option UInt8 :=
  if byte '0' ≤ b ∧ b ≤ byte '9' then some (b - byte '0')
  else if byte 'a' ≤ b ∧ b ≤ byte 'f' then some (b - byte 'a' + 10)
  else if byte 'A' ≤ b ∧ b ≤ byte 'F' then some (b - byte 'A' + 10)
  else none

/-- `parse_hex_string`, with the bytes left behind. -/
def hexScan : Option UInt8 → List UInt8 → Option (List Char × List UInt8)
  | _, [] => none
  | high, b :: rest =>
    if b = byte '>' then some ((high.map (fun h : UInt8 => byteChar (h <<< 4))).toList, rest)
    else
      match hexValue b, high with
      | none, high => hexScan high rest
      | some value, none => hexScan (some value) rest
      | some value, some h => (hexScan none rest).map (behind [byteChar (h <<< 4 ||| value)])

/-- `parse_text_array`, with the bytes left behind. -/
def arrayScan : Nat → List UInt8 → Option (List Char × List UInt8)
  | _, [] => none
  | skip + 1, _ :: rest => arrayScan skip rest
  | 0, b :: rest =>
    if b = byte ']' then some ([], rest)
    else if b = byte '(' then
      match literalScan 1 0 rest with
      | none => none
      | some (text, after) => (arrayScan (rest.length - after.length) rest).map (behind text)
    else if b = byte '<' then
      match hexScan none rest with
      | none => none
      | some (text, after) => (arrayScan (rest.length - after.length) rest).map (behind text)
    else arrayScan 0 rest

/-- What a scan gives, with the index behind what it read. -/
def indexed (bytes : List UInt8) (read : Option (List Char × List UInt8)) :
    Option (List Char × Nat) :=
  read.map (fun read => (read.1, bytes.length - read.2.length))

def parseLiteralString (bytes : List UInt8) (start : Nat) : Option (List Char × Nat) :=
  indexed bytes (literalScan 1 0 (bytes.drop (start + 1)))

def flush (line : List Char) : List Char × List (List Char) :=
  if trim line = [] then (line, []) else ([], [trim line])

def opened (b : UInt8) (rest : List UInt8) : Option (List Char × List UInt8) :=
  if b = byte '(' then literalScan 1 0 rest
  else if b = byte '<' then hexScan none rest
  else if b = byte '[' then arrayScan 0 rest
  else none

def showsText (b : UInt8) (rest : List UInt8) : Bool :=
  b = byte 'T' && (rest.head? = some (byte 'j') || rest.head? = some (byte 'J'))

def collectScan : Nat → List Char → List UInt8 → List (List Char)
  | _, line, [] => (flush line).2
  | skip + 1, line, _ :: rest => collectScan skip line rest
  | 0, line, b :: rest =>
    match opened b rest with
    | some (text, after) => collectScan (rest.length - after.length) (line ++ text) rest
    | none =>
      if showsText b rest then (flush line).2 ++ collectScan 1 (flush line).1 rest
      else if b = byte '\'' ∨ b = byte '"' then
        (flush line).2 ++ collectScan 0 (flush line).1 rest
      else collectScan 0 line rest

def collectPdfText (body : List UInt8) : List (List Char) := collectScan 0 [] body

def asciiBytes (text : String) : List UInt8 := text.toList.map byte

def isAsciiWhitespace (b : UInt8) : Bool :=
  b = 9 || b = 10 || b = 12 || b = 13 || b = 32

def keywordAt (hay : List UInt8) (i : Nat) : Bool :=
  (asciiBytes "stream").isPrefixOf (hay.drop i) &&
    (i = 0 || (hay[i - 1]?).any isAsciiWhitespace) && (hay[i + 6]?).all isAsciiWhitespace

def findStreamKeyword (hay : List UInt8) (start : Nat) : Option Nat :=
  (List.range' start (hay.length - start)).find? (keywordAt hay)

def findSub (hay : List UInt8) (start : Nat) (needle : List UInt8) : Option Nat :=
  (List.range' start (hay.length + 1 - start)).find? (fun i => needle.isPrefixOf (hay.drop i))

/-- A character begins at the index, or the text ends there. -/
def isCharBoundary (hay : List UInt8) (i : Nat) : Bool :=
  i = 0 || i = hay.length || (hay[i]?).any (fun b => b < 128 || 192 ≤ b)

/-- `&text[start..stop]`, which is there only for a range between characters. -/
def slice (hay : List UInt8) (start stop : Nat) : Option (List UInt8) :=
  if start ≤ stop ∧ stop ≤ hay.length ∧ isCharBoundary hay start ∧ isCharBoundary hay stop then
    some ((hay.drop start).take (stop - start))
  else none

def skipNewline (body : List UInt8) : List UInt8 :=
  if [13, 10].isPrefixOf body then body.drop 2
  else if [10].isPrefixOf body then body.drop 1
  else body

/-- The streams from an index on; nothing when a slice is out of range or the rounds run out. -/
def streamParts (hay : List UInt8) : Nat → Nat → Option (List (List Char))
  | 0, _ => none
  | rounds + 1, searchFrom =>
    match findStreamKeyword hay searchFrom with
    | none => some []
    | some start =>
      match findSub hay (start + 6) (asciiBytes "endstream") with
      | none => some []
      | some stop => do
        let body ← slice hay (start + 6) stop
        let parts ← streamParts hay rounds (stop + 9)
        some (collectPdfText (skipNewline body) ++ parts)

/-- The text, which is not empty when it is trimmed, or the document is reported as empty. -/
def extractPdfRust (bytes : List UInt8) : Option (Option (List Char)) :=
  let hay := Utf8.lossy bytes
  (streamParts hay (hay.length + 1) 0).map (fun parts =>
    let content := join ['\n'] parts
    if trim content = [] then none else some content)

example : collectPdfText (asciiBytes "BT (Alpha) Tj 0 -14 Td <48656C6C6F> Tj [(A)(B)(C)] TJ ET") =
    ["Alpha".toList, "Hello".toList, "ABC".toList] := by decide

end Pdf

end Amatl
