import Amatl.PdfString

/-! Content streams, as operators with their strings. The scan takes every angle bracket for one that
opens a string, and it gets the stream lossily converted. -/

namespace Amatl

namespace Pdf

open Text

/-! What stands in a stream. -/

def isOpener (b : UInt8) : Bool := b = byte '(' || b = byte '<' || b = byte '['

/-- Pairs of digits, the last one padded with a zero. -/
def hexText : List UInt8 → List Char
  | [] => []
  | [high] => [Char.ofNat (16 * high.toNat)]
  | high :: low :: values => Char.ofNat (16 * high.toNat + low.toNat) :: hexText values

def angleText (inner : List UInt8) : List Char := hexText (inner.filterMap hexValue)

def closesAngle (b : UInt8) : Bool := b = byte '>'

/-- The bytes that open a string in an array, and the one that closes the array. -/
def stopsArray (b : UInt8) : Bool := b = byte ']' || b = byte '(' || b = byte '<'

instance : AsciiStops isOpener := ⟨forall_byte (by decide +kernel)⟩

instance : AsciiStops closesAngle := ⟨forall_byte (by decide +kernel)⟩

instance : AsciiStops stopsArray := ⟨forall_byte (by decide +kernel)⟩

/-- A literal string, or what an angle bracket opens up to the next one that closes. -/
inductive Token where
  | literal (value : LiteralString)
  | angle (inner : Filler closesAngle)

namespace Token

def bytes : Token → List UInt8
  | literal value => byte '(' :: (value.inner ++ [byte ')'])
  | angle inner => byte '<' :: (inner.bytes ++ [byte '>'])

def symbols : Token → List Symbol
  | literal value => Pdf.symbols 0 value.inner
  | angle inner => (angleText inner.bytes).map .char

/-- A literal string of it has no octal escape. -/
def Plain : Token → Prop
  | literal value => octalFree false value.inner = true
  | angle _ => True

/-- The lossy conversion leaves a literal string as it is: its bytes beyond ASCII are UTF-8. -/
def Kept : Token → Prop
  | literal value => Utf8.lossy value.inner = value.inner
  | angle _ => True

instance : DecidablePred Plain
  | literal value => inferInstanceAs (Decidable (octalFree false value.inner = true))
  | angle _ => inferInstanceAs (Decidable True)

instance : DecidablePred Kept
  | literal value => inferInstanceAs (Decidable (Utf8.lossy value.inner = value.inner))
  | angle _ => inferInstanceAs (Decidable True)

end Token

/-- Values with bytes before, between and behind them. -/
structure Spaced (stops : UInt8 → Bool) (α : Type) where
  items : List (Filler stops × α)
  last : Filler stops

namespace Spaced

variable {stops : UInt8 → Bool} {α : Type}

def values (spaced : Spaced stops α) : List α := spaced.items.map Prod.snd

def bytes (written : α → List UInt8) (spaced : Spaced stops α) : List UInt8 :=
  spaced.items.flatMap (fun item => item.1.bytes ++ written item.2) ++ spaced.last.bytes

end Spaced

/-- A string, or an array of such. -/
inductive Operand where
  | string (token : Token)
  | array (inner : Spaced stopsArray Token)

namespace Operand

def bytes : Operand → List UInt8
  | string token => token.bytes
  | array inner => byte '[' :: (inner.bytes Token.bytes ++ [byte ']'])

def tokens : Operand → List Token
  | string token => [token]
  | array inner => inner.values

def symbols (operand : Operand) : List Symbol := operand.tokens.flatMap Token.symbols

def text (operand : Operand) : List Char := symbolsText operand.symbols

def Plain (operand : Operand) : Prop := ∀ token ∈ operand.tokens, token.Plain

def Kept (operand : Operand) : Prop := ∀ token ∈ operand.tokens, token.Kept

instance : DecidablePred Plain :=
  fun operand => inferInstanceAs (Decidable (∀ token ∈ operand.tokens, token.Plain))

instance : DecidablePred Kept :=
  fun operand => inferInstanceAs (Decidable (∀ token ∈ operand.tokens, token.Kept))

end Operand

inductive ShowOperator where
  | tj | tjArray | quote | doubleQuote

def ShowOperator.bytes : ShowOperator → List UInt8
  | tj => [byte 'T', byte 'j']
  | tjArray => [byte 'T', byte 'J']
  | quote => [byte '\'']
  | doubleQuote => [byte '"']

/-- A text-showing operator with its string. Before them come numbers, names, other operators and
spaces, and the strings among them. -/
structure Showing where
  before : Spaced isOpener Operand
  operand : Operand
  gap : List UInt8
  operator : ShowOperator
  spaces : ∀ b ∈ gap, isAsciiWhitespace b = true

def Showing.bytes (showing : Showing) : List UInt8 :=
  showing.before.bytes Operand.bytes ++
    (showing.operand.bytes ++ (showing.gap ++ showing.operator.bytes))

structure Stream where
  showings : List Showing
  after : Spaced isOpener Operand

namespace Stream

def bytes (stream : Stream) : List UInt8 :=
  stream.showings.flatMap Showing.bytes ++ stream.after.bytes Operand.bytes

/-- The strings of the text-showing operators. -/
def operands (stream : Stream) : List Operand := stream.showings.map Showing.operand

/-- The strings among everything else. -/
def others (stream : Stream) : List Operand :=
  stream.showings.flatMap (fun showing => showing.before.values) ++ stream.after.values

/-- The strings that are shown, trimmed, those that are not empty. -/
def shown (stream : Stream) : List (List Char) :=
  (stream.operands.map (fun operand => trim operand.text)).filter (fun text => text ≠ [])

/-- No literal string of the stream has an octal escape. -/
structure Plain (stream : Stream) : Prop where
  operands : ∀ operand ∈ stream.operands, operand.Plain
  others : ∀ operand ∈ stream.others, operand.Plain

/-- The strings elsewhere are blank, no byte beyond ASCII is lost in the conversion, and the ends
of lines that the scan keeps lie outside of what is shown. -/
structure Clean (stream : Stream) : Prop where
  blank : ∀ operand ∈ stream.others, Blank operand.text
  othersKept : ∀ operand ∈ stream.others, operand.Kept
  kept : ∀ operand ∈ stream.operands, operand.Kept
  lineEnds : ∀ operand ∈ stream.operands, LineEndsOutside operand.symbols

end Stream

/-! What the scan reads, and the stream that it gets. -/

def Token.read : Token → List Char
  | .literal value => readText false value.inner
  | .angle inner => angleText inner.bytes

def Operand.read (operand : Operand) : List Char := operand.tokens.flatMap Token.read

def Token.lossy : Token → Token
  | .literal value => .literal value.lossy
  | .angle inner => .angle inner.lossy

def Spaced.lossy {stops : UInt8 → Bool} [AsciiStops stops] {α : Type} (convert : α → α)
    (spaced : Spaced stops α) : Spaced stops α where
  items := spaced.items.map (fun item => (item.1.lossy, convert item.2))
  last := spaced.last.lossy

def Operand.lossy : Operand → Operand
  | .string token => .string token.lossy
  | .array inner => .array (inner.lossy Token.lossy)

def Showing.lossy (showing : Showing) : Showing :=
  { showing with before := showing.before.lossy Operand.lossy, operand := showing.operand.lossy }

def Stream.lossy (stream : Stream) : Stream where
  showings := stream.showings.map Showing.lossy
  after := stream.after.lossy Operand.lossy

/-- The bytes are between ASCII bytes, so that they are converted by themselves. -/
structure Apart (bytes converted : List UInt8) : Prop where
  first : ∃ b rest, bytes = b :: rest ∧ b < 128
  convert : ∀ tail, Utf8.lossy (bytes ++ tail) = converted ++ Utf8.lossy tail

theorem apart_between {a b : UInt8} (first : a < 128) (last : b < 128) (inner : List UInt8) :
    Apart (a :: (inner ++ [b])) (a :: (Utf8.lossy inner ++ [b])) where
  first := ⟨a, _, rfl, first⟩
  convert tail := by
    have between := Utf8.lossy_between first last inner tail
    simpa using between

theorem Token.apart (token : Token) : Apart token.bytes token.lossy.bytes := by
  cases token with
  | literal value => exact apart_between (by decide) (by decide) value.inner
  | angle inner => exact apart_between (by decide) (by decide) inner.bytes

/-- Behind fillers and values the conversion goes on with an ASCII byte or ends. -/
theorem Spaced.lossy_bytes {stops : UInt8 → Bool} [AsciiStops stops] {α : Type}
    {written : α → List UInt8} {convert : α → α}
    (apart : ∀ a, Apart (written a) (written (convert a))) (spaced : Spaced stops α)
    {tail : List UInt8} (small : ∀ b ∈ tail.head?, b < 128) :
    Utf8.lossy (spaced.bytes written ++ tail) =
      (spaced.lossy convert).bytes written ++ Utf8.lossy tail := by
  obtain ⟨items, last⟩ := spaced
  induction items with
  | nil => exact Utf8.lossy_append last.bytes small
  | cons item items ih =>
    obtain ⟨b, rest, opens, first⟩ := (apart item.2).first
    have begins : ∀ later, ∀ c ∈ (written item.2 ++ later).head?, c < 128 := by
      intro later c mem
      rw [opens] at mem
      cases mem
      exact first
    have split : (Spaced.mk (item :: items) last).bytes written ++ tail =
        item.1.bytes ++ (written item.2 ++ ((Spaced.mk items last).bytes written ++ tail)) := by
      simp [Spaced.bytes]
    rw [split, Utf8.lossy_append _ (begins _), (apart item.2).convert, ih]
    simp [Spaced.bytes, Spaced.lossy, Filler.lossy]

theorem Operand.apart (operand : Operand) : Apart operand.bytes operand.lossy.bytes := by
  cases operand with
  | string token => exact token.apart
  | array inner =>
    refine ⟨⟨byte '[', _, rfl, by decide⟩, fun tail => ?_⟩
    have closes : ∀ b ∈ (byte ']' :: tail).head?, b < 128 := by
      intro b mem
      cases mem
      decide
    have between := inner.lossy_bytes Token.apart closes
    rw [Utf8.lossy_cons_ascii (by decide)] at between
    have opens : (Operand.array inner).bytes ++ tail =
        byte '[' :: (inner.bytes Token.bytes ++ byte ']' :: tail) := by simp [Operand.bytes]
    rw [opens, Utf8.lossy_cons_ascii (by decide), between]
    simp [Operand.bytes, Operand.lossy]

theorem space_ascii {b : UInt8} (space : isAsciiWhitespace b = true) : b < 128 := by
  simp only [isAsciiWhitespace, Bool.or_eq_true, decide_eq_true_eq] at space
  rcases space with (((rfl | rfl) | rfl) | rfl) | rfl
  all_goals decide

theorem operator_ascii (operator : ShowOperator) : ∀ b ∈ operator.bytes, b < 128 := by
  apply forall_mem_of_all
  cases operator with
  | tj => decide
  | tjArray => decide
  | quote => decide
  | doubleQuote => decide

theorem Showing.lossy_bytes (showing : Showing) (tail : List UInt8) :
    Utf8.lossy (showing.bytes ++ tail) = showing.lossy.bytes ++ Utf8.lossy tail := by
  have begins : ∀ b ∈ (showing.operand.bytes ++
      (showing.gap ++ (showing.operator.bytes ++ tail))).head?, b < 128 := by
    obtain ⟨b, rest, opens, first⟩ := showing.operand.apart.first
    intro c mem
    rw [opens] at mem
    cases mem
    exact first
  have split : showing.bytes ++ tail = showing.before.bytes Operand.bytes ++
      (showing.operand.bytes ++ (showing.gap ++ (showing.operator.bytes ++ tail))) := by
    simp [Showing.bytes]
  rw [split, showing.before.lossy_bytes Operand.apart begins, showing.operand.apart.convert,
    Utf8.lossy_ascii (fun b mem => space_ascii (showing.spaces b mem)),
    Utf8.lossy_ascii (operator_ascii showing.operator)]
  simp [Showing.bytes, Showing.lossy]

theorem Stream.lossy_bytes (stream : Stream) : Utf8.lossy stream.bytes = stream.lossy.bytes := by
  obtain ⟨showings, after⟩ := stream
  have ends : ∀ b ∈ ([] : List UInt8).head?, b < 128 := fun b mem => by cases mem
  have last := after.lossy_bytes Operand.apart ends
  rw [List.append_nil, Utf8.lossy_nil, List.append_nil] at last
  rw [Stream.bytes, Stream.bytes]
  simp only
  induction showings with
  | nil => exact last
  | cons showing showings ih =>
    rw [List.flatMap_cons, List.append_assoc, showing.lossy_bytes, ih]
    simp [Stream.lossy]

/-- What lies between the keywords of a file is converted by itself. -/
theorem lossy_body (front body rest : List UInt8) :
    Utf8.lossy (front ++ (asciiBytes "stream\n" ++ (body ++ (asciiBytes "endstream" ++ rest)))) =
      Utf8.lossy front ++ (asciiBytes "stream\n" ++
        (Utf8.lossy body ++ (asciiBytes "endstream" ++ Utf8.lossy rest))) := by
  have keyword : ∀ b ∈ asciiBytes "stream\n", b < 128 := forall_mem_of_all (by decide)
  have keyword' : ∀ b ∈ asciiBytes "endstream", b < 128 := forall_mem_of_all (by decide)
  have first : ∀ later, ∀ b ∈ (asciiBytes "stream\n" ++ later).head?, b < 128 := by
    intro later b mem
    cases mem
    decide
  have last : ∀ b ∈ (asciiBytes "endstream" ++ rest).head?, b < 128 := by
    intro b mem
    cases mem
    decide
  rw [Utf8.lossy_append _ (first _), Utf8.lossy_ascii keyword, Utf8.lossy_append _ last,
    Utf8.lossy_ascii keyword']

end Pdf

end Amatl
