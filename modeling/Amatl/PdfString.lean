import Amatl.Lib.Utf8Lossy
import Amatl.PdfLiteral
import Mathlib.Data.List.Induction

/-! The strings of content streams, of any bytes. The scan reads the bytes of the lossily converted
file one by one, and it keeps the ends of lines that do not belong to a string. -/

namespace Amatl

namespace Pdf

open Text

/-! What a literal string stands for. -/

inductive LineEnd where
  | lf | cr | crlf
  deriving DecidableEq

def LineEnd.bytes : LineEnd → List UInt8
  | lf => [10]
  | cr => [13]
  | crlf => [13, 10]

def LineEnd.chars (written : LineEnd) : List Char := written.bytes.map byteChar

/-- The end of a line at the start. -/
def lineEnd : List UInt8 → Option LineEnd
  | [] => none
  | b :: rest =>
    if b = 10 then some .lf
    else if b = 13 then if rest.head? = some 10 then some .crlf else some .cr
    else none

inductive Symbol where
  | char (c : Char)
  /-- An end of line in the string. -/
  | newline (written : LineEnd)
  /-- An end of line behind a backslash. -/
  | continuation (written : LineEnd)

namespace Symbol

/-- An end of line is a line feed however it is written, and behind a backslash it is no part of
the string. -/
def text : Symbol → List Char
  | char c => [c]
  | newline _ => ['\n']
  | continuation _ => []

/-- An end of line as it is written. -/
def read : Symbol → List Char
  | char c => [c]
  | newline written => written.chars
  | continuation written => written.chars

def misread : Symbol → Bool
  | char _ => false
  | newline written => written ≠ .lf
  | continuation _ => true

end Symbol

/-- What a byte behind a backslash stands for, unless it is a digit or ends a line: a named escape,
or itself. -/
def escapeMeaning (next : UInt8) : Char :=
  ((namedEscapes.find? (fun entry => entry.1 = next)).map Prod.snd).getD (byteChar next)

/-- What the bytes of a literal string mean. A byte is the character of its code, and of the code
of an octal escape the low byte counts. -/
def symbols : Nat → List UInt8 → List Symbol
  | _, [] => []
  | skip + 1, _ :: rest => symbols skip rest
  | 0, b :: rest =>
    if b = byte '\\' then
      match rest with
      | [] => []
      | next :: _ =>
        match lineEnd rest with
        | some written => .continuation written :: symbols written.bytes.length rest
        | none =>
          if isOctalDigit next then
            let (value, count) := octalRun 0 3 rest
            .char (Char.ofNat (value % 256)) :: symbols count rest
          else .char (escapeMeaning next) :: symbols 1 rest
    else
      match lineEnd (b :: rest) with
      | some written => .newline written :: symbols (written.bytes.length - 1) rest
      | none => .char (byteChar b) :: symbols 0 rest

def symbolsText (symbols : List Symbol) : List Char := symbols.flatMap Symbol.text

/-- The depth of the parentheses behind the bytes, unless the string is closed among them or ends
in an escape. -/
def nesting : Bool → Nat → List UInt8 → Option Nat
  | escaped, depth, [] => if escaped then none else some depth
  | true, depth, _ :: rest => nesting false depth rest
  | false, depth, b :: rest =>
    if b = byte '\\' then nesting true depth rest
    else if b = byte '(' then nesting false (depth + 1) rest
    else if b = byte ')' then if depth ≤ 1 then none else nesting false (depth - 1) rest
    else nesting false depth rest

/-- No octal digit stands behind a backslash. -/
def octalFree : Bool → List UInt8 → Bool
  | _, [] => true
  | true, b :: rest => !isOctalDigit b && octalFree false rest
  | false, b :: rest => octalFree (b = byte '\\') rest

/-- The bytes between the parentheses of a literal string. -/
structure LiteralString where
  inner : List UInt8
  closed : nesting false 1 inner = some 1

/-! What the scan reads. -/

/-- The bytes as characters, without the backslashes of escapes. -/
def readText : Bool → List UInt8 → List Char
  | _, [] => []
  | true, b :: rest => escapedChar b :: readText false rest
  | false, b :: rest =>
    if b = byte '\\' then readText true rest else byteChar b :: readText false rest

theorem literalScan_readText {bytes : List UInt8} (escaped : Bool)
    (octals : octalFree escaped bytes = true) {depth after : Nat}
    (deep : nesting escaped depth bytes = some after) (rest : List UInt8) :
    literalScan depth 0 ((if escaped then [byte '\\'] else []) ++ (bytes ++ rest)) =
      (literalScan after 0 rest).map (behind (readText escaped bytes)) := by
  induction bytes generalizing escaped depth with
  | nil =>
    cases escaped with
    | true => cases deep
    | false =>
      cases deep
      exact (map_behind_nil _).symm
  | cons b bytes ih =>
    cases escaped with
    | true =>
      rw [octalFree, Bool.and_eq_true, Bool.not_eq_true'] at octals
      have inner := ih false octals.2 deep
      change literalScan depth 0 (bytes ++ rest) = _ at inner
      change literalScan depth 0 (byte '\\' :: b :: (bytes ++ rest)) = _
      rw [literalScan_escape octals.1, inner, behind_behind]
      rfl
    | false =>
      rw [octalFree] at octals
      rw [nesting] at deep
      rw [readText]
      change literalScan depth 0 (b :: (bytes ++ rest)) = _
      by_cases escapes : b = byte '\\'
      · rw [if_pos escapes] at deep ⊢
        subst escapes
        exact ih true octals deep
      · have plain : octalFree false bytes = true := by simpa [escapes] using octals
        rw [if_neg escapes] at deep ⊢
        split at deep
        · rename_i opens
          have inner := ih false plain deep
          change literalScan (depth + 1) 0 (bytes ++ rest) = _ at inner
          rw [opens, literalScan_open, inner, behind_behind]
          rfl
        · rename_i opens
          split at deep
          · rename_i closes
            split at deep
            · cases deep
            · rename_i inside
              have inner := ih false plain deep
              change literalScan (depth - 1) 0 (bytes ++ rest) = _ at inner
              rw [closes, literalScan_close, if_neg inside, inner, behind_behind]
              rfl
          · rename_i closes
            have inner := ih false plain deep
            change literalScan depth 0 (bytes ++ rest) = _ at inner
            rw [literalScan_raw ⟨escapes, opens, closes⟩, inner, behind_behind]
            rfl

theorem literalScan_literal {value : LiteralString} (plain : octalFree false value.inner = true)
    (rest : List UInt8) :
    literalScan 1 0 (value.inner ++ byte ')' :: rest) =
      some (readText false value.inner, rest) := by
  have inner := literalScan_readText false plain value.closed (byte ')' :: rest)
  change literalScan 1 0 (value.inner ++ byte ')' :: rest) = _ at inner
  rw [inner, literalScan_close, if_pos (Nat.le_refl 1)]
  simp [behind]

theorem forall_byte {P : UInt8 → Prop} (all : ∀ n < 256, P (UInt8.ofNat n)) (b : UInt8) : P b := by
  have same : UInt8.ofNat b.toNat = b := UInt8.ofNat_toNat
  rw [← same]
  exact all b.toNat b.toNat_lt

theorem escapeMeaning_eq : ∀ next : UInt8, escapeMeaning next = escapedChar next :=
  forall_byte (by decide +kernel)

theorem lineEnd_split {bytes : List UInt8} {written : LineEnd}
    (found : lineEnd bytes = some written) : ∃ rest, bytes = written.bytes ++ rest := by
  cases bytes with
  | nil => cases found
  | cons b rest =>
    rw [lineEnd] at found
    split at found
    · cases found
      exact ⟨rest, by rename_i same; rw [same]; rfl⟩
    · split at found
      · rename_i same
        split at found
        · rename_i next
          cases found
          obtain ⟨later, rfl⟩ := List.head?_eq_some_iff.mp next
          exact ⟨later, by rw [same]; rfl⟩
        · cases found
          exact ⟨rest, by rw [same]; rfl⟩
      · cases found

/-- The ends of lines are read as they are, and no octal digits. -/
theorem readText_lineEnd (escaped : Bool) (written : LineEnd) (rest : List UInt8) :
    readText escaped (written.bytes ++ rest) = written.chars ++ readText false rest ∧
      octalFree escaped (written.bytes ++ rest) = octalFree false rest := by
  cases escaped with
  | true =>
    cases written with
    | lf => exact ⟨rfl, rfl⟩
    | cr => exact ⟨rfl, rfl⟩
    | crlf => exact ⟨rfl, rfl⟩
  | false =>
    cases written with
    | lf => exact ⟨rfl, rfl⟩
    | cr => exact ⟨rfl, rfl⟩
    | crlf => exact ⟨rfl, rfl⟩

def symbolsRead (symbols : List Symbol) : List Char := symbols.flatMap Symbol.read

/-- Without octal escapes the scan reads what the symbols are written as. -/
theorem symbolsRead_symbols (skip : Nat) {bytes : List UInt8}
    (octals : octalFree false (bytes.drop skip) = true) :
    symbolsRead (symbols skip bytes) = readText false (bytes.drop skip) := by
  induction bytes generalizing skip with
  | nil =>
    cases skip with
    | zero => rfl
    | succ skip => rfl
  | cons b rest ih =>
    cases skip with
    | succ skip => exact ih skip octals
    | zero =>
      rw [List.drop_zero] at octals ⊢
      rw [symbols.eq_def]
      simp only
      by_cases escapes : b = byte '\\'
      · rw [if_pos escapes]
        subst escapes
        change octalFree true rest = true at octals
        change _ = readText true rest
        cases rest with
        | nil => rfl
        | cons next later =>
          simp only
          cases ends : lineEnd (next :: later) with
          | some written =>
            obtain ⟨behind, split⟩ := lineEnd_split ends
            have passed : (next :: later).drop written.bytes.length = behind := by
              rw [split, List.drop_left]
            obtain ⟨reads, free⟩ := readText_lineEnd true written behind
            rw [split, free] at octals
            have tail := ih written.bytes.length (by rw [passed]; exact octals)
            rw [passed] at tail
            rw [split, reads, ← tail, split]
            rfl
          | none =>
            rw [octalFree, Bool.and_eq_true, Bool.not_eq_true'] at octals
            have tail := ih 1 octals.2
            rw [List.drop_one, List.tail_cons] at tail
            rw [octals.1, readText, ← tail, ← escapeMeaning_eq]
            rfl
      · rw [if_neg escapes]
        cases ends : lineEnd (b :: rest) with
        | some written =>
          obtain ⟨behind, split⟩ := lineEnd_split ends
          have passed : rest.drop (written.bytes.length - 1) = behind := by
            have whole : (b :: rest).drop written.bytes.length = behind := by
              rw [split, List.drop_left]
            cases written with
            | lf => exact whole
            | cr => exact whole
            | crlf => exact whole
          obtain ⟨reads, free⟩ := readText_lineEnd false written behind
          rw [split, free] at octals
          have tail := ih (written.bytes.length - 1) (by rw [passed]; exact octals)
          rw [passed] at tail
          rw [split, reads, ← tail]
          rfl
        | none =>
          have free : octalFree false rest = true := by
            rw [octalFree] at octals
            simpa [escapes] using octals
          have tail := ih 0 free
          rw [List.drop_zero] at tail
          rw [readText, if_neg escapes, ← tail]
          rfl

/-! What is visible. -/

def Blank (text : List Char) : Prop := ∀ c ∈ text, isWhitespace c = true

instance : DecidablePred Blank :=
  fun text => decidable_of_iff (text.all isWhitespace = true) List.all_eq_true

def visibles (text : List Char) : List Char := text.filter (fun c => !isWhitespace c)

theorem length_visibles (text : List Char) : (visibles text).length = visible text :=
  List.countP_eq_length_filter.symm

theorem visibles_append (a b : List Char) : visibles (a ++ b) = visibles a ++ visibles b :=
  List.filter_append a b

theorem visibles_eq_nil {text : List Char} : visibles text = [] ↔ Blank text := by
  simp [visibles, Blank, List.filter_eq_nil_iff]

theorem visibles_trim (text : List Char) : visibles (trim text) = visibles text := by
  obtain ⟨front, back, split, before, after⟩ := trim_split text
  have whole := congrArg visibles split
  rw [visibles_append, visibles_append, visibles_eq_nil.mpr before, visibles_eq_nil.mpr after,
    List.nil_append, List.append_nil] at whole
  exact whole.symm

theorem blank_append {a b : List Char} : Blank (a ++ b) ↔ Blank a ∧ Blank b :=
  List.forall_mem_append

theorem trim_append_blank (text : List Char) {back : List Char} (blank : Blank back) :
    trim (text ++ back) = trim text := by
  induction back using List.reverseRecOn with
  | nil => rw [List.append_nil]
  | append_singleton back c ih =>
    obtain ⟨before, last⟩ := blank_append.mp blank
    rw [← List.append_assoc, trim_append (last c (List.mem_singleton_self c)), ih before]

/-- A text between visible characters is its own trimming. -/
theorem trim_eq_self {text : List Char} (first : ∃ c ∈ text.head?, isWhitespace c = false)
    (last : ∃ c ∈ text.getLast?, isWhitespace c = false) : trim text = text := by
  obtain ⟨c, head, visible⟩ := first
  obtain ⟨d, end', visible'⟩ := last
  have begins : text.dropWhile isWhitespace = text := by
    cases text with
    | nil => rfl
    | cons b text =>
      cases head
      rw [List.dropWhile_cons_of_neg (by simp [visible])]
  have reversed : text.reverse.dropWhile isWhitespace = text.reverse := by
    have back : text.reverse.head? = some d := by rw [List.head?_reverse]; exact end'
    obtain ⟨rest, whole⟩ := List.head?_eq_some_iff.mp back
    rw [whole, List.dropWhile_cons_of_neg (by simp [visible'])]
  rw [trim, begins, trimEndBy, reversed, List.reverse_reverse]

/-! Where the ends of lines are kept, and where it shows. -/

namespace Symbol

theorem chars_blank (written : LineEnd) : Blank written.chars := by
  apply forall_mem_of_all
  cases written with
  | lf => decide
  | cr => decide
  | crlf => decide

def isBlank (symbol : Symbol) : Bool := symbol.text.all isWhitespace

theorem isBlank_iff {symbol : Symbol} : symbol.isBlank = true ↔ Blank symbol.text :=
  List.all_eq_true

theorem isBlank_of_misread {symbol : Symbol} (h : symbol.misread = true) :
    symbol.isBlank = true := by
  cases symbol with
  | char c => cases h
  | newline written => rfl
  | continuation written => rfl

theorem read_blank {symbol : Symbol} (h : symbol.isBlank = true) : Blank symbol.read := by
  cases symbol with
  | char c => exact isBlank_iff.mp h
  | newline written => exact chars_blank written
  | continuation written => exact chars_blank written

theorem eq_char_of_visible {symbol : Symbol} (h : symbol.isBlank = false) :
    ∃ c, symbol = char c ∧ isWhitespace c = false := by
  cases symbol with
  | char c => exact ⟨c, rfl, by simpa [isBlank, text] using h⟩
  | newline written => cases h
  | continuation written => cases h

theorem visibles_read (symbol : Symbol) : visibles symbol.read = visibles symbol.text := by
  cases symbol with
  | char c => rfl
  | newline written =>
    rw [read, visibles_eq_nil.mpr (chars_blank written)]
    rfl
  | continuation written =>
    rw [read, visibles_eq_nil.mpr (chars_blank written)]
    rfl

theorem length_text_le (symbol : Symbol) : symbol.text.length ≤ symbol.read.length := by
  cases symbol with
  | char c => exact Nat.le_refl _
  | newline written => cases written <;> decide
  | continuation written => exact Nat.zero_le _

theorem read_eq_text_iff (symbol : Symbol) :
    symbol.read = symbol.text ↔ symbol.misread = false := by
  cases symbol with
  | char c => exact ⟨fun _ => rfl, fun _ => rfl⟩
  | newline written => cases written <;> decide
  | continuation written => cases written <;> decide

end Symbol

theorem symbolsText_append (a b : List Symbol) :
    symbolsText (a ++ b) = symbolsText a ++ symbolsText b := List.flatMap_append

theorem symbolsRead_append (a b : List Symbol) :
    symbolsRead (a ++ b) = symbolsRead a ++ symbolsRead b := List.flatMap_append

theorem visibles_symbolsRead (symbols : List Symbol) :
    visibles (symbolsRead symbols) = visibles (symbolsText symbols) := by
  induction symbols with
  | nil => rfl
  | cons symbol symbols ih =>
    rw [symbolsRead, symbolsText, List.flatMap_cons, List.flatMap_cons, visibles_append,
      visibles_append, symbol.visibles_read]
    exact congrArg _ ih

theorem symbolsText_blank {symbols : List Symbol} :
    Blank (symbolsText symbols) ↔ ∀ symbol ∈ symbols, symbol.isBlank = true := by
  simp only [Blank, symbolsText, List.mem_flatMap, Symbol.isBlank_iff]
  constructor
  · exact fun blank symbol mem c inside => blank c ⟨symbol, mem, inside⟩
  · rintro blank c ⟨symbol, mem, inside⟩
    exact blank symbol mem c inside

theorem symbolsRead_blank {symbols : List Symbol}
    (blank : ∀ symbol ∈ symbols, symbol.isBlank = true) : Blank (symbolsRead symbols) := by
  intro c mem
  obtain ⟨symbol, inside, among⟩ := List.mem_flatMap.mp mem
  exact Symbol.read_blank (blank symbol inside) c among

/-- What lies between the first and the last visible symbol. -/
theorem exists_core (symbols : List Symbol) :
    (∀ symbol ∈ symbols, symbol.isBlank = true) ∨
      ∃ front core back, symbols = front ++ core ++ back ∧
        (∀ symbol ∈ front, symbol.isBlank = true) ∧ (∀ symbol ∈ back, symbol.isBlank = true) ∧
        (∃ symbol ∈ core.head?, symbol.isBlank = false) ∧
        ∃ symbol ∈ core.getLast?, symbol.isBlank = false := by
  induction symbols with
  | nil => exact Or.inl (fun _ mem => absurd mem List.not_mem_nil)
  | cons symbol symbols ih =>
    cases blank : symbol.isBlank with
    | true =>
      rcases ih with all | ⟨front, core, back, split, before, after, first, last⟩
      · exact Or.inl (List.forall_mem_cons.mpr ⟨blank, all⟩)
      · exact Or.inr ⟨symbol :: front, core, back, by rw [split]; rfl,
          List.forall_mem_cons.mpr ⟨blank, before⟩, after, first, last⟩
    | false =>
      rcases ih with all | ⟨front, core, back, split, before, after, first, last⟩
      · exact Or.inr ⟨[], [symbol], symbols, rfl, fun _ mem => absurd mem List.not_mem_nil, all,
          ⟨symbol, rfl, blank⟩, symbol, rfl, blank⟩
      · refine Or.inr ⟨[], symbol :: (front ++ core), back, ?_,
          fun _ mem => absurd mem List.not_mem_nil, after, ⟨symbol, rfl, blank⟩, ?_⟩
        · rw [split]
          rfl
        · obtain ⟨lastSymbol, inside, visible⟩ := last
          refine ⟨lastSymbol, ?_, visible⟩
          have filled : core ≠ [] := by
            rintro rfl
            cases inside
          rw [← List.cons_append, List.getLast?_append_of_ne_nil _ filled]
          exact inside

/-- An end of line that is kept has nothing visible before it or nothing behind it. -/
def LineEndsOutside (symbols : List Symbol) : Prop :=
  ∀ before symbol after, symbols = before ++ symbol :: after → symbol.misread = true →
    Blank (symbolsText before) ∨ Blank (symbolsText after)

theorem symbolsRead_eq_iff (symbols : List Symbol) :
    symbolsRead symbols = symbolsText symbols ↔ ∀ symbol ∈ symbols, symbol.misread = false := by
  have shorter : ∀ symbols : List Symbol,
      (symbolsText symbols).length ≤ (symbolsRead symbols).length := by
    intro symbols
    induction symbols with
    | nil => exact Nat.le_refl _
    | cons symbol symbols ih =>
      have first := symbol.length_text_le
      simp only [symbolsText, symbolsRead, List.flatMap_cons, List.length_append] at ih ⊢
      omega
  induction symbols with
  | nil => exact ⟨fun _ _ mem => absurd mem List.not_mem_nil, fun _ => rfl⟩
  | cons symbol symbols ih =>
    have read : symbolsRead (symbol :: symbols) = symbol.read ++ symbolsRead symbols := rfl
    have text : symbolsText (symbol :: symbols) = symbol.text ++ symbolsText symbols := rfl
    rw [read, text, List.forall_mem_cons]
    constructor
    · intro same
      have lengths := congrArg List.length same
      have first := symbol.length_text_le
      have others := shorter symbols
      rw [List.length_append, List.length_append] at lengths
      obtain ⟨here, later⟩ := List.append_inj same (by omega)
      exact ⟨symbol.read_eq_text_iff.mp here, ih.mp later⟩
    · rintro ⟨first, others⟩
      rw [symbol.read_eq_text_iff.mpr first, ih.mpr others]

/-- Visible symbols at both ends keep everything between them. -/
theorem trim_core {core : List Symbol} (first : ∃ symbol ∈ core.head?, symbol.isBlank = false)
    (last : ∃ symbol ∈ core.getLast?, symbol.isBlank = false) :
    trim (symbolsText core) = symbolsText core ∧ trim (symbolsRead core) = symbolsRead core := by
  obtain ⟨begin', head, visible⟩ := first
  obtain ⟨end', tail, visible'⟩ := last
  obtain ⟨c, rfl, shown⟩ := Symbol.eq_char_of_visible visible
  obtain ⟨d, rfl, shown'⟩ := Symbol.eq_char_of_visible visible'
  obtain ⟨later, front⟩ := List.head?_eq_some_iff.mp head
  obtain ⟨earlier, back⟩ := List.getLast?_eq_some_iff.mp tail
  have ends : ∀ (f : Symbol → List Char), f (.char c) = [c] → f (.char d) = [d] →
      trim (core.flatMap f) = core.flatMap f := by
    intro f first last
    apply trim_eq_self
    · exact ⟨c, by rw [front, List.flatMap_cons, first]; rfl, shown⟩
    · refine ⟨d, ?_, shown'⟩
      rw [back, List.flatMap_append, List.flatMap_cons, last, List.flatMap_nil]
      simp
  exact ⟨ends Symbol.text rfl rfl, ends Symbol.read rfl rfl⟩

/-- An end of line that is kept, where none is among the symbols of the core, is in what lies before
it or behind it. -/
theorem lineEndsOutside_of_core {front core back : List Symbol}
    (before : ∀ symbol ∈ front, symbol.isBlank = true)
    (after : ∀ symbol ∈ back, symbol.isBlank = true)
    (faithful : ∀ symbol ∈ core, symbol.misread = false) :
    LineEndsOutside (front ++ core ++ back) := by
  intro start symbol rest whole misread
  rw [List.append_assoc] at whole
  rcases List.append_eq_append_iff.mp whole with ⟨a, -, inner⟩ | ⟨a, early, -⟩
  · refine Or.inr (symbolsText_blank.mpr fun s mem => after s ?_)
    rcases List.append_eq_append_iff.mp inner with ⟨b, -, late⟩ | ⟨b, within, late⟩
    · rw [late]
      exact List.mem_append_right _ (List.mem_cons_of_mem _ mem)
    · cases b with
      | nil =>
        rw [List.nil_append] at late
        rw [← late]
        exact List.mem_cons_of_mem _ mem
      | cons head b =>
        have same : symbol = head := (List.cons_eq_cons.mp late).1
        have inside : symbol ∈ core := by rw [within, same]; simp
        rw [faithful symbol inside] at misread
        cases misread
  · refine Or.inl (symbolsText_blank.mpr fun s mem => before s ?_)
    rw [early]
    exact List.mem_append_left _ mem

/-- A core with a visible symbol at either end has something visible on both sides of an end of line
in it. -/
theorem faithful_of_lineEndsOutside {front core back : List Symbol}
    (first : ∃ symbol ∈ core.head?, symbol.isBlank = false)
    (last : ∃ symbol ∈ core.getLast?, symbol.isBlank = false)
    (outside : LineEndsOutside (front ++ core ++ back)) :
    ∀ symbol ∈ core, symbol.misread = false := by
  intro symbol mem
  by_contra wrong
  rw [Bool.not_eq_false] at wrong
  obtain ⟨x, y, cut⟩ := List.append_of_mem mem
  have whole : front ++ core ++ back = (front ++ x) ++ symbol :: (y ++ back) := by
    rw [cut]
    simp
  have blank := Symbol.isBlank_of_misread wrong
  rcases outside _ _ _ whole wrong with start | rest
  · obtain ⟨head, inside, visible⟩ := first
    have early := (List.forall_mem_append.mp (symbolsText_blank.mp start)).2
    rw [cut] at inside
    cases x with
    | nil =>
      cases inside
      rw [blank] at visible
      cases visible
    | cons head' x =>
      cases inside
      rw [early _ List.mem_cons_self] at visible
      cases visible
  · obtain ⟨tail, inside, visible⟩ := last
    have late := (List.forall_mem_append.mp (symbolsText_blank.mp rest)).1
    have among : tail ∈ symbol :: y := by
      rw [cut, List.getLast?_append_of_ne_nil _ (List.cons_ne_nil _ _)] at inside
      exact List.mem_of_getLast? inside
    have all : ∀ s ∈ symbol :: y, s.isBlank = true := List.forall_mem_cons.mpr ⟨blank, late⟩
    rw [all tail among] at visible
    cases visible

/-- The trimmed reading is the trimmed text exactly when no end of line is kept inside it. -/
theorem trim_symbolsRead_iff (symbols : List Symbol) :
    trim (symbolsRead symbols) = trim (symbolsText symbols) ↔ LineEndsOutside symbols := by
  rcases exists_core symbols with all | ⟨front, core, back, rfl, before, after, first, last⟩
  · have none : trim (symbolsRead symbols) = trim (symbolsText symbols) := by
      rw [trim_eq_nil.mpr (visible_eq_zero.mpr (symbolsRead_blank all)),
        trim_eq_nil.mpr (visible_eq_zero.mpr (symbolsText_blank.mpr all))]
    refine ⟨fun _ before symbol after split _ => Or.inl (symbolsText_blank.mpr ?_), fun _ => none⟩
    intro symbol mem
    exact all symbol (by rw [split]; exact List.mem_append_left _ mem)
  · obtain ⟨text, read⟩ := trim_core first last
    have trimmed : trim (symbolsText (front ++ core ++ back)) = symbolsText core := by
      rw [symbolsText_append, symbolsText_append,
        trim_append_blank _ (symbolsText_blank.mpr after),
        trim_blank_append (visible_eq_zero.mpr (symbolsText_blank.mpr before)), text]
    have trimmed' : trim (symbolsRead (front ++ core ++ back)) = symbolsRead core := by
      rw [symbolsRead_append, symbolsRead_append,
        trim_append_blank _ (symbolsRead_blank after),
        trim_blank_append (visible_eq_zero.mpr (symbolsRead_blank before)), read]
    rw [trimmed, trimmed', symbolsRead_eq_iff]
    exact ⟨lineEndsOutside_of_core before after, faithful_of_lineEndsOutside first last⟩

/-! The lossy conversion. -/

/-- A byte beyond ASCII is none that the scan acts on, and an escape of it is itself. -/
theorem high_plain : ∀ b : UInt8, 128 ≤ b → b ≠ byte '\\' ∧ b ≠ byte '(' ∧ b ≠ byte ')' ∧
    isOctalDigit b = false ∧ escapedChar b = byteChar b :=
  forall_byte (by decide +kernel)

theorem readText_high {unit : List UInt8} (high : ∀ b ∈ unit, 128 ≤ b) (filled : unit ≠ [])
    (escaped : Bool) (rest : List UInt8) :
    readText escaped (unit ++ rest) = unit.map byteChar ++ readText false rest := by
  induction unit generalizing escaped with
  | nil => exact absurd rfl filled
  | cons b unit ih =>
    obtain ⟨first, others⟩ := List.forall_mem_cons.mp high
    obtain ⟨backslash, -, -, -, itself⟩ := high_plain b first
    have here : readText escaped (b :: (unit ++ rest)) =
        byteChar b :: readText false (unit ++ rest) := by
      cases escaped with
      | true => rw [readText, itself]
      | false => rw [readText, if_neg backslash]
    rw [List.cons_append, here]
    cases unit with
    | nil => rfl
    | cons c unit =>
      rw [ih others (List.cons_ne_nil c unit)]
      rfl

theorem octalFree_high {unit : List UInt8} (high : ∀ b ∈ unit, 128 ≤ b) (filled : unit ≠ [])
    (escaped : Bool) (rest : List UInt8) :
    octalFree escaped (unit ++ rest) = octalFree false rest := by
  induction unit generalizing escaped with
  | nil => exact absurd rfl filled
  | cons b unit ih =>
    obtain ⟨first, others⟩ := List.forall_mem_cons.mp high
    obtain ⟨backslash, -, -, digit, -⟩ := high_plain b first
    have here : octalFree escaped (b :: (unit ++ rest)) = octalFree false (unit ++ rest) := by
      cases escaped with
      | true => rw [octalFree, digit]; rfl
      | false => rw [octalFree, decide_eq_false backslash]
    rw [List.cons_append, here]
    cases unit with
    | nil => rfl
    | cons c unit => exact ih others (List.cons_ne_nil c unit) false

theorem nesting_high {unit : List UInt8} (high : ∀ b ∈ unit, 128 ≤ b) (filled : unit ≠ [])
    (escaped : Bool) (depth : Nat) (rest : List UInt8) :
    nesting escaped depth (unit ++ rest) = nesting false depth rest := by
  induction unit generalizing escaped with
  | nil => exact absurd rfl filled
  | cons b unit ih =>
    obtain ⟨first, others⟩ := List.forall_mem_cons.mp high
    obtain ⟨backslash, opens, closes, -, -⟩ := high_plain b first
    have here : nesting escaped depth (b :: (unit ++ rest)) =
        nesting false depth (unit ++ rest) := by
      cases escaped with
      | true => rw [nesting]
      | false => rw [nesting, if_neg backslash, if_neg opens, if_neg closes]
    rw [List.cons_append, here]
    cases unit with
    | nil => rfl
    | cons c unit => exact ih others (List.cons_ne_nil c unit) false

theorem octalFree_units {bytes read : List UInt8} (units : Utf8.Units bytes read)
    (escaped : Bool) : octalFree escaped read = octalFree escaped bytes := by
  induction units generalizing escaped with
  | nil => rfl
  | ascii small later ih =>
    cases escaped with
    | true => rw [octalFree, octalFree, ih]
    | false => rw [octalFree, octalFree, ih]
  | whole high filled later ih => rw [octalFree_high high filled, octalFree_high high filled, ih]
  | broken high filled short other later ih =>
    rw [octalFree_high high filled, octalFree_high Utf8.replacement_high (by decide), ih]

theorem nesting_units {bytes read : List UInt8} (units : Utf8.Units bytes read)
    (escaped : Bool) (depth : Nat) : nesting escaped depth read = nesting escaped depth bytes := by
  induction units generalizing escaped depth with
  | nil => rfl
  | ascii small later ih =>
    cases escaped with
    | true => rw [nesting, nesting, ih]
    | false => simp only [nesting, ih]
  | whole high filled later ih => rw [nesting_high high filled, nesting_high high filled, ih]
  | broken high filled short other later ih =>
    rw [nesting_high high filled, nesting_high Utf8.replacement_high (by decide), ih]

theorem byteChar_injective {a b : UInt8} (same : byteChar a = byteChar b) : a = b := by
  have number : ∀ b : UInt8, UInt8.ofNat (byteChar b).toNat = b := forall_byte (by decide +kernel)
  rw [← number a, same, number]

theorem readText_cons (escaped : Bool) (b : UInt8) : ∃ front after, ∀ rest,
    readText escaped (b :: rest) = front ++ readText after rest := by
  cases escaped with
  | true => exact ⟨[escapedChar b], false, fun _ => rfl⟩
  | false =>
    by_cases escapes : b = byte '\\'
    · exact ⟨[], true, fun _ => by rw [readText, if_pos escapes]; rfl⟩
    · exact ⟨[byteChar b], false, fun _ => by rw [readText, if_neg escapes]; rfl⟩

/-- No less is visible in what is converted, and the same only if nothing was replaced. -/
theorem visibles_units {bytes read : List UInt8} (units : Utf8.Units bytes read)
    (escaped : Bool) :
    (visibles (readText escaped bytes)).length ≤ (visibles (readText escaped read)).length ∧
      (visibles (readText escaped read) = visibles (readText escaped bytes) → read = bytes) := by
  induction units generalizing escaped with
  | nil => exact ⟨Nat.le_refl _, fun _ => rfl⟩
  | @ascii b rest read small later ih =>
    obtain ⟨front, after, step⟩ := readText_cons escaped b
    obtain ⟨shorter, equal⟩ := ih after
    rw [step, step, visibles_append, visibles_append, List.length_append, List.length_append]
    refine ⟨by omega, fun same => ?_⟩
    rw [equal (List.append_cancel_left same)]
  | @whole unit rest read high filled later ih =>
    obtain ⟨shorter, equal⟩ := ih false
    rw [readText_high high filled, readText_high high filled, visibles_append, visibles_append,
      List.length_append, List.length_append]
    refine ⟨by omega, fun same => ?_⟩
    rw [equal (List.append_cancel_left same)]
  | @broken unit rest read high filled short other later ih =>
    obtain ⟨shorter, equal⟩ := ih false
    rw [readText_high high filled, readText_high Utf8.replacement_high (by decide), visibles_append,
      visibles_append, List.length_append, List.length_append]
    have three : visibles (Utf8.replacement.map byteChar) = Utf8.replacement.map byteChar := by
      decide
    have few : (visibles (unit.map byteChar)).length ≤ unit.length := by
      have := List.length_filter_le (fun c => !isWhitespace c) (unit.map byteChar)
      rwa [List.length_map] at this
    have size : (Utf8.replacement.map byteChar).length = 3 := rfl
    rw [three, size]
    refine ⟨by omega, fun same => ?_⟩
    have lengths := congrArg List.length same
    rw [List.length_append, List.length_append, size] at lengths
    have replaced := (List.append_inj same (by rw [size]; omega)).1
    have all : visibles (unit.map byteChar) = unit.map byteChar := by
      apply List.filter_sublist.eq_of_length
      have full : (visibles (unit.map byteChar)).length = unit.length := by
        rw [← replaced, size] at few ⊢
        omega
      rw [List.length_map]
      exact full
    rw [all] at replaced
    have same' : Utf8.replacement = unit :=
      List.map_injective_iff.mpr (fun _ _ => byteChar_injective) replaced
    exact absurd same'.symm other

def LiteralString.lossy (value : LiteralString) : LiteralString where
  inner := Utf8.lossy value.inner
  closed := by rw [nesting_units (Utf8.units_lossy value.inner), value.closed]

/-- Bytes that none of the scan's stops is among. -/
structure Filler (stops : UInt8 → Bool) where
  bytes : List UInt8
  quiet : ∀ b ∈ bytes, stops b = false

/-- No byte beyond ASCII stops the scan. -/
class AsciiStops (stops : UInt8 → Bool) : Prop where
  high : ∀ b, 128 ≤ b → stops b = false

def Filler.lossy {stops : UInt8 → Bool} [AsciiStops stops] (filler : Filler stops) :
    Filler stops where
  bytes := Utf8.lossy filler.bytes
  quiet := Utf8.forall_units (Utf8.units_lossy filler.bytes) AsciiStops.high filler.quiet

end Pdf

end Amatl
