import Amatl.PdfScan

/-! The text that is collected from a stream, against what the stream means. -/

namespace Amatl

namespace Pdf

open Text

/-! What is converted against what is meant. -/

theorem Token.lossy_plain {token : Token} (plain : token.Plain) : token.lossy.Plain := by
  cases token with
  | literal value =>
    change octalFree false (Utf8.lossy value.inner) = true
    rw [octalFree_units (Utf8.units_lossy value.inner)]
    exact plain
  | angle inner => trivial

theorem hexValue_high : ∀ b : UInt8, 128 ≤ b → hexValue b = none := forall_byte (by decide +kernel)

theorem symbolsText_chars (text : List Char) : symbolsText (text.map .char) = text := by
  simp [symbolsText, List.flatMap_map, Symbol.text, List.flatMap_singleton']

theorem symbolsRead_chars (text : List Char) : symbolsRead (text.map .char) = text := by
  simp [symbolsRead, List.flatMap_map, Symbol.read, List.flatMap_singleton']

theorem Token.angle_read (inner : Filler closesAngle) :
    (Token.angle inner).lossy.read = angleText inner.bytes := by
  change angleText (Utf8.lossy inner.bytes) = angleText inner.bytes
  rw [angleText, Utf8.filterMap_units (Utf8.units_lossy inner.bytes) hexValue_high]
  rfl

/-- A string that the conversion keeps is read as its symbols are written. -/
theorem Token.read_of_kept {token : Token} (plain : token.Plain) (kept : token.Kept) :
    token.lossy.read = symbolsRead token.symbols := by
  cases token with
  | literal value =>
    change readText false (Utf8.lossy value.inner) = symbolsRead (Pdf.symbols 0 value.inner)
    rw [kept, symbolsRead_symbols 0 plain]
    rfl
  | angle inner =>
    rw [Token.angle_read]
    exact (symbolsRead_chars _).symm

theorem Token.visibles_lossy {token : Token} (plain : token.Plain) :
    (visibles (symbolsText token.symbols)).length ≤ (visibles token.lossy.read).length ∧
      (visibles token.lossy.read = visibles (symbolsText token.symbols) → token.Kept) := by
  cases token with
  | literal value =>
    have units := visibles_units (Utf8.units_lossy value.inner) false
    have meant : visibles (symbolsText (Pdf.symbols 0 value.inner)) =
        visibles (readText false value.inner) := by
      rw [← visibles_symbolsRead, symbolsRead_symbols 0 plain]
      rfl
    rw [← meant] at units
    exact units
  | angle inner =>
    have same : symbolsText (Token.angle inner).symbols = (Token.angle inner).lossy.read := by
      rw [Token.angle_read]
      exact symbolsText_chars _
    rw [same]
    exact ⟨Nat.le_refl _, fun _ => trivial⟩

theorem Operand.lossy_tokens (operand : Operand) :
    operand.lossy.tokens = operand.tokens.map Token.lossy := by
  cases operand with
  | string token => rfl
  | array inner =>
    change (inner.items.map (fun item => (item.1.lossy, item.2.lossy))).map Prod.snd =
      (inner.items.map Prod.snd).map Token.lossy
    rw [List.map_map, List.map_map]
    rfl

theorem Operand.lossy_plain {operand : Operand} (plain : operand.Plain) :
    operand.lossy.Plain := by
  intro token mem
  rw [Operand.lossy_tokens] at mem
  obtain ⟨token, inside, rfl⟩ := List.mem_map.mp mem
  exact Token.lossy_plain (plain token inside)

theorem Operand.lossy_read (operand : Operand) :
    operand.lossy.read = operand.tokens.flatMap (fun token => token.lossy.read) := by
  rw [Operand.read, Operand.lossy_tokens, List.flatMap_map]

theorem Operand.read_of_kept {operand : Operand} (plain : operand.Plain) (kept : operand.Kept) :
    operand.lossy.read = symbolsRead operand.symbols := by
  rw [Operand.lossy_read, Operand.symbols, symbolsRead, List.flatMap_assoc]
  exact List.flatMap_congr (fun token mem => Token.read_of_kept (plain token mem) (kept token mem))

theorem visibles_tokens {tokens : List Token} (plain : ∀ token ∈ tokens, token.Plain) :
    (visibles (symbolsText (tokens.flatMap Token.symbols))).length ≤
        (visibles (tokens.flatMap (fun token => token.lossy.read))).length ∧
      (visibles (tokens.flatMap (fun token => token.lossy.read)) =
        visibles (symbolsText (tokens.flatMap Token.symbols)) → ∀ token ∈ tokens, token.Kept) := by
  induction tokens with
  | nil => exact ⟨Nat.le_refl _, fun _ token mem => absurd mem List.not_mem_nil⟩
  | cons token tokens ih =>
    obtain ⟨first, others⟩ := List.forall_mem_cons.mp plain
    obtain ⟨shorter, equal⟩ := Token.visibles_lossy first
    obtain ⟨shorter', equal'⟩ := ih others
    rw [List.flatMap_cons, List.flatMap_cons, symbolsText_append, visibles_append,
      visibles_append, List.length_append, List.length_append]
    refine ⟨by omega, fun same => ?_⟩
    have lengths := congrArg List.length same
    rw [List.length_append, List.length_append] at lengths
    obtain ⟨here, later⟩ := List.append_inj same (by omega)
    exact List.forall_mem_cons.mpr ⟨equal here, equal' later⟩

theorem Operand.visibles_lossy {operand : Operand} (plain : operand.Plain) :
    (visibles operand.text).length ≤ (visibles operand.lossy.read).length ∧
      (visibles operand.lossy.read = visibles operand.text → operand.Kept) := by
  rw [Operand.lossy_read]
  exact visibles_tokens plain

/-- What is shown of a string is what it means exactly when its bytes are kept and no end of line
is kept inside it. -/
theorem Operand.trim_read_iff {operand : Operand} (plain : operand.Plain) :
    trim operand.lossy.read = trim operand.text ↔
      operand.Kept ∧ LineEndsOutside operand.symbols := by
  constructor
  · intro same
    have seen : visibles operand.lossy.read = visibles operand.text := by
      rw [← visibles_trim, same, visibles_trim]
    have kept := (Operand.visibles_lossy plain).2 seen
    rw [Operand.read_of_kept plain kept] at same
    exact ⟨kept, (trim_symbolsRead_iff operand.symbols).mp same⟩
  · rintro ⟨kept, outside⟩
    rw [Operand.read_of_kept plain kept]
    exact (trim_symbolsRead_iff operand.symbols).mpr outside

theorem Spaced.lossy_values {stops : UInt8 → Bool} [AsciiStops stops] {α : Type}
    (convert : α → α) (spaced : Spaced stops α) :
    (spaced.lossy convert).values = spaced.values.map convert := by
  simp [Spaced.values, Spaced.lossy]

theorem Stream.lossy_operands (stream : Stream) :
    stream.lossy.operands = stream.operands.map Operand.lossy := by
  simp [Stream.operands, Stream.lossy, Showing.lossy]

theorem Stream.lossy_others (stream : Stream) :
    stream.lossy.others = stream.others.map Operand.lossy := by
  simp [Stream.others, Stream.lossy, Showing.lossy, Spaced.lossy_values, List.flatMap_map,
    List.map_flatMap]

theorem Stream.lossy_plain {stream : Stream} (plain : stream.Plain) : stream.lossy.Plain where
  operands operand mem := by
    rw [Stream.lossy_operands] at mem
    obtain ⟨operand, inside, rfl⟩ := List.mem_map.mp mem
    exact Operand.lossy_plain (plain.operands operand inside)
  others operand mem := by
    rw [Stream.lossy_others] at mem
    obtain ⟨operand, inside, rfl⟩ := List.mem_map.mp mem
    exact Operand.lossy_plain (plain.others operand inside)

/-! The strings that come out. -/

theorem Operand.visible_le {operand : Operand} (plain : operand.Plain) :
    visible operand.text ≤ visible operand.lossy.read := by
  rw [← length_visibles, ← length_visibles]
  exact (Operand.visibles_lossy plain).1

/-- What is visible in the texts of strings. -/
def textVisible (operands : List Operand) : Nat :=
  (operands.map (fun operand => visible operand.text)).sum

theorem textVisible_le {operands : List Operand} (plain : ∀ operand ∈ operands, operand.Plain) :
    textVisible operands ≤ readVisible (operands.map Operand.lossy) := by
  induction operands with
  | nil => exact Nat.le_refl _
  | cons operand operands ih =>
    obtain ⟨first, others⟩ := List.forall_mem_cons.mp plain
    have here := Operand.visible_le first
    have later := ih others
    simp only [readVisible, textVisible, List.map_cons, List.sum_cons] at later ⊢
    omega

theorem visible_each {operands : List Operand} (plain : ∀ operand ∈ operands, operand.Plain)
    (sums : readVisible (operands.map Operand.lossy) ≤ textVisible operands) :
    ∀ operand ∈ operands, visible operand.lossy.read = visible operand.text := by
  induction operands with
  | nil => exact fun operand mem => absurd mem List.not_mem_nil
  | cons operand operands ih =>
    obtain ⟨first, others⟩ := List.forall_mem_cons.mp plain
    have here := Operand.visible_le first
    have later := textVisible_le others
    simp only [readVisible, textVisible, List.map_cons, List.sum_cons] at sums later ih
    exact List.forall_mem_cons.mpr ⟨by omega, ih others (by omega)⟩

theorem shownOf_shownAs (text : Operand → List Char) (operands : List Operand) :
    shownOf (shownAs text operands) = (operands.map (fun operand => visible (text operand))).sum := by
  induction operands with
  | nil => rfl
  | cons operand operands ih =>
    rw [shownAs, List.map_cons, List.map_cons, List.sum_cons, ← ih]
    by_cases empty : trim (text operand) = []
    · rw [List.filter_cons_of_neg (by simp [empty]), trim_eq_nil.mp empty, Nat.zero_add]
      rfl
    · rw [List.filter_cons_of_pos (by simp [empty]), shownOf, List.map_cons, List.sum_cons,
        visible_trim]
      rfl

/-- Texts that are blank together come out alike only if each of them does. -/
theorem shownAs_inj {text text' : Operand → List Char} {operands : List Operand}
    (alike : ∀ operand ∈ operands, visible (text operand) = visible (text' operand))
    (same : shownAs text operands = shownAs text' operands) :
    ∀ operand ∈ operands, trim (text operand) = trim (text' operand) := by
  induction operands with
  | nil => exact fun operand mem => absurd mem List.not_mem_nil
  | cons operand operands ih =>
    obtain ⟨first, others⟩ := List.forall_mem_cons.mp alike
    rw [shownAs, shownAs, List.map_cons, List.map_cons] at same
    by_cases empty : trim (text operand) = []
    · have empty' : trim (text' operand) = [] := by
        rw [trim_eq_nil, ← first, ← trim_eq_nil, empty]
      rw [List.filter_cons_of_neg (by simp [empty]),
        List.filter_cons_of_neg (by simp [empty'])] at same
      exact List.forall_mem_cons.mpr ⟨by rw [empty, empty'], ih others same⟩
    · have filled : trim (text' operand) ≠ [] := by
        rw [Ne, trim_eq_nil, ← first, ← trim_eq_nil]
        exact empty
      rw [List.filter_cons_of_pos (by simp [empty]),
        List.filter_cons_of_pos (by simp [filled])] at same
      obtain ⟨here, later⟩ := List.cons_eq_cons.mp same
      exact List.forall_mem_cons.mpr ⟨here, ih others later⟩

theorem shownAs_lossy (operands : List Operand) :
    shownAs Operand.read (operands.map Operand.lossy) =
      shownAs (fun operand => operand.lossy.read) operands := by
  rw [shownAs, shownAs, List.map_map]
  rfl

theorem collected_of_clean {stream : Stream} (plain : stream.Plain) (clean : stream.Clean) :
    collectPdfText stream.lossy.bytes = stream.shown := by
  have none : readVisible stream.lossy.others = 0 := by
    rw [Stream.lossy_others, readVisible, List.map_map, List.sum_eq_zero_iff_forall_eq_nat]
    intro count mem
    obtain ⟨operand, inside, rfl⟩ := List.mem_map.mp mem
    have written := Operand.read_of_kept (plain.others operand inside)
      (clean.othersKept operand inside)
    have blank : visibles (symbolsText operand.symbols) = [] :=
      visibles_eq_nil.mpr (clean.blank operand inside)
    change visible operand.lossy.read = 0
    rw [written, ← length_visibles, visibles_symbolsRead, blank]
    rfl
  have start : visible [] = 0 := rfl
  rw [collectPdfText, collectScan_stream (Stream.lossy_plain plain) none start,
    Stream.lossy_operands, shownAs_lossy, shownAs, Stream.shown]
  congr 1
  exact List.map_congr_left (fun operand mem =>
    (Operand.trim_read_iff (plain.operands operand mem)).mpr
      ⟨clean.kept operand mem, clean.lineEnds operand mem⟩)

theorem clean_of_collected {stream : Stream} (plain : stream.Plain)
    (same : collectPdfText stream.lossy.bytes = stream.shown) : stream.Clean := by
  have total := shownOf_collected (Stream.lossy_plain plain)
  have meant : shownOf stream.shown = textVisible stream.operands :=
    shownOf_shownAs Operand.text stream.operands
  rw [same, meant, Stream.lossy_operands] at total
  have least := textVisible_le plain.operands
  have each := visible_each plain.operands (by omega)
  have none : readVisible stream.lossy.others = 0 := by omega
  have start : visible [] = 0 := rfl
  rw [collectPdfText, collectScan_stream (Stream.lossy_plain plain) none start,
    Stream.lossy_operands, shownAs_lossy] at same
  have trimmed := shownAs_inj each same
  have shown : ∀ operand ∈ stream.operands, operand.Kept ∧ LineEndsOutside operand.symbols :=
    fun operand mem => (Operand.trim_read_iff (plain.operands operand mem)).mp
      (trimmed operand mem)
  have others : ∀ operand ∈ stream.others, Blank operand.text ∧ operand.Kept := by
    intro operand mem
    have unseen : visible operand.lossy.read = 0 := by
      rw [Stream.lossy_others, readVisible, List.map_map,
        List.sum_eq_zero_iff_forall_eq_nat] at none
      exact none _ (List.mem_map_of_mem mem)
    obtain ⟨fewer, kept⟩ := Operand.visibles_lossy (plain.others operand mem)
    rw [length_visibles, length_visibles, unseen] at fewer
    have blank : Blank operand.text := visible_eq_zero.mp (Nat.le_zero.mp fewer)
    refine ⟨blank, kept ?_⟩
    rw [visibles_eq_nil.mpr blank, visibles_eq_nil.mpr (visible_eq_zero.mp unseen)]
  exact ⟨fun operand mem => (others operand mem).1, fun operand mem => (others operand mem).2,
    fun operand mem => (shown operand mem).1, fun operand mem => (shown operand mem).2⟩

/-! Every slice is in range, and the rounds are enough. -/

theorem isPrefixOf_at {needle hay : List UInt8} {i : Nat}
    (h : needle.isPrefixOf (hay.drop i) = true) (filled : needle ≠ []) :
    i + needle.length ≤ hay.length ∧ hay[i]? = needle.head? := by
  obtain ⟨rest, whole⟩ := List.isPrefixOf_iff_prefix.mp h
  have length := congrArg List.length whole
  rw [List.length_append, List.length_drop] at length
  have some : 0 < needle.length := List.length_pos_iff.mpr filled
  refine ⟨by omega, ?_⟩
  have first : (hay.drop i).head? = hay[i]? := List.head?_drop
  rw [← first, ← whole, List.head?_append_of_ne_nil _ filled]

theorem findStreamKeyword_spec {hay : List UInt8} {searchFrom start : Nat}
    (h : findStreamKeyword hay searchFrom = some start) :
    searchFrom ≤ start ∧ start + 6 ≤ hay.length ∧ isCharBoundary hay (start + 6) = true := by
  have keyword := List.find?_some h
  have place := List.mem_range'_1.mp (List.mem_of_find?_eq_some h)
  rw [keywordAt, Bool.and_eq_true, Bool.and_eq_true] at keyword
  have inside := (isPrefixOf_at keyword.1.1 (by decide)).1
  refine ⟨place.1, inside, ?_⟩
  rw [isCharBoundary]
  cases next : hay[start + 6]? with
  | none =>
    have ends : hay.length ≤ start + 6 := List.getElem?_eq_none_iff.mp next
    have same : start + 6 = hay.length := Nat.le_antisymm inside ends
    simp [same]
  | some b =>
    have space := keyword.2
    rw [next, Option.all_some] at space
    have small : ∀ b : UInt8, isAsciiWhitespace b = true → b < 128 := by
      intro b space
      simp only [isAsciiWhitespace, Bool.or_eq_true, decide_eq_true_eq] at space
      rcases space with (((rfl | rfl) | rfl) | rfl) | rfl
      all_goals decide
    simp [small b space]

theorem findSub_spec {hay : List UInt8} {start stop : Nat}
    (h : findSub hay start (asciiBytes "endstream") = some stop) :
    start ≤ stop ∧ stop + 9 ≤ hay.length ∧ isCharBoundary hay stop = true := by
  have keyword := List.find?_some h
  have place := List.mem_range'_1.mp (List.mem_of_find?_eq_some h)
  obtain ⟨inside, first⟩ := isPrefixOf_at keyword (by decide)
  refine ⟨place.1, inside, ?_⟩
  rw [isCharBoundary, first]
  simp [asciiBytes, byte]

theorem streamParts_isSome {hay : List UInt8} {rounds searchFrom : Nat}
    (enough : hay.length - searchFrom < rounds) : (streamParts hay rounds searchFrom).isSome := by
  induction rounds generalizing searchFrom with
  | zero => omega
  | succ rounds ih =>
    rw [streamParts]
    cases keyword : findStreamKeyword hay searchFrom with
    | none => rfl
    | some start =>
      cases end' : findSub hay (start + 6) (asciiBytes "endstream") with
      | none =>
        simp only [end']
        rfl
      | some stop =>
        obtain ⟨later, inside, first⟩ := findStreamKeyword_spec keyword
        obtain ⟨order, fits, last⟩ := findSub_spec end'
        have sliced : slice hay (start + 6) stop =
            some ((hay.drop (start + 6)).take (stop - (start + 6))) :=
          if_pos ⟨order, by omega, first, last⟩
        obtain ⟨parts, read⟩ := Option.isSome_iff_exists.mp
          (ih (show hay.length - (stop + 9) < rounds by omega))
        simp only [end', sliced, read]
        rfl

theorem extractPdfRust_isSome (bytes : List UInt8) : (extractPdfRust bytes).isSome = true := by
  rw [extractPdfRust, Option.isSome_map]
  exact streamParts_isSome (by omega)

/-- Without octal escapes the shown strings come out, and nothing else, exactly when the stream is
clean, and no bytes lead out of range. The scan gets the stream as the conversion of the file leaves
it. -/
theorem collectPdfText_iff (stream : Stream) (bytes : List UInt8) :
    (stream.Plain →
        (collectPdfText (Utf8.lossy stream.bytes) = stream.shown ↔ stream.Clean)) ∧
      (extractPdfRust bytes).isSome = true := by
  refine ⟨fun plain => ?_, extractPdfRust_isSome bytes⟩
  rw [Stream.lossy_bytes]
  exact ⟨clean_of_collected plain, collected_of_clean plain⟩

/-- Two lines of a text object: an array with kerning between its strings, the second of which goes
on in a line that is empty, and in marked content without properties a string with a character of
UTF-8. -/
def linesStream : Stream where
  showings :=
    [{ before := ⟨[], ⟨asciiBytes "BT /F1 12 Tf ", forall_mem_of_all (by decide)⟩⟩
       operand := .array
        { items :=
            [(⟨[], by simp⟩, .literal ⟨asciiBytes "Vol", by decide⟩),
              (⟨asciiBytes " -20 ", forall_mem_of_all (by decide)⟩,
                .literal ⟨asciiBytes "ume \\(1\\)\\\n", by decide⟩)]
          last := ⟨[], by simp⟩ }
       gap := asciiBytes " "
       operator := .tjArray
       spaces := forall_mem_of_all (by decide) },
     { before :=
        { items := [(⟨asciiBytes " /P ", forall_mem_of_all (by decide)⟩,
            .string (.angle ⟨asciiBytes "< ", forall_mem_of_all (by decide)⟩))]
          last := ⟨asciiBytes "> BDC T* ", forall_mem_of_all (by decide)⟩ }
       operand := .string (.literal ⟨[0x63, 0xc3, 0xa9], by decide⟩)
       gap := []
       operator := .tj
       spaces := by simp }]
  after := ⟨[], ⟨asciiBytes " EMC ET", forall_mem_of_all (by decide)⟩⟩

theorem linesStream_plain : linesStream.Plain where
  operands := by decide
  others := by decide

theorem linesStream_clean : linesStream.Clean where
  blank := by decide
  othersKept := by decide
  kept := by decide
  lineEnds := by
    have read : ∀ operand ∈ linesStream.operands,
        trim (symbolsRead operand.symbols) = trim (symbolsText operand.symbols) := by
      decide
    exact fun operand mem => (trim_symbolsRead_iff _).mp (read operand mem)

theorem linesStream_collected :
    linesStream.bytes =
        asciiBytes "BT /F1 12 Tf [(Vol) -20 (ume \\(1\\)\\\n)] TJ /P << >> BDC T* (c" ++
          [0xc3, 0xa9] ++ asciiBytes ")Tj EMC ET" ∧
      linesStream.shown = ["Volume (1)".toList, "cÃ©".toList] ∧
      collectPdfText (Utf8.lossy linesStream.bytes) = linesStream.shown :=
  ⟨by decide, by decide +kernel,
    ((collectPdfText_iff linesStream []).1 linesStream_plain).mpr linesStream_clean⟩

def helloString : LiteralString := ⟨asciiBytes "Hello", by decide⟩

/-- A text in marked content, with the identifier that ties it to the structure of the document. -/
def markedStream : Stream where
  showings :=
    [{ before :=
        { items := [(⟨asciiBytes "/P ", forall_mem_of_all (by decide)⟩,
            .string (.angle ⟨asciiBytes "</MCID 0", forall_mem_of_all (by decide)⟩))]
          last := ⟨asciiBytes "> BDC ", forall_mem_of_all (by decide)⟩ }
       operand := .string (.literal helloString)
       gap := asciiBytes " "
       operator := .tj
       spaces := forall_mem_of_all (by decide) }]
  after := ⟨[], ⟨asciiBytes " EMC", forall_mem_of_all (by decide)⟩⟩

/-- The hexadecimal letters of the dictionary come out as text. -/
theorem markedStream_reads :
    markedStream.bytes = asciiBytes "/P <</MCID 0>> BDC (Hello) Tj EMC" ∧
      markedStream.shown = ["Hello".toList] ∧
      collectPdfText (Utf8.lossy markedStream.bytes) =
        [Char.ofNat 0xcd :: Char.ofNat 0 :: "Hello".toList] ∧
      collectPdfText (Utf8.lossy markedStream.bytes) ≠ markedStream.shown := by
  refine ⟨by decide, by decide +kernel, by decide +kernel, by decide +kernel⟩

/-- A string shown by itself. -/
def loneStream (value : LiteralString) : Stream where
  showings := [⟨⟨[], ⟨[], by simp⟩⟩, .string (.literal value), [], .tj, by simp⟩]
  after := ⟨[], ⟨[], by simp⟩⟩

/-! A byte beyond ASCII that is not UTF-8 is lost, and a line that goes on in the next one is
broken. -/

example : (loneStream ⟨[0x63, 0xe9], by decide⟩).shown = ["cé".toList] ∧
    collectPdfText (Utf8.lossy (loneStream ⟨[0x63, 0xe9], by decide⟩).bytes) = ["cï¿½".toList] := by
  decide

example : (loneStream ⟨asciiBytes "wo\\\nrd", by decide⟩).shown = ["word".toList] ∧
    collectPdfText (Utf8.lossy (loneStream ⟨asciiBytes "wo\\\nrd", by decide⟩).bytes) =
      ["wo\nrd".toList] := by
  decide

end Pdf

end Amatl
