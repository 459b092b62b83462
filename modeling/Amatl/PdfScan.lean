import Amatl.PdfStream

/-! The scan over a stream. It takes every string for one that is shown, so what other operators are
given comes out with the next text. -/

namespace Amatl

namespace Pdf

open Text

def shownOf (parts : List (List Char)) : Nat := (parts.map visible).sum

theorem shownOf_append (a b : List (List Char)) : shownOf (a ++ b) = shownOf a + shownOf b := by
  rw [shownOf, List.map_append, List.sum_append]
  rfl

theorem flush_visible (line : List Char) :
    visible (flush line).1 + shownOf (flush line).2 = visible line := by
  rw [flush]
  split
  · rfl
  · have whole : shownOf [trim line] = visible line := by
      rw [shownOf, List.map_singleton, List.sum_singleton, visible_trim]
    rw [whole]
    exact Nat.zero_add _

theorem flush_blank {line : List Char} (blank : visible line = 0) : flush line = (line, []) := by
  rw [flush, if_pos (trim_eq_nil.mpr blank)]

/-! What is opened is read up to its end. -/

theorem hexValue_small {b v : UInt8} (h : hexValue b = some v) : v.toNat < 16 := by
  have all : ∀ b : UInt8, ∀ v ∈ hexValue b, v.toNat < 16 := forall_byte (by decide +kernel)
  exact all b v h

theorem byteChar_pair {high low : UInt8} (h : high.toNat < 16) (l : low.toNat < 16) :
    byteChar (high <<< 4 ||| low) = Char.ofNat (16 * high.toNat + low.toNat) := by
  have all : ∀ h < 16, ∀ l < 16,
      (UInt8.ofNat h <<< 4 ||| UInt8.ofNat l).toNat = 16 * h + l := by decide
  have pair := all high.toNat h low.toNat l
  rw [UInt8.ofNat_toNat, UInt8.ofNat_toNat] at pair
  rw [byteChar, pair]

theorem byteChar_high {high : UInt8} (h : high.toNat < 16) :
    byteChar (high <<< 4) = Char.ofNat (16 * high.toNat) := by
  have all : ∀ h < 16, (UInt8.ofNat h <<< 4).toNat = 16 * h := by decide
  have pair := all high.toNat h
  rw [UInt8.ofNat_toNat] at pair
  rw [byteChar, pair]

theorem hexScan_angle {inner : List UInt8} (unclosed : ∀ b ∈ inner, closesAngle b = false)
    {high : Option UInt8} (small : ∀ h ∈ high, h.toNat < 16) (rest : List UInt8) :
    hexScan high (inner ++ byte '>' :: rest) =
      some (hexText (high.toList ++ inner.filterMap hexValue), rest) := by
  induction inner generalizing high with
  | nil =>
    rw [List.nil_append, hexScan.eq_def]
    cases high with
    | none => rfl
    | some h => simp [hexText, byteChar_high (small h rfl)]
  | cons b inner ih =>
    obtain ⟨first, inside⟩ := List.forall_mem_cons.mp unclosed
    have other : b ≠ byte '>' := of_decide_eq_false first
    rw [List.cons_append, hexScan.eq_def]
    simp only [other, if_false]
    cases digit : hexValue b with
    | none =>
      rw [List.filterMap_cons_none digit]
      exact ih inside small
    | some value =>
      have low := hexValue_small digit
      rw [List.filterMap_cons_some digit]
      cases high with
      | none =>
        have started : hexScan (some value) (inner ++ byte '>' :: rest) =
            some (hexText (value :: inner.filterMap hexValue), rest) :=
          ih inside (fun h mem => by cases mem; exact low)
        exact started
      | some h =>
        have continued : hexScan none (inner ++ byte '>' :: rest) =
            some (hexText (inner.filterMap hexValue), rest) :=
          ih inside (fun h mem => by cases mem)
        simp only [continued, Option.map_some, behind, byteChar_pair (small h rfl) low]
        rfl

theorem arrayScan_skip (front rest : List UInt8) :
    arrayScan front.length (front ++ rest) = arrayScan 0 rest := by
  induction front with
  | nil => rfl
  | cons b front ih => exact ih

theorem arrayScan_passed (inner rest : List UInt8) :
    arrayScan ((inner ++ rest).length - rest.length) (inner ++ rest) = arrayScan 0 rest := by
  rw [List.length_append, Nat.add_sub_cancel, arrayScan_skip]

theorem arrayScan_filler (filler : Filler stopsArray) (rest : List UInt8) :
    arrayScan 0 (filler.bytes ++ rest) = arrayScan 0 rest := by
  obtain ⟨bytes, quiet⟩ := filler
  induction bytes with
  | nil => rfl
  | cons b bytes ih =>
    obtain ⟨first, others⟩ := List.forall_mem_cons.mp quiet
    simp only [stopsArray, Bool.or_eq_false_iff, decide_eq_false_iff_not] at first
    change arrayScan 0 (b :: (bytes ++ rest)) = _
    rw [arrayScan, if_neg first.1.1, if_neg first.1.2, if_neg first.2]
    exact ih others

theorem arrayScan_token {token : Token} (plain : token.Plain) (rest : List UInt8) :
    arrayScan 0 (token.bytes ++ rest) = (arrayScan 0 rest).map (behind token.read) := by
  cases token with
  | literal value =>
    have opens : (Token.literal value).bytes ++ rest =
        byte '(' :: (value.inner ++ byte ')' :: rest) := by simp [Token.bytes]
    have passed := arrayScan_passed (value.inner ++ [byte ')']) rest
    rw [List.append_assoc, List.singleton_append] at passed
    rw [opens, arrayScan, if_neg (by decide), if_pos rfl, literalScan_literal plain]
    simp only [passed]
    rfl
  | angle inner =>
    have opens : (Token.angle inner).bytes ++ rest =
        byte '<' :: (inner.bytes ++ byte '>' :: rest) := by simp [Token.bytes]
    have passed := arrayScan_passed (inner.bytes ++ [byte '>']) rest
    rw [List.append_assoc, List.singleton_append] at passed
    rw [opens, arrayScan, if_neg (by decide), if_neg (by decide), if_pos rfl,
      hexScan_angle inner.quiet (fun h mem => by cases mem)]
    simp only [passed]
    rfl

theorem arrayScan_array {inner : Spaced stopsArray Token}
    (plain : ∀ token ∈ inner.values, token.Plain) (rest : List UInt8) :
    arrayScan 0 (inner.bytes Token.bytes ++ byte ']' :: rest) =
      some (inner.values.flatMap Token.read, rest) := by
  obtain ⟨items, last⟩ := inner
  induction items with
  | nil =>
    change arrayScan 0 (last.bytes ++ byte ']' :: rest) = _
    rw [arrayScan_filler, arrayScan, if_pos rfl]
    rfl
  | cons item items ih =>
    obtain ⟨first, others⟩ := List.forall_mem_cons.mp plain
    have split : (Spaced.mk (item :: items) last).bytes Token.bytes ++ byte ']' :: rest =
        item.1.bytes ++ (item.2.bytes ++
          ((Spaced.mk items last).bytes Token.bytes ++ byte ']' :: rest)) := by
      simp [Spaced.bytes]
    rw [split, arrayScan_filler, arrayScan_token first, ih others]
    rfl

theorem collectScan_skip (line : List Char) (front rest : List UInt8) :
    collectScan front.length line (front ++ rest) = collectScan 0 line rest := by
  induction front with
  | nil => rfl
  | cons b front ih => exact ih

theorem collectScan_opened {b : UInt8} {inner rest : List UInt8} {text : List Char}
    (reads : opened b (inner ++ rest) = some (text, rest)) (line : List Char) :
    collectScan 0 line (b :: (inner ++ rest)) = collectScan 0 (line ++ text) rest := by
  rw [collectScan, reads]
  change collectScan ((inner ++ rest).length - rest.length) (line ++ text) (inner ++ rest) = _
  rw [List.length_append, Nat.add_sub_cancel, collectScan_skip]

theorem opened_token {token : Token} (plain : token.Plain) :
    ∃ b inner, token.bytes = b :: inner ∧ isOpener b = true ∧
      ∀ rest, opened b (inner ++ rest) = some (token.read, rest) := by
  cases token with
  | literal value =>
    refine ⟨byte '(', _, rfl, rfl, fun rest => ?_⟩
    rw [opened, if_pos rfl, List.append_assoc]
    exact literalScan_literal plain rest
  | angle inner =>
    refine ⟨byte '<', _, rfl, rfl, fun rest => ?_⟩
    rw [opened, if_neg (by decide), if_pos rfl, List.append_assoc]
    exact hexScan_angle inner.quiet (fun h mem => by cases mem) rest

theorem collectScan_operand {operand : Operand} (plain : operand.Plain) (line : List Char)
    (rest : List UInt8) :
    collectScan 0 line (operand.bytes ++ rest) = collectScan 0 (line ++ operand.read) rest := by
  cases operand with
  | string token =>
    obtain ⟨b, inner, opens, -, reads⟩ := opened_token (plain token (List.mem_singleton_self _))
    have read : (Operand.string token).read = token.read := List.flatMap_singleton _ _
    rw [read, Operand.bytes, opens]
    exact collectScan_opened (reads rest) line
  | array inner =>
    have reads : opened (byte '[') ((inner.bytes Token.bytes ++ [byte ']']) ++ rest) =
        some (inner.values.flatMap Token.read, rest) := by
      rw [opened, if_neg (by decide), if_neg (by decide), if_pos rfl, List.append_assoc]
      exact arrayScan_array plain rest
    exact collectScan_opened reads line

theorem opened_other {b : UInt8} (other : isOpener b = false) (rest : List UInt8) :
    opened b rest = none := by
  simp only [isOpener, Bool.or_eq_false_iff, decide_eq_false_iff_not] at other
  rw [opened, if_neg other.1.1, if_neg other.1.2, if_neg other.2]

theorem collectScan_again {line : List Char} {rest : List UInt8}
    (letter : rest.head? = some (byte 'j') ∨ rest.head? = some (byte 'J')) :
    collectScan 1 line rest = collectScan 0 line rest := by
  cases rest with
  | nil => rfl
  | cons b rest =>
    have plain : ∀ b : UInt8, b = byte 'j' ∨ b = byte 'J' → isOpener b = false ∧
        (showsText b rest = false) ∧ ¬(b = byte '\'' ∨ b = byte '"') := by
      rintro b (rfl | rfl)
      · exact ⟨by decide, rfl, by decide⟩
      · exact ⟨by decide, rfl, by decide⟩
    have either : b = byte 'j' ∨ b = byte 'J' := by simpa using letter
    obtain ⟨other, still, quote⟩ := plain b either
    change collectScan 0 line rest = collectScan 0 line (b :: rest)
    rw [collectScan, opened_other other, still, if_neg quote]
    rfl

theorem collectScan_byte {b : UInt8} (other : isOpener b = false) (line : List Char)
    (rest : List UInt8) :
    collectScan 0 line (b :: rest) =
      if showsText b rest ∨ b = byte '\'' ∨ b = byte '"' then
        (flush line).2 ++ collectScan 0 (flush line).1 rest
      else collectScan 0 line rest := by
  rw [collectScan, opened_other other]
  cases shows : showsText b rest with
  | true =>
    have letter : rest.head? = some (byte 'j') ∨ rest.head? = some (byte 'J') := by
      rw [showsText, Bool.and_eq_true] at shows
      simpa using shows.2
    rw [if_pos (Or.inl rfl)]
    simp only [if_true, collectScan_again letter]
  | false => simp

/-! What is visible is counted: nothing is lost, whatever the line it comes out with. -/

theorem flush_first (line : List Char) : visible (flush line).1 = 0 := by
  rw [flush]
  split
  · rename_i empty
    exact trim_eq_nil.mp empty
  · rfl

theorem flush_second (line : List Char) : shownOf (flush line).2 = visible line := by
  have whole := flush_visible line
  rw [flush_first, Nat.zero_add] at whole
  exact whole

theorem shownOf_line (skip : Nat) (line : List Char) (rest : List UInt8) :
    shownOf (collectScan skip line rest) = visible line + shownOf (collectScan skip [] rest) := by
  induction rest generalizing skip line with
  | nil =>
    cases skip with
    | zero => exact flush_second line
    | succ skip => exact flush_second line
  | cons b rest ih =>
    cases skip with
    | succ skip => exact ih skip line
    | zero =>
      rw [collectScan, collectScan]
      cases opened b rest with
      | some read =>
        simp only
        rw [ih _ (line ++ read.1), ih _ ([] ++ read.1), List.nil_append, visible_append]
        omega
      | none =>
        have empty : flush [] = ([], []) := rfl
        simp only [empty, List.nil_append]
        split
        · rw [shownOf_append, flush_second, ih 1 (flush line).1, flush_first]
          omega
        · split
          · rw [shownOf_append, flush_second, ih 0 (flush line).1, flush_first]
            omega
          · exact ih 0 line

theorem shownOf_byte {b : UInt8} (other : isOpener b = false) (rest : List UInt8) :
    shownOf (collectScan 0 [] (b :: rest)) = shownOf (collectScan 0 [] rest) := by
  have empty : flush [] = ([], []) := rfl
  rw [collectScan_byte other, empty]
  split
  · rfl
  · rfl

theorem shownOf_bytes {bytes : List UInt8} (others : ∀ b ∈ bytes, isOpener b = false)
    (rest : List UInt8) :
    shownOf (collectScan 0 [] (bytes ++ rest)) = shownOf (collectScan 0 [] rest) := by
  induction bytes with
  | nil => rfl
  | cons b bytes ih =>
    rw [List.cons_append, shownOf_byte (others b List.mem_cons_self),
      ih (fun b mem => others b (List.mem_cons_of_mem _ mem))]

theorem shownOf_operand {operand : Operand} (plain : operand.Plain) (rest : List UInt8) :
    shownOf (collectScan 0 [] (operand.bytes ++ rest)) =
      visible operand.read + shownOf (collectScan 0 [] rest) := by
  rw [collectScan_operand plain, List.nil_append, shownOf_line]

/-- What is visible in strings, as they are read. -/
def readVisible (operands : List Operand) : Nat :=
  (operands.map (fun operand => visible operand.read)).sum

theorem readVisible_append (a b : List Operand) :
    readVisible (a ++ b) = readVisible a + readVisible b := by
  rw [readVisible, List.map_append, List.sum_append]
  rfl

theorem shownOf_spaced {spaced : Spaced isOpener Operand}
    (plain : ∀ operand ∈ spaced.values, operand.Plain) (rest : List UInt8) :
    shownOf (collectScan 0 [] (spaced.bytes Operand.bytes ++ rest)) =
      readVisible spaced.values + shownOf (collectScan 0 [] rest) := by
  obtain ⟨items, last⟩ := spaced
  induction items with
  | nil =>
    change shownOf (collectScan 0 [] (last.bytes ++ rest)) = 0 + _
    rw [shownOf_bytes last.quiet, Nat.zero_add]
  | cons item items ih =>
    obtain ⟨first, others⟩ := List.forall_mem_cons.mp plain
    have split : (Spaced.mk (item :: items) last).bytes Operand.bytes ++ rest =
        item.1.bytes ++ (item.2.bytes ++ ((Spaced.mk items last).bytes Operand.bytes ++ rest)) := by
      simp [Spaced.bytes]
    have visible_cons : readVisible (Spaced.mk (item :: items) last).values =
        visible item.2.read + readVisible (Spaced.mk items last).values := rfl
    rw [split, shownOf_bytes item.1.quiet, shownOf_operand first, ih others, visible_cons]
    omega

theorem isOpener_space {b : UInt8} (space : isAsciiWhitespace b = true) : isOpener b = false := by
  simp only [isAsciiWhitespace, Bool.or_eq_true, decide_eq_true_eq] at space
  rcases space with (((rfl | rfl) | rfl) | rfl) | rfl
  all_goals rfl

theorem isOpener_operator (operator : ShowOperator) : ∀ b ∈ operator.bytes, isOpener b = false := by
  apply forall_mem_of_all
  cases operator with
  | tj => decide
  | tjArray => decide
  | quote => decide
  | doubleQuote => decide

theorem Stream.operands_cons (showing : Showing) (showings : List Showing)
    (after : Spaced isOpener Operand) :
    (Stream.mk (showing :: showings) after).operands =
      showing.operand :: (Stream.mk showings after).operands := rfl

theorem Stream.others_cons (showing : Showing) (showings : List Showing)
    (after : Spaced isOpener Operand) :
    (Stream.mk (showing :: showings) after).others =
      showing.before.values ++ (Stream.mk showings after).others := by
  rw [Stream.others, Stream.others, List.flatMap_cons, List.append_assoc]

theorem Stream.Plain.cons {showing : Showing} {showings : List Showing}
    {after : Spaced isOpener Operand} (plain : (Stream.mk (showing :: showings) after).Plain) :
    (∀ operand ∈ showing.before.values, operand.Plain) ∧ showing.operand.Plain ∧
      (Stream.mk showings after).Plain := by
  have operands := plain.operands
  have others := plain.others
  rw [Stream.operands_cons, List.forall_mem_cons] at operands
  rw [Stream.others_cons, List.forall_mem_append] at others
  exact ⟨others.1, operands.1, operands.2, others.2⟩

theorem shownOf_collected {stream : Stream} (plain : stream.Plain) :
    shownOf (collectPdfText stream.bytes) =
      readVisible stream.operands + readVisible stream.others := by
  obtain ⟨showings, after⟩ := stream
  induction showings with
  | nil =>
    have last := shownOf_spaced plain.others []
    rw [List.append_nil] at last
    have none : readVisible (Stream.mk [] after).operands = 0 := rfl
    rw [none, Nat.zero_add]
    exact last
  | cons showing showings ih =>
    obtain ⟨before, operand, others⟩ := plain.cons
    have split : (Stream.mk (showing :: showings) after).bytes =
        showing.before.bytes Operand.bytes ++ (showing.operand.bytes ++ (showing.gap ++
          (showing.operator.bytes ++ (Stream.mk showings after).bytes))) := by
      simp [Stream.bytes, Showing.bytes]
    have rest := ih others
    rw [collectPdfText] at rest
    rw [collectPdfText, split, shownOf_spaced before, shownOf_operand operand,
      shownOf_bytes (fun b mem => isOpener_space (showing.spaces b mem)),
      shownOf_bytes (isOpener_operator showing.operator), rest, Stream.operands_cons,
      Stream.others_cons, readVisible_append]
    have first : readVisible (showing.operand :: (Stream.mk showings after).operands) =
        visible showing.operand.read + readVisible (Stream.mk showings after).operands := rfl
    rw [first]
    omega

/-! Without visible strings elsewhere every line holds one shown string. -/

theorem collectScan_filler (filler : Filler isOpener) {line : List Char}
    (blank : visible line = 0) (rest : List UInt8) :
    collectScan 0 line (filler.bytes ++ rest) = collectScan 0 line rest := by
  obtain ⟨bytes, quiet⟩ := filler
  induction bytes with
  | nil => rfl
  | cons b bytes ih =>
    obtain ⟨first, others⟩ := List.forall_mem_cons.mp quiet
    change collectScan 0 line (b :: (bytes ++ rest)) = _
    rw [collectScan_byte first, flush_blank blank, ih others]
    split
    · rfl
    · rfl

theorem collectScan_blank {spaced : Spaced isOpener Operand}
    (plain : ∀ operand ∈ spaced.values, operand.Plain) (none : readVisible spaced.values = 0)
    {line : List Char} (blank : visible line = 0) (rest : List UInt8) :
    ∃ after, visible after = 0 ∧
      collectScan 0 line (spaced.bytes Operand.bytes ++ rest) = collectScan 0 after rest := by
  obtain ⟨items, last⟩ := spaced
  induction items generalizing line with
  | nil => exact ⟨line, blank, collectScan_filler last blank rest⟩
  | cons item items ih =>
    obtain ⟨first, others⟩ := List.forall_mem_cons.mp plain
    have split : (Spaced.mk (item :: items) last).bytes Operand.bytes ++ rest =
        item.1.bytes ++ (item.2.bytes ++ ((Spaced.mk items last).bytes Operand.bytes ++ rest)) := by
      simp [Spaced.bytes]
    have visible_cons : readVisible (Spaced.mk (item :: items) last).values =
        visible item.2.read + readVisible (Spaced.mk items last).values := rfl
    rw [visible_cons] at none
    have longer : visible (line ++ item.2.read) = 0 := by
      rw [visible_append]
      omega
    obtain ⟨after, still, same⟩ := ih longer others (by omega)
    refine ⟨after, still, ?_⟩
    rw [split, collectScan_filler item.1 blank, collectScan_operand first, same]

theorem collectScan_gap {gap : List UInt8} (spaces : ∀ b ∈ gap, isAsciiWhitespace b = true)
    (line : List Char) (rest : List UInt8) :
    collectScan 0 line (gap ++ rest) = collectScan 0 line rest := by
  induction gap with
  | nil => rfl
  | cons b gap ih =>
    have space := spaces b List.mem_cons_self
    have plain : ∀ b : UInt8, isAsciiWhitespace b = true →
        b ≠ byte 'T' ∧ b ≠ byte '\'' ∧ b ≠ byte '"' := by
      intro b space
      simp only [isAsciiWhitespace, Bool.or_eq_true, decide_eq_true_eq] at space
      rcases space with (((rfl | rfl) | rfl) | rfl) | rfl
      all_goals decide
    obtain ⟨letter, single, double⟩ := plain b space
    have quiet : ¬(showsText b (gap ++ rest) = true ∨ b = byte '\'' ∨ b = byte '"') := by
      simp [showsText, letter, single, double]
    rw [List.cons_append, collectScan_byte (isOpener_space space), if_neg quiet]
    exact ih (fun b mem => spaces b (List.mem_cons_of_mem _ mem))

theorem collectScan_operator (operator : ShowOperator) (line : List Char) (rest : List UInt8) :
    collectScan 0 line (operator.bytes ++ rest) =
      (flush line).2 ++ collectScan 0 (flush line).1 rest := by
  have letter : ∀ b : UInt8, b = byte 'j' ∨ b = byte 'J' → ∀ line : List Char,
      collectScan 0 line (byte 'T' :: b :: rest) =
        (flush line).2 ++ collectScan 0 (flush line).1 rest := by
    intro b either line
    have shows : showsText (byte 'T') (b :: rest) = true := by
      rcases either with rfl | rfl
      · rfl
      · rfl
    rw [collectScan_byte rfl, if_pos (Or.inl shows)]
    rcases either with rfl | rfl
    · rw [collectScan_byte rfl]
      rfl
    · rw [collectScan_byte rfl]
      rfl
  cases operator with
  | tj => exact letter _ (Or.inl rfl) line
  | tjArray => exact letter _ (Or.inr rfl) line
  | quote =>
    change collectScan 0 line (byte '\'' :: rest) = _
    rw [collectScan_byte rfl, if_pos (Or.inr (Or.inl rfl))]
  | doubleQuote =>
    change collectScan 0 line (byte '"' :: rest) = _
    rw [collectScan_byte rfl, if_pos (Or.inr (Or.inr rfl))]

/-- What the strings of the operators come to when nothing else is visible. -/
def shownAs (text : Operand → List Char) (operands : List Operand) : List (List Char) :=
  (operands.map (fun operand => trim (text operand))).filter (fun text => text ≠ [])

theorem collectScan_stream {stream : Stream} (plain : stream.Plain)
    (none : readVisible stream.others = 0) {line : List Char} (blank : visible line = 0) :
    collectScan 0 line stream.bytes = shownAs Operand.read stream.operands := by
  obtain ⟨showings, after⟩ := stream
  induction showings generalizing line with
  | nil =>
    obtain ⟨last, still, run⟩ := collectScan_blank plain.others none blank []
    rw [List.append_nil] at run
    change collectScan 0 line (after.bytes Operand.bytes) = []
    rw [run]
    change (flush last).2 = []
    rw [flush_blank still]
  | cons showing showings ih =>
    obtain ⟨before, operand, others⟩ := plain.cons
    rw [Stream.others_cons, readVisible_append] at none
    have split : (Stream.mk (showing :: showings) after).bytes =
        showing.before.bytes Operand.bytes ++ (showing.operand.bytes ++ (showing.gap ++
          (showing.operator.bytes ++ (Stream.mk showings after).bytes))) := by
      simp [Stream.bytes, Showing.bytes]
    obtain ⟨kept, still, run⟩ := collectScan_blank before (by omega) blank
      (showing.operand.bytes ++ (showing.gap ++
        (showing.operator.bytes ++ (Stream.mk showings after).bytes)))
    rw [split, run, collectScan_operand operand, collectScan_gap showing.spaces,
      collectScan_operator, ih (flush_first _) others (by omega), Stream.operands_cons, shownAs,
      shownAs, List.map_cons, flush, trim_blank_append still]
    by_cases empty : trim showing.operand.read = []
    · rw [if_pos empty, List.filter_cons_of_neg (by simp [empty])]
      rfl
    · rw [if_neg empty, List.filter_cons_of_pos (by simp [empty])]
      rfl

end Pdf

end Amatl
