import Amatl.PdfText

/-! Literal strings of PDF. The index behind an octal escape is one too far, so the byte there is
lost; without octal escapes a string is read as it was written. -/

namespace Amatl

namespace Pdf

def namedEscapes : List (UInt8 × Char) :=
  [(byte 'n', '\n'), (byte 'r', '\r'), (byte 't', '\t'), (byte 'b', Char.ofNat 8),
    (byte 'f', Char.ofNat 12), (byte '(', '('), (byte ')', ')'), (byte '\\', '\\')]

def octalValue (digits : List UInt8) : Nat :=
  digits.foldl (fun value digit => value * 8 + (digit - byte '0').toNat) 0

/-- How one character is written. -/
inductive LiteralPiece where
  | raw (b : UInt8)
  | named (letter : UInt8) (character : Char)
  | octal (digits : List UInt8)

namespace LiteralPiece

def bytes : LiteralPiece → List UInt8
  | raw b => [b]
  | named letter _ => [byte '\\', letter]
  | octal digits => byte '\\' :: digits

def character : LiteralPiece → Char
  | raw b => byteChar b
  | named _ character => character
  | octal digits => Char.ofNat (octalValue digits)

def isOctal : LiteralPiece → Bool
  | octal _ => true
  | _ => false

/-- ASCII as it is, a named escape, or one to three digits of a code up to 255. -/
def Valid : LiteralPiece → Prop
  | raw b => b < 128 ∧ b ≠ byte '\\'
  | named letter character => (letter, character) ∈ namedEscapes
  | octal digits => digits ≠ [] ∧ digits.length ≤ 3 ∧ (∀ d ∈ digits, isOctalDigit d = true) ∧
      octalValue digits ≤ 255

end LiteralPiece

open LiteralPiece

def encode (pieces : List LiteralPiece) : List UInt8 := pieces.flatMap bytes

def decoded (pieces : List LiteralPiece) : List Char := pieces.map character

/-- An octal escape has three digits when a digit follows it. -/
def Separated : List LiteralPiece → Prop
  | [] => True
  | octal digits :: pieces =>
    (digits.length = 3 ∨ ∀ b ∈ (encode pieces).head?, isOctalDigit b = false) ∧ Separated pieces
  | _ :: pieces => Separated pieces

/-- The depth of the parentheses behind the pieces, unless the string is closed among them. -/
def depthAfter : Nat → List LiteralPiece → Option Nat
  | depth, [] => some depth
  | depth, raw b :: pieces =>
    if b = byte '(' then depthAfter (depth + 1) pieces
    else if b = byte ')' then if depth ≤ 1 then none else depthAfter (depth - 1) pieces
    else depthAfter depth pieces
  | depth, _ :: pieces => depthAfter depth pieces

/-- A text as a literal string writes it. -/
structure Literal where
  pieces : List LiteralPiece
  written : ∀ piece ∈ pieces, piece.Valid
  separated : Separated pieces
  balanced : depthAfter 1 pieces = some 1

/-- The string is read as it was written, up to its closing parenthesis. -/
def Literal.Decodes (literal : Literal) (front rest : List UInt8) : Prop :=
  parseLiteralString (front ++ byte '(' :: (encode literal.pieces ++ byte ')' :: rest))
      front.length =
    some (decoded literal.pieces, front.length + (encode literal.pieces).length + 2)

theorem behind_behind (first second : List Char) (read : Option (List Char × List UInt8)) :
    (read.map (behind second)).map (behind first) = read.map (behind (first ++ second)) := by
  cases read with
  | none => rfl
  | some read => simp [behind]

theorem map_behind_nil (read : Option (List Char × List UInt8)) : read.map (behind []) = read := by
  cases read <;> rfl

theorem length_of_literalScan {depth skip : Nat} {bytes after : List UInt8} {text : List Char}
    (h : literalScan depth skip bytes = some (text, after)) : after.length < bytes.length := by
  induction bytes generalizing depth skip text with
  | nil => cases skip <;> cases h
  | cons b rest ih =>
    have inner : ∀ {depth skip : Nat} {front : List Char},
        (literalScan depth skip rest).map (behind front) = some (text, after) →
          after.length < (b :: rest).length := by
      intro depth skip front read
      obtain ⟨⟨text', after'⟩, found, same⟩ := Option.map_eq_some_iff.mp read
      cases same
      exact Nat.lt_trans (ih found) (Nat.lt_succ_self _)
    cases skip with
    | succ skip => exact Nat.lt_trans (ih h) (Nat.lt_succ_self _)
    | zero =>
      rw [literalScan.eq_def] at h
      simp only at h
      split at h
      · split at h
        · cases h
        · split at h
          · exact inner h
          · exact inner h
      · split at h
        · exact inner h
        · split at h
          · split at h
            · cases h
              exact Nat.lt_succ_self _
            · exact inner h
          · exact inner h

theorem literalScan_open (depth : Nat) (rest : List UInt8) :
    literalScan depth 0 (byte '(' :: rest) =
      (literalScan (depth + 1) 0 rest).map (behind ['(']) := by
  rw [literalScan.eq_def]
  rfl

theorem literalScan_close (depth : Nat) (rest : List UInt8) :
    literalScan depth 0 (byte ')' :: rest) =
      if depth ≤ 1 then some ([], rest)
      else (literalScan (depth - 1) 0 rest).map (behind [')']) := by
  have same : depth - 1 = 0 ↔ depth ≤ 1 := by omega
  rw [literalScan.eq_def]
  simp only [same]
  rfl

theorem literalScan_raw {b : UInt8} (h : b ≠ byte '\\' ∧ b ≠ byte '(' ∧ b ≠ byte ')') (depth : Nat)
    (rest : List UInt8) :
    literalScan depth 0 (b :: rest) = (literalScan depth 0 rest).map (behind [byteChar b]) := by
  rw [literalScan.eq_def]
  simp only [h.1, h.2.1, h.2.2, if_false]

theorem named_plain {letter : UInt8} {c : Char} (h : (letter, c) ∈ namedEscapes) :
    escapedChar letter = c ∧ isOctalDigit letter = false := by
  have all : ∀ entry ∈ namedEscapes,
      escapedChar entry.1 = entry.2 ∧ isOctalDigit entry.1 = false := by decide
  exact all _ h

theorem literalScan_escape {next : UInt8} (h : isOctalDigit next = false) (depth : Nat)
    (rest : List UInt8) :
    literalScan depth 0 (byte '\\' :: next :: rest) =
      (literalScan depth 0 rest).map (behind [escapedChar next]) := by
  rw [literalScan.eq_def]
  simp only [h, if_true, Bool.false_eq_true, if_false]
  rfl

theorem octalRun_eq {digits : List UInt8} (octal : ∀ d ∈ digits, isOctalDigit d = true)
    {rest : List UInt8} {limit : Nat} (fits : digits.length ≤ limit)
    (ends : digits.length = limit ∨ ∀ b ∈ rest.head?, isOctalDigit b = false) (value : Nat) :
    octalRun value limit (digits ++ rest) =
      (digits.foldl (fun value digit => value * 8 + (digit - byte '0').toNat) value,
        digits.length) := by
  induction digits generalizing limit value with
  | nil =>
    cases limit with
    | zero => rw [octalRun.eq_def]; rfl
    | succ limit =>
      have stop := ends.resolve_left (by simp)
      cases rest with
      | nil => rfl
      | cons b rest =>
        have other := stop b rfl
        rw [List.nil_append, octalRun, other]
        rfl
  | cons d digits ih =>
    cases limit with
    | zero => cases fits
    | succ limit =>
      have step := ih (fun d mem => octal d (List.mem_cons_of_mem _ mem))
        (Nat.le_of_succ_le_succ fits) (ends.imp_left (fun same => Nat.succ.inj same))
        (value * 8 + (d - byte '0').toNat)
      rw [List.cons_append, octalRun, octal d List.mem_cons_self, if_pos rfl, step]
      rfl

theorem literalScan_octal {digits : List UInt8} (valid : (octal digits).Valid) {rest : List UInt8}
    (ends : digits.length = 3 ∨ ∀ b ∈ rest.head?, isOctalDigit b = false) (depth : Nat) :
    literalScan depth 0 (byte '\\' :: (digits ++ rest)) =
      (literalScan depth 1 rest).map (behind [Char.ofNat (octalValue digits)]) := by
  obtain ⟨filled, few, octal, -⟩ := valid
  have run := octalRun_eq octal few ends 0
  obtain ⟨d, digits, rfl⟩ := List.exists_cons_of_ne_nil filled
  have first : isOctalDigit d = true := octal d List.mem_cons_self
  have passed : literalScan depth ((d :: digits).length + 1) (d :: digits ++ rest) =
      literalScan depth 1 rest := by
    have skipped : ∀ (front : List UInt8), literalScan depth (front.length + 1) (front ++ rest) =
        literalScan depth 1 rest := by
      intro front
      induction front with
      | nil => rfl
      | cons b front ih => exact ih
    exact skipped (d :: digits)
  rw [List.cons_append] at run passed ⊢
  rw [literalScan.eq_def]
  simp only [first, if_true, run, passed]
  rfl

/-- Pieces without octal escapes. -/
structure Plain (pieces : List LiteralPiece) : Prop where
  written : ∀ piece ∈ pieces, piece.Valid
  octals : ∀ piece ∈ pieces, piece.isOctal = false

theorem Plain.tail {piece : LiteralPiece} {pieces : List LiteralPiece}
    (h : Plain (piece :: pieces)) : Plain pieces where
  written p mem := h.written p (List.mem_cons_of_mem _ mem)
  octals p mem := h.octals p (List.mem_cons_of_mem _ mem)

theorem Plain.head_cases {piece : LiteralPiece} {pieces : List LiteralPiece}
    (h : Plain (piece :: pieces)) :
    (∃ b, piece = raw b ∧ b ≠ byte '\\') ∨
      ∃ letter c, piece = named letter c ∧ (letter, c) ∈ namedEscapes := by
  have valid := h.written piece List.mem_cons_self
  have plain := h.octals piece List.mem_cons_self
  cases piece with
  | raw b => exact Or.inl ⟨b, rfl, valid.2⟩
  | named letter c => exact Or.inr ⟨letter, c, rfl, valid⟩
  | octal digits => cases plain

theorem encode_cons (piece : LiteralPiece) (pieces : List LiteralPiece) (rest : List UInt8) :
    encode (piece :: pieces) ++ rest = piece.bytes ++ (encode pieces ++ rest) := by
  rw [encode, List.flatMap_cons, List.append_assoc]
  rfl

theorem literalScan_plain {pieces : List LiteralPiece} (plain : Plain pieces) {depth after : Nat}
    (deep : depthAfter depth pieces = some after) (rest : List UInt8) :
    literalScan depth 0 (encode pieces ++ rest) =
      (literalScan after 0 rest).map (behind (decoded pieces)) := by
  induction pieces generalizing depth with
  | nil =>
    cases deep
    exact (map_behind_nil _).symm
  | cons piece pieces ih =>
    rw [encode_cons]
    rcases plain.head_cases with ⟨b, rfl, bare⟩ | ⟨letter, c, rfl, listed⟩
    · rw [depthAfter] at deep
      change literalScan depth 0 (b :: (encode pieces ++ rest)) = _
      split at deep
      · rename_i opens
        rw [opens, literalScan_open, ih plain.tail deep, behind_behind, ← opens]
        subst opens
        rfl
      · rename_i opens
        split at deep
        · rename_i closes
          subst closes
          split at deep
          · cases deep
          · rename_i inside
            rw [literalScan_close, if_neg inside, ih plain.tail deep, behind_behind]
            rfl
        · rename_i closes
          rw [literalScan_raw ⟨bare, opens, closes⟩, ih plain.tail deep, behind_behind]
          rfl
    · obtain ⟨character, letter'⟩ := named_plain listed
      change literalScan depth 0 (byte '\\' :: letter :: (encode pieces ++ rest)) = _
      rw [literalScan_escape letter', ih plain.tail deep, behind_behind, character]
      rfl

theorem literalScan_closed {pieces : List LiteralPiece} (plain : Plain pieces) {depth : Nat}
    (closed : depthAfter depth pieces = none) (rest : List UInt8) :
    ∃ text after, literalScan depth 0 (encode pieces ++ rest) = some (text, after) ∧
      rest.length ≤ after.length := by
  induction pieces generalizing depth with
  | nil => cases closed
  | cons piece pieces ih =>
    rw [encode_cons]
    have inner : ∀ {inside : Nat} (front : List Char), depthAfter inside pieces = none →
        ∃ text after, (literalScan inside 0 (encode pieces ++ rest)).map (behind front) =
          some (text, after) ∧ rest.length ≤ after.length := by
      intro inside front closed
      obtain ⟨text, after, found, long⟩ := ih plain.tail closed
      exact ⟨front ++ text, after, by rw [found]; rfl, long⟩
    rcases plain.head_cases with ⟨b, rfl, bare⟩ | ⟨letter, c, rfl, listed⟩
    · rw [depthAfter] at closed
      change ∃ text after, literalScan depth 0 (b :: (encode pieces ++ rest)) = _ ∧ _
      split at closed
      · rename_i opens
        rw [opens, literalScan_open]
        exact inner _ closed
      · rename_i opens
        split at closed
        · rename_i closes
          rw [closes, literalScan_close]
          split at closed
          · rename_i shallow
            rw [if_pos shallow]
            exact ⟨_, _, rfl, by simp⟩
          · rename_i inside
            rw [if_neg inside]
            exact inner _ closed
        · rename_i closes
          rw [literalScan_raw ⟨bare, opens, closes⟩]
          exact inner _ closed
    · change ∃ text after,
        literalScan depth 0 (byte '\\' :: letter :: (encode pieces ++ rest)) = _ ∧ _
      rw [literalScan_escape (named_plain listed).2]
      exact inner _ closed

theorem depthAfter_succ {depth after : Nat} {pieces : List LiteralPiece}
    (deep : depthAfter depth pieces = some after) :
    depthAfter (depth + 1) pieces = some (after + 1) := by
  induction pieces generalizing depth with
  | nil =>
    cases deep
    rfl
  | cons piece pieces ih =>
    cases piece with
    | raw b =>
      rw [depthAfter] at deep ⊢
      split
      · rw [if_pos ‹_›] at deep
        exact ih deep
      · rw [if_neg ‹_›] at deep
        split
        · rw [if_pos ‹_›] at deep
          split at deep
          · cases deep
          · rename_i inside
            rw [if_neg (by omega), show depth + 1 - 1 = depth - 1 + 1 by omega]
            exact ih deep
        · rw [if_neg ‹_›] at deep
          exact ih deep
    | named letter c => exact ih deep
    | octal digits => exact ih deep

theorem depthAfter_pos {depth after : Nat} {pieces : List LiteralPiece} (pos : 0 < depth)
    (deep : depthAfter depth pieces = some after) : 0 < after := by
  induction pieces generalizing depth with
  | nil =>
    cases deep
    exact pos
  | cons piece pieces ih =>
    cases piece with
    | raw b =>
      rw [depthAfter] at deep
      split at deep
      · exact ih (Nat.succ_pos _) deep
      · split at deep
        · split at deep
          · cases deep
          · exact ih (by omega) deep
        · exact ih pos deep
    | named letter c => exact ih pos deep
    | octal digits => exact ih pos deep

theorem of_map_behind {front text : List Char} {after : List UInt8}
    {read : Option (List Char × List UInt8)} (h : read.map (behind front) = some (text, after)) :
    ∃ inner, read = some (inner, after) ∧ text = front ++ inner := by
  obtain ⟨⟨inner, after'⟩, found, same⟩ := Option.map_eq_some_iff.mp h
  cases same
  exact ⟨inner, found, rfl⟩

theorem literalScan_backslash {rest : List UInt8} (h : rest ≠ []) (depth : Nat) :
    ∃ skip c, literalScan depth 0 (byte '\\' :: rest) =
      (literalScan depth (skip + 1) rest).map (behind [c]) := by
  obtain ⟨next, rest, rfl⟩ := List.exists_cons_of_ne_nil h
  cases octal : isOctalDigit next with
  | true =>
    refine ⟨(octalRun 0 3 (next :: rest)).2, Char.ofNat (octalRun 0 3 (next :: rest)).1, ?_⟩
    rw [literalScan.eq_def]
    simp only [octal, if_true]
  | false => exact ⟨0, escapedChar next, literalScan_escape octal depth rest⟩

/-- A byte closes the string, or it gives one character. -/
theorem literalScan_step (b : UInt8) {rest : List UInt8} (h : rest ≠ []) (depth : Nat) :
    literalScan depth 0 (b :: rest) = some ([], rest) ∨
      ∃ inside skip c, literalScan depth 0 (b :: rest) =
        (literalScan inside skip rest).map (behind [c]) := by
  by_cases escape : b = byte '\\'
  · obtain ⟨skip, c, same⟩ := literalScan_backslash h depth
    exact Or.inr ⟨depth, skip + 1, c, by rw [escape, same]⟩
  · by_cases opens : b = byte '('
    · exact Or.inr ⟨depth + 1, 0, '(', by rw [opens, literalScan_open]⟩
    · by_cases closes : b = byte ')'
      · by_cases shallow : depth ≤ 1
        · exact Or.inl (by rw [closes, literalScan_close, if_pos shallow])
        · exact Or.inr ⟨depth - 1, 0, ')', by rw [closes, literalScan_close, if_neg shallow]⟩
      · exact Or.inr ⟨depth, 0, byteChar b, literalScan_raw ⟨escape, opens, closes⟩ depth rest⟩

/-- From wherever the scan enters the pieces, it reads at most one character for each. -/
theorem length_le_of_plain {pieces : List LiteralPiece} (plain : Plain pieces) {rest : List UInt8}
    {depth skip : Nat} {text : List Char} {after : List UInt8}
    (read : literalScan depth skip (encode pieces ++ byte ')' :: rest) = some (text, after))
    (ends : rest.length ≤ after.length) : text.length ≤ pieces.length := by
  induction pieces generalizing depth skip text with
  | nil =>
    have beyond : ∀ {depth skip : Nat} {text : List Char},
        literalScan depth skip rest ≠ some (text, after) := by
      intro depth skip text read
      have shorter := length_of_literalScan read
      omega
    cases skip with
    | succ skip => exact absurd read beyond
    | zero =>
      change literalScan depth 0 (byte ')' :: rest) = some (text, after) at read
      rw [literalScan_close] at read
      split at read
      · cases read
        exact Nat.le_refl 0
      · obtain ⟨inner, found, -⟩ := of_map_behind read
        exact absurd found beyond
  | cons piece pieces ih =>
    rw [encode_cons] at read
    have filled : encode pieces ++ byte ')' :: rest ≠ [] := by simp
    have entered : ∀ {b : UInt8} {depth : Nat} {text : List Char},
        literalScan depth 0 (b :: (encode pieces ++ byte ')' :: rest)) = some (text, after) →
          text.length ≤ pieces.length + 1 := by
      intro b depth text read
      rcases literalScan_step b filled depth with closed | ⟨inside, skip, c, step⟩
      · rw [closed] at read
        cases read
        exact Nat.zero_le _
      · rw [step] at read
        obtain ⟨inner, found, rfl⟩ := of_map_behind read
        have shorter := ih plain.tail found
        simpa using shorter
    rcases plain.head_cases with ⟨b, rfl, -⟩ | ⟨letter, c, rfl, listed⟩
    · cases skip with
      | zero => exact entered read
      | succ skip => exact Nat.le_succ_of_le (ih plain.tail read)
    · match skip with
      | 0 =>
        change literalScan depth 0 (byte '\\' :: letter :: _) = _ at read
        rw [literalScan_escape (named_plain listed).2] at read
        obtain ⟨inner, found, rfl⟩ := of_map_behind read
        have shorter := ih plain.tail found
        simpa using shorter
      | 1 => exact entered read
      | skip + 2 => exact Nat.le_succ_of_le (ih plain.tail read)

/-- The character of a named escape is not read from its letter alone: another one is read, the
depth is wrong from there on, or the next byte is taken for escaped. -/
theorem letter_misread {letter : UInt8} {c : Char} (listed : (letter, c) ∈ namedEscapes)
    {pieces : List LiteralPiece} (plain : Plain pieces) {depth : Nat}
    (deep : depthAfter depth pieces = some 1) (pos : 0 < depth) {rest after : List UInt8}
    (same : after.length = rest.length)
    (chain : literalScan depth 0 (byte '\\' :: (encode pieces ++ byte ')' :: rest)) ≠
      some ('\\' :: decoded pieces, after)) :
    literalScan depth 0 (letter :: (encode pieces ++ byte ')' :: rest)) ≠
      some (c :: decoded pieces, after) := by
  intro read
  by_cases escape : letter = byte '\\'
  · have character : c = '\\' := by
      have named := (named_plain listed).1
      rw [escape] at named
      exact named.symm
    rw [escape, character] at read
    exact chain read
  · by_cases opens : letter = byte '('
    · rw [opens, literalScan_open, literalScan_plain plain (depthAfter_succ deep),
        literalScan_close, if_neg (by omega), behind_behind, behind_behind] at read
      obtain ⟨inner, found, -⟩ := of_map_behind read
      have shorter := length_of_literalScan found
      omega
    · by_cases closes : letter = byte ')'
      · rw [closes, literalScan_close] at read
        split at read
        · cases read
        · have early : depthAfter (depth - 1) pieces = none := by
            cases found : depthAfter (depth - 1) pieces with
            | none => rfl
            | some inside =>
              have up := depthAfter_succ found
              rw [Nat.sub_add_cancel pos, deep] at up
              have low := depthAfter_pos (by omega) found
              cases up
              exact absurd low (Nat.lt_irrefl 0)
          obtain ⟨text, left, found, long⟩ := literalScan_closed plain early (byte ')' :: rest)
          obtain ⟨inner, reached, -⟩ := of_map_behind read
          rw [found] at reached
          cases reached
          rw [List.length_cons] at long
          omega
      · rw [literalScan_raw ⟨escape, opens, closes⟩] at read
        obtain ⟨inner, -, text⟩ := of_map_behind read
        have other : ∀ entry ∈ namedEscapes, entry.1 ≠ byte '\\' → entry.1 ≠ byte '(' →
            entry.1 ≠ byte ')' → byteChar entry.1 ≠ entry.2 := by decide
        exact other _ listed escape opens closes (List.cons.inj text).1.symm

theorem backslash_misread {pieces : List LiteralPiece} (plain : Plain pieces) {depth : Nat}
    (deep : depthAfter depth pieces = some 1) (pos : 0 < depth) {rest after : List UInt8}
    (same : after.length = rest.length) :
    literalScan depth 0 (byte '\\' :: (encode pieces ++ byte ')' :: rest)) ≠
      some ('\\' :: decoded pieces, after) := by
  induction pieces generalizing depth with
  | nil =>
    intro read
    change literalScan depth 0 (byte '\\' :: byte ')' :: rest) = _ at read
    rw [literalScan_escape (by decide)] at read
    obtain ⟨inner, found, -⟩ := of_map_behind read
    have shorter := length_of_literalScan found
    omega
  | cons piece pieces ih =>
    intro read
    rw [encode_cons] at read
    rcases plain.head_cases with ⟨b, rfl, -⟩ | ⟨letter, c, rfl, listed⟩
    · change literalScan depth 0 (byte '\\' :: b :: (encode pieces ++ byte ')' :: rest)) = _ at read
      obtain ⟨skip, c, step⟩ := literalScan_backslash
        (List.cons_ne_nil b (encode pieces ++ byte ')' :: rest)) depth
      rw [step] at read
      obtain ⟨inner, found, text⟩ := of_map_behind read
      have few := length_le_of_plain plain.tail found (by omega)
      have long := congrArg List.length text
      simp only [decoded, List.map_cons, List.length_cons, List.length_map, List.length_append,
        List.length_nil] at long
      omega
    · change literalScan depth 0
        (byte '\\' :: byte '\\' :: letter :: (encode pieces ++ byte ')' :: rest)) = _ at read
      rw [literalScan_escape (by decide)] at read
      obtain ⟨inner, found, text⟩ := of_map_behind read
      cases text
      exact letter_misread listed plain.tail deep pos same (ih plain.tail deep pos) found

theorem skipped_misread {pieces : List LiteralPiece} (plain : Plain pieces) {depth : Nat}
    (deep : depthAfter depth pieces = some 1) (pos : 0 < depth) {rest after : List UInt8}
    (same : after.length = rest.length) :
    literalScan depth 1 (encode pieces ++ byte ')' :: rest) ≠ some (decoded pieces, after) := by
  intro read
  cases pieces with
  | nil =>
    have shorter := length_of_literalScan
      (show literalScan depth 0 rest = some ([], after) from read)
    omega
  | cons piece pieces =>
    rw [encode_cons] at read
    rcases plain.head_cases with ⟨b, rfl, -⟩ | ⟨letter, c, rfl, listed⟩
    · change literalScan depth 0 (encode pieces ++ byte ')' :: rest) = _ at read
      have few := length_le_of_plain plain.tail read (by omega)
      simp only [decoded, List.map_cons, List.length_cons, List.length_map] at few
      omega
    · change literalScan depth 0 (letter :: (encode pieces ++ byte ')' :: rest)) = _ at read
      exact letter_misread listed plain.tail deep pos same
        (backslash_misread plain.tail deep pos same) read

theorem drop_front (front rest : List UInt8) (b : UInt8) :
    (front ++ b :: rest).drop (front.length + 1) = rest := by
  rw [List.drop_append, List.drop_eq_nil_of_le (Nat.le_succ _)]
  simp

/-- The string that was written is read as its text, with as much left behind as there was. -/
theorem decodes_iff (literal : Literal) (front rest : List UInt8) :
    literal.Decodes front rest ↔ ∃ after, after.length = rest.length ∧
      literalScan 1 0 (encode literal.pieces ++ byte ')' :: rest) =
        some (decoded literal.pieces, after) := by
  rw [Literal.Decodes, parseLiteralString, drop_front]
  cases read : literalScan 1 0 (encode literal.pieces ++ byte ')' :: rest) with
  | none => simp [indexed]
  | some result =>
    obtain ⟨text, after⟩ := result
    have shorter := length_of_literalScan read
    simp only [indexed, Option.map_some, Option.some.injEq, Prod.mk.injEq, List.length_append,
      List.length_cons] at shorter ⊢
    constructor
    · intro ⟨same, index⟩
      exact ⟨after, by omega, same, rfl⟩
    · rintro ⟨after', length, same, rfl⟩
      exact ⟨same, by omega⟩

/-- Without octal escapes every literal string is read as it was written. -/
theorem decodes_plain {literal : Literal} (plain : Plain literal.pieces) (front rest : List UInt8) :
    literal.Decodes front rest := by
  refine (decodes_iff literal front rest).mpr ⟨rest, rfl, ?_⟩
  rw [literalScan_plain plain literal.balanced, literalScan_close, if_pos (Nat.le_refl 1)]
  simp [behind]

theorem depthAfter_append (before behind : List LiteralPiece) (depth : Nat) :
    depthAfter depth (before ++ behind) =
      (depthAfter depth before).bind (fun inside => depthAfter inside behind) := by
  induction before generalizing depth with
  | nil => rfl
  | cons piece before ih =>
    cases piece with
    | raw b =>
      rw [List.cons_append, depthAfter, depthAfter]
      split
      · exact ih _
      · split
        · split
          · rfl
          · exact ih _
        · exact ih _
    | named letter c => exact ih depth
    | octal digits => exact ih depth

theorem separated_behind {before : List LiteralPiece} {digits : List UInt8}
    {pieces : List LiteralPiece} (h : Separated (before ++ octal digits :: pieces)) :
    digits.length = 3 ∨ ∀ b ∈ (encode pieces).head?, isOctalDigit b = false := by
  induction before with
  | nil => exact h.1
  | cons piece before ih =>
    cases piece with
    | raw b => exact ih h
    | named letter c => exact ih h
    | octal digits' => exact ih h.2

theorem split_octal {pieces : List LiteralPiece} (written : ∀ piece ∈ pieces, piece.Valid)
    (one : pieces.countP isOctal = 1) : ∃ before digits after,
      pieces = before ++ octal digits :: after ∧ Plain before ∧ Plain after ∧
        (octal digits).Valid := by
  induction pieces with
  | nil => cases one
  | cons piece pieces ih =>
    have inner : ∀ piece ∈ pieces, piece.Valid :=
      fun piece mem => written piece (List.mem_cons_of_mem _ mem)
    cases kind : piece.isOctal with
    | true =>
      rw [List.countP_cons_of_pos kind] at one
      have none := List.countP_eq_zero.mp (Nat.succ.inj one)
      cases piece with
      | raw b => cases kind
      | named letter c => cases kind
      | octal digits =>
        exact ⟨[], digits, pieces, rfl, ⟨nofun, nofun⟩,
          ⟨inner, fun piece mem => Bool.eq_false_iff.mpr (none piece mem)⟩,
          written _ List.mem_cons_self⟩
    | false =>
      rw [List.countP_cons_of_neg (by rw [kind]; exact Bool.false_ne_true)] at one
      obtain ⟨before, digits, after, rfl, plain, plain', valid⟩ := ih inner one
      refine ⟨piece :: before, digits, after, rfl, ⟨?_, ?_⟩, plain', valid⟩
      · intro p mem
        rcases List.mem_cons.mp mem with rfl | mem
        · exact written p List.mem_cons_self
        · exact plain.written p mem
      · intro p mem
        rcases List.mem_cons.mp mem with rfl | mem
        · exact kind
        · exact plain.octals p mem

/-- With one octal escape no literal string is read as it was written. -/
theorem not_decodes_octal {literal : Literal} (one : literal.pieces.countP isOctal = 1)
    (front rest : List UInt8) : ¬literal.Decodes front rest := by
  intro decodes
  obtain ⟨after, same, read⟩ := (decodes_iff literal front rest).mp decodes
  obtain ⟨before, digits, pieces, split, plain, plain', valid⟩ := split_octal literal.written one
  have separated := literal.separated
  have balanced := literal.balanced
  rw [split] at read separated balanced
  rw [depthAfter_append] at balanced
  obtain ⟨depth, deep, balanced⟩ := Option.bind_eq_some_iff.mp balanced
  have ends : digits.length = 3 ∨ ∀ b ∈ (encode pieces ++ byte ')' :: rest).head?,
      isOctalDigit b = false := by
    refine (separated_behind separated).imp_right (fun other => ?_)
    cases bytes : encode pieces with
    | nil =>
      intro b mem
      cases mem
      decide
    | cons b inner =>
      rw [bytes] at other
      exact other
  have whole : encode (before ++ octal digits :: pieces) ++ byte ')' :: rest =
      encode before ++ byte '\\' :: (digits ++ (encode pieces ++ byte ')' :: rest)) := by
    simp [encode, bytes]
  rw [whole, literalScan_plain plain deep, literalScan_octal valid ends, behind_behind] at read
  obtain ⟨inner, found, text⟩ := of_map_behind read
  have tail : inner = decoded pieces := by
    have cut : decoded before ++ [Char.ofNat (octalValue digits)] ++ decoded pieces =
        decoded before ++ [Char.ofNat (octalValue digits)] ++ inner := by
      rw [← text]
      simp [decoded, character]
    exact (List.append_cancel_left cut).symm
  rw [tail] at found
  exact skipped_misread plain' balanced (depthAfter_pos Nat.one_pos deep) same found

/-- Literal strings without octal escapes are read as they were written, those with one are not. -/
theorem literal_decodes (literal : Literal) :
    (literal.pieces.countP isOctal = 0 → ∀ front rest, literal.Decodes front rest) ∧
      (literal.pieces.countP isOctal = 1 → ∀ front rest, ¬literal.Decodes front rest) := by
  refine ⟨fun none front rest => ?_, fun one front rest => not_decodes_octal one front rest⟩
  exact decodes_plain ⟨literal.written, fun piece mem =>
    Bool.eq_false_iff.mpr (List.countP_eq_zero.mp none piece mem)⟩ front rest

def octalLiteral : Literal where
  pieces := [octal [byte '1', byte '0', byte '1'], raw (byte 'B')]
  written := by
    intro piece mem
    rcases List.mem_cons.mp mem with rfl | mem
    · exact ⟨nofun, by decide, Text.forall_mem_of_all (by decide), by decide⟩
    · obtain rfl := List.mem_singleton.mp mem
      exact ⟨by decide, by decide⟩
  separated := ⟨Or.inl rfl, trivial⟩
  balanced := rfl

/-- The `B` is lost. -/
theorem octalLiteral_misread :
    parseLiteralString (asciiBytes "(\\101B) Tj") 0 = some (['A'], 7) ∧
      ¬octalLiteral.Decodes [] (asciiBytes " Tj") := by
  refine ⟨by decide, ?_⟩
  rw [Literal.Decodes]
  decide

-- Two octal escapes can hide each other: what is lost is the backslash of an escaped parenthesis.
example : parseLiteralString (asciiBytes "(\\101\\(\\101\\))") 0 = some ("A(A)".toList, 14) := by
  decide

end Pdf

end Amatl
