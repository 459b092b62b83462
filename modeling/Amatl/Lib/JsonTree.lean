import Amatl.Lib.Json
import Amatl.Lib.Text

/-! JSON values in their compact form. The text of a value tells the value, and has no control
character in it, so that values written to a line each are found again. -/

namespace Json

def numberChar (c : Char) : Bool := c.isDigit || "+-.eE".toList.contains c

/-- The text of a number. -/
structure Number where
  chars : List Char
  nonempty : chars ≠ []
  plain : ∀ c ∈ chars, numberChar c = true
  deriving DecidableEq

inductive Tree where
  | null
  | bool (value : Bool)
  | number (value : Number)
  | text (value : List Char)
  | array (items : List Tree)
  | object (entries : List (List Char × Tree))

mutual

def write : Tree → List Char
  | .null => ['n', 'u', 'l', 'l']
  | .bool true => ['t', 'r', 'u', 'e']
  | .bool false => ['f', 'a', 'l', 's', 'e']
  | .number value => value.chars
  | .text value => quote value
  | .array [] => ['[', ']']
  | .array (item :: items) => '[' :: (write item ++ writeItems items)
  | .object [] => ['\x7b', '\x7d']
  | .object ((key, value) :: entries) =>
    '\x7b' :: (quote key ++ ':' :: (write value ++ writeEntries entries))

/-- The items behind the first one. -/
def writeItems : List Tree → List Char
  | [] => [']']
  | item :: items => ',' :: (write item ++ writeItems items)

def writeEntries : List (List Char × Tree) → List Char
  | [] => ['\x7d']
  | (key, value) :: entries =>
    ',' :: (quote key ++ ':' :: (write value ++ writeEntries entries))

end

/-- Which kind of value a character begins. -/
def kindOf (c : Char) : Nat :=
  if numberChar c then 1 else if c = '"' then 2 else if c = '[' then 3 else if c = '\x7b' then 4
  else if c = 'n' then 5 else if c = 't' then 6 else if c = 'f' then 7 else 0

def Tree.kind : Tree → Nat
  | .number _ => 1
  | .text _ => 2
  | .array _ => 3
  | .object _ => 4
  | .null => 5
  | .bool true => 6
  | .bool false => 7

theorem write_head (t : Tree) : ∃ c rest, write t = c :: rest ∧ kindOf c = t.kind := by
  cases t with
  | null => exact ⟨_, _, rfl, by decide⟩
  | bool value => cases value <;> exact ⟨_, _, rfl, by decide⟩
  | number value =>
    obtain ⟨c, rest, same⟩ := List.exists_cons_of_ne_nil value.nonempty
    refine ⟨c, rest, by rw [write, same], ?_⟩
    have plain : numberChar c = true := value.plain c (by rw [same]; exact List.mem_cons_self)
    rw [kindOf, if_pos plain, Tree.kind]
  | text value => exact ⟨_, _, rfl, show kindOf '"' = 2 by decide⟩
  | array items => cases items <;> exact ⟨_, _, rfl, show kindOf '[' = 3 by decide⟩
  | object entries => cases entries <;> exact ⟨_, _, rfl, show kindOf '\x7b' = 4 by decide⟩

theorem kind_eq {s t : Tree} {x y : List Char} (h : write s ++ x = write t ++ y) :
    s.kind = t.kind := by
  obtain ⟨c, rest, begins, kind⟩ := write_head s
  obtain ⟨d, rest', begins', kind'⟩ := write_head t
  rw [begins, begins'] at h
  rw [← kind, ← kind', (List.cons.inj h).1]

/-- A number does not go on here. -/
def Ends (x : List Char) : Prop := ∀ c ∈ x.head?, numberChar c = false

theorem number_cancel {s t : Number} {x y : List Char} (endsX : Ends x) (endsY : Ends y)
    (h : s.chars ++ x = t.chars ++ y) : s = t ∧ x = y := by
  have whole : ∀ (n : Number) (z : List Char), Ends z →
      (n.chars ++ z).takeWhile numberChar = n.chars := by
    intro n z ends
    rw [List.takeWhile_append_of_pos n.plain]
    cases z with
    | nil => simp
    | cons c z => simp [ends c rfl]
  have chars : s.chars = t.chars := by
    rw [← whole s x endsX, h, whole t y endsY]
  rw [chars] at h
  exact ⟨by cases s; cases t; simp_all, List.append_cancel_left h⟩

theorem writeItems_ends (items : List Tree) (x : List Char) : Ends (writeItems items ++ x) := by
  cases items with
  | nil => exact fun c mem => by cases mem; decide
  | cons item items => exact fun c mem => by cases mem; decide

theorem writeEntries_ends (entries : List (List Char × Tree)) (x : List Char) :
    Ends (writeEntries entries ++ x) := by
  cases entries with
  | nil => exact fun c mem => by cases mem; decide
  | cons entry entries => exact fun c mem => by cases mem; decide

theorem bracket_ne_write (t : Tree) (x y : List Char) : ']' :: x ≠ write t ++ y := by
  intro h
  obtain ⟨c, rest, begins, kind⟩ := write_head t
  rw [begins] at h
  rw [← (List.cons.inj h).1] at kind
  have none : kindOf ']' = 0 := by decide
  rw [none] at kind
  cases t with
  | bool value => cases value <;> cases kind
  | _ => cases kind

mutual

theorem write_cancel : ∀ (s t : Tree) {x y : List Char}, Ends x → Ends y →
    write s ++ x = write t ++ y → s = t ∧ x = y
  | .null, t, x, y, _, _, h => by
    have same := kind_eq h
    cases t with
    | null => exact ⟨rfl, List.append_cancel_left h⟩
    | bool value => cases value <;> cases same
    | _ => cases same
  | .bool value, t, x, y, _, _, h => by
    have same := kind_eq h
    cases t with
    | bool other =>
      cases value <;> cases other <;> first
        | exact ⟨rfl, List.append_cancel_left h⟩
        | cases same
    | _ => cases value <;> cases same
  | .number value, t, x, y, endsX, endsY, h => by
    have same := kind_eq h
    cases t with
    | number other =>
      obtain ⟨rfl, rest⟩ := number_cancel endsX endsY h
      exact ⟨rfl, rest⟩
    | bool value => cases value <;> cases same
    | _ => cases same
  | .text value, t, x, y, _, _, h => by
    have same := kind_eq h
    cases t with
    | text other =>
      obtain ⟨rfl, rest⟩ := quote_cancel h
      exact ⟨rfl, rest⟩
    | bool value => cases value <;> cases same
    | _ => cases same
  | .array [], t, x, y, _, _, h => by
    have same := kind_eq h
    cases t with
    | array others =>
      cases others with
      | nil => exact ⟨rfl, List.append_cancel_left h⟩
      | cons other others =>
        simp only [write, List.cons_append, List.nil_append, List.append_assoc] at h
        exact absurd (List.cons.inj h).2 (bracket_ne_write other _ _)
    | bool value => cases value <;> cases same
    | _ => cases same
  | .array (item :: items), t, x, y, _, _, h => by
    have same := kind_eq h
    cases t with
    | array others =>
      cases others with
      | nil =>
        simp only [write, List.cons_append, List.nil_append, List.append_assoc] at h
        exact absurd (List.cons.inj h).2.symm (bracket_ne_write item _ _)
      | cons other others =>
        simp only [write, List.cons_append, List.append_assoc] at h
        obtain ⟨rfl, rest⟩ := write_cancel item other (writeItems_ends items x)
          (writeItems_ends others y) (List.cons.inj h).2
        obtain ⟨rfl, after⟩ := writeItems_cancel items others rest
        exact ⟨rfl, after⟩
    | bool value => cases value <;> cases same
    | _ => cases same
  | .object [], t, x, y, _, _, h => by
    have same := kind_eq h
    cases t with
    | object others =>
      cases others with
      | nil => exact ⟨rfl, List.append_cancel_left h⟩
      | cons other others => simp [write, quote] at h
    | bool value => cases value <;> cases same
    | _ => cases same
  | .object ((key, value) :: entries), t, x, y, _, _, h => by
    have same := kind_eq h
    cases t with
    | object others =>
      cases others with
      | nil => simp [write, quote] at h
      | cons other others =>
        obtain ⟨key', value'⟩ := other
        simp only [write, List.cons_append, List.append_assoc] at h
        obtain ⟨rfl, colon⟩ := quote_cancel (List.cons.inj h).2
        obtain ⟨rfl, rest⟩ := write_cancel value value' (writeEntries_ends entries x)
          (writeEntries_ends others y) (List.cons.inj colon).2
        obtain ⟨rfl, after⟩ := writeEntries_cancel entries others rest
        exact ⟨rfl, after⟩
    | bool value => cases value <;> cases same
    | _ => cases same

theorem writeItems_cancel : ∀ (s t : List Tree) {x y : List Char},
    writeItems s ++ x = writeItems t ++ y → s = t ∧ x = y
  | [], [], x, y, h => ⟨rfl, (List.cons.inj h).2⟩
  | [], item :: items, x, y, h => by simp [writeItems] at h
  | item :: items, [], x, y, h => by simp [writeItems] at h
  | item :: items, other :: others, x, y, h => by
    simp only [writeItems, List.cons_append, List.append_assoc] at h
    obtain ⟨rfl, rest⟩ := write_cancel item other (writeItems_ends items x)
      (writeItems_ends others y) (List.cons.inj h).2
    obtain ⟨rfl, after⟩ := writeItems_cancel items others rest
    exact ⟨rfl, after⟩

theorem writeEntries_cancel : ∀ (s t : List (List Char × Tree)) {x y : List Char},
    writeEntries s ++ x = writeEntries t ++ y → s = t ∧ x = y
  | [], [], x, y, h => ⟨rfl, (List.cons.inj h).2⟩
  | [], entry :: entries, x, y, h => by simp [writeEntries] at h
  | entry :: entries, [], x, y, h => by simp [writeEntries] at h
  | (key, value) :: entries, (key', value') :: entries', x, y, h => by
    simp only [writeEntries, List.cons_append, List.append_assoc] at h
    obtain ⟨rfl, colon⟩ := quote_cancel (List.cons.inj h).2
    obtain ⟨rfl, rest⟩ := write_cancel value value' (writeEntries_ends entries x)
      (writeEntries_ends entries' y) (List.cons.inj colon).2
    obtain ⟨rfl, after⟩ := writeEntries_cancel entries entries' rest
    exact ⟨rfl, after⟩

end

theorem write_injective : Function.Injective write := by
  intro s t h
  have ends : Ends [] := fun c mem => by cases mem
  exact (write_cancel s t ends ends (congrArg (· ++ []) h)).1

/-! No control character is written, and so no line ends inside a value. -/

def printable (c : Char) : Bool := 32 ≤ c.toNat

theorem printable_of_all {text : List Char} (h : text.all printable = true) :
    ∀ c ∈ text, printable c = true :=
  List.all_eq_true.mp h

theorem hexDigit_printable (n : Nat) (small : n < 16) : printable (hexDigit n) = true := by
  have all : ∀ n < 16, printable (hexDigit n) = true := by decide
  exact all n small

theorem escape_printable (c : Char) : ∀ d ∈ escape c, printable d = true := by
  have short : ∀ e, printable e = true → ∀ d ∈ ['\\', e], printable d = true := by
    intro e plain d mem
    rcases List.mem_cons.mp mem with rfl | mem
    · decide
    · rw [List.mem_singleton.mp mem]
      exact plain
  unfold escape
  split
  · exact short _ (by decide)
  split
  · exact short _ (by decide)
  split
  · exact short _ (by decide)
  split
  · exact short _ (by decide)
  split
  · exact short _ (by decide)
  split
  · exact short _ (by decide)
  split
  · exact short _ (by decide)
  split
  · rename_i control
    have fixed : ∀ d ∈ ['\\', 'u', '0', '0'], printable d = true := printable_of_all rfl
    intro d mem
    rcases List.mem_append.mp (show d ∈ ['\\', 'u', '0', '0'] ++ _ from mem) with front | digits
    · exact fixed d front
    · rcases List.mem_cons.mp digits with rfl | last
      · exact hexDigit_printable _ (by omega)
      · rw [List.mem_singleton.mp last]
        exact hexDigit_printable _ (by omega)
  · rename_i large
    intro d mem
    rw [List.mem_singleton.mp mem]
    exact decide_eq_true (by omega)

theorem quote_printable (text : List Char) : ∀ c ∈ quote text, printable c = true := by
  intro c mem
  rcases List.mem_cons.mp mem with rfl | mem
  · decide
  rcases List.mem_append.mp mem with inside | closing
  · obtain ⟨d, -, escaped⟩ := List.mem_flatMap.mp inside
    exact escape_printable d c escaped
  · rw [List.mem_singleton.mp closing]
    decide

theorem numberChar_printable {c : Char} (h : numberChar c = true) : printable c = true := by
  simp only [numberChar, Bool.or_eq_true] at h
  rcases h with digit | sign
  · have low : '0'.toNat ≤ c.toNat := by
      simp only [Char.isDigit, Bool.and_eq_true, decide_eq_true_eq] at digit
      exact digit.1
    exact decide_eq_true (Nat.le_trans (by decide) low)
  · have signs : ∀ d ∈ "+-.eE".toList, printable d = true := printable_of_all rfl
    exact signs c (by simpa using sign)

mutual

theorem write_printable : ∀ t : Tree, ∀ c ∈ write t, printable c = true
  | .null => printable_of_all rfl
  | .bool true => printable_of_all rfl
  | .bool false => printable_of_all rfl
  | .number value => fun c mem => numberChar_printable (value.plain c mem)
  | .text value => quote_printable value
  | .array [] => printable_of_all rfl
  | .array (item :: items) => by
    intro c mem
    rcases List.mem_cons.mp mem with rfl | mem
    · decide
    rcases List.mem_append.mp mem with first | more
    · exact write_printable item c first
    · exact writeItems_printable items c more
  | .object [] => printable_of_all rfl
  | .object ((key, value) :: entries) => by
    intro c mem
    rcases List.mem_cons.mp mem with rfl | mem
    · decide
    rcases List.mem_append.mp mem with name | mem
    · exact quote_printable key c name
    rcases List.mem_cons.mp mem with rfl | mem
    · decide
    rcases List.mem_append.mp mem with first | more
    · exact write_printable value c first
    · exact writeEntries_printable entries c more

theorem writeItems_printable : ∀ items : List Tree, ∀ c ∈ writeItems items, printable c = true
  | [] => printable_of_all rfl
  | item :: items => by
    intro c mem
    rcases List.mem_cons.mp mem with rfl | mem
    · decide
    rcases List.mem_append.mp mem with first | more
    · exact write_printable item c first
    · exact writeItems_printable items c more

theorem writeEntries_printable : ∀ entries : List (List Char × Tree),
    ∀ c ∈ writeEntries entries, printable c = true
  | [] => printable_of_all rfl
  | (key, value) :: entries => by
    intro c mem
    rcases List.mem_cons.mp mem with rfl | mem
    · decide
    rcases List.mem_append.mp mem with name | mem
    · exact quote_printable key c name
    rcases List.mem_cons.mp mem with rfl | mem
    · decide
    rcases List.mem_append.mp mem with first | more
    · exact write_printable value c first
    · exact writeEntries_printable entries c more

end

/-- Values that are written to a line each. -/
def writeLines (trees : List Tree) : List Char := trees.flatMap (fun t => write t ++ ['\n'])

theorem splitBy_writeLines (trees : List Tree) :
    Text.splitBy (· == '\n') (writeLines trees) = trees.map write ++ [[]] := by
  induction trees with
  | nil => rfl
  | cons t trees ih =>
    have inside : '\n' ∉ write t := by
      intro mem
      have plain := write_printable t '\n' mem
      exact absurd plain (by decide)
    rw [writeLines, List.flatMap_cons, List.append_assoc, List.singleton_append,
      Text.splitBy_append (by decide), Text.splitBy_clean inside]
    exact congrArg (write t :: ·) ih

theorem lines_writeLines (trees : List Tree) :
    Text.lines (writeLines trees) = trees.map write := by
  have kept : ∀ line ∈ trees.map write,
      (if line.getLast? = some '\r' then line.dropLast else line) = line := by
    intro line mem
    obtain ⟨t, -, rfl⟩ := List.mem_map.mp mem
    rw [if_neg]
    intro last
    have plain := write_printable t '\r' (List.mem_of_getLast? last)
    exact absurd plain (by decide)
  have same : (trees.map write).map (fun line =>
      if line.getLast? = some '\r' then line.dropLast else line) = trees.map write := by
    conv_rhs => rw [← List.map_id (trees.map write)]
    exact List.map_congr_left kept
  simp [Text.lines, splitBy_writeLines, same]

theorem writeLines_injective : Function.Injective writeLines := by
  intro s t h
  have lines : s.map write = t.map write := by
    rw [← lines_writeLines, h, lines_writeLines]
  exact List.map_injective_iff.mpr write_injective lines

end Json
