import Mathlib.Algebra.Ring.Nat
import Mathlib.Data.List.Basic

/-! Text operations on character lists, in the shape of the Rust standard
library: splitting keeps empty pieces, replacement is left to right and does not
rescan what it wrote, and whitespace is the Unicode `White_Space` property. -/

namespace Text

/-- Unicode `White_Space`. -/
def isWhitespace (c : Char) : Bool :=
  (9 ≤ c.toNat && c.toNat ≤ 13) || c.toNat == 0x20 || c.toNat == 0x85 || c.toNat == 0xa0 ||
    c.toNat == 0x1680 || (0x2000 ≤ c.toNat && c.toNat ≤ 0x200a) || c.toNat == 0x2028 ||
    c.toNat == 0x2029 || c.toNat == 0x202f || c.toNat == 0x205f || c.toNat == 0x3000

/-- General category `Cc`. -/
def isControl (c : Char) : Bool := c.toNat ≤ 0x1f || (0x7f ≤ c.toNat && c.toNat ≤ 0x9f)

def isAsciiDigit (c : Char) : Bool := 48 ≤ c.toNat && c.toNat ≤ 57

def isAsciiLower (c : Char) : Bool := 97 ≤ c.toNat && c.toNat ≤ 122

def isAsciiUpper (c : Char) : Bool := 65 ≤ c.toNat && c.toNat ≤ 90

def toAsciiLower (c : Char) : Char := if isAsciiUpper c then Char.ofNat (c.toNat + 32) else c

def toAsciiUpper (c : Char) : Char := if isAsciiLower c then Char.ofNat (c.toNat - 32) else c

def asciiLowercase (s : String) : String := String.ofList (s.toList.map toAsciiLower)

/-- The value of a digit in the given radix, letters counting from ten. -/
def digitValue (radix : Nat) (c : Char) : Option Nat :=
  let v := if isAsciiDigit c then c.toNat - 48
    else if isAsciiLower c then c.toNat - 87
    else if isAsciiUpper c then c.toNat - 55
    else radix
  if v < radix then some v else none

def isAsciiHexDigit (c : Char) : Bool := (digitValue 16 c).isSome

/-- Pieces between the characters that satisfy `p`, empty ones included. -/
def splitBy (p : Char → Bool) : List Char → List (List Char)
  | [] => [[]]
  | c :: cs =>
    if p c then [] :: splitBy p cs
    else match splitBy p cs with
      | [] => [[c]]
      | w :: ws => (c :: w) :: ws

def splitWhitespace (s : List Char) : List (List Char) :=
  (splitBy isWhitespace s).filter (fun w => !w.isEmpty)

/-- The text before and after the first occurrence of `sep`. -/
def splitOnce (sep : List Char) : List Char → Option (List Char × List Char)
  | [] => if sep.isEmpty then some ([], []) else none
  | c :: cs =>
    if sep.isPrefixOf (c :: cs) then some ([], (c :: cs).drop sep.length)
    else (splitOnce sep cs).map (fun r => (c :: r.1, r.2))

/-- The text before and after the last occurrence of the character `sep`. -/
def rsplitOnce (sep : Char) (s : List Char) : Option (List Char × List Char) :=
  (splitOnce [sep] s.reverse).map (fun r => (r.2.reverse, r.1.reverse))

/-- Position of the first occurrence of `pat`. -/
def find (pat : List Char) : List Char → Option Nat
  | [] => if pat.isEmpty then some 0 else none
  | c :: cs => if pat.isPrefixOf (c :: cs) then some 0 else (find pat cs).map (· + 1)

def contains (pat s : List Char) : Bool := (find pat s).isSome

def startsWith (pat s : String) : Bool := pat.toList.isPrefixOf s.toList

def endsWith (pat s : String) : Bool := pat.toList.isSuffixOf s.toList

def stripStart (pat s : String) : Option String :=
  if startsWith pat s then some (String.ofList (s.toList.drop pat.toList.length)) else none

def eqIgnoreAsciiCase (s t : String) : Bool :=
  s.toList.map toAsciiLower == t.toList.map toAsciiLower

/-- `skip` characters are left of a match that has already been replaced. -/
def replaceFrom (pat rep : List Char) : Nat → List Char → List Char
  | _, [] => []
  | 0, c :: cs =>
    if pat.isPrefixOf (c :: cs) then rep ++ replaceFrom pat rep (pat.length - 1) cs
    else c :: replaceFrom pat rep 0 cs
  | skip + 1, _ :: cs => replaceFrom pat rep skip cs

def replace (pat rep s : List Char) : List Char := replaceFrom pat rep 0 s

def utf8Length (text : List Char) : Nat := (text.map Char.utf8Size).sum

def trimEndBy (p : Char → Bool) (s : List Char) : List Char := (s.reverse.dropWhile p).reverse

def trim (s : List Char) : List Char := trimEndBy isWhitespace (s.dropWhile isWhitespace)

def join (sep : List Char) : List (List Char) → List Char
  | [] => []
  | [w] => w
  | w :: v :: ws => w ++ sep ++ join sep (v :: ws)

/-- `str::lines`: a line ends at a line feed, a carriage return before it is
dropped, and an empty last line is not a line. -/
def lines (text : List Char) : List (List Char) :=
  let pieces := splitBy (· == '\n') text
  let ended := pieces.dropLast.map (fun line =>
    if line.getLast? = some '\r' then line.dropLast else line)
  let last := pieces.getLast?.getD []
  if last.isEmpty then ended else ended ++ [last]

def digitsValue (radix : Nat) : List Char → Option Nat → Option Nat
  | [], acc => acc
  | c :: cs, acc =>
    match digitValue radix c with
    | none => none
    | some d => digitsValue radix cs (some (acc.getD 0 * radix + d))

/-- Unsigned integer text below `bound`: digits with an optional leading `+`,
at least one digit. -/
def parseUnsigned (radix bound : Nat) (s : List Char) : Option Nat :=
  let digits := match s with
    | '+' :: rest => rest
    | _ => s
  (digitsValue radix digits none).filter (· < bound)

theorem startsWith_append {pat s : String} (h : startsWith pat s = true) (rest : String) :
    startsWith pat (s ++ rest) = true := by
  simp only [startsWith, List.isPrefixOf_iff_prefix, String.toList_append] at h ⊢
  exact h.trans (List.prefix_append _ _)

theorem startsWith_append_of_clash {pat s : String} (h : startsWith pat s = false)
    (h' : startsWith s pat = false) (rest : String) : startsWith pat (s ++ rest) = false := by
  simp only [startsWith, Bool.eq_false_iff, ne_eq, List.isPrefixOf_iff_prefix,
    String.toList_append] at h h' ⊢
  intro both
  rcases List.prefix_or_prefix_of_prefix both (List.prefix_append _ _) with shorter | shorter
  · exact h shorter
  · exact h' shorter

theorem append_ne_of_clash {s t : String} (h : startsWith s t = false) (rest : String) :
    ¬ s ++ rest = t := by
  rintro rfl
  have starts : startsWith s (s ++ rest) = true := by
    simp only [startsWith, List.isPrefixOf_iff_prefix, String.toList_append]
    exact List.prefix_append _ _
  rw [starts] at h
  cases h

theorem endsWith_append (s pat : String) : endsWith pat (s ++ pat) = true := by
  simp [endsWith, String.toList_append]

theorem splitBy_ne_nil (p : Char → Bool) (s : List Char) : splitBy p s ≠ [] := by
  cases s with
  | nil => simp [splitBy]
  | cons c s =>
    rw [splitBy]
    split
    · simp
    · split <;> simp

theorem splitBy_append {p : Char → Bool} {c : Char} (hc : p c = true) (u v : List Char) :
    splitBy p (u ++ c :: v) = splitBy p u ++ splitBy p v := by
  induction u with
  | nil => simp [splitBy, hc]
  | cons a u ih =>
    rw [List.cons_append, splitBy, splitBy, ih]
    by_cases ha : p a = true
    · rw [if_pos ha, if_pos ha]
      rfl
    · rw [if_neg ha, if_neg ha]
      obtain ⟨w, ws, hu⟩ := List.exists_cons_of_ne_nil (splitBy_ne_nil p u)
      rw [hu]
      rfl

theorem splitBy_none {p : Char → Bool} {w : List Char} (h : ∀ c ∈ w, p c = false) :
    splitBy p w = [w] := by
  induction w with
  | nil => rfl
  | cons c w ih =>
    have other := h c List.mem_cons_self
    rw [splitBy, ih (fun d mem => h d (List.mem_cons_of_mem c mem)), other]
    rfl

theorem exists_mem_splitBy {p : Char → Bool} {c : Char} {s : List Char} :
    (∃ w ∈ splitBy p s, c ∈ w) ↔ c ∈ s ∧ p c = false := by
  induction s with
  | nil => simp [splitBy]
  | cons d s ih =>
    obtain ⟨first, rest, split⟩ := List.exists_cons_of_ne_nil (splitBy_ne_nil p s)
    rw [splitBy]
    by_cases here : p d = true
    · have differs : p c = false → c ≠ d := by
        rintro other rfl
        rw [here] at other
        cases other
      simp only [if_pos here, List.mem_cons, exists_eq_or_imp, List.not_mem_nil, false_or, ih]
      exact ⟨fun h => ⟨Or.inr h.1, h.2⟩, fun h => ⟨h.1.resolve_left (differs h.2), h.2⟩⟩
    · have equal : c = d → p c = false := fun same => same ▸ Bool.eq_false_iff.mpr here
      rw [split] at ih
      simp only [if_neg here, split, List.mem_cons, exists_eq_or_imp] at ih ⊢
      rw [or_assoc, ih]
      constructor
      · rintro (same | later)
        · exact ⟨Or.inl same, equal same⟩
        · exact ⟨Or.inr later.1, later.2⟩
      · rintro ⟨same | later, other⟩
        · exact Or.inl same
        · exact Or.inr ⟨later, other⟩

theorem of_mem_splitBy {p : Char → Bool} {c : Char} {s w : List Char} (h : w ∈ splitBy p s)
    (mem : c ∈ w) : c ∈ s ∧ p c = false :=
  exists_mem_splitBy.mp ⟨w, h, mem⟩

theorem mem_of_splitBy {p : Char → Bool} {c : Char} {s w : List Char} (h : w ∈ splitBy p s)
    (mem : c ∈ w) : c ∈ s :=
  (of_mem_splitBy h mem).1

theorem notMem_splitBy {c : Char} {s w : List Char} (h : w ∈ splitBy (· == c) s) : c ∉ w := by
  intro mem
  have other := (of_mem_splitBy h mem).2
  simp at other

theorem join_splitBy (c : Char) (s : List Char) : join [c] (splitBy (· == c) s) = s := by
  induction s with
  | nil => rfl
  | cons a s ih =>
    obtain ⟨w, ws, hs⟩ := List.exists_cons_of_ne_nil (splitBy_ne_nil (· == c) s)
    rw [hs] at ih
    rw [splitBy, hs]
    by_cases ha : (a == c) = true
    · rw [if_pos ha]
      simp only [join, List.nil_append, List.singleton_append, ih, beq_iff_eq.mp ha]
    · rw [if_neg ha]
      cases ws with
      | nil =>
        simp only [join] at ih ⊢
        rw [ih]
      | cons v ws =>
        simp only [join, List.cons_append, List.cons.injEq, true_and] at ih ⊢
        exact ih

/-- The pieces of joined words, however they are distributed among the words. -/
def cut (c : Char) : List (List Char) → List (List Char)
  | [] => [[]]
  | w :: ws => (w :: ws).flatMap (splitBy (· == c))

theorem splitBy_join (c : Char) (ws : List (List Char)) :
    splitBy (· == c) (join [c] ws) = cut c ws := by
  induction ws with
  | nil => rfl
  | cons w ws ih =>
    cases ws with
    | nil => simp [join, cut]
    | cons v ws =>
      rw [join, List.append_assoc, List.singleton_append, splitBy_append (by simp), ih]
      rfl

theorem join_eq_join_iff {c : Char} {ws vs : List (List Char)} :
    join [c] ws = join [c] vs ↔ cut c ws = cut c vs := by
  constructor
  · intro h
    rw [← splitBy_join, ← splitBy_join, h]
  · intro h
    rw [← join_splitBy c (join [c] ws), ← join_splitBy c (join [c] vs), splitBy_join, splitBy_join,
      h]

theorem splitOnce_char {c : Char} {s a b : List Char} (h : splitOnce [c] s = some (a, b)) :
    s = a ++ c :: b ∧ c ∉ a := by
  induction s generalizing a b with
  | nil => simp [splitOnce] at h
  | cons d s ih =>
    rw [splitOnce] at h
    by_cases here : [c].isPrefixOf (d :: s)
    · rw [if_pos here] at h
      cases h
      have same : c = d := by simpa using here
      simp [same]
    · rw [if_neg here] at h
      have different : c ≠ d := by simpa using here
      obtain ⟨⟨a', b'⟩, found, heq⟩ := Option.map_eq_some_iff.mp h
      cases heq
      obtain ⟨hs, absent⟩ := ih found
      exact ⟨by rw [hs, List.cons_append], by simp [different, absent]⟩

theorem splitOnce_append {c : Char} {a : List Char} (absent : c ∉ a) (b : List Char) :
    splitOnce [c] (a ++ c :: b) = some (a, b) := by
  induction a with
  | nil => simp [splitOnce]
  | cons d a ih =>
    have different : c ≠ d := by
      rintro rfl
      simp at absent
    rw [List.cons_append, splitOnce, if_neg (by simpa using different),
      ih (fun mem => absent (List.mem_cons_of_mem d mem))]
    rfl

theorem rsplitOnce_spec {c : Char} {s a b : List Char} (h : rsplitOnce c s = some (a, b)) :
    s = a ++ c :: b ∧ c ∉ b := by
  obtain ⟨⟨b', a'⟩, found, heq⟩ := Option.map_eq_some_iff.mp h
  cases heq
  obtain ⟨hs, absent⟩ := splitOnce_char found
  constructor
  · have reversed := congrArg List.reverse hs
    simpa using reversed
  · simpa using absent

theorem splitOnce_first {sep s a b : List Char} (h : splitOnce sep s = some (a, b)) :
    s = a ++ sep ++ b ∧ ∀ a' b', s = a' ++ sep ++ b' → b' <:+ b := by
  induction s generalizing a b with
  | nil =>
    rw [splitOnce] at h
    split at h
    · rename_i empty
      cases h
      have hsep : sep = [] := List.isEmpty_iff.mp empty
      refine ⟨by simp [hsep], fun a' b' equal => ?_⟩
      have none_left : b' = [] := by
        have parts := List.append_eq_nil_iff.mp equal.symm
        exact parts.2
      simp [none_left]
    · cases h
  | cons c s ih =>
    rw [splitOnce] at h
    by_cases here : sep.isPrefixOf (c :: s) = true
    · rw [if_pos here] at h
      cases h
      obtain ⟨rest, hrest⟩ := List.isPrefixOf_iff_prefix.mp here
      have behind : (c :: s).drop sep.length = rest := by rw [← hrest, List.drop_left]
      refine ⟨by rw [behind, List.nil_append, hrest], fun a' b' equal => ?_⟩
      rw [behind]
      have ends : b' <:+ sep ++ rest := ⟨a' ++ sep, by rw [hrest, equal]⟩
      refine List.suffix_of_suffix_length_le ends (List.suffix_append sep rest) ?_
      have lengths := congrArg List.length (hrest.trans equal)
      simp only [List.length_append] at lengths
      omega
    · rw [if_neg here] at h
      obtain ⟨⟨a₁, b₁⟩, found, heq⟩ := Option.map_eq_some_iff.mp h
      cases heq
      obtain ⟨hs, longest⟩ := ih found
      refine ⟨by rw [hs]; rfl, fun a' b' equal => ?_⟩
      cases a' with
      | nil =>
        refine absurd (List.isPrefixOf_iff_prefix.mpr ⟨b', ?_⟩) here
        exact equal.symm
      | cons d a' => exact longest a' b' (List.cons.inj equal).2

theorem splitOnce_none {sep s : List Char} (h : splitOnce sep s = none) (a b : List Char) :
    s ≠ a ++ sep ++ b := by
  induction s generalizing a with
  | nil =>
    rw [splitOnce] at h
    split at h
    · cases h
    · rename_i nonempty
      intro equal
      have parts := List.append_eq_nil_iff.mp equal.symm
      have hsep := (List.append_eq_nil_iff.mp parts.1).2
      exact nonempty (List.isEmpty_iff.mpr hsep)
  | cons c s ih =>
    rw [splitOnce] at h
    by_cases here : sep.isPrefixOf (c :: s) = true
    · rw [if_pos here] at h
      cases h
    · rw [if_neg here, Option.map_eq_none_iff] at h
      intro equal
      cases a with
      | nil => exact here (List.isPrefixOf_iff_prefix.mpr ⟨b, equal.symm⟩)
      | cons d a => exact ih h a (List.cons.inj equal).2

theorem find_splitOnce (segment text : List Char) :
    find segment text = (splitOnce segment text).map (fun pair => pair.1.length) := by
  induction text with
  | nil =>
    rw [find, splitOnce]
    split <;> rfl
  | cons c text ih =>
    rw [find, splitOnce]
    split
    · rfl
    · rw [ih, Option.map_map, Option.map_map]
      rfl

theorem contains_iff {segment text : List Char} :
    contains segment text = true ↔ ∃ front back, text = front ++ segment ++ back := by
  rw [contains, find_splitOnce, Option.isSome_map]
  constructor
  · intro some
    obtain ⟨⟨front, back⟩, split⟩ := Option.isSome_iff_exists.mp some
    exact ⟨front, back, (splitOnce_first split).1⟩
  · rintro ⟨front, back, whole⟩
    cases split : splitOnce segment text with
    | none => exact absurd whole (splitOnce_none split front back)
    | some pair => rfl

theorem splitBy_clean {c : Char} {w : List Char} (h : c ∉ w) : splitBy (· == c) w = [w] := by
  induction w with
  | nil => rfl
  | cons d w ih =>
    have different : (d == c) = false := by
      simpa using fun equal : d = c => h (by simp [equal])
    have rest := ih (fun mem => h (List.mem_cons_of_mem d mem))
    rw [splitBy, if_neg (by simp [different]), rest]

theorem trimEndBy_append {p : Char → Bool} {c : Char} (hc : p c = true) (s : List Char) :
    trimEndBy p (s ++ [c]) = trimEndBy p s := by
  simp [trimEndBy, hc]

theorem trim_append {c : Char} (hc : isWhitespace c = true) (s : List Char) :
    trim (s ++ [c]) = trim s := by
  unfold trim
  rw [List.dropWhile_append]
  by_cases blank : (s.dropWhile isWhitespace).isEmpty = true
  · rw [if_pos blank, List.isEmpty_iff.mp blank]
    simp [hc]
  · rw [if_neg blank, trimEndBy_append hc]

/-- A reader that passes over blank lines and carriage returns at the end of one takes the
lines of a text one after the other. -/
theorem foldl_lines {σ : Type} {step : σ → List Char → σ} (blank : ∀ s, step s [] = s)
    (carriage : ∀ s w, step s (w ++ ['\r']) = step s w) {ws : List (List Char)}
    (clean : ∀ w ∈ ws, '\n' ∉ w) (s : σ) :
    (lines (join ['\n'] ws)).foldl step s = ws.foldl step s := by
  have stripped : ∀ (s : σ) (w : List Char),
      step s (if w.getLast? = some '\r' then w.dropLast else w) = step s w := by
    intro s w
    by_cases ends : w.getLast? = some '\r'
    · obtain ⟨front, rfl⟩ := List.getLast?_eq_some_iff.mp ends
      rw [if_pos ends, List.dropLast_concat, carriage]
    · rw [if_neg ends]
  rcases List.eq_nil_or_concat ws with rfl | ⟨ws, last, rfl⟩
  · rfl
  · rw [List.concat_eq_append] at clean ⊢
    have pieces : splitBy (· == '\n') (join ['\n'] (ws ++ [last])) = ws ++ [last] := by
      obtain ⟨w, rest, hws⟩ := List.exists_cons_of_ne_nil (show ws ++ [last] ≠ [] by simp)
      rw [splitBy_join, hws, cut, ← hws]
      have single : (ws ++ [last]).flatMap (splitBy (· == '\n')) =
          (ws ++ [last]).flatMap (fun w => [w]) := by
        apply List.flatMap_congr
        intro w mem
        exact splitBy_clean (clean w mem)
      rw [single]
      simp
    unfold lines
    dsimp only
    rw [pieces, List.dropLast_concat, List.getLast?_concat, Option.getD_some]
    have earlier : ∀ s, (ws.map (fun line =>
        if line.getLast? = some '\r' then line.dropLast else line)).foldl step s =
          ws.foldl step s := by
      intro s
      simp only [List.foldl_map, stripped]
    by_cases empty : last.isEmpty = true
    · rw [if_pos empty, earlier, List.foldl_append, List.isEmpty_iff.mp empty]
      simp [blank]
    · rw [if_neg empty, List.foldl_append, List.foldl_append, earlier]

theorem forall_mem_of_all {α : Type} {p : α → Prop} [DecidablePred p] {l : List α}
    (h : l.all (fun a => decide (p a)) = true) : ∀ a ∈ l, p a := by
  intro a mem
  exact of_decide_eq_true (List.all_eq_true.mp h a mem)

theorem forall_ascii {P : Char → Prop} (h : ∀ n < 128, P (Char.ofNat n)) {c : Char}
    (small : c.toNat < 128) : P c := by
  have here := h c.toNat small
  rwa [Char.ofNat_toNat] at here

theorem isAsciiUpper_lt {c : Char} (upper : isAsciiUpper c = true) : c.toNat < 128 := by
  simp only [isAsciiUpper, Bool.and_eq_true, decide_eq_true_eq] at upper
  omega

theorem isAsciiLower_toAsciiLower {c : Char} (upper : isAsciiUpper c = true) :
    isAsciiLower (toAsciiLower c) = true :=
  forall_ascii (P := fun c => isAsciiUpper c = true → isAsciiLower (toAsciiLower c) = true)
    (by decide) (isAsciiUpper_lt upper) upper

theorem toAsciiLower_cases (c : Char) :
    toAsciiLower c = c ∨ (isAsciiUpper c = true ∧ isAsciiLower (toAsciiLower c) = true) := by
  by_cases upper : isAsciiUpper c = true
  · exact Or.inr ⟨upper, isAsciiLower_toAsciiLower upper⟩
  · exact Or.inl (if_neg upper)

theorem toAsciiLower_eq_iff {c d : Char} (lower : isAsciiLower d = false)
    (upper : isAsciiUpper d = false) : toAsciiLower c = d ↔ c = d := by
  rcases toAsciiLower_cases c with same | ⟨hupper, hlower⟩
  · rw [same]
  · constructor
    · rintro rfl
      rw [lower] at hlower
      cases hlower
    · rintro rfl
      rw [upper] at hupper
      cases hupper

theorem toAsciiLower_idem (c : Char) : toAsciiLower (toAsciiLower c) = toAsciiLower c := by
  rcases toAsciiLower_cases c with same | ⟨-, lower⟩
  · rw [same, same]
  · have upper : isAsciiUpper (toAsciiLower c) = false := by
      simp only [isAsciiLower, Bool.and_eq_true, decide_eq_true_eq] at lower
      simp only [isAsciiUpper, Bool.and_eq_false_iff, decide_eq_false_iff_not]
      omega
    rw [toAsciiLower, if_neg (by rw [upper]; decide)]

theorem isWhitespace_letter {c : Char} (h : isAsciiLower c = true ∨ isAsciiUpper c = true) :
    isWhitespace c = false := by
  simp only [isAsciiLower, isAsciiUpper, Bool.and_eq_true, decide_eq_true_eq] at h
  simp only [isWhitespace, Bool.or_eq_false_iff, Bool.and_eq_false_iff, decide_eq_false_iff_not,
    beq_eq_false_iff_ne]
  omega

theorem isWhitespace_toAsciiLower (c : Char) : isWhitespace (toAsciiLower c) = isWhitespace c := by
  rcases toAsciiLower_cases c with same | ⟨upper, lower⟩
  · rw [same]
  · rw [isWhitespace_letter (Or.inl lower), isWhitespace_letter (Or.inr upper)]

theorem trimEndBy_head (p : Char → Bool) (s : List Char) : trimEndBy p s <+: s := by
  obtain ⟨front, h⟩ := List.dropWhile_suffix p (l := s.reverse)
  refine ⟨front.reverse, ?_⟩
  rw [trimEndBy, ← List.reverse_append, h, List.reverse_reverse]

theorem trimEndBy_last {p : Char → Bool} {s : List Char} {c : Char}
    (h : (trimEndBy p s).getLast? = some c) : p c = false := by
  rw [trimEndBy, List.getLast?_reverse] at h
  have first := List.head?_dropWhile_not p s.reverse
  rw [h] at first
  exact first

theorem trimEndBy_split (p : Char → Bool) (s : List Char) :
    ∃ back, s = trimEndBy p s ++ back ∧ ∀ c ∈ back, p c = true := by
  refine ⟨(s.reverse.takeWhile p).reverse, ?_, ?_⟩
  · rw [trimEndBy, ← List.reverse_append, List.takeWhile_append_dropWhile, List.reverse_reverse]
  · intro c mem
    exact List.all_eq_true.mp List.all_takeWhile c (List.mem_reverse.mp mem)

theorem trim_split (s : List Char) :
    ∃ front back, s = front ++ trim s ++ back ∧ (∀ c ∈ front, isWhitespace c = true) ∧
      ∀ c ∈ back, isWhitespace c = true := by
  obtain ⟨back, split, white⟩ := trimEndBy_split isWhitespace (s.dropWhile isWhitespace)
  refine ⟨s.takeWhile isWhitespace, back, ?_, ?_, white⟩
  · rw [List.append_assoc, trim, ← split, List.takeWhile_append_dropWhile]
  · intro c mem
    exact List.all_eq_true.mp List.all_takeWhile c mem

def visible (text : List Char) : Nat := text.countP (fun c => !isWhitespace c)

theorem visible_append (a b : List Char) : visible (a ++ b) = visible a + visible b :=
  List.countP_append

theorem visible_eq_zero {text : List Char} :
    visible text = 0 ↔ ∀ c ∈ text, isWhitespace c = true := by
  simp [visible, List.countP_eq_zero]

theorem visible_dropWhile (text : List Char) :
    visible (text.dropWhile isWhitespace) = visible text := by
  induction text with
  | nil => rfl
  | cons c text ih =>
    cases white : isWhitespace c with
    | true =>
      rw [List.dropWhile_cons_of_pos white, ih, visible, visible,
        List.countP_cons_of_neg (by simp [white])]
    | false => rw [List.dropWhile_cons_of_neg (by simp [white])]

theorem visible_trim (text : List Char) : visible (trim text) = visible text := by
  have reversed : ∀ text : List Char, visible text.reverse = visible text :=
    fun text => List.countP_reverse
  rw [trim, trimEndBy, reversed, visible_dropWhile, reversed, visible_dropWhile]

theorem dropWhile_blank {text : List Char} (blank : visible text = 0) :
    text.dropWhile isWhitespace = [] := by
  induction text with
  | nil => rfl
  | cons c text ih =>
    have all := visible_eq_zero.mp blank
    rw [List.dropWhile_cons_of_pos (all c List.mem_cons_self)]
    exact ih (visible_eq_zero.mpr (fun d mem => all d (List.mem_cons_of_mem c mem)))

theorem trim_eq_nil {text : List Char} : trim text = [] ↔ visible text = 0 := by
  constructor
  · intro empty
    rw [← visible_trim, empty]
    rfl
  · intro none
    rw [trim, dropWhile_blank none]
    rfl

theorem trim_blank_append {front : List Char} (blank : visible front = 0) (text : List Char) :
    trim (front ++ text) = trim text := by
  rw [trim, List.dropWhile_append, dropWhile_blank blank]
  rfl

end Text
