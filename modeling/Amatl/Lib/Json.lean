import Mathlib.Data.List.Basic

/-! JSON objects of texts in their compact form. Quotes, backslashes and control
characters are escaped, so that a text ends at its first bare quote and the entries
of an object are found again in what was written. -/

namespace Json

def hexDigit (n : Nat) : Char := Char.ofNat (if n < 10 then 48 + n else 87 + n)

def escape (c : Char) : List Char :=
  if c = '"' then ['\\', '"']
  else if c = '\\' then ['\\', '\\']
  else if c.toNat = 8 then ['\\', 'b']
  else if c.toNat = 9 then ['\\', 't']
  else if c.toNat = 10 then ['\\', 'n']
  else if c.toNat = 12 then ['\\', 'f']
  else if c.toNat = 13 then ['\\', 'r']
  else if c.toNat < 32 then
    ['\\', 'u', '0', '0', hexDigit (c.toNat / 16), hexDigit (c.toNat % 16)]
  else [c]

def quote (text : List Char) : List Char := '"' :: text.flatMap escape ++ ['"']

def entry (e : List Char × List Char) : List Char := quote e.1 ++ ':' :: quote e.2

def others (entries : List (List Char × List Char)) : List Char :=
  entries.flatMap (fun e => ',' :: entry e) ++ ['\x7d']

def object : List (List Char × List Char) → List Char
  | [] => ['\x7b', '\x7d']
  | e :: entries => '\x7b' :: entry e ++ others entries

def moreTexts (texts : List (List Char)) : List Char :=
  texts.flatMap (fun text => ',' :: quote text) ++ [']']

/-- An array of texts. -/
def array : List (List Char) → List Char
  | [] => ['[', ']']
  | text :: texts => '[' :: quote text ++ moreTexts texts

/-- The character that an escape stands for, and what comes after it. -/
def unescape : List Char → Option (Char × List Char)
  | '\\' :: 'u' :: _ :: _ :: high :: low :: rest =>
    let value := fun c : Char => if c.toNat < 58 then c.toNat - 48 else c.toNat - 87
    some (Char.ofNat (16 * value high + value low), rest)
  | '\\' :: c :: rest =>
    some (if c = 'b' then Char.ofNat 8 else if c = 't' then Char.ofNat 9
      else if c = 'n' then Char.ofNat 10 else if c = 'f' then Char.ofNat 12
      else if c = 'r' then Char.ofNat 13 else c, rest)
  | c :: rest => some (c, rest)
  | [] => none

theorem hexValue_hexDigit : ∀ n < 16,
    (if (hexDigit n).toNat < 58 then (hexDigit n).toNat - 48 else (hexDigit n).toNat - 87) = n := by
  decide

theorem unescape_escape (c : Char) (rest : List Char) :
    unescape (escape c ++ rest) = some (c, rest) := by
  have code : ∀ n, c.toNat = n → c = Char.ofNat n := by
    intro n h
    rw [← h, Char.ofNat_toNat]
  unfold escape
  split
  · rename_i h
    simp [unescape, h]
  split
  · rename_i h
    simp [unescape, h]
  split
  · rename_i h
    simp [unescape, code 8 h]
  split
  · rename_i h
    simp [unescape, code 9 h]
  split
  · rename_i h
    simp [unescape, code 10 h]
  split
  · rename_i h
    simp [unescape, code 12 h]
  split
  · rename_i h
    simp [unescape, code 13 h]
  split
  · rename_i small
    have high := hexValue_hexDigit (c.toNat / 16) (by omega)
    have low := hexValue_hexDigit (c.toNat % 16) (by omega)
    simp only [List.cons_append, List.nil_append, unescape, high, low]
    rw [Nat.div_add_mod, Char.ofNat_toNat]
  · rename_i plain _ _ _ _ _ _
    simp only [List.cons_append, List.nil_append]
    rw [unescape]
    all_goals grind

theorem escape_cancel {c d : Char} {x y : List Char} (h : escape c ++ x = escape d ++ y) :
    c = d ∧ x = y := by
  have same := congrArg unescape h
  rw [unescape_escape, unescape_escape] at same
  exact Prod.mk.inj (Option.some.inj same)

theorem escape_ne_quote (c : Char) (x y : List Char) : escape c ++ x ≠ '"' :: y := by
  intro h
  have same := congrArg unescape h
  rw [unescape_escape] at same
  have quoted : c = '"' := congrArg Prod.fst (Option.some.inj same)
  rw [quoted] at h
  simp [escape] at h

theorem quote_cancel {s t x y : List Char} (h : quote s ++ x = quote t ++ y) : s = t ∧ x = y := by
  simp only [quote, List.cons_append, List.append_assoc, List.nil_append] at h
  replace h := (List.cons.inj h).2
  induction s generalizing t with
  | nil =>
    cases t with
    | nil => exact ⟨rfl, (List.cons.inj h).2⟩
    | cons d t =>
      rw [List.flatMap_cons, List.append_assoc] at h
      exact absurd h.symm (escape_ne_quote d _ _)
  | cons c s ih =>
    cases t with
    | nil =>
      rw [List.flatMap_cons, List.append_assoc] at h
      exact absurd h (escape_ne_quote c _ _)
    | cons d t =>
      rw [List.flatMap_cons, List.flatMap_cons, List.append_assoc, List.append_assoc] at h
      obtain ⟨rfl, rest⟩ := escape_cancel h
      obtain ⟨rfl, after⟩ := ih rest
      exact ⟨rfl, after⟩

theorem entry_cancel {e f : List Char × List Char} {x y : List Char}
    (h : entry e ++ x = entry f ++ y) : e = f ∧ x = y := by
  simp only [entry, List.append_assoc, List.cons_append] at h
  obtain ⟨key, rest⟩ := quote_cancel h
  obtain ⟨value, after⟩ := quote_cancel (List.cons.inj rest).2
  exact ⟨Prod.ext key value, after⟩

theorem others_injective : Function.Injective others := by
  intro es fs h
  induction es generalizing fs with
  | nil =>
    cases fs with
    | nil => rfl
    | cons f fs => simp [others] at h
  | cons e es ih =>
    cases fs with
    | nil => simp [others] at h
    | cons f fs =>
      simp only [others, List.flatMap_cons, List.append_assoc, List.cons_append] at h
      obtain ⟨rfl, rest⟩ := entry_cancel (List.cons.inj h).2
      rw [ih rest]

theorem object_injective : Function.Injective object := by
  intro es fs h
  cases es with
  | nil =>
    cases fs with
    | nil => rfl
    | cons f fs => simp [object, entry, quote] at h
  | cons e es =>
    cases fs with
    | nil => simp [object, entry, quote] at h
    | cons f fs =>
      obtain ⟨rfl, rest⟩ := entry_cancel (List.cons.inj h).2
      rw [others_injective rest]

theorem moreTexts_cancel {s t : List (List Char)} {x y : List Char}
    (h : moreTexts s ++ x = moreTexts t ++ y) : s = t ∧ x = y := by
  induction s generalizing t with
  | nil =>
    cases t with
    | nil => exact ⟨rfl, (List.cons.inj h).2⟩
    | cons text t => simp [moreTexts] at h
  | cons text s ih =>
    cases t with
    | nil => simp [moreTexts] at h
    | cons other t =>
      simp only [moreTexts, List.flatMap_cons, List.append_assoc, List.cons_append] at h
      obtain ⟨rfl, rest⟩ := quote_cancel (List.cons.inj h).2
      have texts : moreTexts s ++ x = moreTexts t ++ y := by
        simpa [moreTexts] using rest
      obtain ⟨rfl, after⟩ := ih texts
      exact ⟨rfl, after⟩

theorem array_cancel {s t : List (List Char)} {x y : List Char}
    (h : array s ++ x = array t ++ y) : s = t ∧ x = y := by
  cases s with
  | nil =>
    cases t with
    | nil => exact ⟨rfl, (List.cons.inj (List.cons.inj h).2).2⟩
    | cons text t => simp [array, quote] at h
  | cons text s =>
    cases t with
    | nil => simp [array, quote] at h
    | cons other t =>
      simp only [array, List.cons_append, List.append_assoc] at h
      obtain ⟨rfl, rest⟩ := quote_cancel (List.cons.inj h).2
      obtain ⟨rfl, after⟩ := moreTexts_cancel rest
      exact ⟨rfl, after⟩

end Json
