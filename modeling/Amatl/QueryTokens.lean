import Amatl.Query
import Mathlib.Data.List.TakeWhile

/-! The tokens of a query text: where a text breaks, which texts are one token, and how texts behind
one another are read. -/

namespace Amatl

open Text

/-- Whether a quote is open behind the text. -/
def quotedAfter (quoted : Bool) (text : List Char) : Bool :=
  text.foldl (fun quoted c => if c = '"' then !quoted else quoted) quoted

/-- No white space outside of quotes. -/
def unbroken (quoted : Bool) : List Char → Bool
  | [] => true
  | c :: text =>
    if c = '"' then unbroken (!quoted) text
    else (quoted || !isWhitespace c) && unbroken quoted text

theorem quotedAfter_append (quoted : Bool) (text rest : List Char) :
    quotedAfter quoted (text ++ rest) = quotedAfter (quotedAfter quoted text) rest :=
  List.foldl_append

theorem unbroken_append (quoted : Bool) (text rest : List Char) :
    unbroken quoted (text ++ rest) =
      (unbroken quoted text && unbroken (quotedAfter quoted text) rest) := by
  induction text generalizing quoted with
  | nil => simp [unbroken, quotedAfter]
  | cons c text ih =>
    rw [List.cons_append, unbroken, unbroken]
    by_cases quote : c = '"'
    · rw [if_pos quote, if_pos quote, ih]
      simp [quotedAfter, quote]
    · rw [if_neg quote, if_neg quote, ih]
      simp [quotedAfter, quote, Bool.and_assoc]

theorem foldl_read {quoted : Bool} {text : List Char} (h : unbroken quoted text = true)
    (tokens : List (List Char)) (current : List Char) :
    text.foldl Tokenizer.read ⟨tokens, current, quoted⟩ =
      ⟨tokens, current ++ text, quotedAfter quoted text⟩ := by
  induction text generalizing quoted current with
  | nil => simp [quotedAfter]
  | cons c text ih =>
    rw [unbroken] at h
    rw [List.foldl_cons, Tokenizer.read]
    by_cases quote : c = '"'
    · rw [if_pos quote] at h ⊢
      rw [ih h]
      simp [quotedAfter, quote]
    · rw [if_neg quote, Bool.and_eq_true] at h
      have inside : (isWhitespace c && !quoted) = false := by
        have kept := h.1
        cases quoted <;> simp_all
      rw [if_neg quote, inside, if_neg Bool.false_ne_true, ih h.2]
      simp [quotedAfter, quote]

def Tokenizer.finish (t : Tokenizer) : List (List Char) :=
  if t.current.isEmpty then t.tokens else t.tokens ++ [t.current]

theorem tokenize_eq (input : List Char) :
    tokenize input = (input.foldl Tokenizer.read ⟨[], [], false⟩).finish := rfl

theorem tokenize_unbroken {term : List Char} (nonempty : term ≠ [])
    (together : unbroken false term = true) : tokenize term = [term] := by
  rw [tokenize_eq, foldl_read together, Tokenizer.finish, List.nil_append, if_neg]
  · rfl
  · simpa using nonempty

theorem foldl_read_quoted (text : List Char) (t : Tokenizer) :
    (text.foldl Tokenizer.read t).quoted = quotedAfter t.quoted text := by
  induction text generalizing t with
  | nil => rfl
  | cons c text ih =>
    have first : (t.read c).quoted = if c = '"' then !t.quoted else t.quoted := by
      unfold Tokenizer.read
      split_ifs <;> rfl
    rw [List.foldl_cons, ih, first]
    rfl

def Tokenizer.after (tokens : List (List Char)) (t : Tokenizer) : Tokenizer :=
  { t with tokens := tokens ++ t.tokens }

theorem foldl_read_after (tokens : List (List Char)) (text : List Char) (t : Tokenizer) :
    text.foldl Tokenizer.read (t.after tokens) = (text.foldl Tokenizer.read t).after tokens := by
  induction text generalizing t with
  | nil => rfl
  | cons c text ih =>
    have first : (t.after tokens).read c = (t.read c).after tokens := by
      unfold Tokenizer.read Tokenizer.after
      dsimp only
      split_ifs <;> simp only [List.append_assoc]
    rw [List.foldl_cons, List.foldl_cons, first, ih]

theorem finish_after (tokens : List (List Char)) (t : Tokenizer) :
    (t.after tokens).finish = tokens ++ t.finish := by
  unfold Tokenizer.finish Tokenizer.after
  dsimp only
  split_ifs
  · rfl
  · rw [List.append_assoc]

theorem read_space {t : Tokenizer} (closed : t.quoted = false) :
    t.read ' ' = Tokenizer.after t.finish ⟨[], [], false⟩ := by
  have space : isWhitespace ' ' = true := by decide
  have quote : ' ' ≠ '"' := by decide
  unfold Tokenizer.read Tokenizer.finish Tokenizer.after
  rw [if_neg quote, space, closed, if_pos (by rfl)]
  by_cases empty : t.current.isEmpty = true
  · rw [if_pos empty, if_pos empty, List.append_nil, ← closed, ← List.isEmpty_iff.mp empty]
  · rw [if_neg empty, if_neg empty, List.append_nil]

/-- A text that closes its quotes is read for itself. -/
theorem tokenize_closed {text : List Char} (closed : quotedAfter false text = false)
    (rest : List Char) : tokenize (text ++ [' '] ++ rest) = tokenize text ++ tokenize rest := by
  have shut := foldl_read_quoted text ⟨[], [], false⟩
  rw [closed] at shut
  rw [tokenize_eq, List.foldl_append, List.foldl_append, List.foldl_cons, List.foldl_nil,
    read_space shut, foldl_read_after, finish_after]
  rfl

theorem tokenize_join {terms : List (List Char)}
    (closed : ∀ term ∈ terms.dropLast, quotedAfter false term = false) :
    tokenize (join [' '] terms) = terms.flatMap tokenize := by
  induction terms with
  | nil => rfl
  | cons first terms ih =>
    cases terms with
    | nil => simp [join]
    | cons second terms =>
      have shut : quotedAfter false first = false := closed first (by simp)
      have later := ih (fun term mem => closed term (by
        rw [List.dropLast_cons_cons]
        exact List.mem_cons_of_mem _ mem))
      rw [join, tokenize_closed shut, later]
      rfl

/-- Terms that hold together and close their quotes are found again. -/
theorem tokenize_terms {terms : List (List Char)}
    (whole : ∀ term ∈ terms, term ≠ [] ∧ unbroken false term = true)
    (closed : ∀ term ∈ terms.dropLast, quotedAfter false term = false) :
    tokenize (join [' '] terms) = terms := by
  rw [tokenize_join closed]
  have each : terms.flatMap tokenize = terms.flatMap (fun term => [term]) := by
    apply List.flatMap_congr
    intro term mem
    exact tokenize_unbroken (whole term mem).1 (whole term mem).2
  rw [each, List.flatMap_singleton']

/-- What the tokenizer has read so far: whole tokens with their quotes closed, and the
beginning of the next one. -/
structure Tokenizer.Reads (t : Tokenizer) : Prop where
  tokens : ∀ token ∈ t.tokens, token ≠ [] ∧ unbroken false token = true ∧
    quotedAfter false token = false
  current : unbroken false t.current = true
  quoted : quotedAfter false t.current = t.quoted

theorem Tokenizer.Reads.read {t : Tokenizer} (h : t.Reads) (c : Char) : (t.read c).Reads := by
  unfold Tokenizer.read
  by_cases quote : c = '"'
  · rw [if_pos quote]
    refine ⟨h.tokens, ?_, ?_⟩
    · rw [unbroken_append, h.current, quote]
      rfl
    · rw [quotedAfter_append, h.quoted, quote]
      rfl
  · rw [if_neg quote]
    by_cases breaks : (isWhitespace c && !t.quoted) = true
    · rw [if_pos breaks]
      by_cases empty : t.current.isEmpty = true
      · rw [if_pos empty]
        exact h
      · rw [if_neg empty]
        refine ⟨fun token mem => ?_, rfl, ?_⟩
        · rcases List.mem_append.mp mem with earlier | new
          · exact h.tokens token earlier
          · rw [List.mem_singleton.mp new]
            have open' : t.quoted = false := by
              rw [Bool.and_eq_true, Bool.not_eq_true'] at breaks
              exact breaks.2
            exact ⟨by simpa using empty, h.current, by rw [h.quoted, open']⟩
        · rw [Bool.and_eq_true, Bool.not_eq_true'] at breaks
          exact breaks.2.symm
    · rw [if_neg breaks]
      refine ⟨h.tokens, ?_, ?_⟩
      · rw [unbroken_append, h.current, h.quoted]
        simp only [Bool.and_eq_true, Bool.not_eq_true', not_and, Bool.not_eq_false] at breaks
        cases white : isWhitespace c with
        | false => simp [unbroken, quote, white]
        | true => simp [unbroken, quote, breaks white]
      · rw [quotedAfter_append, h.quoted]
        simp [quotedAfter, quote]

theorem Tokenizer.Reads.foldl {t : Tokenizer} (h : t.Reads) (text : List Char) :
    (text.foldl Tokenizer.read t).Reads := by
  induction text generalizing t with
  | nil => exact h
  | cons c text ih => exact ih (h.read c)

theorem reads_input (input : List Char) :
    (input.foldl Tokenizer.read ⟨[], [], false⟩).Reads := by
  have start : Tokenizer.Reads ⟨[], [], false⟩ := ⟨nofun, rfl, rfl⟩
  exact start.foldl input

theorem tokenize_whole (input : List Char) :
    (∀ token ∈ tokenize input, token ≠ [] ∧ unbroken false token = true) ∧
      ∀ token ∈ (tokenize input).dropLast, quotedAfter false token = false := by
  have ended := reads_input input
  rw [tokenize_eq, Tokenizer.finish]
  by_cases empty : (input.foldl Tokenizer.read ⟨[], [], false⟩).current.isEmpty = true
  · rw [if_pos empty]
    exact ⟨fun token mem => ⟨(ended.tokens token mem).1, (ended.tokens token mem).2.1⟩,
      fun token mem => (ended.tokens token (List.mem_of_mem_dropLast mem)).2.2⟩
  · rw [if_neg empty, List.dropLast_concat]
    refine ⟨fun token mem => ?_, fun token mem => (ended.tokens token mem).2.2⟩
    rcases List.mem_append.mp mem with earlier | last
    · exact ⟨(ended.tokens token earlier).1, (ended.tokens token earlier).2.1⟩
    · rw [List.mem_singleton.mp last]
      exact ⟨by simpa using empty, ended.current⟩

theorem closed_of_tokens {text : List Char}
    (closed : ∀ token ∈ tokenize text, quotedAfter false token = false) :
    quotedAfter false text = false := by
  have ended := reads_input text
  have state := foldl_read_quoted text ⟨[], [], false⟩
  rw [tokenize_eq, Tokenizer.finish] at closed
  have last : quotedAfter false (text.foldl Tokenizer.read ⟨[], [], false⟩).current = false := by
    by_cases empty : (text.foldl Tokenizer.read ⟨[], [], false⟩).current.isEmpty = true
    · rw [List.isEmpty_iff.mp empty]
      rfl
    · rw [if_neg empty] at closed
      exact closed _ (List.mem_append_right _ (List.mem_singleton_self _))
  rw [← state, ← ended.quoted, last]

theorem unbroken_lower (quoted : Bool) (text : List Char) :
    unbroken quoted (text.map toAsciiLower) = unbroken quoted text := by
  have quote : ∀ c, toAsciiLower c = '"' ↔ c = '"' :=
    fun c => toAsciiLower_eq_iff (by decide) (by decide)
  induction text generalizing quoted with
  | nil => rfl
  | cons c text ih => simp only [List.map_cons, unbroken, quote, isWhitespace_toAsciiLower, ih]

theorem ne_quote_of_white {c : Char} (white : isWhitespace c = true) : c ≠ '"' := by
  rintro rfl
  exact absurd white (by decide)

theorem quotedAfter_white {text : List Char} (white : ∀ c ∈ text, isWhitespace c = true)
    (quoted : Bool) : quotedAfter quoted text = quoted := by
  induction text with
  | nil => rfl
  | cons c text ih =>
    have first := ne_quote_of_white (white c List.mem_cons_self)
    have later := ih (fun d mem => white d (List.mem_cons_of_mem c mem))
    simp only [quotedAfter, List.foldl_cons, if_neg first] at later ⊢
    exact later

theorem finish_read_white {t : Tokenizer} {c : Char} (white : isWhitespace c = true)
    (closed : t.quoted = false) :
    (t.read c).finish = t.finish ∧ (t.read c).quoted = false := by
  have quote := ne_quote_of_white white
  unfold Tokenizer.read
  rw [if_neg quote, white, closed, if_pos (by rfl)]
  by_cases empty : t.current.isEmpty = true
  · rw [if_pos empty]
    exact ⟨rfl, closed⟩
  · rw [if_neg empty]
    refine ⟨?_, rfl⟩
    unfold Tokenizer.finish
    rw [if_neg empty]
    rfl

theorem finish_foldl_white {text : List Char} (white : ∀ c ∈ text, isWhitespace c = true)
    {t : Tokenizer} (closed : t.quoted = false) :
    (text.foldl Tokenizer.read t).finish = t.finish := by
  induction text generalizing t with
  | nil => rfl
  | cons c text ih =>
    have step := finish_read_white (white c List.mem_cons_self) closed
    have later := ih (fun d mem => white d (List.mem_cons_of_mem c mem)) step.2
    rw [List.foldl_cons, later, step.1]

theorem foldl_read_white {text : List Char} (white : ∀ c ∈ text, isWhitespace c = true) :
    text.foldl Tokenizer.read ⟨[], [], false⟩ = ⟨[], [], false⟩ := by
  induction text with
  | nil => rfl
  | cons c text ih =>
    have space := white c List.mem_cons_self
    rw [List.foldl_cons, Tokenizer.read, if_neg (ne_quote_of_white space), space]
    exact ih (fun d mem => white d (List.mem_cons_of_mem c mem))

theorem tokenize_blank {text : List Char} (h : trim text = []) : tokenize text = [] := by
  have white := visible_eq_zero.mp (trim_eq_nil.mp h)
  rw [tokenize_eq, foldl_read_white white]
  rfl

theorem quotedAfter_trim (text : List Char) :
    quotedAfter false (trim text) = quotedAfter false text := by
  obtain ⟨front, back, split, before, behind⟩ := trim_split text
  conv_rhs => rw [split, quotedAfter_append, quotedAfter_append, quotedAfter_white before,
    quotedAfter_white behind]

theorem tokenize_trim {text : List Char} (closed : quotedAfter false text = false) :
    tokenize (trim text) = tokenize text := by
  obtain ⟨front, back, split, before, behind⟩ := trim_split text
  have shut := foldl_read_quoted (trim text) ⟨[], [], false⟩
  rw [quotedAfter_trim, closed] at shut
  conv_rhs => rw [tokenize_eq, split, List.foldl_append, List.foldl_append,
    foldl_read_white before, finish_foldl_white behind shut]
  exact tokenize_eq _

theorem join_append {words rest : List (List Char)} (words_ne : words ≠ []) (rest_ne : rest ≠ []) :
    join [' '] (words ++ rest) = join [' '] words ++ [' '] ++ join [' '] rest := by
  induction words with
  | nil => exact absurd rfl words_ne
  | cons word words ih =>
    obtain ⟨next, others, rfl⟩ := List.exists_cons_of_ne_nil rest_ne
    cases words with
    | nil => rfl
    | cons second words =>
      have later := ih (by simp)
      simp only [List.cons_append, join] at later ⊢
      rw [later]
      simp only [List.append_assoc]

theorem quotedAfter_join {words : List (List Char)}
    (closed : ∀ word ∈ words.dropLast, quotedAfter false word = false) :
    quotedAfter false (join [' '] words) = quotedAfter false (words.getLast?.getD []) := by
  induction words with
  | nil => rfl
  | cons word words ih =>
    cases words with
    | nil => rfl
    | cons second words =>
      have first : quotedAfter false word = false := closed word (by simp)
      have later := ih (fun w mem => closed w (by
        rw [List.dropLast_cons_cons]
        exact List.mem_cons_of_mem _ mem))
      rw [join, quotedAfter_append, quotedAfter_append, first, List.getLast?_cons_cons]
      exact later

theorem mem_dropLast_filter {p : List Char → Bool} {tokens : List (List Char)} {token : List Char}
    (mem : token ∈ (tokens.filter p).dropLast) : token ∈ tokens.dropLast := by
  rcases List.eq_nil_or_concat tokens with rfl | ⟨front, last, rfl⟩
  · simp at mem
  · rw [List.concat_eq_append] at mem ⊢
    rw [List.dropLast_concat]
    rw [List.filter_append] at mem
    by_cases taken : p last = true
    · rw [List.filter_cons_of_pos taken, List.filter_nil, List.dropLast_concat] at mem
      exact List.mem_of_mem_filter mem
    · rw [List.filter_cons_of_neg taken, List.filter_nil, List.append_nil] at mem
      exact List.mem_of_mem_filter (List.mem_of_mem_dropLast mem)

theorem join_ne_nil {words : List (List Char)} (nonempty : ∀ word ∈ words, word ≠ [])
    (some : words ≠ []) : join [' '] words ≠ [] := by
  obtain ⟨word, rest, rfl⟩ := List.exists_cons_of_ne_nil some
  have first := nonempty word List.mem_cons_self
  cases rest with
  | nil => exact first
  | cons second rest => simp [join, first]

/-- Joining the free terms first changes neither the text nor which terms are closed. -/
theorem join_free {free rest : List (List Char)} (some : free ≠ [])
    (closed : ∀ t ∈ free.dropLast, quotedAfter false t = false) :
    join [' '] ([join [' '] free] ++ rest) = join [' '] (free ++ rest) ∧
      ((∀ t ∈ ([join [' '] free] ++ rest).dropLast, quotedAfter false t = false) →
        ∀ t ∈ (free ++ rest).dropLast, quotedAfter false t = false) := by
  by_cases more : rest = []
  · subst more
    rw [List.append_nil, List.append_nil]
    exact ⟨rfl, fun _ => closed⟩
  · constructor
    · rw [join_append (by simp) more, join_append some more]
      rfl
    · intro shut t mem
      rw [List.dropLast_append_of_ne_nil more] at shut mem
      have whole := shut (join [' '] free) (by simp)
      rw [quotedAfter_join closed] at whole
      rcases List.mem_append.mp mem with inFree | inRest
      · obtain ⟨front, last, rfl⟩ : ∃ front last, free = front ++ [last] := by
          rcases List.eq_nil_or_concat free with empty | there
          · exact absurd empty some
          · simpa only [List.concat_eq_append] using there
        rw [List.getLast?_concat] at whole
        rw [List.dropLast_concat] at closed
        rcases List.mem_append.mp inFree with early | final
        · exact closed t early
        · rw [List.mem_singleton.mp final]
          exact whole
      · exact shut t (List.mem_append_right _ inRest)

def Tokenizer.total (t : Tokenizer) : Nat := (t.tokens.map List.length).sum + t.current.length

theorem total_read (t : Tokenizer) (c : Char) :
    (t.read c).total =
      if c = '"' ∨ t.quoted = true ∨ isWhitespace c = false then t.total + 1 else t.total := by
  unfold Tokenizer.read Tokenizer.total
  by_cases quote : c = '"'
  · rw [if_pos quote, if_pos (Or.inl quote), List.length_append]
    rfl
  · rw [if_neg quote]
    by_cases breaks : (isWhitespace c && !t.quoted) = true
    · rw [if_pos breaks]
      simp only [Bool.and_eq_true, Bool.not_eq_true'] at breaks
      have lost : ¬(c = '"' ∨ t.quoted = true ∨ isWhitespace c = false) := by
        simp [quote, breaks]
      rw [if_neg lost]
      split_ifs with empty
      · rfl
      · simp
    · rw [if_neg breaks, if_pos, List.length_append]
      · rfl
      · right
        cases white : isWhitespace c with
        | false => exact Or.inr rfl
        | true => exact Or.inl (by simpa [white] using breaks)

/-- Reading loses no character but the white space it breaks at. -/
theorem total_foldl_read (text : List Char) (t : Tokenizer) :
    (text.foldl Tokenizer.read t).total ≤ t.total + text.length ∧
      ((text.foldl Tokenizer.read t).total = t.total + text.length →
        unbroken t.quoted text = true) := by
  induction text generalizing t with
  | nil => exact ⟨le_rfl, fun _ => rfl⟩
  | cons c text ih =>
    obtain ⟨short, whole⟩ := ih (t.read c)
    have first := total_read t c
    have quoted := foldl_read_quoted [c] t
    rw [List.foldl_cons, List.foldl_nil] at quoted
    rw [List.foldl_cons, List.length_cons]
    by_cases kept : c = '"' ∨ t.quoted = true ∨ isWhitespace c = false
    · rw [if_pos kept] at first
      refine ⟨by omega, fun same => ?_⟩
      have later := whole (by omega)
      rw [quoted] at later
      rw [unbroken]
      by_cases quote : c = '"'
      · rw [if_pos quote]
        simpa [quotedAfter, quote] using later
      · rw [if_neg quote]
        have inside : (t.quoted || !isWhitespace c) = true := by simpa [quote] using kept
        rw [inside]
        simpa [quotedAfter, quote] using later
    · rw [if_neg kept] at first
      exact ⟨by omega, fun same => by omega⟩

theorem tokenize_length (text : List Char) :
    ((tokenize text).map List.length).sum ≤ text.length ∧
      (((tokenize text).map List.length).sum = text.length → unbroken false text = true) := by
  have counted : ∀ t : Tokenizer, (t.finish.map List.length).sum = t.total := by
    intro t
    unfold Tokenizer.finish Tokenizer.total
    split_ifs with empty
    · simp [List.isEmpty_iff.mp empty]
    · simp
  have read := total_foldl_read text ⟨[], [], false⟩
  have start : (⟨[], [], false⟩ : Tokenizer).total = 0 := rfl
  rw [start, Nat.zero_add] at read
  rw [tokenize_eq, counted]
  exact read

end Amatl
