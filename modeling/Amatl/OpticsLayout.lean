import Amatl.OpticsParse
import Amatl.Lib.NetText

/-! How an optics document is laid out: its tokens, with whitespace and comments before each of
them and at the end of the text, and how a parser reads tokens that are laid out. -/

namespace Amatl.Optics

open Nom Combinators Documented Text

/-- Whitespace and closed comments. -/
inductive Gap : List Char → Prop
  | none : Gap []
  | space {c : Char} {gap : List Char} (white : isMultispace c = true) (h : Gap gap) : Gap (c :: gap)
  | line {comment gap : List Char} (single : '\n' ∉ comment) (h : Gap gap) :
      Gap ('/' :: '/' :: (comment ++ '\n' :: gap))
  | block {comment gap : List Char} (closed : ¬['*', '/'] <:+: comment) (h : Gap gap) :
      Gap ('/' :: '*' :: (comment ++ '*' :: '/' :: gap))

/-- What may stand at the end of the text besides: whitespace of any kind, or a comment without
the end of its line. -/
inductive Ending : List Char → Prop
  | blank {rest : List Char} (white : ∀ c ∈ rest, isWhitespace c = true) : Ending rest
  | line {comment : List Char} (single : '\n' ∉ comment) : Ending ('/' :: '/' :: comment)

/-- The text has the tokens in their order, with a gap before each. -/
inductive Laid : List (List Char) → List Char → Prop
  | ending {gap rest : List Char} (h : Gap gap) (ends : Ending rest) : Laid [] (gap ++ rest)
  | token {gap token text : List Char} {tokens : List (List Char)} (h : Gap gap)
      (later : Laid tokens text) : Laid (token :: tokens) (gap ++ (token ++ text))

/-- No token can be taken for whitespace or a comment. -/
def Visible (token : List Char) : Prop :=
  ∃ c rest, token = c :: rest ∧ isWhitespace c = false ∧ c ≠ '/'

theorem isWhitespace_of_multispace {c : Char} (h : isMultispace c = true) :
    isWhitespace c = true := by
  simp only [isMultispace, Bool.or_eq_true, decide_eq_true_eq] at h
  rcases h with ((rfl | rfl) | rfl) | rfl <;> decide

theorem Gap.append {gap gap' : List Char} (h : Gap gap) (h' : Gap gap') : Gap (gap ++ gap') := by
  induction h with
  | none => exact h'
  | space white _ ih => exact .space white ih
  | @line comment gap single _ ih =>
    have whole := Gap.line single ih
    simpa using whole
  | @block comment gap closed _ ih =>
    have whole := Gap.block closed ih
    simpa using whole

theorem gap_of_run {run : List Char} (all : ∀ c ∈ run, isMultispace c = true) : Gap run := by
  induction run with
  | nil => exact .none
  | cons c run ih =>
    exact .space (all c List.mem_cons_self) (ih (fun d mem => all d (List.mem_cons_of_mem c mem)))

theorem block_first {comment : List Char} (closed : ¬['*', '/'] <:+: comment)
    (rest a b : List Char) (whole : comment ++ ['*', '/'] ++ rest = a ++ ['*', '/'] ++ b) :
    comment.length ≤ a.length := by
  by_contra early
  have short : a.length < comment.length := by omega
  have before : a <+: comment := by
    have left : a <+: comment ++ ['*', '/'] ++ rest := by
      rw [whole, List.append_assoc]
      exact List.prefix_append a _
    have right : comment <+: comment ++ ['*', '/'] ++ rest := by
      rw [List.append_assoc]
      exact List.prefix_append comment _
    exact List.prefix_of_prefix_length_le left right short.le
  obtain ⟨tail, rfl⟩ := before
  have same : tail ++ '*' :: '/' :: rest = '*' :: '/' :: b := by
    have cut : a ++ (tail ++ '*' :: '/' :: rest) = a ++ ('*' :: '/' :: b) := by simpa using whole
    exact List.append_cancel_left cut
  cases tail with
  | nil => simp at short
  | cons c tail =>
    obtain ⟨rfl, behind⟩ := List.cons.inj same
    cases tail with
    | nil => exact absurd (List.cons.inj behind).1 (by decide)
    | cons d tail =>
      obtain ⟨rfl, -⟩ := List.cons.inj behind
      exact closed ⟨a, tail, by simp⟩

section

variable [Combinators] [Documented]

theorem multispace1_error (input : List Char)
    (ends : ∀ c ∈ input.head?, isMultispace c = false) :
    value () multispace1 input = .error input :=
  value_error () (by rw [multispace1_eq, takeWhile1_error _ _ ends])

theorem blank_run {run rest : List Char} (some : run ≠ [])
    (all : ∀ c ∈ run, isMultispace c = true) (ends : ∀ c ∈ rest.head?, isMultispace c = false) :
    blank (run ++ rest) = .ok (rest, ()) :=
  alt_ok _ _ _ _ (value_ok () (by rw [multispace1_eq, takeWhile1_ok _ _ _ some all ends]))

theorem slashes (rest : List Char) :
    tag "//".toList ('/' :: '/' :: rest) = .ok (rest, "//".toList) :=
  tag_ok "//".toList rest

theorem blank_line {comment ending : List Char} (single : '\n' ∉ comment) (rest : List Char)
    (ends : ending = '\n' :: rest ∨ ending = [] ∧ rest = []) :
    blank ('/' :: '/' :: (comment ++ ending)) = .ok (rest, ()) := by
  have newline : ∃ out, opt (char '\n') ending = .ok (rest, out) := by
    rcases ends with rfl | ⟨rfl, rfl⟩
    · exact ⟨_, opt_ok (char_ok '\n' rest)⟩
    · exact ⟨_, opt_error (char_error '\n' [] (by simp))⟩
  obtain ⟨out, closes⟩ := newline
  have stops : ∀ c ∈ ending.head?, (c != '\n') = false := by
    rcases ends with rfl | ⟨rfl, rfl⟩
    · simp
    · simp
  have space := multispace1_error ('/' :: '/' :: (comment ++ ending)) (by simp; decide)
  rw [blank, alt_error _ _ _ _ _ space]
  by_cases empty : comment = []
  · subst empty
    have second := @tuple3_second _ _ _ _ _ _ _ (opt (char '\n')) _ _ _ _ (slashes ending)
      (takeWhile1_error (fun c => c != '\n') ending stops)
    rw [List.nil_append, alt_error _ _ _ _ _ (value_error () second)]
    exact alt_ok _ _ _ _ (value_ok () (tuple2_ok (slashes ending) closes))
  · have others : ∀ c ∈ comment, (c != '\n') = true := by
      intro c mem
      simpa using fun equal : c = '\n' => single (equal ▸ mem)
    exact alt_ok _ _ _ _ (value_ok () (tuple3_ok (slashes _)
      (takeWhile1_ok _ comment ending empty others stops) closes))

theorem blank_block {comment : List Char} (closed : ¬['*', '/'] <:+: comment) (rest : List Char) :
    blank ('/' :: '*' :: (comment ++ '*' :: '/' :: rest)) = .ok (rest, ()) := by
  have space := multispace1_error ('/' :: '*' :: (comment ++ '*' :: '/' :: rest))
    (by simp; decide)
  have apart : ¬"//".toList <+: '/' :: '*' :: (comment ++ '*' :: '/' :: rest) := by
    rintro ⟨tail, equal⟩
    exact absurd (List.cons.inj (List.cons.inj equal).2).1 (by decide)
  have away := tag_error _ _ apart
  have opens : tag "/*".toList ('/' :: '*' :: (comment ++ '*' :: '/' :: rest)) =
      .ok (comment ++ '*' :: '/' :: rest, "/*".toList) := tag_ok "/*".toList _
  have inside : takeUntil "*/".toList (comment ++ '*' :: '/' :: rest) =
      .ok ('*' :: '/' :: rest, comment) := by
    have found := takeUntil_ok ['*', '/'] comment rest (block_first closed rest)
    simpa using found
  have closes : tag "*/".toList ('*' :: '/' :: rest) = .ok (rest, "*/".toList) :=
    tag_ok "*/".toList rest
  rw [blank, alt_error _ _ _ _ _ space, alt_error _ _ _ _ _ (value_error () (tuple3_error away)),
    alt_error _ _ _ _ _ (value_error () (tuple2_error away)), alt_last]
  exact value_ok () (tuple3_ok opens inside closes)

theorem blank_error {input : List Char}
    (ends : ∀ c ∈ input.head?, isMultispace c = false ∧ c ≠ '/') :
    ∃ at', blank input = .error at' := by
  have away : ∀ rest, tag ('/' :: rest) input = .error input := by
    intro rest
    refine tag_error _ _ ?_
    rintro ⟨tail, rfl⟩
    exact (ends '/' rfl).2 rfl
  have space := multispace1_error _ (fun c mem => (ends c mem).1)
  have line : tag "//".toList input = .error input := away ['/']
  have block : tag "/*".toList input = .error input := away ['*']
  refine ⟨input, ?_⟩
  rw [blank, alt_error _ _ _ _ _ space, alt_error _ _ _ _ _ (value_error () (tuple3_error line)),
    alt_error _ _ _ _ _ (value_error () (tuple2_error line)), alt_last]
  exact value_error () (tuple3_error block)

theorem skipWs_step {input rest : List Char} (read : blank input = .ok (rest, ()))
    (shorter : rest.length < input.length) : skipWs input = skipWs rest := by
  rw [skipWs, value_eq, value_eq, many0_ok _ _ _ read shorter]
  cases many0 blank rest <;> rfl

theorem skipWs_stop {input : List Char}
    (ends : ∀ c ∈ input.head?, isMultispace c = false ∧ c ≠ '/') :
    skipWs input = .ok (input, ()) := by
  obtain ⟨at', fails⟩ := blank_error ends
  exact value_ok () (many0_error _ _ _ fails)

theorem skipWs_run {run rest : List Char} (all : ∀ c ∈ run, isMultispace c = true)
    (ends : ∀ c ∈ rest.head?, isMultispace c = false) : skipWs (run ++ rest) = skipWs rest := by
  by_cases empty : run = []
  · rw [empty, List.nil_append]
  · refine skipWs_step (blank_run empty all ends) ?_
    have positive := List.length_pos_of_ne_nil empty
    rw [List.length_append]
    omega

theorem skipWs_gap {gap rest : List Char} (h : Gap gap) (run : List Char)
    (all : ∀ c ∈ run, isMultispace c = true) (ends : ∀ c ∈ rest.head?, isMultispace c = false) :
    skipWs (run ++ (gap ++ rest)) = skipWs rest := by
  induction h generalizing run with
  | none => exact skipWs_run all ends
  | @space c gap white _ ih =>
    have longer : ∀ d ∈ run ++ [c], isMultispace d = true := by
      intro d mem
      rcases List.mem_append.mp mem with inside | last
      · exact all d inside
      · rw [List.mem_singleton.mp last]
        exact white
    have moved := ih (run ++ [c]) longer
    rw [List.append_assoc] at moved
    exact moved
  | @line comment gap single _ ih =>
    have step := blank_line single (gap ++ rest) (Or.inl rfl)
    have shape : '/' :: '/' :: (comment ++ '\n' :: gap) ++ rest =
        '/' :: '/' :: (comment ++ '\n' :: (gap ++ rest)) := by simp
    rw [shape, skipWs_run all (by simp; decide), skipWs_step step (by simp; omega)]
    exact ih [] nofun
  | @block comment gap closed _ ih =>
    have step := blank_block closed (gap ++ rest)
    have shape : '/' :: '*' :: (comment ++ '*' :: '/' :: gap) ++ rest =
        '/' :: '*' :: (comment ++ '*' :: '/' :: (gap ++ rest)) := by simp
    rw [shape, skipWs_run all (by simp; decide), skipWs_step step (by simp; omega)]
    exact ih [] nofun

end

/-! Texts at their next token. -/

/-- What is left where whitespace and comments have been skipped. -/
def Begins : List (List Char) → List Char → Prop
  | [], rest => (∀ c ∈ rest, isWhitespace c = true) ∧ ∀ c ∈ rest.head?, isMultispace c = false
  | token :: tokens, rest => ∃ text, rest = token ++ text ∧ Laid tokens text

structure Ready (tokens : List (List Char)) (rest : List Char) : Prop where
  visible : ∀ token ∈ tokens, Visible token
  begins : Begins tokens rest

/-- The next token, if there is one, begins with another character. -/
def Apart (c : Char) (tokens : List (List Char)) : Prop :=
  ∀ token ∈ tokens.head?, token.head? ≠ some c

theorem Ready.apart {c : Char} {tokens : List (List Char)} {rest : List Char}
    (h : Ready tokens rest) (other : Apart c tokens) (shown : isWhitespace c = false) :
    rest.head? ≠ some c := by
  obtain ⟨visible, begins⟩ := h
  intro first
  cases tokens with
  | nil =>
    have white := begins.1 c (List.mem_of_mem_head? first)
    rw [shown] at white
    cases white
  | cons token tokens =>
    obtain ⟨text, rfl, -⟩ := begins
    obtain ⟨d, letters, rfl, -⟩ := visible token List.mem_cons_self
    exact other _ rfl first

theorem Ready.solid {tokens : List (List Char)} {rest : List Char} (h : Ready tokens rest) :
    ∀ c ∈ rest.head?, isMultispace c = false ∧ c ≠ '/' := by
  obtain ⟨visible, begins⟩ := h
  intro c first
  cases tokens with
  | nil =>
    refine ⟨begins.2 c first, ?_⟩
    rintro rfl
    exact absurd (begins.1 '/' (List.mem_of_mem_head? first)) (by decide)
  | cons token tokens =>
    obtain ⟨text, rfl, -⟩ := begins
    obtain ⟨d, letters, rfl, shown, other⟩ := visible token List.mem_cons_self
    obtain rfl : d = c := Option.some.inj first
    refine ⟨?_, other⟩
    by_contra space
    rw [isWhitespace_of_multispace (by simpa using space)] at shown
    cases shown

/-- The parser reads the tokens to the value wherever what follows is as described. -/
def Reads {α : Type} (follow : List (List Char) → Prop) (p : Parser α) (tokens : List (List Char))
    (x : α) : Prop :=
  ∀ others text, follow others → Ready (tokens ++ others) text →
    ∃ rest, p text = .ok (rest, x) ∧ Ready others rest ∧ rest.length + tokens.length ≤ text.length

/-- The parser gives up on what begins with another character. -/
def Opens {α : Type} (p : Parser α) (c : Char) : Prop :=
  ∀ text : List Char, text.head? ≠ some c → ∃ at', p text = .error at'

/-- Values in a row, each spelled by tokens. -/
inductive Row {α : Type} (spelling : α → List (List Char) → Prop) : List α → List (List Char) → Prop
  | nil : Row spelling [] []
  | cons {x : α} {xs : List α} {a tokens : List (List Char)} (spelled : spelling x a)
      (later : Row spelling xs tokens) : Row spelling (x :: xs) (a ++ tokens)

/-- A repetition reads a row. -/
theorem Row.runs {α : Type} {follow : List (List Char) → Prop}
    {spelling : α → List (List Char) → Prop} {p : Parser α} {xs : List α}
    {tokens others : List (List Char)} (h : Row spelling xs tokens)
    (reads : ∀ x ∈ xs, ∀ a, spelling x a → a ≠ [] ∧ Reads follow p a x)
    (next : ∀ x a, spelling x a → ∀ others, follow (a ++ others)) (after : follow others)
    (stop : ∀ text, Ready others text → ∃ at', p text = .error at') {text : List Char}
    (ready : Ready (tokens ++ others) text) :
    ∃ rest, Runs p text xs rest ∧ Ready others rest ∧
      rest.length + tokens.length ≤ text.length := by
  induction h generalizing text with
  | nil =>
    obtain ⟨at', fails⟩ := stop text ready
    exact ⟨text, .done fails, ready, le_rfl⟩
  | @cons x xs a tokens spelled later ih =>
    rw [List.append_assoc] at ready
    have follows : follow (tokens ++ others) := by
      cases later with
      | nil => exact after
      | cons spelled' _ =>
        rw [List.append_assoc]
        exact next _ _ spelled' _
    obtain ⟨some, read⟩ := reads x List.mem_cons_self a spelled
    obtain ⟨mid, taken, ready', shorter⟩ := read _ text follows ready
    obtain ⟨rest, run, left, shorter'⟩ :=
      ih (fun y mem => reads y (List.mem_cons_of_mem x mem)) ready'
    have positive := List.length_pos_of_ne_nil some
    refine ⟨rest, .next taken (by omega) run, left, ?_⟩
    rw [List.length_append]
    omega

section

variable [Combinators] [Documented]

theorem Laid.skip {tokens : List (List Char)} {text : List Char} (h : Laid tokens text)
    (visible : ∀ token ∈ tokens, Visible token) :
    ∃ rest, skipWs text = .ok (rest, ()) ∧ Ready tokens rest ∧ rest.length ≤ text.length := by
  cases h with
  | @ending gap rest gapped ends =>
    cases ends with
    | blank white =>
      have split := List.takeWhile_append_dropWhile (p := isMultispace) (l := rest)
      have run : ∀ c ∈ rest.takeWhile isMultispace, isMultispace c = true :=
        fun c mem => List.mem_takeWhile_imp mem
      have stops : ∀ c ∈ (rest.dropWhile isMultispace).head?, isMultispace c = false := by
        intro c first
        have not := List.head?_dropWhile_not isMultispace rest
        rw [first] at not
        exact not
      have ready : Ready [] (rest.dropWhile isMultispace) :=
        ⟨nofun, fun c mem => white c (List.dropWhile_subset _ mem), stops⟩
      refine ⟨rest.dropWhile isMultispace, ?_, ready, ?_⟩
      · have skipped := skipWs_gap (gapped.append (gap_of_run run)) [] nofun stops
        rw [List.nil_append, List.append_assoc, split] at skipped
        rw [skipped, skipWs_stop ready.solid]
      · have shorter := (List.dropWhile_sublist isMultispace (l := rest)).length_le
        rw [List.length_append]
        omega
    | @line comment single =>
      refine ⟨[], ?_, ⟨nofun, nofun, nofun⟩, Nat.zero_le _⟩
      have read : blank ('/' :: '/' :: (comment ++ [])) = .ok ([], ()) :=
        blank_line single [] (Or.inr ⟨rfl, rfl⟩)
      rw [List.append_nil] at read
      have skipped : skipWs (gap ++ '/' :: '/' :: comment) = skipWs ('/' :: '/' :: comment) :=
        skipWs_gap gapped [] nofun (by simp; decide)
      rw [skipped, skipWs_step read (by simp), skipWs_stop (by simp)]
  | @token gap token later tokens gapped laid =>
    have ready : Ready (token :: tokens) (token ++ later) := ⟨visible, later, rfl, laid⟩
    refine ⟨token ++ later, ?_, ready, ?_⟩
    · have skipped := skipWs_gap gapped [] nofun (fun c first => (ready.solid c first).1)
      rw [List.nil_append] at skipped
      rw [skipped, skipWs_stop ready.solid]
    · simp only [List.length_append]
      omega

variable {α β γ : Type} {follow : List (List Char) → Prop}

theorem lexeme_reads {p : Parser α} {token : List Char} {x : α}
    (read : ∀ others text, follow others → Laid others text → p (token ++ text) = .ok (text, x)) :
    Reads follow (lexeme p) [token] x := by
  rintro others text after ⟨visible, later, rfl, laid⟩
  obtain ⟨rest, skipped, ready, shorter⟩ :=
    laid.skip (fun t mem => visible t (List.mem_cons_of_mem token mem))
  refine ⟨rest, ?_, ready, ?_⟩
  · simp only [lexeme, read others later after laid, bind, Except.bind, skipped]
  · obtain ⟨c, letters, rfl, -⟩ := visible token List.mem_cons_self
    simp only [List.length_append, List.length_cons, List.length_nil]
    omega

theorem symbol_reads (s : String) : Reads (fun _ => True) (symbol s) [s.toList] s.toList :=
  lexeme_reads (fun _ text _ _ => tag_ok s.toList text)

theorem symbol_opens {s : String} {c : Char} (first : s.toList.head? = some c) :
    Opens (symbol s) c := by
  intro text other
  have away : ¬s.toList <+: text := by
    rintro ⟨tail, rfl⟩
    cases letters : s.toList with
    | nil => rw [letters] at first; cases first
    | cons d rest =>
      rw [letters] at first other
      exact other first
  refine ⟨text, ?_⟩
  simp only [symbol, lexeme, tag_error _ _ away, bind, Except.bind]

theorem Reads.map {p : Parser α} {tokens : List (List Char)} {x : α} (f : α → β)
    (h : Reads follow p tokens x) : Reads follow (map p f) tokens (f x) := by
  intro others text after ready
  obtain ⟨rest, read, left, shorter⟩ := h others text after ready
  exact ⟨rest, map_ok f read, left, shorter⟩

theorem Reads.preceded {first : List (List Char) → Prop} {p : Parser α} {q : Parser β}
    {a b : List (List Char)} {x : α} {y : β} (hp : Reads first p a x) (hq : Reads follow q b y)
    (next : ∀ others, first (b ++ others)) : Reads follow (preceded p q) (a ++ b) y := by
  intro others text after ready
  rw [List.append_assoc] at ready
  obtain ⟨mid, read, ready', shorter⟩ := hp _ text (next others) ready
  obtain ⟨rest, read', left, shorter'⟩ := hq others mid after ready'
  refine ⟨rest, by rw [preceded_ok read, read'], left, ?_⟩
  rw [List.length_append]
  omega

theorem Reads.terminated {first : List (List Char) → Prop} {p : Parser α} {q : Parser β}
    {a b : List (List Char)} {x : α} {y : β} (hp : Reads first p a x) (hq : Reads follow q b y)
    (next : ∀ others, follow others → first (b ++ others)) :
    Reads follow (terminated p q) (a ++ b) x := by
  intro others text after ready
  rw [List.append_assoc] at ready
  obtain ⟨mid, read, ready', shorter⟩ := hp _ text (next others after) ready
  obtain ⟨rest, read', left, shorter'⟩ := hq others mid after ready'
  refine ⟨rest, terminated_ok read read', left, ?_⟩
  rw [List.length_append]
  omega

theorem Reads.delimited {first : List (List Char) → Prop} {p : Parser α} {q : Parser β}
    {r : Parser γ} {a b c : List (List Char)} {x : α} {y : β} {z : γ}
    (hp : Reads (fun _ => True) p a x) (hq : Reads first q b y) (hr : Reads follow r c z)
    (next : ∀ others, first (c ++ others)) :
    Reads follow (delimited p q r) (a ++ (b ++ c)) y := by
  intro others text after ready
  rw [List.append_assoc, List.append_assoc] at ready
  obtain ⟨mid, read, ready', shorter⟩ := hp _ text trivial ready
  obtain ⟨mid', read', ready'', shorter'⟩ := hq _ mid (next others) ready'
  obtain ⟨rest, read'', left, shorter''⟩ := hr others mid' after ready''
  refine ⟨rest, delimited_ok read read' read'', left, ?_⟩
  rw [List.length_append, List.length_append]
  omega

theorem Reads.alt_first {p : Parser α} {tokens : List (List Char)} {x : α}
    (h : Reads follow p tokens x) (ps : List (Parser α)) : Reads follow (alt (p :: ps)) tokens x := by
  intro others text after ready
  obtain ⟨rest, read, left, shorter⟩ := h others text after ready
  exact ⟨rest, alt_ok p ps text _ read, left, shorter⟩

theorem Reads.alt_next {p q : Parser α} {ps : List (Parser α)} {tokens : List (List Char)} {x : α}
    {c : Char} (h : Reads follow (alt (q :: ps)) tokens x) (opens : Opens p c)
    (other : ∀ others, Apart c (tokens ++ others)) (shown : isWhitespace c = false) :
    Reads follow (alt (p :: q :: ps)) tokens x := by
  intro others text after ready
  obtain ⟨at', fails⟩ := opens text (ready.apart (other others) shown)
  obtain ⟨rest, read, left, shorter⟩ := h others text after ready
  exact ⟨rest, by rw [alt_error p q ps text at' fails, read], left, shorter⟩

theorem Opens.map {p : Parser α} {c : Char} (h : Opens p c) (f : α → β) : Opens (map p f) c := by
  intro text other
  obtain ⟨at', fails⟩ := h text other
  exact ⟨at', map_error f fails⟩

theorem Opens.preceded {p : Parser α} {c : Char} (h : Opens p c) (q : Parser β) :
    Opens (preceded p q) c := by
  intro text other
  obtain ⟨at', fails⟩ := h text other
  exact ⟨at', preceded_error fails⟩

theorem Opens.terminated {p : Parser α} {c : Char} (h : Opens p c) (q : Parser β) :
    Opens (terminated p q) c := by
  intro text other
  obtain ⟨at', fails⟩ := h text other
  exact ⟨at', terminated_error fails⟩

theorem optional_reads {s : String} {c : Char} (single : s.toList = [c])
    (shown : isWhitespace c = false) {tokens : List (List Char)}
    (h : tokens = [] ∨ tokens = [s.toList]) :
    ∃ out, Reads (Apart c) (opt (symbol s)) tokens out := by
  rcases h with rfl | rfl
  · refine ⟨none, fun others text after ready => ?_⟩
    have opens : Opens (symbol s) c := symbol_opens (by rw [single]; rfl)
    obtain ⟨at', fails⟩ := opens text (ready.apart after shown)
    exact ⟨text, opt_error fails, ready, le_rfl⟩
  · refine ⟨some s.toList, fun others text after ready => ?_⟩
    obtain ⟨rest, read, left, shorter⟩ := symbol_reads s others text trivial ready
    exact ⟨rest, opt_ok read, left, shorter⟩

end

end Amatl.Optics
