import Amatl.Lib.Text

/-! Parser combinators over texts: the `nom` crate in its complete form, with what its
documentation says of each combinator, and runs of the repetitions. -/

namespace Nom

/-- What is left of the text and the value, or the text where the parser gave up. -/
abbrev Parser (α : Type) := List Char → Except (List Char) (List Char × α)

def isMultispace (c : Char) : Bool := c = ' ' || c = '\t' || c = '\r' || c = '\n'

class Combinators where
  tag : List Char → Parser (List Char)
  char : Char → Parser Char
  takeWhile1 : (Char → Bool) → Parser (List Char)
  takeUntil : List Char → Parser (List Char)
  digit1 : Parser (List Char)
  multispace1 : Parser (List Char)
  map : {α β : Type} → Parser α → (α → β) → Parser β
  mapRes : {α β : Type} → Parser α → (α → Option β) → Parser β
  value : {α β : Type} → β → Parser α → Parser β
  recognize : {α : Type} → Parser α → Parser (List Char)
  opt : {α : Type} → Parser α → Parser (Option α)
  alt : {α : Type} → List (Parser α) → Parser α
  preceded : {α β : Type} → Parser α → Parser β → Parser β
  terminated : {α β : Type} → Parser α → Parser β → Parser α
  delimited : {α β γ : Type} → Parser α → Parser β → Parser γ → Parser β
  tuple2 : {α β : Type} → Parser α → Parser β → Parser (α × β)
  tuple3 : {α β γ : Type} → Parser α → Parser β → Parser γ → Parser (α × β × γ)
  many0 : {α : Type} → Parser α → Parser (List α)
  many1 : {α : Type} → Parser α → Parser (List α)

open Combinators

class Documented [Combinators] : Prop where
  tag_ok : ∀ pattern rest, tag pattern (pattern ++ rest) = .ok (rest, pattern)
  tag_error : ∀ pattern input, ¬pattern <+: input → tag pattern input = .error input
  char_ok : ∀ c rest, char c (c :: rest) = .ok (rest, c)
  char_error : ∀ c input, input.head? ≠ some c → char c input = .error input
  takeWhile1_ok : ∀ p run rest, run ≠ [] → (∀ c ∈ run, p c = true) →
    (∀ c ∈ rest.head?, p c = false) → takeWhile1 p (run ++ rest) = .ok (rest, run)
  takeWhile1_error : ∀ p input, (∀ c ∈ input.head?, p c = false) →
    takeWhile1 p input = .error input
  takeUntil_ok : ∀ pattern run rest,
    (∀ a b, run ++ pattern ++ rest = a ++ pattern ++ b → run.length ≤ a.length) →
      takeUntil pattern (run ++ pattern ++ rest) = .ok (pattern ++ rest, run)
  takeUntil_error : ∀ pattern input, ¬pattern <:+: input → takeUntil pattern input = .error input
  digit1_eq : ∀ input, digit1 input = takeWhile1 Char.isDigit input
  multispace1_eq : ∀ input, multispace1 input = takeWhile1 isMultispace input
  map_eq : ∀ {α β : Type} (p : Parser α) (f : α → β) input,
    map p f input = (p input).map (fun out => (out.1, f out.2))
  mapRes_eq : ∀ {α β : Type} (p : Parser α) (f : α → Option β) input,
    mapRes p f input = (p input).bind (fun out =>
      match f out.2 with
      | some x => .ok (out.1, x)
      | none => .error input)
  value_eq : ∀ {α β : Type} (x : β) (p : Parser α) input,
    value x p input = (p input).map (fun out => (out.1, x))
  recognize_eq : ∀ {α : Type} (p : Parser α) input,
    recognize p input =
      (p input).map (fun out => (out.1, input.take (input.length - out.1.length)))
  opt_eq : ∀ {α : Type} (p : Parser α) input,
    opt p input =
      match p input with
      | .ok out => .ok (out.1, some out.2)
      | .error _ => .ok (input, none)
  alt_ok : ∀ {α : Type} (p : Parser α) ps input out,
    p input = .ok out → alt (p :: ps) input = .ok out
  alt_error : ∀ {α : Type} (p q : Parser α) ps input at',
    p input = .error at' → alt (p :: q :: ps) input = alt (q :: ps) input
  alt_last : ∀ {α : Type} (p : Parser α) input, alt [p] input = p input
  preceded_eq : ∀ {α β : Type} (p : Parser α) (q : Parser β) input,
    preceded p q input = (p input).bind (fun out => q out.1)
  terminated_eq : ∀ {α β : Type} (p : Parser α) (q : Parser β) input,
    terminated p q input =
      (p input).bind (fun out => (q out.1).map (fun out' => (out'.1, out.2)))
  delimited_eq : ∀ {α β γ : Type} (p : Parser α) (q : Parser β) (r : Parser γ) input,
    delimited p q r input =
      (p input).bind (fun out => (q out.1).bind (fun out' =>
        (r out'.1).map (fun out'' => (out''.1, out'.2))))
  tuple2_eq : ∀ {α β : Type} (p : Parser α) (q : Parser β) input,
    tuple2 p q input =
      (p input).bind (fun out => (q out.1).map (fun out' => (out'.1, out.2, out'.2)))
  tuple3_eq : ∀ {α β γ : Type} (p : Parser α) (q : Parser β) (r : Parser γ) input,
    tuple3 p q r input =
      (p input).bind (fun out => (q out.1).bind (fun out' =>
        (r out'.1).map (fun out'' => (out''.1, out.2, out'.2, out''.2))))
  many0_error : ∀ {α : Type} (p : Parser α) input at',
    p input = .error at' → many0 p input = .ok (input, [])
  many0_ok : ∀ {α : Type} (p : Parser α) input out,
    p input = .ok out → out.1.length < input.length →
      many0 p input = (many0 p out.1).map (fun out' => (out'.1, out.2 :: out'.2))
  /-- A parser that takes nothing would be repeated without end. -/
  many0_stuck : ∀ {α : Type} (p : Parser α) input out,
    p input = .ok out → out.1.length = input.length → many0 p input = .error input
  many1_eq : ∀ {α : Type} (p : Parser α) input,
    many1 p input =
      (p input).bind (fun out => (many0 p out.1).map (fun out' => (out'.1, out.2 :: out'.2)))

open Documented

/-! The combinators as functions. -/

def manyUpTo {α : Type} (p : Parser α) : Nat → Parser (List α)
  | 0, input => .ok (input, [])
  | fuel + 1, input =>
    match p input with
    | .error _ => .ok (input, [])
    | .ok (rest, x) =>
      if rest.length < input.length then
        (manyUpTo p fuel rest).map (fun out => (out.1, x :: out.2))
      else .error input

theorem manyUpTo_enough {α : Type} (p : Parser α) {fuel fuel' : Nat} {input : List Char}
    (enough : input.length < fuel) (enough' : input.length < fuel') :
    manyUpTo p fuel input = manyUpTo p fuel' input := by
  induction fuel generalizing fuel' input with
  | zero => omega
  | succ fuel ih =>
    cases fuel' with
    | zero => omega
    | succ fuel' =>
      rw [manyUpTo, manyUpTo]
      cases p input with
      | error _ => rfl
      | ok out =>
        obtain ⟨rest, x⟩ := out
        by_cases shorter : rest.length < input.length
        · have same := ih (show rest.length < fuel by omega) (show rest.length < fuel' by omega)
          simp only [if_pos shorter, same]
        · simp only [if_neg shorter]

def firstOf {α : Type} : List (Parser α) → Parser α
  | [], input => .error input
  | [p], input => p input
  | p :: q :: ps, input =>
    match p input with
    | .ok out => .ok out
    | .error _ => firstOf (q :: ps) input

@[reducible] def complete : Combinators where
  tag pattern input :=
    if pattern.isPrefixOf input then .ok (input.drop pattern.length, pattern) else .error input
  char c input := if input.head? = some c then .ok (input.tail, c) else .error input
  takeWhile1 p input :=
    if (input.takeWhile p).isEmpty then .error input
    else .ok (input.dropWhile p, input.takeWhile p)
  takeUntil pattern input :=
    match Text.splitOnce pattern input with
    | some (run, rest) => .ok (pattern ++ rest, run)
    | none => .error input
  digit1 input :=
    if (input.takeWhile Char.isDigit).isEmpty then .error input
    else .ok (input.dropWhile Char.isDigit, input.takeWhile Char.isDigit)
  multispace1 input :=
    if (input.takeWhile isMultispace).isEmpty then .error input
    else .ok (input.dropWhile isMultispace, input.takeWhile isMultispace)
  map p f input := (p input).map (fun out => (out.1, f out.2))
  mapRes p f input := (p input).bind (fun out =>
    match f out.2 with
    | some x => .ok (out.1, x)
    | none => .error input)
  value x p input := (p input).map (fun out => (out.1, x))
  recognize p input :=
    (p input).map (fun out => (out.1, input.take (input.length - out.1.length)))
  opt p input :=
    match p input with
    | .ok out => .ok (out.1, some out.2)
    | .error _ => .ok (input, none)
  alt := firstOf
  preceded p q input := (p input).bind (fun out => q out.1)
  terminated p q input :=
    (p input).bind (fun out => (q out.1).map (fun out' => (out'.1, out.2)))
  delimited p q r input :=
    (p input).bind (fun out => (q out.1).bind (fun out' =>
      (r out'.1).map (fun out'' => (out''.1, out'.2))))
  tuple2 p q input :=
    (p input).bind (fun out => (q out.1).map (fun out' => (out'.1, out.2, out'.2)))
  tuple3 p q r input :=
    (p input).bind (fun out => (q out.1).bind (fun out' =>
      (r out'.1).map (fun out'' => (out''.1, out.2, out'.2, out''.2))))
  many0 p input := manyUpTo p (input.length + 1) input
  many1 p input :=
    (p input).bind (fun out =>
      (manyUpTo p (out.1.length + 1) out.1).map (fun out' => (out'.1, out.2 :: out'.2)))

theorem takeWhile_run {p : Char → Bool} {run rest : List Char} (all : ∀ c ∈ run, p c = true)
    (ends : ∀ c ∈ rest.head?, p c = false) :
    (run ++ rest).takeWhile p = run ∧ (run ++ rest).dropWhile p = rest := by
  induction run with
  | nil =>
    cases rest with
    | nil => exact ⟨rfl, rfl⟩
    | cons c rest =>
      have stops := ends c rfl
      simp [stops]
  | cons c run ih =>
    have holds := all c List.mem_cons_self
    have later := ih (fun d mem => all d (List.mem_cons_of_mem c mem))
    simp [holds, later]

theorem complete_documented : @Documented complete :=
  let _ := complete
  { tag_ok := by
      intro pattern rest
      have starts : pattern.isPrefixOf (pattern ++ rest) = true :=
        List.isPrefixOf_iff_prefix.mpr (List.prefix_append pattern rest)
      simp only [tag, starts, if_true, List.drop_left]
    tag_error := by
      intro pattern input away
      simp only [tag]
      rw [if_neg (fun starts => away (List.isPrefixOf_iff_prefix.mp starts))]
    char_ok := fun c rest => by simp [char]
    char_error := fun c input away => if_neg away
    takeWhile1_ok := by
      intro p run rest some all ends
      obtain ⟨taken, left⟩ := takeWhile_run all ends
      simp [takeWhile1, taken, left, some]
    takeWhile1_error := by
      intro p input ends
      have none : (input.takeWhile p) = [] := (@takeWhile_run p [] input nofun ends).1
      simp [takeWhile1, none]
    takeUntil_ok := by
      intro pattern run rest first
      simp only [takeUntil]
      cases found : Text.splitOnce pattern (run ++ pattern ++ rest) with
      | none => exact absurd rfl (Text.splitOnce_none found run rest)
      | some pair =>
        obtain ⟨before, after⟩ := pair
        obtain ⟨whole, longest⟩ := Text.splitOnce_first found
        have early := first before after whole
        have late := (longest run rest rfl).length_le
        have lengths := congrArg List.length whole
        simp only [List.length_append] at lengths
        have same : run ++ (pattern ++ rest) = before ++ (pattern ++ after) := by
          rw [← List.append_assoc, ← List.append_assoc, whole]
        obtain ⟨rfl, ends⟩ := List.append_inj same (by omega)
        simp only [List.append_cancel_left ends]
    takeUntil_error := by
      intro pattern input absent
      simp only [takeUntil]
      cases found : Text.splitOnce pattern input with
      | none => rfl
      | some pair =>
        obtain ⟨before, after⟩ := pair
        exact absurd ⟨before, after, (Text.splitOnce_first found).1.symm⟩ absent
    digit1_eq := fun _ => rfl
    multispace1_eq := fun _ => rfl
    map_eq := fun _ _ _ => rfl
    mapRes_eq := fun _ _ _ => rfl
    value_eq := fun _ _ _ => rfl
    recognize_eq := fun _ _ => rfl
    opt_eq := fun _ _ => rfl
    alt_ok := by
      intro α p ps input out h
      cases ps with
      | nil => exact h
      | cons q ps => simp only [alt, firstOf, h]
    alt_error := by
      intro α p q ps input at' h
      simp only [alt, firstOf, h]
    alt_last := fun _ _ => rfl
    preceded_eq := fun _ _ _ => rfl
    terminated_eq := fun _ _ _ => rfl
    delimited_eq := fun _ _ _ _ => rfl
    tuple2_eq := fun _ _ _ => rfl
    tuple3_eq := fun _ _ _ _ => rfl
    many0_error := by
      intro α p input at' h
      simp only [many0, manyUpTo, h]
    many0_ok := by
      intro α p input out h shorter
      obtain ⟨rest, x⟩ := out
      have same := manyUpTo_enough p (show rest.length < input.length from shorter)
        (Nat.lt_succ_self rest.length)
      simp only [many0]
      rw [manyUpTo]
      simp only [h, if_pos (show rest.length < input.length from shorter), same]
    many0_stuck := by
      intro α p input out h equal
      obtain ⟨rest, x⟩ := out
      have same : rest.length = input.length := equal
      simp only [many0]
      rw [manyUpTo]
      simp only [h, same, if_neg (Nat.lt_irrefl input.length)]
    many1_eq := fun _ _ => rfl }

/-! The cases of the combinators, and runs of the repetitions. -/

section

variable [Combinators] [Documented] {α β γ : Type}

theorem map_ok {p : Parser α} {input rest : List Char} {x : α} (f : α → β)
    (h : p input = .ok (rest, x)) : map p f input = .ok (rest, f x) := by
  rw [map_eq, h]
  rfl

theorem map_error {p : Parser α} {input at' : List Char} (f : α → β)
    (h : p input = .error at') : map p f input = .error at' := by
  rw [map_eq, h]
  rfl

theorem value_ok {p : Parser α} {input rest : List Char} {x : α} (y : β)
    (h : p input = .ok (rest, x)) : value y p input = .ok (rest, y) := by
  rw [value_eq, h]
  rfl

theorem value_error {p : Parser α} {input at' : List Char} (y : β)
    (h : p input = .error at') : value y p input = .error at' := by
  rw [value_eq, h]
  rfl

theorem opt_ok {p : Parser α} {input rest : List Char} {x : α}
    (h : p input = .ok (rest, x)) : opt p input = .ok (rest, some x) := by
  rw [opt_eq, h]

theorem opt_error {p : Parser α} {input at' : List Char}
    (h : p input = .error at') : opt p input = .ok (input, none) := by
  rw [opt_eq, h]

theorem preceded_ok {p : Parser α} {q : Parser β} {input mid : List Char} {x : α}
    (h : p input = .ok (mid, x)) : preceded p q input = q mid := by
  rw [preceded_eq, h]
  rfl

theorem preceded_error {p : Parser α} {q : Parser β} {input at' : List Char}
    (h : p input = .error at') : preceded p q input = .error at' := by
  rw [preceded_eq, h]
  rfl

theorem terminated_ok {p : Parser α} {q : Parser β} {input mid rest : List Char} {x : α} {y : β}
    (h : p input = .ok (mid, x)) (h' : q mid = .ok (rest, y)) :
    terminated p q input = .ok (rest, x) := by
  rw [terminated_eq, h]
  change (q mid).map _ = _
  rw [h']
  rfl

theorem terminated_error {p : Parser α} {q : Parser β} {input at' : List Char}
    (h : p input = .error at') : terminated p q input = .error at' := by
  rw [terminated_eq, h]
  rfl

theorem delimited_ok {p : Parser α} {q : Parser β} {r : Parser γ}
    {input mid mid' rest : List Char} {x : α} {y : β} {z : γ} (h : p input = .ok (mid, x))
    (h' : q mid = .ok (mid', y)) (h'' : r mid' = .ok (rest, z)) :
    delimited p q r input = .ok (rest, y) := by
  rw [delimited_eq, h]
  change (q mid).bind _ = _
  rw [h']
  change (r mid').map _ = _
  rw [h'']
  rfl

theorem tuple2_ok {p : Parser α} {q : Parser β} {input mid rest : List Char} {x : α} {y : β}
    (h : p input = .ok (mid, x)) (h' : q mid = .ok (rest, y)) :
    tuple2 p q input = .ok (rest, x, y) := by
  rw [tuple2_eq, h]
  change (q mid).map _ = _
  rw [h']
  rfl

theorem tuple2_error {p : Parser α} {q : Parser β} {input at' : List Char}
    (h : p input = .error at') : tuple2 p q input = .error at' := by
  rw [tuple2_eq, h]
  rfl

theorem tuple3_ok {p : Parser α} {q : Parser β} {r : Parser γ}
    {input mid mid' rest : List Char} {x : α} {y : β} {z : γ} (h : p input = .ok (mid, x))
    (h' : q mid = .ok (mid', y)) (h'' : r mid' = .ok (rest, z)) :
    tuple3 p q r input = .ok (rest, x, y, z) := by
  rw [tuple3_eq, h]
  change (q mid).bind _ = _
  rw [h']
  change (r mid').map _ = _
  rw [h'']
  rfl

theorem tuple3_error {p : Parser α} {q : Parser β} {r : Parser γ} {input at' : List Char}
    (h : p input = .error at') : tuple3 p q r input = .error at' := by
  rw [tuple3_eq, h]
  rfl

theorem tuple3_second {p : Parser α} {q : Parser β} {r : Parser γ} {input mid at' : List Char}
    {x : α} (h : p input = .ok (mid, x)) (h' : q mid = .error at') :
    tuple3 p q r input = .error at' := by
  rw [tuple3_eq, h]
  change (q mid).bind _ = _
  rw [h']
  rfl

/-- The parser reads the values one after the other, each from some of the text, and then fails. -/
inductive Runs (p : Parser α) : List Char → List α → List Char → Prop
  | done {input at' : List Char} (ends : p input = .error at') : Runs p input [] input
  | next {input mid rest : List Char} {x : α} {xs : List α} (read : p input = .ok (mid, x))
      (shorter : mid.length < input.length) (later : Runs p mid xs rest) :
      Runs p input (x :: xs) rest

theorem many0_runs {p : Parser α} {input rest : List Char} {xs : List α}
    (h : Runs p input xs rest) : many0 p input = .ok (rest, xs) := by
  induction h with
  | done ends => exact many0_error p _ _ ends
  | next read shorter later ih =>
    rw [many0_ok p _ _ read shorter, ih]
    rfl

theorem many1_runs {p : Parser α} {input rest : List Char} {xs : List α}
    (some : xs ≠ []) (h : Runs p input xs rest) : many1 p input = .ok (rest, xs) := by
  cases h with
  | done ends => exact absurd rfl some
  | next read shorter later =>
    rw [many1_eq, read]
    change (many0 p _).map _ = _
    rw [many0_runs later]
    rfl

end

end Nom
