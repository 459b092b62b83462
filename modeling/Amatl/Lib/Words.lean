import Amatl.Lib.Text

/-! The words of a text between separators. Words stand next to each other in a text with
separators between them, and a phrase may be found in a text without being words of it. -/

namespace Words

open Text

variable {p : Char → Bool}

/-- The pieces between separators that are not empty. -/
def words (p : Char → Bool) (text : List Char) : List (List Char) :=
  (splitBy p text).filter (fun w => !w.isEmpty)

def IsWord (p : Char → Bool) (w : List Char) : Prop := w ≠ [] ∧ ∀ c ∈ w, p c = false

/-- A place where no word goes on: the text ends there, or a separator stands on one side. -/
def Boundary (p : Char → Bool) (before after : List Char) : Prop :=
  (∀ c, before.getLast? = some c → p c = true) ∨ ∀ c, after.head? = some c → p c = true

/-- The words one after the other, with separators between them. -/
inductive Spread (p : Char → Bool) : List (List Char) → List Char → Prop
  | last {w : List Char} (word : IsWord p w) : Spread p [w] w
  | more {w : List Char} {ws : List (List Char)} {gap rest : List Char} (word : IsWord p w)
      (apart : gap ≠ []) (separates : ∀ c ∈ gap, p c = true) (others : Spread p ws rest) :
      Spread p (w :: ws) (w ++ gap ++ rest)

@[simp] theorem words_nil : words p [] = [] := rfl

theorem words_separator {c : Char} (hc : p c = true) (u v : List Char) :
    words p (u ++ c :: v) = words p u ++ words p v := by
  rw [words, splitBy_append hc, List.filter_append]
  rfl

theorem words_cons_separator {c : Char} (hc : p c = true) (v : List Char) :
    words p (c :: v) = words p v := words_separator hc [] v

theorem words_separators {gap : List Char} (separates : ∀ c ∈ gap, p c = true) (v : List Char) :
    words p (gap ++ v) = words p v := by
  induction gap with
  | nil => rfl
  | cons c gap ih =>
    rw [List.cons_append, words_cons_separator (separates c List.mem_cons_self)]
    exact ih (fun d mem => separates d (List.mem_cons_of_mem c mem))

theorem words_of_isWord {w : List Char} (word : IsWord p w) : words p w = [w] := by
  rw [words, splitBy_none word.2]
  cases w with
  | nil => exact absurd rfl word.1
  | cons c w => rfl

theorem isWord_of_mem {text w : List Char} (mem : w ∈ words p text) : IsWord p w := by
  obtain ⟨piece, some⟩ := List.mem_filter.mp mem
  refine ⟨by rintro rfl; exact absurd some (by decide), fun c inside => ?_⟩
  exact (of_mem_splitBy piece inside).2

theorem words_boundary {a b : List Char} (h : Boundary p a b) :
    words p (a ++ b) = words p a ++ words p b := by
  rcases h with ends | starts
  · cases last : a.getLast? with
    | none =>
      rw [List.getLast?_eq_none_iff.mp last]
      rfl
    | some c =>
      obtain ⟨front, rfl⟩ := List.getLast?_eq_some_iff.mp last
      have separates := ends c last
      rw [List.append_assoc, List.singleton_append, words_separator separates,
        words_separator separates, words_nil, List.append_nil]
  · cases b with
    | nil => rw [List.append_nil, words_nil, List.append_nil]
    | cons c b =>
      have separates := starts c rfl
      rw [words_separator separates, words_cons_separator separates]

theorem words_eq_cons {text w : List Char} {ws : List (List Char)} (h : words p text = w :: ws) :
    ∃ gap rest, text = gap ++ w ++ rest ∧ (∀ c ∈ gap, p c = true) ∧
      (∀ c, rest.head? = some c → p c = true) ∧ words p rest = ws := by
  induction text with
  | nil => cases h
  | cons c text ih =>
    by_cases separates : p c = true
    · rw [words_cons_separator separates] at h
      obtain ⟨gap, rest, rfl, all, starts, later⟩ := ih h
      refine ⟨c :: gap, rest, rfl, ?_, starts, later⟩
      intro d mem
      rcases List.mem_cons.mp mem with rfl | mem
      · exact separates
      · exact all d mem
    · have front : IsWord p ((c :: text).takeWhile (fun d => !p d)) := by
        refine ⟨?_, fun d mem => ?_⟩
        · rw [List.takeWhile_cons, if_pos (by simp [separates])]
          exact List.cons_ne_nil _ _
        · simpa using List.all_eq_true.mp List.all_takeWhile d mem
      have starts : ∀ d, ((c :: text).dropWhile (fun d => !p d)).head? = some d → p d = true := by
        intro d first
        have stopped := List.head?_dropWhile_not (fun d => !p d) (c :: text)
        rw [first] at stopped
        simpa using stopped
      have whole := List.takeWhile_append_dropWhile (p := fun d => !p d) (l := c :: text)
      rw [← whole, words_boundary (.inr starts), words_of_isWord front] at h
      obtain ⟨rfl, rfl⟩ := List.cons.inj h
      exact ⟨[], _, whole.symm, fun d bad => absurd bad List.not_mem_nil, starts, rfl⟩

theorem Spread.ne_nil {ws : List (List Char)} {text : List Char} (h : Spread p ws text) :
    text ≠ [] := by
  cases h with
  | last word => exact word.1
  | more word apart separates others =>
    intro empty
    exact word.1 (List.append_eq_nil_iff.mp (List.append_eq_nil_iff.mp empty).1).1

theorem Spread.head {ws : List (List Char)} {text : List Char} (h : Spread p ws text) {c : Char}
    (first : text.head? = some c) : p c = false := by
  cases h with
  | last word => exact word.2 c (List.mem_of_head? first)
  | @more w ws gap rest word apart separates others =>
    obtain ⟨d, w', rfl⟩ := List.exists_cons_of_ne_nil word.1
    obtain rfl := Option.some.inj first
    exact word.2 d List.mem_cons_self

theorem Spread.words {ws : List (List Char)} {text : List Char} (h : Spread p ws text) :
    words p text = ws := by
  induction h with
  | last word => exact words_of_isWord word
  | @more w ws gap rest word apart separates others ih =>
    have first : ∀ c, (gap ++ rest).head? = some c → p c = true := by
      intro c first
      cases gap with
      | nil => exact absurd rfl apart
      | cons d gap =>
        obtain rfl := Option.some.inj first
        exact separates d List.mem_cons_self
    rw [List.append_assoc, words_boundary (.inr first), words_separators separates, ih,
      words_of_isWord word]
    rfl

/-- Words at the front of a text are spread there and end at a boundary. -/
theorem spread_of_words {ws later : List (List Char)} {text : List Char} (nonempty : ws ≠ [])
    (h : words p text = ws ++ later) :
    ∃ gap mid rest, text = gap ++ mid ++ rest ∧ (∀ c ∈ gap, p c = true) ∧ Spread p ws mid ∧
      (∀ c, rest.head? = some c → p c = true) ∧ words p rest = later := by
  induction ws generalizing text with
  | nil => exact absurd rfl nonempty
  | cons w ws ih =>
    obtain ⟨gap, rest, rfl, separates, starts, behind⟩ := words_eq_cons h
    have word : IsWord p w := by
      have first : w ∈ words p (gap ++ w ++ rest) := by
        rw [h]
        exact List.mem_cons_self
      exact isWord_of_mem first
    cases ws with
    | nil => exact ⟨gap, w, rest, rfl, separates, .last word, starts, behind⟩
    | cons v ws =>
      obtain ⟨gap', mid, rest', rfl, separates', spread, starts', behind'⟩ :=
        ih (List.cons_ne_nil v ws) behind
      have apart : gap' ≠ [] := by
        rintro rfl
        obtain ⟨c, mid', rfl⟩ := List.exists_cons_of_ne_nil spread.ne_nil
        have separator := starts c rfl
        rw [spread.head rfl] at separator
        cases separator
      refine ⟨gap, w ++ gap' ++ mid, rest', by simp only [List.append_assoc], separates,
        .more word apart separates' spread, starts', behind'⟩

/-- Words follow each other in a text where they stand in it between boundaries. -/
theorem infix_words_iff {ws : List (List Char)} (nonempty : ws ≠ []) {text : List Char} :
    ws <:+: words p text ↔ ∃ a mid b, text = a ++ mid ++ b ∧ Spread p ws mid ∧
      Boundary p a (mid ++ b) ∧ Boundary p (a ++ mid) b := by
  constructor
  · rintro ⟨before, later, h⟩
    induction before generalizing text with
    | nil =>
      obtain ⟨gap, mid, rest, rfl, separates, spread, starts, -⟩ := spread_of_words nonempty h.symm
      refine ⟨gap, mid, rest, rfl, spread, .inl ?_, .inr starts⟩
      exact fun c last => separates c (List.mem_of_getLast? last)
    | cons w before ih =>
      obtain ⟨gap, rest, rfl, -, starts, behind⟩ := words_eq_cons h.symm
      obtain ⟨a, mid, b, rfl, spread, left, right⟩ := ih behind.symm
      refine ⟨gap ++ w ++ a, mid, b, by simp only [List.append_assoc], spread, ?_, ?_⟩
      · cases a with
        | nil =>
          obtain ⟨c, mid', rfl⟩ := List.exists_cons_of_ne_nil spread.ne_nil
          have separator := starts c rfl
          rw [spread.head rfl] at separator
          cases separator
        | cons d a =>
          rcases left with ends | starts
          · exact .inl (fun c last => ends c (by simpa using last))
          · exact .inr starts
      · rcases right with ends | starts
        · obtain ⟨d, mid', rfl⟩ := List.exists_cons_of_ne_nil spread.ne_nil
          refine .inl (fun c last => ends c ?_)
          simpa using last
        · exact .inr starts
  · rintro ⟨a, mid, b, rfl, spread, left, right⟩
    rw [words_boundary right]
    refine ⟨words p a, words p b, ?_⟩
    have split : words p (a ++ mid) = words p a ++ ws := by
      rw [← spread.words]
      refine words_boundary ?_
      rcases left with ends | starts
      · exact .inl ends
      · refine .inr (fun c first => starts c ?_)
        rw [List.head?_append, first]
        rfl
    rw [split]

theorem Spread.getLast {ws : List (List Char)} {text : List Char} (h : Spread p ws text) {c : Char}
    (last : text.getLast? = some c) : p c = false := by
  induction h with
  | last word => exact word.2 c (List.mem_of_getLast? last)
  | more _ _ _ others ih =>
    rw [List.getLast?_append_of_ne_nil _ others.ne_nil] at last
    exact ih last

theorem Spread.boundary_before {ws : List (List Char)} {text : List Char} (h : Spread p ws text)
    {a b : List Char} : Boundary p a (text ++ b) ↔ ∀ c, a.getLast? = some c → p c = true := by
  refine ⟨fun boundary => ?_, .inl⟩
  rcases boundary with ends | starts
  · exact ends
  · obtain ⟨c, rest, rfl⟩ := List.exists_cons_of_ne_nil h.ne_nil
    have separator := starts c rfl
    rw [h.head rfl] at separator
    cases separator

theorem Spread.boundary_behind {ws : List (List Char)} {text : List Char} (h : Spread p ws text)
    {a b : List Char} : Boundary p (a ++ text) b ↔ ∀ c, b.head? = some c → p c = true := by
  refine ⟨fun boundary => ?_, .inr⟩
  rcases boundary with ends | starts
  · have last : (a ++ text).getLast? = some (text.getLast h.ne_nil) := by
      rw [List.getLast?_append_of_ne_nil _ h.ne_nil]
      exact List.getLast?_eq_some_getLast h.ne_nil
    have separator := ends _ last
    rw [h.getLast (List.getLast?_eq_some_getLast h.ne_nil)] at separator
    cases separator
  · exact starts

theorem spread_join {ws : List (List Char)} (nonempty : ws ≠ []) (word : ∀ w ∈ ws, IsWord p w)
    {c : Char} (hc : p c = true) : Spread p ws (join [c] ws) := by
  induction ws with
  | nil => exact absurd rfl nonempty
  | cons w ws ih =>
    cases ws with
    | nil => exact .last (word w List.mem_cons_self)
    | cons v ws =>
      have rest := ih (List.cons_ne_nil v ws) (fun u mem => word u (List.mem_cons_of_mem w mem))
      refine .more (word w List.mem_cons_self) (List.cons_ne_nil c []) (fun d mem => ?_) rest
      rwa [List.mem_singleton.mp mem]

def Stands (p : Char → Bool) (phrase text : List Char) : Prop :=
  ∃ a b, text = a ++ phrase ++ b ∧ Boundary p a (phrase ++ b) ∧ Boundary p (a ++ phrase) b

theorem infix_words_stands {ws : List (List Char)} (nonempty : ws ≠ []) {text : List Char} :
    ws <:+: words p text ↔ ∃ phrase, Spread p ws phrase ∧ Stands p phrase text := by
  rw [infix_words_iff nonempty]
  constructor
  · rintro ⟨a, mid, b, split, spread, left, right⟩
    exact ⟨mid, spread, a, b, split, left, right⟩
  · rintro ⟨mid, spread, a, b, split, left, right⟩
    exact ⟨a, mid, b, split, spread, left, right⟩

/-! One word stands in a text where no word goes on at either end of it. -/

theorem spread_singleton {w mid : List Char} (word : IsWord p w) : Spread p [w] mid ↔ mid = w := by
  constructor
  · intro h
    cases h with
    | last => rfl
    | more _ _ _ others => cases others
  · rintro rfl
    exact .last word

theorem mem_words_iff {w : List Char} (word : IsWord p w) {text : List Char} :
    w ∈ words p text ↔ ∃ a b, text = a ++ w ++ b ∧ (∀ c, a.getLast? = some c → p c = true) ∧
      ∀ c, b.head? = some c → p c = true := by
  have one : w ∈ words p text ↔ [w] <:+: words p text := by
    refine ⟨fun mem => ?_, fun h => h.subset List.mem_cons_self⟩
    obtain ⟨before, behind, same⟩ := List.append_of_mem mem
    exact ⟨before, behind, by rw [same]; simp⟩
  rw [one, infix_words_iff (List.cons_ne_nil w [])]
  constructor
  · rintro ⟨a, mid, b, rfl, spread, left, right⟩
    obtain rfl := (spread_singleton word).mp spread
    exact ⟨a, b, rfl, spread.boundary_before.mp left, spread.boundary_behind.mp right⟩
  · rintro ⟨a, b, rfl, left, right⟩
    exact ⟨a, w, b, rfl, .last word, .inl left, .inr right⟩

end Words
