import Amatl.OpticsLayout

/-! Optics documents come back from every text they are printed to. -/

namespace Amatl.Optics

open Nom Combinators Documented Text

/-! The tokens of a document. -/

def quoted (pattern : String) : List Char := '"' :: (pattern.toList ++ ['"'])

def fieldWith (keyword pattern : String) : List (List Char) :=
  [keyword.toList, ['('], quoted pattern, [')']]

def fieldTokens : MatchField → List (List Char)
  | .site pattern => fieldWith "Site" pattern
  | .domain pattern => fieldWith "Domain" pattern
  | .title pattern => fieldWith "Title" pattern
  | .url pattern => fieldWith "Url" pattern

def patternOf : MatchField → String
  | .site pattern | .domain pattern | .title pattern | .url pattern => pattern

def blockTokens (field : MatchField) : List (List Char) :=
  ["Matches".toList] ++ ([['\x7b']] ++ (fieldTokens field ++ [['\x7d']]))

def amountWith (keyword : String) (n : UInt32) : List (List Char) :=
  [keyword.toList, ['('], Nat.toDigits 10 n.toNat, [')']]

def amountTokens : Action → List (List Char)
  | .boost n => amountWith "Boost" n
  | .downrank n => amountWith "Downrank" n

def actionTokens (act : Action) : List (List Char) :=
  ["Action".toList] ++ ([['(']] ++ (amountTokens act ++ [[')']]))

def Separator (c : Char) (tokens : List (List Char)) : Prop := tokens = [] ∨ tokens = [[c]]

def BlockTokens (field : MatchField) (tokens : List (List Char)) : Prop :=
  ∃ comma, Separator ',' comma ∧ tokens = blockTokens field ++ comma

inductive ItemTokens : Item → List (List Char) → Prop
  | rule {r : Rule} {blocks comma semicolon : List (List Char)}
      (h : Row BlockTokens r.patterns blocks) (hc : Separator ',' comma)
      (hs : Separator ';' semicolon) :
      ItemTokens (.rule r) ("Rule".toList :: ['\x7b'] ::
        (blocks ++ (actionTokens r.action ++ (comma ++ (['\x7d'] :: semicolon)))))
  | discardNonMatching {semicolon : List (List Char)} (hs : Separator ';' semicolon) :
      ItemTokens .discardNonMatching (["DiscardNonMatching".toList] ++ semicolon)

def Item.rule? : Item → Option Rule
  | .rule r => some r
  | .discardNonMatching => none

/-- The text is a printed form of the document: its rules in their order, the directive anywhere
between them if the flag is set, laid out in some way. -/
def Prints (document : OpticsDocument) (text : List Char) : Prop :=
  ∃ items tokens, items.filterMap Item.rule? = document.rules ∧
    (Item.discardNonMatching ∈ items ↔ document.discardNonMatching = true) ∧
    Row ItemTokens items tokens ∧ Laid tokens text

/-- Every rule has a match, and every string has a character and no quote. -/
def Printable (document : OpticsDocument) : Prop :=
  ∀ rule ∈ document.rules, rule.patterns ≠ [] ∧
    ∀ field ∈ rule.patterns, patternOf field ≠ "" ∧ '"' ∉ (patternOf field).toList

instance (document : OpticsDocument) : Decidable (Printable document) :=
  inferInstanceAs (Decidable (∀ rule ∈ document.rules, rule.patterns ≠ [] ∧
    ∀ field ∈ rule.patterns, patternOf field ≠ "" ∧ '"' ∉ (patternOf field).toList))

theorem digit_of_mem {n : Nat} {c : Char} (h : c ∈ Nat.toDigits 10 n) :
    c.isDigit = true ∧ 48 ≤ c.toNat ∧ c.toNat ≤ 57 := by
  have digit : c.isDigit = true := Nat.isDigit_of_mem_toDigits (by decide) (by decide) h
  refine ⟨digit, ?_⟩
  simp only [Char.isDigit, Bool.and_eq_true, decide_eq_true_eq, ge_iff_le, UInt32.le_iff_toNat_le]
    at digit
  exact digit

theorem visible_digits (n : Nat) : Visible (Nat.toDigits 10 n) := by
  cases digits : Nat.toDigits 10 n with
  | nil => exact absurd digits Nat.toDigits_ne_nil
  | cons c rest =>
    obtain ⟨-, low, high⟩ := digit_of_mem (by rw [digits]; exact List.mem_cons_self)
    refine ⟨c, rest, rfl, ?_, ?_⟩
    · simp only [isWhitespace, Bool.or_eq_false_iff, Bool.and_eq_false_iff, decide_eq_false_iff_not,
        beq_eq_false_iff_ne]
      omega
    · rintro rfl
      exact absurd low (by decide)

theorem apart_cons {c : Char} {token : List Char} {tokens : List (List Char)}
    (h : token.head? ≠ some c) : Apart c (token :: tokens) := by
  intro token' mem
  obtain rfl := Option.some.inj mem
  exact h

theorem apart_nil {c : Char} : Apart c [] := by
  intro token mem
  cases mem

theorem Separator.visible {c : Char} {tokens : List (List Char)} (h : Separator c tokens)
    (shown : isWhitespace c = false) (other : c ≠ '/') : ∀ token ∈ tokens, Visible token := by
  intro token mem
  rcases h with rfl | rfl
  · cases mem
  · obtain rfl := List.mem_singleton.mp mem
    exact ⟨c, [], rfl, shown, other⟩

def visibleHead (token : List Char) : Bool :=
  token.head?.any (fun c => !isWhitespace c && c != '/')

theorem visible_word {token : List Char} (h : visibleHead token = true) : Visible token := by
  cases token with
  | nil => cases h
  | cons c rest =>
    simp only [visibleHead, List.head?_cons, Option.any_some, Bool.and_eq_true, Bool.not_eq_true',
      bne_iff_ne, ne_eq] at h
    exact ⟨c, rest, rfl, h.1, h.2⟩

theorem visible_block (field : MatchField) : ∀ token ∈ blockTokens field, Visible token := by
  intro token mem
  apply visible_word
  have all : (blockTokens field).all visibleHead = true := by cases field <;> rfl
  exact List.all_eq_true.mp all token mem

theorem visible_action (act : Action) : ∀ token ∈ actionTokens act, Visible token := by
  have amount : ∀ (keyword : String) (n : UInt32), Visible keyword.toList →
      ∀ token ∈ amountWith keyword n, Visible token := by
    intro keyword n shown token mem
    simp only [amountWith, List.mem_cons, List.not_mem_nil, or_false] at mem
    rcases mem with rfl | rfl | rfl | rfl
    · exact shown
    · exact visible_word (by decide)
    · exact visible_digits n.toNat
    · exact visible_word (by decide)
  have inner : ∀ token ∈ amountTokens act, Visible token := by
    cases act with
    | boost n => exact amount "Boost" n (visible_word (by decide))
    | downrank n => exact amount "Downrank" n (visible_word (by decide))
  intro token mem
  simp only [actionTokens, List.mem_append, List.mem_cons, List.not_mem_nil, or_false] at mem
  rcases mem with rfl | rfl | inside | rfl
  · exact visible_word (by decide)
  · exact visible_word (by decide)
  · exact inner token inside
  · exact visible_word (by decide)

theorem Row.visible {α : Type} {spelling : α → List (List Char) → Prop} {xs : List α}
    {tokens : List (List Char)} (h : Row spelling xs tokens)
    (each : ∀ x a, spelling x a → ∀ token ∈ a, Visible token) : ∀ token ∈ tokens, Visible token := by
  induction h with
  | nil => exact nofun
  | cons spelled _ ih =>
    intro token mem
    rcases List.mem_append.mp mem with here | later
    · exact each _ _ spelled token here
    · exact ih token later

theorem BlockTokens.visible {field : MatchField} {tokens : List (List Char)}
    (h : BlockTokens field tokens) : ∀ token ∈ tokens, Visible token := by
  obtain ⟨comma, separated, rfl⟩ := h
  intro token mem
  rcases List.mem_append.mp mem with inside | last
  · exact visible_block field token inside
  · exact separated.visible (by decide) (by decide) token last

theorem ItemTokens.visible {item : Item} {tokens : List (List Char)} (h : ItemTokens item tokens) :
    ∀ token ∈ tokens, Visible token := by
  intro token mem
  cases h with
  | @rule r blocks comma semicolon row hc hs =>
    simp only [List.mem_cons, List.mem_append] at mem
    rcases mem with rfl | rfl | inside | inside | inside | rfl | inside
    · exact visible_word (by decide)
    · exact visible_word (by decide)
    · exact row.visible (fun _ _ spelled => spelled.visible) token inside
    · exact visible_action r.action token inside
    · exact hc.visible (by decide) (by decide) token inside
    · exact visible_word (by decide)
    · exact hs.visible (by decide) (by decide) token inside
  | discardNonMatching hs =>
    rcases List.mem_append.mp mem with first | inside
    · obtain rfl := List.mem_singleton.mp first
      exact visible_word (by decide)
    · exact hs.visible (by decide) (by decide) token inside

/-! One printed form of each document. -/

def ruleTokens (r : Rule) : List (List Char) :=
  "Rule".toList :: ['\x7b'] :: (r.patterns.flatMap (fun field => blockTokens field ++ [[',']]) ++
    (actionTokens r.action ++ ([] ++ (['\x7d'] :: [[';']]))))

def documentTokens (document : OpticsDocument) : List (List Char) :=
  (if document.discardNonMatching then ["DiscardNonMatching".toList] ++ [[';']] else []) ++
    document.rules.flatMap ruleTokens

def printOptics (document : OpticsDocument) : List Char :=
  (documentTokens document).flatMap (fun token => ' ' :: token)

theorem laid_spaced (tokens : List (List Char)) :
    Laid tokens (tokens.flatMap (fun token => ' ' :: token)) := by
  induction tokens with
  | nil => exact .ending .none (.blank nofun)
  | cons token tokens ih =>
    have space : Gap [' '] := .space rfl .none
    exact Laid.token space ih

theorem row_flatMap {α : Type} {spelling : α → List (List Char) → Prop}
    {spelled : α → List (List Char)} (xs : List α) (h : ∀ x ∈ xs, spelling x (spelled x)) :
    Row spelling xs (xs.flatMap spelled) := by
  induction xs with
  | nil => exact .nil
  | cons x xs ih =>
    exact .cons (h x List.mem_cons_self) (ih (fun y mem => h y (List.mem_cons_of_mem x mem)))

theorem ruleTokens_spell (r : Rule) : ItemTokens (.rule r) (ruleTokens r) :=
  .rule (row_flatMap r.patterns (fun _ _ => ⟨[[',']], Or.inr rfl, rfl⟩)) (Or.inl rfl) (Or.inr rfl)

theorem printOptics_prints (document : OpticsDocument) :
    Prints document (printOptics document) := by
  have rules : Row ItemTokens (document.rules.map Item.rule) (document.rules.flatMap ruleTokens) := by
    induction document.rules with
    | nil => exact .nil
    | cons r rules ih => exact .cons (ruleTokens_spell r) ih
  have kept : (document.rules.map Item.rule).filterMap Item.rule? = document.rules := by
    rw [List.filterMap_map]
    exact List.filterMap_some
  have laid := laid_spaced (documentTokens document)
  cases flag : document.discardNonMatching with
  | false =>
    have tokens : documentTokens document = document.rules.flatMap ruleTokens := by
      rw [documentTokens, flag]
      rfl
    exact ⟨_, documentTokens document, kept, by simp [flag], tokens ▸ rules, laid⟩
  | true =>
    have tokens : documentTokens document =
        ["DiscardNonMatching".toList] ++ [[';']] ++ document.rules.flatMap ruleTokens := by
      rw [documentTokens, flag]
      rfl
    refine ⟨Item.discardNonMatching :: document.rules.map Item.rule, documentTokens document, kept,
      by simp [flag], ?_, laid⟩
    rw [tokens]
    exact .cons (.discardNonMatching (Or.inr rfl)) rules

/-- Behind a number its bracket follows, so that no digit does. -/
def Bracketed (tokens : List (List Char)) : Prop := ∃ others, tokens = [')'] :: others

theorem Laid.not_digit {tokens : List (List Char)} {text : List Char} (h : Laid tokens text)
    (bracket : Bracketed tokens) : ∀ c ∈ text.head?, Char.isDigit c = false := by
  obtain ⟨others, rfl⟩ := bracket
  intro c first
  cases h with
  | token gapped later =>
    cases gapped with
    | none =>
      obtain rfl := Option.some.inj first
      decide
    | @space d gap white _ =>
      obtain rfl := Option.some.inj first
      simp only [isMultispace, Bool.or_eq_true, decide_eq_true_eq] at white
      rcases white with ((rfl | rfl) | rfl) | rfl <;> decide
    | line =>
      obtain rfl := Option.some.inj first
      decide
    | block =>
      obtain rfl := Option.some.inj first
      decide

theorem parse_digits (n : UInt32) :
    (parseUnsigned 10 (2 ^ 32) (Nat.toDigits 10 n.toNat)).map UInt32.ofNat = some n := by
  have digits := digitsValue_toDigits (by decide : 1 < 10) (by decide) n.toNat
  have small : n.toNat < 2 ^ 32 := n.toNat_lt
  have unsigned : parseUnsigned 10 (2 ^ 32) (Nat.toDigits 10 n.toNat) =
      (digitsValue 10 (Nat.toDigits 10 n.toNat) none).filter (· < 2 ^ 32) := by
    cases letters : Nat.toDigits 10 n.toNat with
    | nil => rfl
    | cons c rest =>
      have low := (digit_of_mem (n := n.toNat) (by rw [letters]; exact List.mem_cons_self)).2.1
      have sign : c ≠ '+' := by
        rintro rfl
        exact absurd low (by decide)
      unfold parseUnsigned
      split
      · rename_i equal
        exact absurd (List.cons.inj equal).1 sign
      · rfl
  rw [unsigned, digits]
  simpa [Option.filter] using small

theorem foldl_push (items : List Item) (document : OpticsDocument) :
    items.foldl OpticsDocument.push document =
      ⟨document.rules ++ items.filterMap Item.rule?,
        document.discardNonMatching || decide (Item.discardNonMatching ∈ items)⟩ := by
  induction items generalizing document with
  | nil => simp
  | cons i items ih =>
    rw [List.foldl_cons, ih]
    cases i with
    | rule r => simp [OpticsDocument.push, Item.rule?]
    | discardNonMatching => simp [OpticsDocument.push, Item.rule?, List.filterMap_cons]

/-! The parsers read their tokens. -/

section

variable [Combinators] [Documented]

theorem stringLiteral_reads {pattern : String} (some : pattern ≠ "")
    (plain : '"' ∉ pattern.toList) :
    Reads (fun _ => True) stringLiteral [quoted pattern] pattern := by
  refine lexeme_reads (fun others text _ _ => ?_)
  have letters : pattern.toList ≠ [] := fun empty => some (String.toList_eq_nil_iff.mp empty)
  have inside : ∀ c ∈ pattern.toList, (c != '"') = true := by
    intro c mem
    simpa using fun equal : c = '"' => plain (equal ▸ mem)
  have body := takeWhile1_ok (fun c => c != '"') pattern.toList ('"' :: text) letters inside
    (by simp)
  have whole : quoted pattern ++ text = '"' :: (pattern.toList ++ '"' :: text) := by simp [quoted]
  have read := map_ok String.ofList (delimited_ok (char_ok '"' _) body (char_ok '"' text))
  rw [whole, read, String.ofList_toList]

theorem unsigned_reads (n : UInt32) :
    Reads Bracketed unsigned [Nat.toDigits 10 n.toNat] n := by
  refine lexeme_reads (fun others text bracket laid => ?_)
  have digits := takeWhile1_ok Char.isDigit (Nat.toDigits 10 n.toNat) text Nat.toDigits_ne_nil
    (fun c mem => (digit_of_mem mem).1) (laid.not_digit bracket)
  have recognized : recognize digit1 (Nat.toDigits 10 n.toNat ++ text) =
      .ok (text, Nat.toDigits 10 n.toNat) := by
    rw [recognize_eq, digit1_eq, digits]
    simp [Except.map]
  rw [mapRes_eq, recognized]
  simp only [Except.bind, parse_digits]

theorem fieldOf_reads (keyword : String) {pattern : String} (field : String → MatchField)
    (some : pattern ≠ "") (plain : '"' ∉ pattern.toList) :
    Reads (fun _ => True) (fieldOf keyword field) (fieldWith keyword pattern) (field pattern) :=
  ((symbol_reads keyword).preceded
    ((symbol_reads "(").delimited (stringLiteral_reads some plain) (symbol_reads ")")
      (fun _ => trivial)) (fun _ => trivial)).map field

theorem fieldOf_opens (keyword : String) {c : Char} (first : keyword.toList.head? = some c)
    (field : String → MatchField) : Opens (fieldOf keyword field) c :=
  ((symbol_opens first).preceded _).map field

theorem matchField_reads {field : MatchField} (some : patternOf field ≠ "")
    (plain : '"' ∉ (patternOf field).toList) :
    Reads (fun _ => True) matchField (fieldTokens field) field := by
  have site := fieldOf_opens "Site" (c := 'S') rfl MatchField.site
  have domain := fieldOf_opens "Domain" (c := 'D') rfl MatchField.domain
  have title := fieldOf_opens "Title" (c := 'T') rfl MatchField.title
  cases field with
  | site pattern => exact (fieldOf_reads "Site" MatchField.site some plain).alt_first _
  | domain pattern =>
    exact ((fieldOf_reads "Domain" MatchField.domain some plain).alt_first _).alt_next site
      (fun _ => apart_cons (by decide)) (by decide)
  | title pattern =>
    have here := (fieldOf_reads "Title" MatchField.title some plain).alt_first
      [fieldOf "Url" .url]
    exact (here.alt_next domain (fun _ => apart_cons (by decide)) (by decide)).alt_next site
      (fun _ => apart_cons (by decide)) (by decide)
  | url pattern =>
    have here := (fieldOf_reads "Url" MatchField.url some plain).alt_first []
    exact ((here.alt_next title (fun _ => apart_cons (by decide)) (by decide)).alt_next domain
      (fun _ => apart_cons (by decide)) (by decide)).alt_next site
        (fun _ => apart_cons (by decide)) (by decide)

theorem matchesBlock_reads {field : MatchField} (some : patternOf field ≠ "")
    (plain : '"' ∉ (patternOf field).toList) :
    Reads (fun _ => True) matchesBlock (blockTokens field) field :=
  (symbol_reads "Matches").preceded
    ((symbol_reads "\x7b").delimited (matchField_reads some plain) (symbol_reads "\x7d")
      (fun _ => trivial)) (fun _ => trivial)

theorem actionOf_reads (keyword : String) (act : UInt32 → Action) (n : UInt32) :
    Reads (fun _ => True) (actionOf keyword act) (amountWith keyword n) (act n) :=
  ((symbol_reads keyword).preceded
    ((symbol_reads "(").delimited (unsigned_reads n) (symbol_reads ")") (fun others => ⟨others, rfl⟩))
    (fun _ => trivial)).map act

theorem action_reads (act : Action) : Reads (fun _ => True) action (actionTokens act) act := by
  have boost : Opens (actionOf "Boost" .boost) 'B' := ((symbol_opens rfl).preceded _).map _
  have amount : Reads (fun _ => True) (alt [actionOf "Boost" .boost, actionOf "Downrank" .downrank])
      (amountTokens act) act := by
    cases act with
    | boost n => exact (actionOf_reads "Boost" .boost n).alt_first _
    | downrank n =>
      exact ((actionOf_reads "Downrank" .downrank n).alt_first _).alt_next boost
        (fun _ => apart_cons (by decide)) (by decide)
  exact (symbol_reads "Action").preceded
    ((symbol_reads "(").delimited amount (symbol_reads ")") (fun _ => trivial)) (fun _ => trivial)

theorem separator_reads {s : String} {c : Char} (single : s.toList = [c])
    (shown : isWhitespace c = false) {tokens : List (List Char)} (h : Separator c tokens) :
    ∃ out, Reads (Apart c) (opt (symbol s)) tokens out :=
  optional_reads single shown (by rw [single]; exact h)

/-- A printable rule is read from its tokens. -/
theorem rule_reads {r : Rule} (some : r.patterns ≠ [])
    (strings : ∀ field ∈ r.patterns, patternOf field ≠ "" ∧ '"' ∉ (patternOf field).toList)
    {tokens : List (List Char)} (h : ItemTokens (.rule r) tokens) :
    Reads (Apart ';') rule tokens r := by
  cases h with
  | @rule _ blocks comma semicolon row hc hs =>
  intro others text after ready
  obtain ⟨outComma, readComma⟩ := separator_reads (s := ",") (c := ',') rfl (by decide) hc
  obtain ⟨outEnd, readEnd⟩ := separator_reads (s := ";") (c := ';') rfl (by decide) hs
  simp only [List.append_assoc, List.cons_append] at ready
  obtain ⟨t₁, read₁, ready₁, shorter₁⟩ := symbol_reads "Rule" _ text trivial ready
  obtain ⟨t₂, read₂, ready₂, shorter₂⟩ := symbol_reads "\x7b" _ t₁ trivial ready₁
  have blocksRead : ∀ field ∈ r.patterns, ∀ a, BlockTokens field a →
      a ≠ [] ∧ Reads (Apart ',') (terminated matchesBlock (opt (symbol ","))) a field := by
    rintro field mem a ⟨comma', separated, rfl⟩
    obtain ⟨plain, quote⟩ := strings field mem
    obtain ⟨out, read⟩ := separator_reads (s := ",") (c := ',') rfl (by decide) separated
    exact ⟨by simp [blockTokens],
      (matchesBlock_reads plain quote).terminated read (fun _ _ => trivial)⟩
  have behind : ∀ field a, BlockTokens field a → ∀ others, Apart ',' (a ++ others) := by
    rintro field a ⟨comma', -, rfl⟩ others
    exact apart_cons (by decide)
  have stop : ∀ text, Ready (actionTokens r.action ++ (comma ++ ['\x7d'] :: (semicolon ++ others)))
      text → ∃ at', terminated matchesBlock (opt (symbol ",")) text = .error at' := by
    intro text ready
    have opens : Opens matchesBlock 'M' := (symbol_opens rfl).preceded _
    exact opens.terminated _ text (ready.apart (apart_cons (by decide)) (by decide))
  obtain ⟨t₃, run, ready₃, shorter₃⟩ :=
    row.runs blocksRead behind (apart_cons (by decide)) stop ready₂
  obtain ⟨t₄, read₄, ready₄, shorter₄⟩ := action_reads r.action _ t₃ trivial ready₃
  obtain ⟨t₅, read₅, ready₅, shorter₅⟩ := readComma _ t₄ (apart_cons (by decide)) ready₄
  obtain ⟨t₆, read₆, ready₆, shorter₆⟩ := symbol_reads "\x7d" _ t₅ trivial ready₅
  obtain ⟨t₇, read₇, ready₇, shorter₇⟩ := readEnd others t₆ after ready₆
  refine ⟨t₇, ?_, ready₇, ?_⟩
  · simp only [Optics.rule, read₁, read₂, many1_runs some run, read₄, read₅, read₆, read₇, bind,
      Except.bind]
  · simp only [List.length_cons, List.length_append, List.length_nil] at *
    omega

theorem item_opens {text : List Char} (directive : text.head? ≠ some 'D')
    (rule' : text.head? ≠ some 'R') : ∃ at', item text = .error at' := by
  have first : Opens (map (terminated (symbol "DiscardNonMatching") (opt (symbol ";")))
      (fun _ => Item.discardNonMatching)) 'D' := ((symbol_opens rfl).terminated _).map _
  have second : Opens rule 'R' := by
    intro text other
    obtain ⟨at', fails⟩ := symbol_opens (s := "Rule") (c := 'R') rfl text other
    exact ⟨at', by simp only [Optics.rule, fails, bind, Except.bind]⟩
  obtain ⟨at₁, fails₁⟩ := first text directive
  obtain ⟨at₂, fails₂⟩ := second.map Item.rule text rule'
  exact ⟨at₂, by rw [item, alt_error _ _ _ _ _ fails₁, alt_last, fails₂]⟩

theorem item_reads {i : Item} {tokens : List (List Char)} (h : ItemTokens i tokens)
    (printable : ∀ r, i = .rule r → r.patterns ≠ [] ∧
      ∀ field ∈ r.patterns, patternOf field ≠ "" ∧ '"' ∉ (patternOf field).toList) :
    Reads (Apart ';') item tokens i := by
  cases i with
  | rule r =>
    obtain ⟨some, strings⟩ := printable r rfl
    have first : Opens (map (terminated (symbol "DiscardNonMatching") (opt (symbol ";")))
        (fun _ => Item.discardNonMatching)) 'D' := ((symbol_opens rfl).terminated _).map _
    have read := ((rule_reads some strings h).map Item.rule).alt_first []
    refine read.alt_next first (fun others => ?_) (by decide)
    cases h with
    | rule => exact apart_cons (by decide)
  | discardNonMatching =>
    cases h with
    | discardNonMatching hs =>
      obtain ⟨out, read⟩ := separator_reads (s := ";") (c := ';') rfl (by decide) hs
      exact (((symbol_reads "DiscardNonMatching").terminated read (fun _ _ => trivial)).map
        (fun _ => Item.discardNonMatching)).alt_first _

/-- The items of a document are read one after the other, to the end of the text. -/
theorem items_read {items : List Item} {tokens : List (List Char)} {text : List Char}
    (h : Row ItemTokens items tokens) (ready : Ready tokens text)
    (printable : ∀ r, Item.rule r ∈ items → r.patterns ≠ [] ∧
      ∀ field ∈ r.patterns, patternOf field ≠ "" ∧ '"' ∉ (patternOf field).toList) :
    ∃ rest, many0 item text = .ok (rest, items) ∧ Ready [] rest := by
  have behind : ∀ i a, ItemTokens i a → ∀ others, Apart ';' (a ++ others) := by
    intro i a spelled others
    cases spelled with
    | rule => exact apart_cons (by decide)
    | discardNonMatching => exact apart_cons (by decide)
  have stop : ∀ text, Ready [] text → ∃ at', item text = .error at' := fun text ready =>
    item_opens (ready.apart apart_nil (by decide)) (ready.apart apart_nil (by decide))
  have read : ∀ i ∈ items, ∀ a, ItemTokens i a → a ≠ [] ∧ Reads (Apart ';') item a i := by
    intro i mem a spelled
    refine ⟨?_, item_reads spelled (fun r same => printable r (same ▸ mem))⟩
    cases spelled with
    | rule => exact List.cons_ne_nil _ _
    | discardNonMatching => exact List.cons_ne_nil _ _
  obtain ⟨rest, run, left, -⟩ := h.runs read behind apart_nil stop (by rwa [List.append_nil])
  exact ⟨rest, many0_runs run, left⟩

/-- A printable document comes back from each of its printed forms. -/
theorem parseOptics_printed [DebugTables] {document : OpticsDocument} {text : List Char}
    (printable : Printable document) (printed : Prints document text) :
    parseOptics text = .ok document := by
  obtain ⟨items, tokens, rules, flag, row, laid⟩ := printed
  obtain ⟨start, skipped, ready, -⟩ := laid.skip (row.visible (fun _ _ spelled => spelled.visible))
  have each : ∀ r, Item.rule r ∈ items → r.patterns ≠ [] ∧
      ∀ field ∈ r.patterns, patternOf field ≠ "" ∧ '"' ∉ (patternOf field).toList := by
    intro r mem
    refine printable r ?_
    rw [← rules]
    exact List.mem_filterMap.mpr ⟨Item.rule r, mem, rfl⟩
  obtain ⟨rest, read, left⟩ := items_read row ready each
  have blank : (trim rest).isEmpty = true := by
    have none : rest.dropWhile isWhitespace = [] := List.dropWhile_eq_nil_iff.mpr left.begins.1
    rw [trim, none]
    rfl
  have whole : items.foldl OpticsDocument.push ⟨[], false⟩ = document := by
    obtain ⟨wanted, discards⟩ := document
    have discard : decide (Item.discardNonMatching ∈ items) = discards := by
      by_cases mem : Item.discardNonMatching ∈ items
      · rw [decide_eq_true mem]
        exact (flag.mp mem).symm
      · rw [decide_eq_false mem]
        exact (Bool.eq_false_iff.mpr (fun given => mem (flag.mpr given))).symm
    have same : items.filterMap Item.rule? = wanted := rules
    rw [foldl_push, discard, List.nil_append, Bool.false_or, same]
  simp only [parseOptics, skipped, read, blank, Bool.not_true, Bool.false_eq_true, if_false, whole]

end

/-- A document with two rules and the directive, parsed by the combinators as functions. -/
theorem parseOptics_printed_two :
    let document : OpticsDocument :=
      ⟨[⟨[.site "|docs.rs|", .url "blog*"], .boost 3⟩, ⟨[.title "Top * of"], .downrank 4294967295⟩],
        true⟩
    let _ := complete
    let _ : DebugTables := ⟨fun _ => false⟩
    parseOptics (printOptics document) = .ok document := by
  intro document _ _
  have _ := complete_documented
  exact parseOptics_printed (by decide) (printOptics_prints document)

end Amatl.Optics
