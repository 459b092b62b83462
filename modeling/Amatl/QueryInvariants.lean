import Amatl.QueryPartition
import Amatl.Lib.NetText

/-! What holds of a parsed query: no domain is asked for twice or both ways, the dates are days of
the calendar in their order, and no term is empty unless a token puts nothing between its quotes. -/

namespace Amatl

open Text

/-! Days of the Gregorian calendar in years of four digits. -/

def LeapYear (year : Nat) : Prop := year % 400 = 0 ∨ year % 4 = 0 ∧ year % 100 ≠ 0

instance (year : Nat) : Decidable (LeapYear year) := inferInstanceAs (Decidable (_ ∨ _))

def daysIn (year month : Nat) : Nat :=
  [31, if LeapYear year then 29 else 28, 31, 30, 31, 30, 31, 31, 30, 31, 30, 31].getD (month - 1) 0

structure CalendarDate where
  year : Nat
  month : Nat
  day : Nat
  year_small : year < 10000
  month_range : 1 ≤ month ∧ month ≤ 12
  day_range : 1 ≤ day ∧ day ≤ daysIn year month

def CalendarDate.Before (a b : CalendarDate) : Prop :=
  a.year < b.year ∨ a.year = b.year ∧
    (a.month < b.month ∨ a.month = b.month ∧ a.day < b.day)

def padded : Nat → Nat → List Char
  | 0, _ => []
  | width + 1, n => padded width (n / 10) ++ [Nat.digitChar (n % 10)]

def CalendarDate.text (date : CalendarDate) : List Char :=
  padded 4 date.year ++ '-' :: (padded 2 date.month ++ '-' :: padded 2 date.day)

theorem length_padded (width n : Nat) : (padded width n).length = width := by
  induction width generalizing n with
  | zero => rfl
  | succ width ih => simp [padded, ih]

theorem digit_value {c : Char} (h : isAsciiDigit c = true) :
    ∃ d < 10, c = Nat.digitChar d ∧ digitValue 10 c = some d := by
  have small : c.toNat < 128 := by
    simp only [isAsciiDigit, Bool.and_eq_true, decide_eq_true_eq] at h
    omega
  have each : ∀ n < 128, isAsciiDigit (Char.ofNat n) = true →
      ∃ d < 10, Char.ofNat n = Nat.digitChar d ∧ digitValue 10 (Char.ofNat n) = some d := by
    decide
  exact forall_ascii (P := fun c => isAsciiDigit c = true →
    ∃ d < 10, c = Nat.digitChar d ∧ digitValue 10 c = some d) each small h

theorem digits_padded {text : List Char} (digits : ∀ c ∈ text, isAsciiDigit c = true) :
    ∃ n < 10 ^ text.length, text = padded text.length n ∧ digitsValue 10 text (some 0) = some n := by
  induction text using List.reverseRecOn with
  | nil => exact ⟨0, by decide, rfl, rfl⟩
  | append_singleton text c ih =>
    obtain ⟨n, small, whole, value⟩ := ih (fun c mem => digits c (List.mem_append_left _ mem))
    obtain ⟨d, digit, rfl, last⟩ := digit_value (digits c (by simp))
    refine ⟨n * 10 + d, ?_, ?_, digitsValue_append _ _ value last⟩
    · rw [List.length_append, List.length_singleton, Nat.pow_succ]
      omega
    · have front : (n * 10 + d) / 10 = n := by omega
      have back : (n * 10 + d) % 10 = d := by omega
      rw [List.length_append, List.length_singleton, padded, front, back, ← whole]

theorem padded_injective {width m n : Nat} (hm : m < 10 ^ width) (hn : n < 10 ^ width)
    (h : padded width m = padded width n) : m = n := by
  induction width generalizing m n with
  | zero =>
    rw [Nat.pow_zero] at hm hn
    omega
  | succ width ih =>
    rw [Nat.pow_succ] at hm hn
    obtain ⟨front, back⟩ := List.append_inj h (by simp [length_padded])
    have tens := ih (by omega) (by omega) front
    have units : ∀ a < 10, ∀ b < 10, Nat.digitChar a = Nat.digitChar b → a = b := by decide
    have ones := units (m % 10) (by omega) (n % 10) (by omega) (List.singleton_inj.mp back)
    omega

theorem append_lt {a b c d : List Char} (same : a.length = b.length) (h : a ++ c < b ++ d) :
    a < b ∨ a = b ∧ c < d := by
  induction a generalizing b with
  | nil =>
    cases b with
    | nil => exact .inr ⟨rfl, h⟩
    | cons y b => cases same
  | cons x a ih =>
    cases b with
    | nil => cases same
    | cons y b =>
      rw [List.cons_append, List.cons_append, List.cons_lt_cons_iff] at h
      rcases h with less | ⟨rfl, rest⟩
      · exact .inl (List.cons_lt_cons_iff.mpr (.inl less))
      · rcases ih (Nat.succ_injective same) rest with less | ⟨rfl, later⟩
        · exact .inl (List.cons_lt_cons_iff.mpr (.inr ⟨rfl, less⟩))
        · exact .inr ⟨rfl, later⟩

theorem lt_of_padded_lt {width m n : Nat} (hm : m < 10 ^ width) (hn : n < 10 ^ width)
    (h : padded width m < padded width n) : m < n := by
  induction width generalizing m n with
  | zero => exact absurd h (List.lt_irrefl _)
  | succ width ih =>
    rw [Nat.pow_succ] at hm hn
    rcases append_lt (by rw [length_padded, length_padded]) h with less | ⟨same, less⟩
    · have tens := ih (by omega) (by omega) less
      omega
    · have tens := padded_injective (by omega) (by omega) same
      have units : ∀ a < 10, ∀ b < 10, [Nat.digitChar a] < [Nat.digitChar b] → a < b := by decide
      have ones := units (m % 10) (by omega) (n % 10) (by omega) less
      omega

theorem CalendarDate.before_of_lt {a b : CalendarDate} (h : a.text < b.text) : a.Before b := by
  have year := a.year_small
  have year' := b.year_small
  have months := a.month_range
  have months' := b.month_range
  have few : ∀ year month, daysIn year month < 100 := by
    intro year month
    have each : ∀ n ∈ [31, if LeapYear year then 29 else 28, 31, 30, 31, 30, 31, 31, 30, 31, 30, 31],
        n < 100 := by
      split <;> decide
    rw [daysIn, List.getD_eq_getElem?_getD]
    cases found : [31, if LeapYear year then 29 else 28, 31, 30, 31, 30, 31, 31, 30, 31, 30,
      31][month - 1]? with
    | none => decide
    | some n => exact each n (List.mem_of_getElem? found)
  have month : a.month < 10 ^ 2 := by omega
  have month' : b.month < 10 ^ 2 := by omega
  have day : a.day < 10 ^ 2 := Nat.lt_of_le_of_lt a.day_range.2 (few _ _)
  have day' : b.day < 10 ^ 2 := Nat.lt_of_le_of_lt b.day_range.2 (few _ _)
  have dash : ∀ {s t : List Char}, '-' :: s < '-' :: t → s < t := by
    intro s t less
    rcases List.cons_lt_cons_iff.mp less with bad | ⟨-, less⟩
    · exact absurd bad (by decide)
    · exact less
  rcases append_lt (by rw [length_padded, length_padded]) h with less | ⟨same, less⟩
  · exact .inl (lt_of_padded_lt year year' less)
  refine .inr ⟨padded_injective year year' same, ?_⟩
  rcases append_lt (by rw [length_padded, length_padded]) (dash less) with less | ⟨same, less⟩
  · exact .inl (lt_of_padded_lt month month' less)
  · exact .inr ⟨padded_injective month month' same, lt_of_padded_lt day day' (dash less)⟩

theorem utf8Length_digits {text : List Char} (digits : ∀ c ∈ text, isAsciiDigit c = true) :
    utf8Length text = text.length := by
  induction text with
  | nil => rfl
  | cons c text ih =>
    have rest := ih (fun d mem => digits d (List.mem_cons_of_mem c mem))
    have first := digits c List.mem_cons_self
    simp only [isAsciiDigit, Bool.and_eq_true, decide_eq_true_eq] at first
    have one : c.utf8Size = 1 :=
      Char.utf8Size_eq_one_iff.mpr (UInt32.le_iff_toNat_le.mpr (Nat.le_trans first.2 (by decide)))
    rw [utf8Length, List.map_cons, List.sum_cons, one, List.length_cons]
    rw [utf8Length] at rest
    omega

theorem parseUnsigned_digits {text : List Char} {n : Nat}
    (digits : ∀ c ∈ text, isAsciiDigit c = true) (h : parseUnsigned 10 (2 ^ 32) text = some n) :
    n < 10 ^ text.length ∧ text = padded text.length n := by
  obtain ⟨m, small, whole, value⟩ := digits_padded digits
  have same : parseUnsigned 10 (2 ^ 32) text = (digitsValue 10 text none).filter (· < 2 ^ 32) := by
    cases text with
    | nil => rfl
    | cons c text =>
      have sign : c ≠ '+' := by
        rintro rfl
        exact absurd (digits '+' List.mem_cons_self) (by decide)
      unfold parseUnsigned
      split
      · rename_i equal
        exact absurd (List.cons.inj equal).1 sign
      · rfl
  cases text with
  | nil => cases same.symm.trans h
  | cons c text =>
    have start : digitsValue 10 (c :: text) none = digitsValue 10 (c :: text) (some 0) := rfl
    rw [same, start, value] at h
    obtain ⟨equal, -⟩ := Option.filter_eq_some_iff.mp h
    cases equal
    exact ⟨small, whole⟩

theorem maxDay_calendar {year month last : Nat} (h : maxDay year month = some last) :
    (1 ≤ month ∧ month ≤ 12) ∧ last = daysIn year month := by
  have leap : (year % 4 = 0 ∧ (year % 100 ≠ 0 ∨ year % 400 = 0)) ↔ LeapYear year := by
    unfold LeapYear
    omega
  unfold maxDay at h
  split at h
  · rename_i long
    cases h
    simp only [List.mem_cons, List.not_mem_nil, or_false] at long
    rcases long with rfl | rfl | rfl | rfl | rfl | rfl | rfl <;> exact ⟨by decide, rfl⟩
  split at h
  · rename_i short
    cases h
    simp only [List.mem_cons, List.not_mem_nil, or_false] at short
    rcases short with rfl | rfl | rfl | rfl <;> exact ⟨by decide, rfl⟩
  split at h
  · rename_i february
    cases h
    subst february
    refine ⟨by decide, ?_⟩
    change _ = if LeapYear year then 29 else 28
    by_cases long : LeapYear year
    · rw [if_pos long, if_pos (leap.mpr long)]
    · rw [if_neg long, if_neg (fun other => long (leap.mp other))]
  · cases h

theorem validDate_calendar {value : List Char} (h : validDate value = true) :
    ∃ date : CalendarDate, value = date.text := by
  have whole := join_splitBy '-' value
  unfold validDate at h
  split at h
  · rename_i year month day pieces
    rw [pieces] at whole
    simp only [Bool.and_eq_true, beq_iff_eq] at h
    obtain ⟨⟨⟨⟨four, two⟩, two'⟩, digits⟩, numbers⟩ := h
    have each := List.all_eq_true.mp digits
    have yearDigits : ∀ c ∈ year, isAsciiDigit c = true := fun c mem => each c (by simp [mem])
    have monthDigits : ∀ c ∈ month, isAsciiDigit c = true := fun c mem => each c (by simp [mem])
    have dayDigits : ∀ c ∈ day, isAsciiDigit c = true := fun c mem => each c (by simp [mem])
    rw [utf8Length_digits yearDigits] at four
    rw [utf8Length_digits monthDigits] at two
    rw [utf8Length_digits dayDigits] at two'
    split at numbers
    · rename_i y m d readYear readMonth readDay
      obtain ⟨smallYear, wholeYear⟩ := parseUnsigned_digits yearDigits readYear
      obtain ⟨-, wholeMonth⟩ := parseUnsigned_digits monthDigits readMonth
      obtain ⟨-, wholeDay⟩ := parseUnsigned_digits dayDigits readDay
      rw [four] at smallYear wholeYear
      rw [two] at wholeMonth
      rw [two'] at wholeDay
      cases found : maxDay y m with
      | none =>
        rw [found] at numbers
        cases numbers
      | some last =>
        rw [found, Option.any_some, Bool.and_eq_true, decide_eq_true_eq, decide_eq_true_eq]
          at numbers
        obtain ⟨range, rfl⟩ := maxDay_calendar found
        refine ⟨⟨y, m, d, smallYear, range, numbers⟩, ?_⟩
        rw [← whole, wholeYear, wholeMonth, wholeDay]
        simp only [join, CalendarDate.text, List.append_assoc, List.cons_append, List.nil_append]
    · cases numbers
  · cases h

/-! Terms without a character. -/

theorem trimQuotes_eq_nil {text : List Char} :
    trimQuotes text = [] ↔ text = List.replicate text.length '"' := by
  have all : trimQuotes text = [] ↔ ∀ c ∈ text, (c == '"') = true := by
    rw [trimQuotes, trimEndBy, List.reverse_eq_nil_iff, List.dropWhile_eq_nil_iff]
    constructor
    · intro h
      rw [← List.dropWhile_eq_nil_iff]
      cases rest : text.dropWhile (· == '"') with
      | nil => rfl
      | cons c later =>
        have first := List.head?_dropWhile_not (· == '"') text
        rw [rest] at first h
        have quote := h c (by simp)
        exact absurd (quote.symm.trans first) (by decide)
    · intro h c mem
      exact h c (List.dropWhile_sublist _ |>.subset (List.mem_reverse.mp mem))
  rw [all, List.eq_replicate_iff]
  simp

/-- A token that asks for a term and puts nothing but quotes in it. -/
def EmptyQuote (token : List Char) : Prop :=
  (∃ n, token = List.replicate (n + 3) '"') ∨
    ∃ n, token.map toAsciiLower = "exact:".toList ++ List.replicate (n + 1) '"'

theorem lower_quotes (n : Nat) :
    (List.replicate n '"').map toAsciiLower = List.replicate n '"' := by
  rw [List.map_replicate]
  rfl

theorem utf8Length_quotes (n : Nat) : utf8Length (List.replicate n '"') = n := by
  induction n with
  | zero => rfl
  | succ n ih =>
    have one : '"'.utf8Size = 1 := rfl
    rw [utf8Length] at ih
    rw [utf8Length, List.replicate_succ, List.map_cons, List.sum_cons, ih, one]
    omega

theorem filterPart_empty {operator : QueryOperator} {value : List Char} :
    filterPart operator value = (.quoted, "") ↔ operator = .exact ∧ trimQuotes value = [] := by
  cases operator <;> simp [filterPart]

theorem termPart_empty {token : List Char} :
    termPart token = (.quoted, "") ↔ ∃ n, token = List.replicate (n + 3) '"' := by
  unfold termPart
  constructor
  · intro h
    split at h
    · cases h
    split at h
    · rename_i wrapped
      simp only [Bool.and_eq_true, decide_eq_true_eq] at wrapped
      have nothing : trimQuotes token = [] := by simpa using h
      have quotes := trimQuotes_eq_nil.mp nothing
      have long := wrapped.2
      rw [quotes, utf8Length_quotes] at long
      exact ⟨token.length - 3, by rwa [Nat.sub_add_cancel long]⟩
    · cases h
  · rintro ⟨n, rfl⟩
    have nothing : trimQuotes (List.replicate (n + 3) '"') = [] :=
      trimQuotes_eq_nil.mpr (by rw [List.length_replicate])
    have minus : ¬((List.replicate (n + 3) '"').head? = some '-' &&
        1 < utf8Length (List.replicate (n + 3) '"')) = true := by
      simp [List.replicate_succ]
    have last : (List.replicate (n + 3) '"').getLast? = some '"' := by
      rw [List.getLast?_replicate, if_neg (by omega)]
    rw [if_neg minus, if_pos, nothing]
    rw [utf8Length_quotes, last]
    simp [List.replicate_succ]

theorem partOf_emptyQuote {token : List Char} : partOf token = (.quoted, "") ↔ EmptyQuote token := by
  have colon : ∀ n, ':' ∉ List.replicate n '"' := by
    intro n mem
    exact absurd (List.eq_of_mem_replicate mem) (by decide)
  constructor
  · intro h
    cases named : operatorOf token with
    | none =>
      rw [partOf_term named, termPart_empty] at h
      exact .inl h
    | some operator =>
      by_cases valid : operator.valid (valueOf token) = true
      · rw [partOf_filter named valid, filterPart_empty] at h
        obtain ⟨rfl, nothing⟩ := h
        have quotes := trimQuotes_eq_nil.mp nothing
        have spelled := operatorOf_some named
        cases size : (valueOf token).length with
        | zero =>
          rw [List.length_eq_zero_iff.mp size] at valid
          cases valid
        | succ n =>
          rw [quotes, lower_quotes, size] at spelled
          exact .inr ⟨n, spelled⟩
      · rw [partOf_literal named valid] at h
        cases h
  · rintro (⟨n, rfl⟩ | ⟨n, spelled⟩)
    · have named : operatorOf (List.replicate (n + 3) '"') = none := by
        cases found : operatorOf (List.replicate (n + 3) '"') with
        | none => rfl
        | some operator =>
          have spelled := operatorOf_some found
          rw [lower_quotes] at spelled
          exact absurd (spelled ▸ by simp) (colon (n + 3))
      rw [partOf_term named]
      exact termPart_empty.mpr ⟨n, rfl⟩
    · have named : operatorOf token = some .exact := by
        have cut := splitOnce_append (c := ':') (a := "exact".toList) (by decide)
          (List.replicate (n + 1) '"')
        have whole : token.map toAsciiLower = "exact".toList ++ ':' :: List.replicate (n + 1) '"' :=
          spelled
        rw [operatorOf, whole, cut]
        rfl
      have value := operatorOf_some named
      rw [spelled] at value
      have lowered : (valueOf token).map toAsciiLower = List.replicate (n + 1) '"' := by
        have rest := @List.append_cancel_left _ "exact".toList _ _ value
        exact (List.cons.inj rest).2.symm
      have quotes : valueOf token = List.replicate (n + 1) '"' := by
        refine List.eq_replicate_iff.mpr ⟨?_, ?_⟩
        · rw [← List.length_map toAsciiLower, lowered, List.length_replicate]
        · intro c mem
          have lower := List.eq_of_mem_replicate (lowered ▸ List.mem_map_of_mem mem)
          exact (toAsciiLower_eq_iff (d := '"') (by decide) (by decide)).mp lower
      have valid : QueryOperator.exact.valid (valueOf token) = true := by
        rw [quotes]
        rfl
      rw [partOf_filter named valid, filterPart_empty, quotes]
      exact ⟨rfl, trimQuotes_eq_nil.mpr (by rw [List.length_replicate])⟩

/-- What the readers of a query rely on. -/
structure WellFormed (query : Query) : Prop where
  disjoint : ∀ domain ∈ query.domains, domain ∉ query.excludedDomains
  domains : query.domains.Nodup
  excludedDomains : query.excludedDomains.Nodup
  fileTypes : query.fileTypes.Nodup
  dateFrom : ∀ text, query.dateFrom = some text →
    ∃ date : CalendarDate, text.toList = date.text
  dateTo : ∀ text, query.dateTo = some text →
    ∃ date : CalendarDate, text.toList = date.text
  range : ∀ first last : CalendarDate, query.dateFrom = some (String.ofList first.text) →
    query.dateTo = some (String.ofList last.text) → first.Before last
  quoted : "" ∉ query.quotedTerms
  excluded : "" ∉ query.excludedTerms

theorem parseTokens_dates {raw : String} {text : String}
    (h : (parseTokens raw).dateFrom = some text ∨ (parseTokens raw).dateTo = some text) :
    ∃ token ∈ tokenize raw.toList, validDate (partOf token).2.toList = true ∧
      (partOf token).2 = text := by
  have dates := (parseTokens_madeOf raw).dates
  have dated : ∀ kind, kind = .dateFrom ∨ kind = .dateTo →
      (valuesOf kind (tokenize raw.toList)).getLast? = some text →
      ∃ token ∈ tokenize raw.toList, validDate (partOf token).2.toList = true ∧
        (partOf token).2 = text := by
    intro kind date last
    obtain ⟨token, mem, rfl⟩ := List.mem_map.mp (List.mem_of_getLast? last)
    have same : (partOf token).1 = kind := by simpa using List.of_mem_filter mem
    refine ⟨token, List.mem_of_mem_filter mem, ?_, rfl⟩
    cases named : operatorOf token with
    | none =>
      rw [partOf_term named] at same
      unfold termPart at same
      rcases date with rfl | rfl <;> split_ifs at same
    | some operator =>
      by_cases valid : operator.valid (valueOf token) = true
      · rw [partOf_filter named valid] at same ⊢
        rcases date with rfl | rfl <;> cases operator <;> cases same <;>
          exact (congrArg validDate String.toList_ofList).trans valid
      · rw [partOf_literal named valid] at same
        rcases date with rfl | rfl <;> cases same
  split at dates
  · obtain ⟨first, second⟩ := Prod.mk.inj dates
    rw [first, second] at h
    rcases h with h | h <;> cases h
  · obtain ⟨first, second⟩ := Prod.mk.inj dates
    rw [first, second] at h
    rcases h with h | h
    · exact dated .dateFrom (.inl rfl) h
    · exact dated .dateTo (.inr rfl) h

theorem parseTokens_range {raw : String} {first last : CalendarDate}
    (hfirst : (parseTokens raw).dateFrom = some (String.ofList first.text))
    (hlast : (parseTokens raw).dateTo = some (String.ofList last.text)) : first.Before last := by
  have dates := (parseTokens_madeOf raw).dates
  rw [hfirst, hlast] at dates
  split at dates
  · cases dates
  · rename_i some
    obtain ⟨lower, upper⟩ := Prod.mk.inj dates
    rw [← lower, ← upper, emptyRange, Bool.not_eq_true, Bool.not_eq_false', decide_eq_true_eq,
      String.lt_iff, String.toList_ofList, String.toList_ofList] at some
    exact CalendarDate.before_of_lt some

theorem excluded_nonempty (tokens : List (List Char)) : "" ∉ valuesOf .excluded tokens := by
  intro mem
  obtain ⟨token, inside, empty⟩ := List.mem_map.mp mem
  have kind : (partOf token).1 = .excluded := by simpa using List.of_mem_filter inside
  have named : operatorOf token = none := by
    cases named : operatorOf token with
    | none => rfl
    | some operator =>
      by_cases valid : operator.valid (valueOf token) = true
      · rw [partOf_filter named valid] at kind
        cases operator <;> cases kind
      · rw [partOf_literal named valid] at kind
        cases kind
  rw [partOf_term named] at kind empty
  unfold termPart at kind empty
  split at kind
  · rename_i minus
    rw [if_pos minus] at empty
    rw [Bool.and_eq_true, decide_eq_true_eq, decide_eq_true_eq] at minus
    obtain ⟨term, rfl⟩ := List.head?_eq_some_iff.mp minus.1
    have nothing : term = [] := by simpa using empty
    rw [nothing] at minus
    exact absurd minus.2 (by decide)
  · split at kind <;> cases kind

/-- A parsed query is well-formed unless a token asks for a term without a character. -/
theorem parseQuery_wellFormed_iff {raw : String} {query : ParsedQuery}
    (parsed : parseQuery raw = .ok query) :
    WellFormed query.toQuery ↔ ∀ token ∈ tokenize raw.toList, ¬EmptyQuote token := by
  obtain ⟨-, rfl⟩ := parseQuery_ok parsed
  have made := parseTokens_madeOf raw
  have quoted : "" ∈ (parseTokens raw).quotedTerms ↔
      ∃ token ∈ tokenize raw.toList, EmptyQuote token := by
    rw [made.quoted, valuesOf, List.mem_map]
    refine exists_congr (fun token => ?_)
    rw [List.mem_filter, decide_eq_true_eq, and_assoc, ← partOf_emptyQuote, Prod.ext_iff]
  have dated : ∀ text, (parseTokens raw).dateFrom = some text ∨ (parseTokens raw).dateTo = some text →
      ∃ date : CalendarDate, text.toList = date.text := by
    intro text h
    obtain ⟨token, -, valid, rfl⟩ := parseTokens_dates h
    exact validDate_calendar valid
  constructor
  · intro wellFormed token mem empty
    exact wellFormed.quoted (quoted.mpr ⟨token, mem, empty⟩)
  · intro none
    refine ⟨?_, ?_, ?_, ?_, fun text h => dated text (.inl h), fun text h => dated text (.inr h),
      fun first last => parseTokens_range, ?_, ?_⟩
    · intro domain included excluded
      rw [made.domains] at included
      rw [made.excludedDomains, mem_uniques] at excluded
      have allowed := List.of_mem_filter included
      rw [Bool.not_eq_true', ← Bool.not_eq_true, List.contains_iff_mem] at allowed
      exact allowed excluded
    · rw [made.domains]
      exact (uniques_nodup _).filter _
    · rw [made.excludedDomains]
      exact uniques_nodup _
    · rw [made.fileTypes]
      exact uniques_nodup _
    · intro empty
      obtain ⟨token, mem, bad⟩ := quoted.mp empty
      exact none token mem bad
    · rw [made.excluded]
      exact excluded_nonempty _

/-- The guard lets through a value that is quotes alone. -/
theorem exactQuotes_empty : ¬∀ raw query, parseQuery raw = .ok query →
    WellFormed query.toQuery := by
  intro all
  have parsed : parseQuery "exact:\"\"" = .ok (parseTokens "exact:\"\"") := rfl
  have terms : (parseTokens "exact:\"\"").quotedTerms = [""] := by decide +kernel
  exact (all _ _ parsed).quoted (terms ▸ List.mem_singleton_self "")

theorem parseQuery_wellFormed_rust :
    ∃ query, parseQuery "rust \"async await\" -old after:2024-02-29" = .ok query ∧
      WellFormed query.toQuery := by
  have parsed : parseQuery "rust \"async await\" -old after:2024-02-29" =
      .ok (parseTokens "rust \"async await\" -old after:2024-02-29") := rfl
  refine ⟨_, parsed, (parseQuery_wellFormed_iff parsed).mpr ?_⟩
  have none : ∀ token ∈ tokenize "rust \"async await\" -old after:2024-02-29".toList,
      partOf token ≠ (.quoted, "") := by decide +kernel
  exact fun token mem empty => none token mem (partOf_emptyQuote.mpr empty)

end Amatl
