import Amatl.Entities

/-! Which characters the cleaned texts of a result hold. The raw text is screened before its
references are decoded, so a reference can bring in what the screen keeps out. -/

namespace Amatl

open Text

/-- The characters that the screen keeps out. -/
def Forbidden (c : Char) : Prop :=
  c.toNat = 0 ∨ c.toNat = 0xfffd ∨ (isControl c = true ∧ isWhitespace c = false)

/-- Decoding the references of the text reads one for the character. -/
inductive Reads : List Char → Char → Prop
  | here {text before entity after : List Char} {c : Char}
      (first : reference text = some (before, entity, after))
      (known : referenceChar entity = some c) : Reads text c
  | later {text next : List Char} {c : Char} (step : decodeStep text = some next)
      (rest : Reads next c) : Reads text c

theorem reads_iff {text next before entity after : List Char} {d : Char}
    (first : reference text = some (before, entity, after)) (known : referenceChar entity = some d)
    (step : decodeStep text = some next) (c : Char) : Reads text c ↔ c = d ∨ Reads next c := by
  constructor
  · intro reads
    cases reads with
    | here first' known' =>
      rw [first] at first'
      cases first'
      rw [known] at known'
      exact Or.inl (Option.some.inj known').symm
    | later step' rest =>
      rw [step] at step'
      cases step'
      exact Or.inr rest
  · rintro (rfl | rest)
    · exact .here first known
    · exact .later step rest

theorem not_reads {text : List Char} (ended : decodeStep text = none) (c : Char) :
    ¬Reads text c := by
  intro reads
  cases reads with
  | here first known =>
    rw [decodeStep, first] at ended
    simp [known] at ended
  | later step =>
    rw [ended] at step
    cases step

theorem digitsValue_digits {radix : Nat} {digits : List Char} {acc : Option Nat} {n : Nat}
    (h : digitsValue radix digits acc = some n) : ∀ c ∈ digits, (digitValue radix c).isSome := by
  induction digits generalizing acc with
  | nil => nofun
  | cons c digits ih =>
    rw [digitsValue] at h
    cases digit : digitValue radix c with
    | none =>
      rw [digit] at h
      cases h
    | some d =>
      rw [digit] at h
      intro e mem
      rcases List.mem_cons.mp mem with rfl | later
      · rw [digit]
        rfl
      · exact ih h e later

theorem digitValue_alphanumeric {radix : Nat} {c : Char} (h : (digitValue radix c).isSome) :
    isAsciiDigit c = true ∨ isAsciiLower c = true ∨ isAsciiUpper c = true := by
  by_contra other
  simp only [not_or, Bool.not_eq_true] at other
  rw [digitValue, other.1, other.2.1, other.2.2] at h
  simp at h

theorem parseUnsigned_alphanumeric {radix bound n : Nat} {digits : List Char}
    (h : parseUnsigned radix bound digits = some n) :
    ∀ c ∈ digits, c = '+' ∨ isAsciiDigit c = true ∨ isAsciiLower c = true ∨
      isAsciiUpper c = true := by
  obtain ⟨value, -⟩ := Option.filter_eq_some_iff.mp h
  intro c mem
  split at value
  · rcases List.mem_cons.mp mem with plus | later
    · exact Or.inl plus
    · exact Or.inr (digitValue_alphanumeric (digitsValue_digits value c later))
  · exact Or.inr (digitValue_alphanumeric (digitsValue_digits value c mem))

theorem referenceChar_alphanumeric {entity : List Char} {d : Char}
    (h : referenceChar entity = some d) :
    ∀ c ∈ entity, c = '+' ∨ isAsciiDigit c = true ∨ isAsciiLower c = true ∨
      isAsciiUpper c = true := by
  obtain ⟨code, read, -⟩ := Option.bind_eq_some_iff.mp h
  have lower : isAsciiLower 'x' = true := by decide
  have upper : isAsciiUpper 'X' = true := by decide
  unfold entityCode at read
  rcases Option.or_eq_some_iff.mp read with hex | ⟨-, decimal⟩
  · intro c mem
    split at hex
    · rcases List.mem_cons.mp mem with rfl | later
      · exact Or.inr (Or.inr (Or.inl lower))
      · exact parseUnsigned_alphanumeric hex c later
    · rcases List.mem_cons.mp mem with rfl | later
      · exact Or.inr (Or.inr (Or.inr upper))
      · exact parseUnsigned_alphanumeric hex c later
    · cases hex
  · exact parseUnsigned_alphanumeric decimal

theorem not_forbidden_of_ascii {c : Char} (printable : 32 ≤ c.toNat ∧ c.toNat < 127) :
    ¬Forbidden c := by
  rintro (zero | replacement | ⟨control, -⟩)
  · omega
  · omega
  · simp only [isControl, Bool.or_eq_true, Bool.and_eq_true, decide_eq_true_eq] at control
    omega

theorem referenceChar_allowed {entity : List Char} {d : Char} (h : referenceChar entity = some d) :
    ∀ c ∈ entity, ¬Forbidden c := by
  intro c mem
  apply not_forbidden_of_ascii
  rcases referenceChar_alphanumeric h c mem with rfl | digit | lower | upper
  · decide
  · simp only [isAsciiDigit, Bool.and_eq_true, decide_eq_true_eq] at digit
    omega
  · simp only [isAsciiLower, Bool.and_eq_true, decide_eq_true_eq] at lower
    omega
  · simp only [isAsciiUpper, Bool.and_eq_true, decide_eq_true_eq] at upper
    omega

/-- No pass takes a forbidden character out, and each brings in the one its reference is for. -/
theorem forbidden_decoded {fuel : Nat} {text : List Char} (enough : text.length ≤ fuel) :
    (∃ c ∈ decodeNumericEntities fuel text, Forbidden c) ↔
      (∃ c ∈ text, Forbidden c) ∨ ∃ c, Reads text c ∧ Forbidden c := by
  induction fuel generalizing text with
  | zero =>
    have empty : text = [] := List.length_eq_zero_iff.mp (Nat.le_zero.mp enough)
    subst empty
    have nothing : ∀ c, ¬Reads [] c := not_reads rfl
    simp [decodeNumericEntities, nothing]
  | succ fuel ih =>
    rw [decodeNumericEntities_succ]
    cases step : decodeStep text with
    | none => simp [not_reads step]
    | some next =>
      have shorter := decodeStep_length step
      have enough' : next.length ≤ fuel := by omega
      have later := ih enough'
      obtain ⟨before, entity, after, d, first, whole, known, rfl⟩ := decodeStep_some step
      have kept : (∃ c ∈ text, Forbidden c) ↔
          (∃ c ∈ before, Forbidden c) ∨ ∃ c ∈ after, Forbidden c := by
        have ampersand : ¬Forbidden '&' := not_forbidden_of_ascii (by decide)
        have hash : ¬Forbidden '#' := not_forbidden_of_ascii (by decide)
        have semicolon : ¬Forbidden ';' := not_forbidden_of_ascii (by decide)
        have inside := referenceChar_allowed known
        rw [whole]
        constructor
        · rintro ⟨c, mem, forbidden⟩
          simp only [List.mem_append, List.mem_cons] at mem
          rcases mem with front | rfl | rfl | entity | rfl | back
          · exact Or.inl ⟨c, front, forbidden⟩
          · exact absurd forbidden ampersand
          · exact absurd forbidden hash
          · exact absurd forbidden (inside c entity)
          · exact absurd forbidden semicolon
          · exact Or.inr ⟨c, back, forbidden⟩
        · rintro (⟨c, front, forbidden⟩ | ⟨c, back, forbidden⟩)
          · exact ⟨c, by simp [front], forbidden⟩
          · exact ⟨c, by simp [back], forbidden⟩
      dsimp only
      rw [later, kept]
      simp only [reads_iff first known step, List.mem_append, List.mem_cons]
      constructor
      · rintro (⟨c, front | rfl | back, forbidden⟩ | ⟨c, reads, forbidden⟩)
        · exact Or.inl (Or.inl ⟨c, front, forbidden⟩)
        · exact Or.inr ⟨c, Or.inl rfl, forbidden⟩
        · exact Or.inl (Or.inr ⟨c, back, forbidden⟩)
        · exact Or.inr ⟨c, Or.inr reads, forbidden⟩
      · rintro ((⟨c, front, forbidden⟩ | ⟨c, back, forbidden⟩) | ⟨c, rfl | reads, forbidden⟩)
        · exact Or.inl ⟨c, Or.inl front, forbidden⟩
        · exact Or.inl ⟨c, Or.inr (Or.inr back), forbidden⟩
        · exact Or.inl ⟨c, Or.inr (Or.inl rfl), forbidden⟩
        · exact Or.inr ⟨c, reads, forbidden⟩

theorem Forbidden.not_white {c : Char} (h : Forbidden c) : isWhitespace c = false := by
  rcases h with zero | replacement | ⟨-, black⟩
  · simp [isWhitespace, zero]
  · simp [isWhitespace, replacement]
  · exact black

theorem mem_replaceFrom {pat rep s : List Char} {skip : Nat} {c : Char}
    (mem : c ∈ replaceFrom pat rep skip s) : c ∈ rep ∨ c ∈ s := by
  induction s generalizing skip with
  | nil =>
    cases skip <;> cases mem
  | cons d s ih =>
    cases skip with
    | zero =>
      rw [replaceFrom] at mem
      split at mem
      · rcases List.mem_append.mp mem with new | later
        · exact Or.inl new
        · exact (ih later).imp_right (List.mem_cons_of_mem d)
      · rcases List.mem_cons.mp mem with rfl | later
        · exact Or.inr List.mem_cons_self
        · exact (ih later).imp_right (List.mem_cons_of_mem d)
    | succ skip =>
      rw [replaceFrom] at mem
      exact (ih mem).imp_right (List.mem_cons_of_mem d)

theorem namedText_allowed {value : List Char} (h : ∀ c ∈ value, ¬Forbidden c) :
    ∀ c ∈ namedText value, ¬Forbidden c := by
  have named : ∀ entity ∈ namedEntities, ∀ c ∈ entity.2.toList, ¬Forbidden c := by
    have printable : ∀ entity ∈ namedEntities, entity.2.toList.all
        (fun c => decide (32 ≤ c.toNat ∧ c.toNat < 127)) = true := by decide
    intro entity mem c inside
    exact not_forbidden_of_ascii (forall_mem_of_all (printable entity mem) c inside)
  have run : ∀ (entities : List (String × String)) (text : List Char),
      (∀ entity ∈ entities, ∀ c ∈ entity.2.toList, ¬Forbidden c) → (∀ c ∈ text, ¬Forbidden c) →
      ∀ c ∈ entities.foldl (fun text entity => replace entity.1.toList entity.2.toList text) text,
        ¬Forbidden c := by
    intro entities
    induction entities with
    | nil => exact fun _ _ allowed => allowed
    | cons entity entities ih =>
      intro text named allowed
      rw [List.foldl_cons]
      refine ih _ (fun e mem => named e (List.mem_cons_of_mem _ mem)) (fun c mem => ?_)
      rcases mem_replaceFrom mem with new | there
      · exact named entity List.mem_cons_self c new
      · exact allowed c there
  exact run namedEntities value named h

theorem mem_splitWhitespace {text : List Char} {c : Char} (black : isWhitespace c = false) :
    (∃ word ∈ splitWhitespace text, c ∈ word) ↔ c ∈ text := by
  have pieces : (∃ word ∈ splitBy isWhitespace text, c ∈ word) ↔ c ∈ text :=
    exists_mem_splitBy.trans (and_iff_left black)
  rw [← pieces, splitWhitespace]
  constructor
  · rintro ⟨word, mem, inside⟩
    exact ⟨word, List.mem_of_mem_filter mem, inside⟩
  · rintro ⟨word, mem, inside⟩
    refine ⟨word, List.mem_filter.mpr ⟨mem, ?_⟩, inside⟩
    simpa using List.ne_nil_of_mem inside

theorem mem_join_space {words : List (List Char)} {c : Char} (black : isWhitespace c = false) :
    c ∈ join [' '] words ↔ ∃ word ∈ words, c ∈ word := by
  have space : c ≠ ' ' := by
    rintro rfl
    exact absurd black (by decide)
  induction words with
  | nil => simp [join]
  | cons word words ih =>
    cases words with
    | nil => simp [join]
    | cons second words =>
      simp only [List.mem_cons] at ih ⊢
      simp [join, space, ih]

/-- The references of a text, if it is decoded at all, are for characters that the screen lets
pass. -/
def SafelyReferring (value : String) : Prop :=
  (∃ c ∈ value.toList, Forbidden c) ∨ ∀ c, Reads (namedText value.toList) c → ¬Forbidden c

theorem screened_iff (text : List Char) :
    (text.any (fun c => c.toNat == 0 || c.toNat == 0xfffd) ||
      text.any (fun c => isControl c && !isWhitespace c)) = true ↔ ∃ c ∈ text, Forbidden c := by
  simp only [Bool.or_eq_true, List.any_eq_true, beq_iff_eq, Bool.and_eq_true, Bool.not_eq_true',
    Forbidden]
  constructor
  · rintro (⟨c, mem, zero | replacement⟩ | ⟨c, mem, control⟩)
    · exact ⟨c, mem, Or.inl zero⟩
    · exact ⟨c, mem, Or.inr (Or.inl replacement)⟩
    · exact ⟨c, mem, Or.inr (Or.inr control)⟩
  · rintro ⟨c, mem, zero | replacement | control⟩
    · exact Or.inl ⟨c, mem, Or.inl zero⟩
    · exact Or.inl ⟨c, mem, Or.inr replacement⟩
    · exact Or.inr ⟨c, mem, control⟩

theorem forbidden_in_decoded {value : List Char} (h : ¬∃ c ∈ value, Forbidden c) :
    (∃ c ∈ join [' '] (splitWhitespace (decodeHtmlEntities value)), Forbidden c) ↔
      ∃ c, Reads (namedText value) c ∧ Forbidden c := by
  have allowed : ¬∃ c ∈ namedText value, Forbidden c := by
    rintro ⟨c, mem, forbidden⟩
    exact namedText_allowed (fun d inside bad => h ⟨d, inside, bad⟩) c mem forbidden
  have decoded := forbidden_decoded (le_refl (namedText value).length)
  have clean : (∃ c ∈ join [' '] (splitWhitespace (decodeHtmlEntities value)), Forbidden c) ↔
      ∃ c ∈ decodeHtmlEntities value, Forbidden c := by
    constructor
    · rintro ⟨c, mem, forbidden⟩
      have black := forbidden.not_white
      exact ⟨c, (mem_splitWhitespace black).mp ((mem_join_space black).mp mem), forbidden⟩
    · rintro ⟨c, mem, forbidden⟩
      have black := forbidden.not_white
      exact ⟨c, (mem_join_space black).mpr ((mem_splitWhitespace black).mpr mem), forbidden⟩
  rw [clean]
  exact decoded.trans (or_iff_right allowed)

/-- What is left of a text has no forbidden character just where its references are for none. -/
theorem cleanText_allowed_iff (value : String) :
    (∀ clean, cleanText value = some clean → ∀ c ∈ clean.toList, ¬Forbidden c) ↔
      SafelyReferring value := by
  unfold cleanText SafelyReferring
  by_cases screened : ∃ c ∈ value.toList, Forbidden c
  · rw [if_pos ((screened_iff _).mpr screened)]
    simp [screened]
  · rw [if_neg (fun h => screened ((screened_iff _).mp h))]
    have decoded := forbidden_in_decoded screened
    dsimp only
    generalize join [' '] (splitWhitespace (decodeHtmlEntities value.toList)) = text at *
    by_cases empty : text.isEmpty = true
    · rw [if_pos empty]
      rw [List.isEmpty_iff.mp empty] at decoded
      constructor
      · intro _
        refine Or.inr (fun c reads forbidden => ?_)
        obtain ⟨d, mem, -⟩ := decoded.mpr ⟨c, reads, forbidden⟩
        cases mem
      · nofun
    · rw [if_neg empty]
      constructor
      · intro allowed
        refine Or.inr (fun c reads forbidden => ?_)
        obtain ⟨d, mem, bad⟩ := decoded.mpr ⟨c, reads, forbidden⟩
        exact allowed _ rfl d (by rwa [String.toList_ofList]) bad
      · rintro (present | safe) clean equal c mem forbidden
        · exact screened present
        · cases equal
          rw [String.toList_ofList] at mem
          obtain ⟨d, reads, bad⟩ := decoded.mp ⟨c, mem, forbidden⟩
          exact safe d reads bad

theorem cleanField_text (value : Option String) (field : String) :
    (cleanField value field).1 = value.bind cleanText := by
  cases value with
  | none => rfl
  | some value =>
    rw [cleanField]
    dsimp only [Option.bind_some]
    cases cleanText value <;> rfl

theorem cleanMetadata_kept (metadata : List (String × String)) :
    (cleanMetadata metadata).1 =
      metadata.filterMap (fun e => (cleanText e.2).map (fun clean => (e.1, clean))) := by
  induction metadata with
  | nil => rfl
  | cons e metadata ih =>
    rw [cleanMetadata, List.filterMap_cons, ← ih]
    cases cleanText e.2 <;> rfl

theorem cleanMetadata_sorted {metadata : List (String × String)} (h : OrdMap.Sorted metadata) :
    OrdMap.Sorted (cleanMetadata metadata).1 := by
  rw [cleanMetadata_kept]
  refine List.Pairwise.filterMap _ (fun a a' below b made b' made' => ?_) h
  obtain ⟨clean, -, rfl⟩ := Option.map_eq_some_iff.mp made
  obtain ⟨clean', -, rfl⟩ := Option.map_eq_some_iff.mp made'
  exact below

section

variable [TimeCrate] {Url : Type} [UrlCrate Url]

/-- The date of the item is there and cannot be read. -/
def UnreadableDate (item : ProviderItem) (value : String) : Prop :=
  item.publishedAt = some value ∧ normalizeDate value = none

theorem normalizeItem_texts {provider : String} {item : ProviderItem} {r : NormalizedResult Url}
    (accepted : normalizeOne provider item = .ok r) :
    r.title = item.title.bind cleanText ∧ r.snippet = item.snippet.bind cleanText ∧
      r.author = item.author.bind cleanText ∧ r.language = item.language.bind cleanText ∧
      r.fileType = item.fileType.bind cleanText ∧
      r.metadata = (normalizePublishedAt item.publishedAt (cleanMetadata item.metadata).1).2.1 := by
  rw [normalizeOne] at accepted
  split at accepted
  · cases accepted
  · cases accepted
    exact ⟨cleanField_text _ _, cleanField_text _ _, cleanField_text _ _, cleanField_text _ _,
      cleanField_text _ _, rfl⟩

theorem mem_metadata {item : ProviderItem} (sorted : OrdMap.Sorted item.metadata)
    (e : String × String) :
    e ∈ (normalizePublishedAt item.publishedAt (cleanMetadata item.metadata).1).2.1 ↔
      (∃ value, UnreadableDate item value ∧ e = ("reported_published_at_invalid", value)) ∨
        (e ∈ (cleanMetadata item.metadata).1 ∧
          ¬((∃ value, UnreadableDate item value) ∧ e.1 = "reported_published_at_invalid")) := by
  unfold UnreadableDate
  cases item.publishedAt with
  | none => simp [normalizePublishedAt]
  | some value =>
    rw [normalizePublishedAt]
    cases readable : normalizeDate value with
    | some date => simp [readable]
    | none =>
      have inserted := OrdMap.mem_insert (cleanMetadata_sorted sorted)
        (k := "reported_published_at_invalid") (v := value) (e := e)
      dsimp only
      rw [inserted]
      simp [readable]

def textsOf (r : NormalizedResult Url) : List String :=
  [r.title, r.snippet, r.author, r.language, r.fileType].filterMap id ++ r.metadata.map Prod.snd

/-- An item from which no forbidden character comes into a text. -/
structure SafeItem (item : ProviderItem) : Prop where
  fields : ∀ field ∈ [item.title, item.snippet, item.author, item.language, item.fileType],
    ∀ value, field = some value → SafelyReferring value
  metadata : ∀ e ∈ item.metadata, SafelyReferring e.2 ∨
    ((∃ value, UnreadableDate item value) ∧ e.1 = "reported_published_at_invalid")
  date : ∀ value, UnreadableDate item value → ∀ c ∈ value.toList, ¬Forbidden c

theorem mem_textsOf {provider : String} {item : ProviderItem} {r : NormalizedResult Url}
    (accepted : normalizeOne provider item = .ok r) (sorted : OrdMap.Sorted item.metadata)
    (text : String) :
    text ∈ textsOf r ↔
      (∃ field ∈ [item.title, item.snippet, item.author, item.language, item.fileType],
        field.bind cleanText = some text) ∨
      (∃ e ∈ item.metadata, cleanText e.2 = some text ∧
        ¬((∃ value, UnreadableDate item value) ∧ e.1 = "reported_published_at_invalid")) ∨
      UnreadableDate item text := by
  obtain ⟨title, snippet, author, language, fileType, metadata⟩ := normalizeItem_texts accepted
  rw [textsOf, title, snippet, author, language, fileType, metadata, List.mem_append,
    List.mem_filterMap, List.mem_map]
  apply or_congr
  · simp [eq_comm]
  · constructor
    · rintro ⟨e, mem, rfl⟩
      rcases (mem_metadata sorted e).mp mem with ⟨value, unreadable, rfl⟩ | ⟨kept, other⟩
      · exact Or.inr unreadable
      · rw [cleanMetadata_kept] at kept
        obtain ⟨raw, inside, made⟩ := List.mem_filterMap.mp kept
        obtain ⟨clean, cleaned, rfl⟩ := Option.map_eq_some_iff.mp made
        exact Or.inl ⟨raw, inside, cleaned, other⟩
    · rintro (⟨raw, inside, cleaned, other⟩ | unreadable)
      · refine ⟨(raw.1, text), (mem_metadata sorted _).mpr (Or.inr ⟨?_, other⟩), rfl⟩
        rw [cleanMetadata_kept]
        exact List.mem_filterMap.mpr ⟨raw, inside, Option.map_eq_some_iff.mpr ⟨text, cleaned, rfl⟩⟩
      · exact ⟨_, (mem_metadata sorted _).mpr (Or.inl ⟨text, unreadable, rfl⟩), rfl⟩

/-- The texts of a result are free of forbidden characters just where the references of the item
are for none, and a date that could not be read has none. -/
theorem normalized_allowed_iff {provider : String} {item : ProviderItem} {r : NormalizedResult Url}
    (accepted : normalizeOne provider item = .ok r) (sorted : OrdMap.Sorted item.metadata) :
    (∀ text ∈ textsOf r, ∀ c ∈ text.toList, ¬Forbidden c) ↔ SafeItem item := by
  have texts := mem_textsOf accepted sorted
  constructor
  · intro allowed
    refine ⟨?_, ?_, ?_⟩
    · rintro field mem value rfl
      rw [← cleanText_allowed_iff]
      intro clean made
      exact allowed clean ((texts clean).mpr (Or.inl ⟨some value, mem, made⟩))
    · intro e mem
      by_cases replaced :
          (∃ value, UnreadableDate item value) ∧ e.1 = "reported_published_at_invalid"
      · exact Or.inr replaced
      · refine Or.inl ((cleanText_allowed_iff e.2).mp (fun clean made => ?_))
        exact allowed clean ((texts clean).mpr (Or.inr (Or.inl ⟨e, mem, made, replaced⟩)))
    · intro value unreadable
      exact allowed value ((texts value).mpr (Or.inr (Or.inr unreadable)))
  · intro safe text mem
    rcases (texts text).mp mem with ⟨field, inside, made⟩ | ⟨e, inside, made, kept⟩ | unreadable
    · obtain ⟨value, rfl, clean⟩ := Option.bind_eq_some_iff.mp made
      exact (cleanText_allowed_iff value).mpr (safe.fields _ inside value rfl) text clean
    · rcases safe.metadata e inside with referring | replaced
      · exact (cleanText_allowed_iff e.2).mpr referring text made
      · exact absurd replaced kept
    · exact safe.date text unreadable

end

def titledItem (title : String) : ProviderItem where
  title := some title
  url := "https://docs.rs/a"
  providerRank := none
  snippet := none
  resultType := none
  publishedAt := none
  author := none
  language := none
  fileType := none
  thumbnail := none
  metadata := []

theorem normalized_allowed_titled :
    letI := noDates
    ∃ r : NormalizedResult PlainUrl, normalizeOne "p" (titledItem "a&#65;") = .ok r ∧
      ((∀ text ∈ textsOf r, ∀ c ∈ text.toList, ¬Forbidden c) ↔ SafeItem (titledItem "a&#65;")) := by
  let _ := noDates
  have made : (normalizeOne "p" (titledItem "a&#65;") :
      Except Degradation (NormalizedResult PlainUrl)) =
        .ok (normalizeItem "p" ⟨"docs.rs", "/a"⟩ (titledItem "a&#65;")) := by decide +kernel
  exact ⟨_, made, normalized_allowed_iff made .nil⟩

/-- The reference passes the screen and its character does not. -/
theorem referredNul_kept :
    letI := noDates
    ∃ r : NormalizedResult PlainUrl, normalizeOne "p" (titledItem "a&#0;") = .ok r ∧
      ∃ text ∈ textsOf r, ∃ c ∈ text.toList, Forbidden c := by
  let _ := noDates
  have made : (normalizeOne "p" (titledItem "a&#0;") :
      Except Degradation (NormalizedResult PlainUrl)) =
        .ok (normalizeItem "p" ⟨"docs.rs", "/a"⟩ (titledItem "a&#0;")) := by decide +kernel
  have title : textsOf (normalizeItem "p" (⟨"docs.rs", "/a"⟩ : PlainUrl) (titledItem "a&#0;")) =
      [String.ofList ['a', Char.ofNat 0]] := by decide +kernel
  refine ⟨_, made, String.ofList ['a', Char.ofNat 0], ?_, Char.ofNat 0, ?_, Or.inl rfl⟩
  · rw [title]
    exact List.mem_singleton_self _
  · rw [String.toList_ofList]
    simp

end Amatl
