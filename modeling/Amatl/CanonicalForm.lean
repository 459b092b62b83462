import Amatl.Canonical
import Amatl.Lib.NetText

/-! Canonicalization reaches its result in one pass. What is assumed of the `url` crate is how it
writes `http` and `https` URLs, and that it reads back what it wrote. -/

namespace Amatl

open Text

/-! Percent escapes. -/

/-- The second text is the first one with the digits of some percent escapes in upper case. -/
inductive Uppered : List Char → List Char → Prop
  | nil : Uppered [] []
  | other (c : Char) {s t : List Char} (h : Uppered s t) : Uppered (c :: s) (c :: t)
  | escape {high low : Char} {s t : List Char} (hhigh : isAsciiHexDigit high = true)
      (hlow : isAsciiHexDigit low = true) (h : Uppered s t) :
      Uppered ('%' :: high :: low :: s) ('%' :: toAsciiUpper high :: toAsciiUpper low :: t)

theorem Uppered.chars {s t : List Char} {ok : Char → Bool} (h : Uppered s t)
    (kept : ∀ c, ok c = true → ok (toAsciiUpper c) = true) (all : ∀ c ∈ s, ok c = true) :
    ∀ c ∈ t, ok c = true := by
  induction h with
  | nil => exact nofun
  | other c _ ih =>
    have later := ih (fun d mem => all d (List.mem_cons_of_mem c mem))
    exact List.forall_mem_cons.mpr ⟨all c List.mem_cons_self, later⟩
  | @escape high low s t _ _ _ ih =>
    have first := all '%' List.mem_cons_self
    have second := kept high (all high (by simp))
    have third := kept low (all low (by simp))
    have later := ih (fun d mem => all d (by simp [mem]))
    exact List.forall_mem_cons.mpr ⟨first, List.forall_mem_cons.mpr
      ⟨second, List.forall_mem_cons.mpr ⟨third, later⟩⟩⟩

theorem Uppered.plain {s t : List Char} (h : Uppered s t) (absent : '%' ∉ s) : t = s := by
  induction h with
  | nil => rfl
  | other c _ ih => rw [ih (fun mem => absent (List.mem_cons_of_mem c mem))]
  | escape => exact absurd List.mem_cons_self absent

theorem hexDigit_upper {c : Char} (h : isAsciiHexDigit c = true) :
    isAsciiHexDigit (toAsciiUpper c) = true ∧ toAsciiUpper (toAsciiUpper c) = toAsciiUpper c := by
  have small : c.toNat < 128 := by
    by_contra large
    have none : digitValue 16 c = none := by
      have digit : isAsciiDigit c = false := by
        simp only [isAsciiDigit, Bool.and_eq_false_iff, decide_eq_false_iff_not]
        omega
      have lower : isAsciiLower c = false := by
        simp only [isAsciiLower, Bool.and_eq_false_iff, decide_eq_false_iff_not]
        omega
      have upper : isAsciiUpper c = false := by
        simp only [isAsciiUpper, Bool.and_eq_false_iff, decide_eq_false_iff_not]
        omega
      simp [digitValue, digit, lower, upper]
    rw [isAsciiHexDigit, none] at h
    cases h
  exact forall_ascii (P := fun c => isAsciiHexDigit c = true →
    isAsciiHexDigit (toAsciiUpper c) = true ∧ toAsciiUpper (toAsciiUpper c) = toAsciiUpper c)
    (by decide) small h

theorem normalizePercentHex_uppered (text : List Char) :
    Uppered text (normalizePercentHex text) := by
  induction text using normalizePercentHex.induct with
  | case1 high low rest digits ih =>
    rw [normalizePercentHex, if_pos digits]
    rw [Bool.and_eq_true] at digits
    exact .escape digits.1 digits.2 ih
  | case2 high low rest digits ih =>
    rw [normalizePercentHex, if_neg digits]
    exact .other '%' ih
  | case3 c rest short ih =>
    rw [normalizePercentHex]
    · exact .other c ih
    · exact short
  | case4 => exact .nil

theorem normalizePercentHex_length (text : List Char) :
    (normalizePercentHex text).length = text.length := by
  have same : ∀ {s t : List Char}, Uppered s t → t.length = s.length := by
    intro s t h
    induction h with
    | nil => rfl
    | other c _ ih => rw [List.length_cons, List.length_cons, ih]
    | escape _ _ _ ih => simp only [List.length_cons, ih]
  exact same (normalizePercentHex_uppered text)

theorem normalizePercentHex_other {c : Char} (h : c ≠ '%') (s : List Char) :
    normalizePercentHex (c :: s) = c :: normalizePercentHex s := by
  rw [normalizePercentHex]
  rintro high low rest rfl
  exact absurd rfl h

theorem normalizePercentHex_malformed {s : List Char}
    (h : ∀ high low rest, s = high :: low :: rest →
      ¬(isAsciiHexDigit high = true ∧ isAsciiHexDigit low = true)) :
    normalizePercentHex ('%' :: s) = '%' :: normalizePercentHex s := by
  rcases s with _ | ⟨high, _ | ⟨low, rest⟩⟩
  · rfl
  · rfl
  · have none : ¬(isAsciiHexDigit high && isAsciiHexDigit low) = true := by
      simpa using h high low rest rfl
    rw [normalizePercentHex, if_neg none]

theorem percent_not_hex : isAsciiHexDigit '%' = false := by decide

theorem normalizePercentHex_digits {s rest : List Char} {high low : Char}
    (h : normalizePercentHex s = high :: low :: rest) (hhigh : isAsciiHexDigit high = true)
    (hlow : isAsciiHexDigit low = true) :
    ∃ rest', s = high :: low :: rest' := by
  have uppered := normalizePercentHex_uppered s
  rw [h] at uppered
  cases uppered with
  | escape => cases percent_not_hex.symm.trans hhigh
  | other _ later =>
    cases later with
    | escape => cases percent_not_hex.symm.trans hlow
    | @other _ rest' _ _ => exact ⟨rest', rfl⟩

theorem normalizePercentHex_idem (text : List Char) :
    normalizePercentHex (normalizePercentHex text) = normalizePercentHex text := by
  -- A percent sign that no digits follow is followed by none afterwards.
  have kept : ∀ s : List Char, (∀ high low rest, s = high :: low :: rest →
      ¬(isAsciiHexDigit high = true ∧ isAsciiHexDigit low = true)) →
      normalizePercentHex ('%' :: normalizePercentHex s) =
        '%' :: normalizePercentHex (normalizePercentHex s) := by
    intro s malformed
    apply normalizePercentHex_malformed
    rintro high low rest starts ⟨hhigh, hlow⟩
    obtain ⟨rest', whole⟩ := normalizePercentHex_digits starts hhigh hlow
    exact malformed high low rest' whole ⟨hhigh, hlow⟩
  induction text using normalizePercentHex.induct with
  | case1 high low rest digits ih =>
    have both := digits
    rw [Bool.and_eq_true] at both
    have first := hexDigit_upper both.1
    have second := hexDigit_upper both.2
    have upper : (isAsciiHexDigit (toAsciiUpper high) && isAsciiHexDigit (toAsciiUpper low)) =
        true := by rw [first.1, second.1]; rfl
    rw [normalizePercentHex, if_pos digits, normalizePercentHex, if_pos upper, first.2, second.2, ih]
  | case2 high low rest digits ih =>
    have malformed : ∀ high' low' rest', high :: low :: rest = high' :: low' :: rest' →
        ¬(isAsciiHexDigit high' = true ∧ isAsciiHexDigit low' = true) := by
      rintro _ _ _ equal both
      cases equal
      exact digits (by rw [both.1, both.2]; rfl)
    rw [normalizePercentHex_malformed malformed, kept _ malformed, ih]
  | case3 c rest short ih =>
    by_cases percent : c = '%'
    · subst percent
      have malformed : ∀ high low rest', rest = high :: low :: rest' →
          ¬(isAsciiHexDigit high = true ∧ isAsciiHexDigit low = true) :=
        fun high low rest' equal => absurd equal (short high low rest' rfl)
      rw [normalizePercentHex_malformed malformed, kept _ malformed, ih]
    · rw [normalizePercentHex_other percent, normalizePercentHex_other percent, ih]
  | case4 => rfl

theorem normalizePercentHex_append (a : List Char) {d : Char} (b : List Char)
    (hd : isAsciiHexDigit d = false) (percent : d ≠ '%') :
    normalizePercentHex (a ++ d :: b) = normalizePercentHex a ++ d :: normalizePercentHex b := by
  induction a using normalizePercentHex.induct with
  | case1 high low rest digits ih =>
    rw [List.cons_append, List.cons_append, List.cons_append, normalizePercentHex, if_pos digits,
      normalizePercentHex, if_pos digits, ih]
    rfl
  | case2 high low rest digits ih =>
    rw [normalizePercentHex, if_neg digits, List.cons_append, List.cons_append, List.cons_append,
      normalizePercentHex, if_neg digits, List.cons_append, ← ih]
    rfl
  | case3 c rest short ih =>
    by_cases sign : c = '%'
    · subst sign
      have before : ∀ high low rest', rest = high :: low :: rest' →
          ¬(isAsciiHexDigit high = true ∧ isAsciiHexDigit low = true) :=
        fun high low rest' equal => absurd equal (short high low rest' rfl)
      have after : ∀ high low rest', rest ++ d :: b = high :: low :: rest' →
          ¬(isAsciiHexDigit high = true ∧ isAsciiHexDigit low = true) := by
        rintro high low rest' equal ⟨hhigh, hlow⟩
        rcases rest with _ | ⟨x, _ | ⟨y, more⟩⟩
        · obtain rfl := (List.cons.inj equal).1
          cases hd.symm.trans hhigh
        · obtain rfl := (List.cons.inj (List.cons.inj equal).2).1
          cases hd.symm.trans hlow
        · exact short x y more rfl rfl
      rw [List.cons_append, normalizePercentHex_malformed after,
        normalizePercentHex_malformed before, ih, List.cons_append]
    · rw [List.cons_append, normalizePercentHex_other sign, normalizePercentHex_other sign, ih,
        List.cons_append]
  | case4 =>
    rw [List.nil_append, normalizePercentHex_other percent]
    rfl

theorem Uppered.cut {a b t : List Char} {d : Char} (h : Uppered (a ++ d :: b) t)
    (hd : isAsciiHexDigit d = false) (percent : d ≠ '%') :
    ∃ a' b', t = a' ++ d :: b' ∧ Uppered a a' ∧ Uppered b b' := by
  generalize whole : a ++ d :: b = s at h
  induction h generalizing a with
  | nil => simp at whole
  | @other c s t later ih =>
    cases a with
    | nil =>
      obtain ⟨rfl, rfl⟩ := List.cons.inj whole
      exact ⟨[], t, rfl, .nil, later⟩
    | cons c' a =>
      obtain ⟨rfl, rest⟩ := List.cons.inj whole
      obtain ⟨a', b', rfl, front, back⟩ := ih rest
      exact ⟨c' :: a', b', rfl, .other c' front, back⟩
  | @escape high low s t hhigh hlow later ih =>
    rcases a with _ | ⟨x, _ | ⟨y, _ | ⟨z, a⟩⟩⟩
    · exact absurd (List.cons.inj whole).1 percent
    · obtain rfl := (List.cons.inj (List.cons.inj whole).2).1
      cases hd.symm.trans hhigh
    · obtain rfl := (List.cons.inj (List.cons.inj (List.cons.inj whole).2).2).1
      cases hd.symm.trans hlow
    · simp only [List.cons_append, List.cons.injEq] at whole
      obtain ⟨rfl, rfl, rfl, rest⟩ := whole
      obtain ⟨a', b', rfl, front, back⟩ := ih rest
      exact ⟨'%' :: toAsciiUpper y :: toAsciiUpper z :: a', b', rfl, .escape hhigh hlow front, back⟩

def UpperEscapes (text : List Char) : Prop := normalizePercentHex text = text

theorem upperEscapes_append {a b : List Char} {d : Char} (hd : isAsciiHexDigit d = false)
    (percent : d ≠ '%') : UpperEscapes (a ++ d :: b) ↔ UpperEscapes a ∧ UpperEscapes b := by
  rw [UpperEscapes, normalizePercentHex_append a b hd percent]
  constructor
  · intro h
    obtain ⟨first, second⟩ := List.append_inj h (normalizePercentHex_length a)
    exact ⟨first, (List.cons.inj second).2⟩
  · rintro ⟨first, second⟩
    rw [first, second]

theorem upperEscapes_join (ws : List (List Char)) :
    UpperEscapes (join ['&'] ws) ↔ ∀ w ∈ ws, UpperEscapes w := by
  induction ws with
  | nil => exact ⟨fun _ => nofun, fun _ => rfl⟩
  | cons w ws ih =>
    cases ws with
    | nil => rw [join, List.forall_mem_singleton]
    | cons v ws =>
      rw [join, List.append_assoc, List.singleton_append,
        upperEscapes_append (by decide) (by decide), ih, List.forall_mem_cons (a := w)]

/-! Tracking parameters. -/

def keyOf (segment : List Char) : List Char :=
  match splitOnce ['='] segment with
  | some (key, _) => key
  | none => segment

def tracks (segment : List Char) : Bool :=
  "utm_".toList.isPrefixOf ((keyOf segment).map toAsciiLower) ||
    trackingKeys.any (fun k => k.toList == (keyOf segment).map toAsciiLower)

theorem splitTracking_eq (segments : List (List Char)) :
    splitTracking segments = (segments.filter (fun segment => !tracks segment),
      (segments.filter tracks).map (fun segment => String.ofList (keyOf segment))) := by
  induction segments with
  | nil => rfl
  | cons segment rest ih =>
    have step : splitTracking (segment :: rest) =
        if tracks segment then
          ((splitTracking rest).1, String.ofList (keyOf segment) :: (splitTracking rest).2)
        else (segment :: (splitTracking rest).1, (splitTracking rest).2) := rfl
    rw [step, ih]
    by_cases tracked : tracks segment = true
    · simp [tracked]
    · simp [tracked]

/-! Texts cut at their marks. -/

theorem splitOnce_scheme {a : List Char} (absent : ':' ∉ a) (b : List Char) :
    splitOnce "://".toList (a ++ "://".toList ++ b) = some (a, b) := by
  induction a with
  | nil => simp [splitOnce]
  | cons c a ih =>
    have other : ':' ≠ c := fun same => absent (same ▸ List.mem_cons_self)
    have away : ¬"://".toList.isPrefixOf (c :: (a ++ "://".toList ++ b)) = true := by
      rw [List.isPrefixOf_iff_prefix]
      rintro ⟨tail, equal⟩
      exact other (List.cons.inj equal).1
    rw [List.cons_append, List.cons_append, splitOnce, if_neg away,
      ih (fun mem => absent (List.mem_cons_of_mem c mem))]
    rfl

theorem rsplitOnce_none {c : Char} {s : List Char} (absent : c ∉ s) : rsplitOnce c s = none := by
  cases found : rsplitOnce c s with
  | none => rfl
  | some pair =>
    obtain ⟨a, b⟩ := pair
    have whole := (rsplitOnce_spec found).1
    exact absurd (by rw [whole]; simp) absent

theorem rsplitOnce_append {c : Char} (a : List Char) {b : List Char} (absent : c ∉ b) :
    rsplitOnce c (a ++ c :: b) = some (a, b) := by
  have reversed : (a ++ c :: b).reverse = b.reverse ++ c :: a.reverse := by simp
  have found := splitOnce_append (c := c) (a := b.reverse) (by simpa using absent) a.reverse
  rw [rsplitOnce, reversed, found]
  simp

/-! How the `url` crate writes URLs. -/

def inQuery (c : Char) : Bool :=
  33 ≤ c.toNat && c.toNat ≤ 126 && c != '"' && c != '#' && c != '<' && c != '>' && c != '\''

/-- A domain or an address, an IPv6 one in brackets. -/
structure HostText (host : List Char) : Prop where
  ascii : ∀ c ∈ host, c.toNat < 128
  bare : ∀ c ∈ host, c ≠ '/' ∧ c ≠ '?' ∧ c ≠ '#' ∧ c ≠ '@'
  colons : ':' ∉ host ∨ host.head? = some '[' ∧ host.getLast? = some ']'

def portText : Option UInt16 → List Char
  | none => []
  | some port => ':' :: Nat.toDigits 10 port.toNat

def markedPart (mark : Char) : Option String → List Char
  | none => []
  | some text => mark :: text.toList

section

variable {Url : Type} [UrlCrate Url]

open UrlCrate

/-- An `http` or `https` URL without credentials. -/
structure PlainWeb (url : Url) : Prop where
  web : scheme url = "http" ∨ scheme url = "https"
  noName : username url = ""
  noPassword : password url = none

structure SameServer (url url' : Url) : Prop where
  scheme : scheme url = scheme url'
  username : username url = username url'
  password : password url = password url'

structure SameAddress (url url' : Url) : Prop extends SameServer url url' where
  host : hostStr url = hostStr url'
  port : port url = port url'
  path : path url = path url'

def addressText (url : Url) : List Char :=
  (scheme url).toList ++ "://".toList ++ ((hostStr url).getD "").toList ++ portText (port url) ++
    (path url).toList

/-- What the `url` crate documents of `http` and `https` URLs without credentials. -/
structure WebLaws (Url : Type) [UrlCrate Url] : Prop where
  /-- The text is parsed back. -/
  stable : ∀ url : Url, PlainWeb url → parse (asStr url) = some url
  text : ∀ url : Url, PlainWeb url → (asStr url).toList =
    addressText url ++ markedPart '?' (query url) ++ markedPart '#' (fragment url)
  host : ∀ url : Url, PlainWeb url → ∃ host, hostStr url = some host ∧ HostText host.toList
  /-- The port of the scheme is left out. -/
  port : ∀ url : Url, PlainWeb url →
    (scheme url = "http" → port url ≠ some 80) ∧ (scheme url = "https" → port url ≠ some 443)
  path : ∀ url : Url, PlainWeb url → (path url).toList.head? = some '/'
  query : ∀ (url : Url) (text : String), PlainWeb url → query url = some text →
    ∀ c ∈ text.toList, inQuery c = true
  setQuery : ∀ (url : Url) (text : Option String), PlainWeb url →
    (∀ t, text = some t → ∀ c ∈ t.toList, inQuery c = true) →
      SameAddress (setQuery text url) url ∧ UrlCrate.query (setQuery text url) = text ∧
        fragment (setQuery text url) = fragment url
  setFragment : ∀ url : Url, PlainWeb url →
    SameAddress (setFragment none url) url ∧
      UrlCrate.query (setFragment none url) = UrlCrate.query url ∧
        fragment (setFragment none url) = none
  /-- Percent escapes are kept as they are written. -/
  escapes : ∀ (url : Url) (text : List Char), PlainWeb url → Uppered (asStr url).toList text →
    ∃ url' : Url, parse (String.ofList text) = some url' ∧ asStr url' = String.ofList text ∧
      SameServer url' url

theorem PlainWeb.of_same {url url' : Url} (h : PlainWeb url) (same : SameServer url' url) :
    PlainWeb url' :=
  ⟨by rw [same.scheme]; exact h.web, by rw [same.username]; exact h.noName,
    by rw [same.password]; exact h.noPassword⟩

theorem addressText_same {url url' : Url} (same : SameAddress url' url) :
    addressText url' = addressText url := by
  rw [addressText, same.scheme, same.host, same.port, same.path]
  rfl

theorem upperEscapes_optional {a : List Char} {mark : Char} (hd : isAsciiHexDigit mark = false)
    (percent : mark ≠ '%') (text : Option String) :
    UpperEscapes (a ++ markedPart mark text) ↔
      UpperEscapes a ∧ ∀ t, text = some t → UpperEscapes t.toList := by
  cases text with
  | none =>
    rw [markedPart, List.append_nil]
    exact ⟨fun h => ⟨h, nofun⟩, fun h => h.1⟩
  | some t =>
    rw [markedPart, upperEscapes_append hd percent]
    constructor
    · rintro ⟨first, second⟩
      exact ⟨first, fun t' same => Option.some.inj same ▸ second⟩
    · rintro ⟨first, second⟩
      exact ⟨first, second t rfl⟩

theorem upperEscapes_asStr (laws : WebLaws Url) {url : Url} (h : PlainWeb url) :
    UpperEscapes (asStr url).toList ↔ UpperEscapes (addressText url) ∧
      (∀ t, query url = some t → UpperEscapes t.toList) ∧
        ∀ t, fragment url = some t → UpperEscapes t.toList := by
  rw [laws.text url h, upperEscapes_optional (by decide) (by decide),
    upperEscapes_optional (by decide) (by decide), and_assoc]

theorem eq_of_parts (laws : WebLaws Url) {url url' : Url} (h : PlainWeb url)
    (same : SameAddress url' url) (hquery : query url' = query url)
    (hfragment : fragment url' = fragment url) : url' = url := by
  have h' := h.of_same same.toSameServer
  have text : asStr url' = asStr url := by
    apply String.toList_injective
    rw [laws.text url' h', laws.text url h, addressText_same same, hquery, hfragment]
  have read := laws.stable url' h'
  rw [text, laws.stable url h] at read
  exact (Option.some.inj read).symm

/-! One pass makes an URL canonical. -/

structure Canonical (url : Url) : Prop where
  web : PlainWeb url
  escapes : UpperEscapes (asStr url).toList
  untracked : ∀ text, query url = some text →
    ∀ segment ∈ splitBy (· == '&') text.toList, tracks segment = false
  fragment : fragment url ≠ some ""

theorem percentStep_upper (laws : WebLaws Url) {url : Url} (h : PlainWeb url) :
    PlainWeb (percentStep url).1 ∧ UpperEscapes (asStr (percentStep url).1).toList := by
  obtain ⟨url', read, text, same⟩ :=
    laws.escapes url _ h (normalizePercentHex_uppered (asStr url).toList)
  simp only [percentStep]
  by_cases changed : String.ofList (normalizePercentHex (asStr url).toList) ≠ asStr url
  · rw [if_pos changed, read]
    refine ⟨h.of_same same, ?_⟩
    change UpperEscapes (asStr url').toList
    rw [text, String.toList_ofList]
    exact normalizePercentHex_idem _
  · rw [if_neg changed]
    refine ⟨h, ?_⟩
    have equal := congrArg String.toList (not_not.mp changed)
    rwa [String.toList_ofList] at equal

def keptQuery (text : String) : Option String :=
  let kept := (splitBy (· == '&') text.toList).filter (fun segment => !tracks segment)
  if kept.isEmpty then none else some (String.ofList (join ['&'] kept))

theorem trackingStep_some {url : Url} {text : String} (h : query url = some text) :
    trackingStep url = (setQuery (keptQuery text) url,
      ((splitBy (· == '&') text.toList).filter tracks).map
        (fun segment => .removeTrackingParameter (String.ofList (keyOf segment)))) := by
  simp only [trackingStep, h, splitTracking_eq, List.map_map, keptQuery]
  rfl

theorem keptQuery_some {text kept : String} (h : keptQuery text = some kept) :
    splitBy (· == '&') kept.toList =
      (splitBy (· == '&') text.toList).filter (fun segment => !tracks segment) := by
  simp only [keptQuery] at h
  generalize segments : (splitBy (· == '&') text.toList).filter (fun segment => !tracks segment) =
    ws at h
  have clean : ∀ w ∈ ws, splitBy (· == '&') w = [w] := by
    intro w mem
    rw [← segments] at mem
    exact splitBy_clean (notMem_splitBy (List.mem_of_mem_filter mem))
  cases ws with
  | nil => cases h
  | cons w ws =>
    cases h
    rw [String.toList_ofList, splitBy_join, cut, List.flatMap_congr clean, List.flatMap_singleton']

theorem trackingStep_untracked (laws : WebLaws Url) {url : Url} (h : PlainWeb url)
    (escapes : UpperEscapes (asStr url).toList) :
    PlainWeb (trackingStep url).1 ∧ UpperEscapes (asStr (trackingStep url).1).toList ∧
      ∀ text, query (trackingStep url).1 = some text →
        ∀ segment ∈ splitBy (· == '&') text.toList, tracks segment = false := by
  cases hquery : query url with
  | none =>
    have same : trackingStep url = (url, []) := by simp only [trackingStep, hquery]
    rw [same]
    exact ⟨h, escapes, fun text some => by rw [hquery] at some; cases some⟩
  | some text =>
    have upper := (upperEscapes_asStr laws h).mp escapes
    rw [trackingStep_some hquery]
    have chars : ∀ t, keptQuery text = some t → ∀ c ∈ t.toList, inQuery c = true := by
      intro t kept c mem
      rw [← join_splitBy '&' t.toList, keptQuery_some kept] at mem
      rcases mem_join mem with sep | ⟨w, inside, here⟩
      · obtain rfl := List.mem_singleton.mp sep
        decide
      · exact laws.query url text h hquery c
          (mem_of_splitBy (List.mem_of_mem_filter inside) here)
    obtain ⟨same, newQuery, sameFragment⟩ := laws.setQuery url (keptQuery text) h chars
    have web := h.of_same same.toSameServer
    refine ⟨web, ?_, ?_⟩
    · rw [upperEscapes_asStr laws web, addressText_same same, newQuery, sameFragment]
      refine ⟨upper.1, fun t kept => ?_, upper.2.2⟩
      have pieces := (upperEscapes_join _).mp
        ((join_splitBy '&' text.toList).symm ▸ upper.2.1 text hquery)
      rw [← join_splitBy '&' t.toList, keptQuery_some kept, upperEscapes_join]
      exact fun w mem => pieces w (List.mem_of_mem_filter mem)
    · intro t kept segment mem
      rw [newQuery] at kept
      rw [keptQuery_some kept] at mem
      simpa using (List.mem_filter.mp mem).2

theorem fragmentStep_canonical (laws : WebLaws Url) {url : Url} (h : PlainWeb url)
    (escapes : UpperEscapes (asStr url).toList)
    (untracked : ∀ text, query url = some text →
      ∀ segment ∈ splitBy (· == '&') text.toList, tracks segment = false) :
    Canonical (fragmentStep url).1 := by
  simp only [fragmentStep]
  by_cases empty : fragment url = some ""
  · rw [if_pos empty]
    obtain ⟨same, sameQuery, gone⟩ := laws.setFragment url h
    have web := h.of_same same.toSameServer
    have upper := (upperEscapes_asStr laws h).mp escapes
    refine ⟨web, ?_, ?_, ?_⟩
    · change UpperEscapes (asStr (setFragment none url)).toList
      rw [upperEscapes_asStr laws web, addressText_same same, sameQuery, gone]
      exact ⟨upper.1, upper.2.1, nofun⟩
    · intro text some
      exact untracked text (sameQuery ▸ some)
    · change UrlCrate.fragment (setFragment none url) ≠ some ""
      rw [gone]
      exact nofun
  · rw [if_neg empty]
    exact ⟨h, escapes, untracked, empty⟩

/-! A canonical URL is left as it is. -/

theorem Canonical.percentStep_eq {url : Url} (h : Canonical url) : percentStep url = (url, []) := by
  have same : String.ofList (normalizePercentHex (asStr url).toList) = asStr url := by
    rw [show normalizePercentHex (asStr url).toList = _ from h.escapes, String.ofList_toList]
  simp only [percentStep]
  rw [if_neg (not_not.mpr same)]

theorem Canonical.trackingStep_eq (laws : WebLaws Url) {url : Url} (h : Canonical url) :
    trackingStep url = (url, []) := by
  cases hquery : query url with
  | none => simp only [trackingStep, hquery]
  | some text =>
    have clean := h.untracked text hquery
    have all : (splitBy (· == '&') text.toList).filter (fun segment => !tracks segment) =
        splitBy (· == '&') text.toList :=
      List.filter_eq_self.mpr (fun segment mem => by simp [clean segment mem])
    have nothing : (splitBy (· == '&') text.toList).filter tracks = [] :=
      List.filter_eq_nil_iff.mpr (fun segment mem => by simp [clean segment mem])
    have kept : keptQuery text = some text := by
      have some : (splitBy (· == '&') text.toList).isEmpty = false :=
        List.isEmpty_eq_false_iff.mpr (splitBy_ne_nil _ _)
      simp only [keptQuery]
      rw [all, some, join_splitBy, String.ofList_toList]
      rfl
    have chars : ∀ t, some text = some t → ∀ c ∈ t.toList, inQuery c = true := by
      intro t equal
      rw [← Option.some.inj equal]
      exact laws.query url text h.web hquery
    obtain ⟨same, newQuery, sameFragment⟩ := laws.setQuery url (some text) h.web chars
    have unchanged := eq_of_parts laws h.web same (newQuery.trans hquery.symm) sameFragment
    rw [trackingStep_some hquery, kept, nothing, unchanged]
    rfl

theorem Canonical.fragmentStep_eq {url : Url} (h : Canonical url) :
    fragmentStep url = (url, []) := by
  simp only [fragmentStep]
  rw [if_neg h.fragment]

theorem mem_portText {port : Option UInt16} {c : Char} (h : c ∈ portText port) :
    c = ':' ∨ c.isDigit = true := by
  cases port with
  | none => cases h
  | some port =>
    rcases List.mem_cons.mp h with rfl | digit
    · exact Or.inl rfl
    · exact Or.inr (Nat.isDigit_of_mem_toDigits (by decide) (by decide) digit)

theorem colon_notMem_toDigits (n : Nat) : ':' ∉ Nat.toDigits 10 n := by
  intro mem
  have digit : Char.isDigit ':' = true := Nat.isDigit_of_mem_toDigits (by decide) (by decide) mem
  exact absurd digit (by decide)

theorem authority_cut {host : List Char} (h : HostText host) (port : Option UInt16)
    (more : List Char) :
    ((splitBy (fun c => c == '/' || c == '?' || c == '#')
      (host ++ portText port ++ '/' :: more)).head?).getD [] = host ++ portText port := by
  have plain : ∀ c ∈ host ++ portText port, (c == '/' || c == '?' || c == '#') = false := by
    intro c mem
    rcases List.mem_append.mp mem with inside | inside
    · obtain ⟨slash, question, hash, -⟩ := h.bare c inside
      simp [slash, question, hash]
    · rcases mem_portText inside with rfl | digit
      · decide
      · by_contra mark
        simp only [Bool.not_eq_false, Bool.or_eq_true, beq_iff_eq] at mark
        rcases mark with (rfl | rfl) | rfl <;> exact absurd digit (by decide)
  rw [splitBy_append (by decide), splitBy_none plain]
  rfl

theorem hostPort_cut {host : List Char} (h : HostText host) (port : Option UInt16) :
    rsplitOnce '@' (host ++ portText port) = none := by
  apply rsplitOnce_none
  intro mem
  rcases List.mem_append.mp mem with inside | inside
  · exact (h.bare '@' inside).2.2.2 rfl
  · rcases mem_portText inside with bad | bad <;> exact absurd bad (by decide)

theorem rawHost_written {raw host : List Char} (h : HostText host) {port : Option UInt16}
    (authority : authorityOf raw = some (host ++ portText port)) :
    rawHost raw = none ∨ rawHost raw = some host := by
  simp only [rawHost, authority, bind, Option.bind, hostPort_cut h port]
  by_cases brackets : (host ++ portText port).head? = some '['
  · exact Or.inl (if_pos (by simpa using brackets))
  · rw [if_neg (by simpa using brackets)]
    refine Or.inr (congrArg some ?_)
    cases port with
    | none =>
      have same : host ++ portText none = host := List.append_nil host
      rw [same] at brackets ⊢
      have absent : ':' ∉ host := h.colons.resolve_right (fun both => brackets both.1)
      rw [rsplitOnce_none absent]
    | some port =>
      rw [portText, rsplitOnce_append host (colon_notMem_toDigits port.toNat)]

theorem port_not_suffix {host : List Char} (h : HostText host) {port : Option UInt16} {n : Nat}
    (other : ∀ p, port = some p → p.toNat ≠ n) :
    ¬(':' :: Nat.toDigits 10 n) <:+ host ++ portText port := by
  rintro ⟨front, whole⟩
  cases port with
  | none =>
    have same : host ++ portText none = host := List.append_nil host
    rw [same] at whole
    rcases h.colons with absent | ⟨-, last⟩
    · exact absent (by rw [← whole]; simp)
    · have digits : Nat.toDigits 10 n ≠ [] := Nat.toDigits_ne_nil
      have ends : host.getLast? = (Nat.toDigits 10 n).getLast? := by
        rw [← whole, List.getLast?_append_cons, List.getLast?_cons_of_ne_nil digits]
      rw [last] at ends
      have digit : Char.isDigit ']' = true := Nat.isDigit_of_mem_toDigits (by decide) (by decide)
        (List.mem_of_getLast? ends.symm)
      exact absurd digit (by decide)
  | some port =>
    have digits := (append_cons_inj_right (colon_notMem_toDigits n)
      (colon_notMem_toDigits port.toNat) whole).2
    exact other port rfl (toDigits_injective (by decide) (by decide) digits).symm

theorem hasDefaultPort_written {raw host : List Char} (h : HostText host) {port : Option UInt16}
    {scheme : String} (authority : authorityOf raw = some (host ++ portText port))
    (http : scheme = "http" → port ≠ some 80) (https : scheme = "https" → port ≠ some 443) :
    hasDefaultPort raw scheme = false := by
  have apart : ∀ n : UInt16, port ≠ some n →
      (':' :: Nat.toDigits 10 n.toNat).isSuffixOf (host ++ portText port) = false := by
    intro n other
    rw [Bool.eq_false_iff, ne_eq, List.isSuffixOf_iff_suffix]
    refine port_not_suffix h (fun p given equal => other ?_)
    rw [given, UInt16.toNat_inj.mp equal]
  simp only [hasDefaultPort, authority, Bool.or_eq_false_iff, Bool.and_eq_false_imp, beq_iff_eq]
  exact ⟨fun web => apart 80 (http web), fun web => apart 443 (https web)⟩

theorem structuralTransformations_written (laws : WebLaws Url) {url : Url} (h : PlainWeb url) :
    structuralTransformations (asStr url).toList url = [] := by
  obtain ⟨host, hhost, hostText⟩ := laws.host url h
  obtain ⟨http, https⟩ := laws.port url h
  obtain ⟨path, hpath⟩ := List.head?_eq_some_iff.mp (laws.path url h)
  have colon : ':' ∉ (scheme url).toList := by
    rcases h.web with web | web <;> rw [web] <;> decide
  have lower : (scheme url).toList.map toAsciiLower = (scheme url).toList := by
    rcases h.web with web | web <;> rw [web] <;> decide
  obtain ⟨more, written⟩ : ∃ more, (asStr url).toList = (scheme url).toList ++ "://".toList ++
      (host.toList ++ portText (port url) ++ '/' :: more) := by
    refine ⟨path ++ markedPart '?' (query url) ++ markedPart '#' (fragment url), ?_⟩
    rw [laws.text url h, addressText, hhost, hpath]
    simp
  have cut := splitOnce_scheme colon (host.toList ++ portText (port url) ++ '/' :: more)
  have first : splitOnce [':'] (asStr url).toList = some ((scheme url).toList,
      '/' :: '/' :: (host.toList ++ portText (port url) ++ '/' :: more)) := by
    rw [written, List.append_assoc]
    exact splitOnce_append colon _
  rw [← written] at cut
  have authority : authorityOf (asStr url).toList = some (host.toList ++ portText (port url)) := by
    rw [authorityOf, cut]
    exact congrArg some (authority_cut hostText (port url) more)
  have ascii : host.toList.all (fun c => decide (c.toNat < 128)) = true :=
    List.all_eq_true.mpr (fun c mem => decide_eq_true (hostText.ascii c mem))
  have noDefault := hasDefaultPort_written hostText authority http https
  have root : hasEmptyPath (asStr url).toList = false := by
    rw [hasEmptyPath, cut]
    simp
  rcases rawHost_written hostText authority with brackets | same
  · simp [structuralTransformations, first, lower, brackets, noDefault, root]
  · simp [structuralTransformations, first, lower, same, ascii, hhost, noDefault, root]

theorem validateDeepUrl_web {url : Url} (h : validateDeepUrl url = .ok ()) : PlainWeb url := by
  rw [validateDeepUrl] at h
  by_cases web : scheme url ≠ "http" ∧ scheme url ≠ "https"
  · rw [if_pos web] at h
    cases h
  · rw [if_neg web] at h
    by_cases credentials : username url ≠ "" ∨ (password url).isSome
    · rw [if_pos credentials] at h
      cases h
    · obtain ⟨noName, noPassword⟩ := not_or.mp credentials
      refine ⟨?_, not_not.mp noName, by simpa using noPassword⟩
      by_cases plain : scheme url = "http"
      · exact Or.inl plain
      · exact Or.inr (by_contra (fun other => web ⟨plain, other⟩))

theorem validateSearchUrl_web {raw : String} {url : Url} (h : validateSearchUrl raw = .ok url) :
    PlainWeb url := by
  rw [validateSearchUrl] at h
  cases read : (parse raw : Option Url) with
  | none =>
    simp only [read] at h
    cases h
  | some url' =>
    simp only [read] at h
    cases valid : validateDeepUrl url' with
    | error code =>
      rw [valid] at h
      cases h
    | ok _ =>
      rw [valid] at h
      cases h
      exact validateDeepUrl_web valid

/-- The canonical URL of an accepted one is canonical already: canonicalizing it again, from its
own text, gives it back and records no transformation. -/
theorem canonicalize_again (laws : WebLaws Url) {raw : String} {result again : NormalizedResult Url}
    (accepted : validateSearchUrl raw = .ok result.url)
    (url : again.url = (canonicalize result).canonicalUrl)
    (text : again.rawUrl = asStr again.url) :
    (canonicalize again).canonicalUrl = (canonicalize result).canonicalUrl ∧
      (canonicalize again).transformations = [] := by
  have web := validateSearchUrl_web accepted
  obtain ⟨web₁, upper₁⟩ := percentStep_upper laws web
  obtain ⟨web₂, upper₂, untracked⟩ := trackingStep_untracked laws web₁ upper₁
  have canonical := fragmentStep_canonical laws web₂ upper₂ untracked
  change Canonical (canonicalize result).canonicalUrl at canonical
  rw [← url] at canonical ⊢
  have structural := structuralTransformations_written laws canonical.web
  rw [← text] at structural
  simp only [canonicalize, canonical.percentStep_eq, canonical.trackingStep_eq laws,
    canonical.fragmentStep_eq, structural, true_and]
  rfl

end

end Amatl
