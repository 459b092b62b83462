import Amatl.CanonicalForm

/-! URLs of two schemes with a query and a fragment, for which everything that is assumed of the
`url` crate holds. Host names are in lower case, and no dot segments are resolved. -/

namespace Amatl

open Text

def inHost (c : Char) : Bool := isAsciiLower c || isAsciiDigit c || c == '.' || c == '-'

def inPath (c : Char) : Bool := inQuery c && c != '?'

structure WebUrl where
  secure : Bool
  host : String
  /-- What follows the first slash. -/
  path : String
  query : Option String
  fragment : Option String
  hostPlain : ∀ c ∈ host.toList, inHost c = true
  pathPlain : ∀ c ∈ path.toList, inPath c = true
  queryPlain : ∀ text, query = some text → ∀ c ∈ text.toList, inQuery c = true

namespace WebUrl

def scheme (url : WebUrl) : String := if url.secure then "https" else "http"

def text (url : WebUrl) : List Char :=
  url.scheme.toList ++ "://".toList ++
    (url.host.toList ++ '/' :: url.path.toList ++ markedPart '?' url.query ++
      markedPart '#' url.fragment)

/-- The text before a mark, and what follows it where it is there. -/
def cutAt (mark : Char) (text : List Char) : List Char × Option String :=
  match splitOnce [mark] text with
  | some (front, rest) => (front, some (String.ofList rest))
  | none => (text, none)

def build (secure : Bool) (host path : String) (query fragment : Option String) : Option WebUrl :=
  if h : host.toList.all inHost = true ∧ path.toList.all inPath = true ∧
      ∀ text ∈ query, text.toList.all inQuery = true then
    some ⟨secure, host, path, query, fragment, List.all_eq_true.mp h.1, List.all_eq_true.mp h.2.1,
      fun text some => List.all_eq_true.mp (h.2.2 text some)⟩
  else none

def parse (text : List Char) : Option WebUrl :=
  match splitOnce "://".toList text with
  | none => none
  | some (scheme, rest) =>
    let (rest, fragment) := cutAt '#' rest
    let (rest, query) := cutAt '?' rest
    let (host, path) := cutAt '/' rest
    if scheme = "https".toList then
      build true (String.ofList host) (path.getD "") query fragment
    else if scheme = "http".toList then
      build false (String.ofList host) (path.getD "") query fragment
    else none

instance : UrlCrate WebUrl where
  parse value := parse value.toList
  asStr url := String.ofList url.text
  scheme := scheme
  username _ := ""
  password _ := none
  host url := some (.domain url.host)
  hostStr url := some url.host
  portOrKnownDefault url := some (if url.secure then 443 else 80)
  port _ := none
  path url := String.ofList ('/' :: url.path.toList)
  query := query
  fragment := fragment
  setQuery query url :=
    if h : ∀ text ∈ query, text.toList.all inQuery = true then
      { url with query, queryPlain := fun text some => List.all_eq_true.mp (h text some) }
    else url
  setFragment fragment url := { url with fragment }
  join _ location := parse location.toList

theorem inHost_plain {c : Char} (h : inHost c = true) :
    c.toNat < 128 ∧ c ≠ '%' ∧ c ≠ '/' ∧ c ≠ '?' ∧ c ≠ '#' ∧ c ≠ '@' ∧ c ≠ ':' := by
  have small : c.toNat < 128 := by
    simp only [inHost, isAsciiLower, isAsciiDigit, Bool.or_eq_true, Bool.and_eq_true,
      decide_eq_true_eq, beq_iff_eq] at h
    rcases h with ((lower | digit) | rfl) | rfl
    · omega
    · omega
    · decide
    · decide
  exact ⟨small, forall_ascii (P := fun c => inHost c = true →
    c ≠ '%' ∧ c ≠ '/' ∧ c ≠ '?' ∧ c ≠ '#' ∧ c ≠ '@' ∧ c ≠ ':') (by decide) small h⟩

theorem inQuery_plain {c : Char} (h : inQuery c = true) :
    c ≠ '#' ∧ inQuery (toAsciiUpper c) = true ∧ (c ≠ '?' → toAsciiUpper c ≠ '?') := by
  have small : c.toNat < 128 := by
    simp only [inQuery, Bool.and_eq_true, decide_eq_true_eq] at h
    omega
  exact forall_ascii (P := fun c => inQuery c = true →
    c ≠ '#' ∧ inQuery (toAsciiUpper c) = true ∧ (c ≠ '?' → toAsciiUpper c ≠ '?'))
    (by decide) small h

theorem inPath_plain {c : Char} (h : inPath c = true) :
    c ≠ '#' ∧ c ≠ '?' ∧ inPath (toAsciiUpper c) = true := by
  simp only [inPath, Bool.and_eq_true, bne_iff_ne, ne_eq] at h
  obtain ⟨hash, upper, question⟩ := inQuery_plain h.1
  refine ⟨hash, h.2, ?_⟩
  simp only [inPath, Bool.and_eq_true, bne_iff_ne, ne_eq]
  exact ⟨upper, question h.2⟩

/-! The parts of a text are found again. -/

theorem cutAt_optional {mark : Char} {front : List Char} (absent : mark ∉ front)
    (text : Option String) : cutAt mark (front ++ markedPart mark text) = (front, text) := by
  cases text with
  | none =>
    have none : splitOnce [mark] front = none := by
      cases found : splitOnce [mark] front with
      | none => rfl
      | some pair => exact absurd (by rw [(splitOnce_char found).1]; simp) absent
    rw [markedPart, List.append_nil, cutAt, none]
  | some text =>
    rw [markedPart, cutAt, splitOnce_append absent]
    simp only [String.ofList_toList]

theorem parse_text (url : WebUrl) : parse url.text = some url := by
  obtain ⟨secure, host, path, query, fragment, hostPlain, pathPlain, queryPlain⟩ := url
  have slash : '/' ∉ host.toList := fun mem => (inHost_plain (hostPlain _ mem)).2.2.1 rfl
  have question : '?' ∉ host.toList ++ '/' :: path.toList := by
    intro mem
    rcases List.mem_append.mp mem with inside | inside
    · exact (inHost_plain (hostPlain _ inside)).2.2.2.1 rfl
    · rcases List.mem_cons.mp inside with bad | inside
      · exact absurd bad (by decide)
      · exact (inPath_plain (pathPlain _ inside)).2.1 rfl
  have hash : '#' ∉ host.toList ++ '/' :: path.toList ++ markedPart '?' query := by
    intro mem
    rcases List.mem_append.mp mem with inside | inside
    · rcases List.mem_append.mp inside with inside | inside
      · exact (inHost_plain (hostPlain _ inside)).2.2.2.2.1 rfl
      · rcases List.mem_cons.mp inside with bad | inside
        · exact absurd bad (by decide)
        · exact (inPath_plain (pathPlain _ inside)).1 rfl
    · cases query with
      | none => cases inside
      | some text =>
        rcases List.mem_cons.mp inside with bad | inside
        · exact absurd bad (by decide)
        · exact (inQuery_plain (queryPlain text rfl _ inside)).1 rfl
  have hostPath : cutAt '/' (host.toList ++ '/' :: path.toList) = (host.toList, some path) :=
    cutAt_optional slash (some path)
  have built : ∀ secure, build secure (String.ofList host.toList) ((some path).getD "") query
      fragment = some ⟨secure, host, path, query, fragment, hostPlain, pathPlain, queryPlain⟩ := by
    intro secure
    have all : host.toList.all inHost = true ∧ path.toList.all inPath = true ∧
        ∀ text ∈ query, text.toList.all inQuery = true :=
      ⟨List.all_eq_true.mpr hostPlain, List.all_eq_true.mpr pathPlain,
        fun text mem => List.all_eq_true.mpr (queryPlain text mem)⟩
    rw [String.ofList_toList, Option.getD_some, build, dif_pos all]
  cases secure with
  | false =>
    have cut := splitOnce_scheme (a := "http".toList) (by decide)
      (host.toList ++ '/' :: path.toList ++ markedPart '?' query ++ markedPart '#' fragment)
    change parse ("http".toList ++ "://".toList ++ _) = _
    simp only [parse, cut, cutAt_optional hash, cutAt_optional question, hostPath, built]
    rfl
  | true =>
    have cut := splitOnce_scheme (a := "https".toList) (by decide)
      (host.toList ++ '/' :: path.toList ++ markedPart '?' query ++ markedPart '#' fragment)
    change parse ("https".toList ++ "://".toList ++ _) = _
    simp only [parse, cut, cutAt_optional hash, cutAt_optional question, hostPath, built]
    rfl

theorem uppered_optional {a t : List Char} {mark : Char} {part : Option String}
    (h : Uppered (a ++ markedPart mark part) t) (hd : isAsciiHexDigit mark = false)
    (percent : mark ≠ '%') :
    ∃ a' part', t = a' ++ markedPart mark part' ∧ Uppered a a' ∧
      ∀ text', part' = some text' → ∃ text, part = some text ∧ Uppered text.toList text'.toList := by
  cases part with
  | none =>
    rw [markedPart, List.append_nil] at h
    refine ⟨t, none, ?_, h, ?_⟩
    · rw [markedPart, List.append_nil]
    · intro text' given
      cases given
  | some text =>
    obtain ⟨a', b', rfl, front, back⟩ := h.cut hd percent
    refine ⟨a', some (String.ofList b'), ?_, front, ?_⟩
    · rw [markedPart, String.toList_ofList]
    · intro text' given
      rw [← Option.some.inj given, String.toList_ofList]
      exact ⟨text, rfl, back⟩

/-- Upper-case escapes make the text of another URL on the same server. -/
theorem text_uppered (url : WebUrl) {t : List Char} (h : Uppered url.text t) :
    ∃ url' : WebUrl, t = url'.text ∧ url'.secure = url.secure := by
  obtain ⟨secure, host, path, query, fragment, hostPlain, pathPlain, queryPlain⟩ := url
  have percent : '%' ∉ (scheme ⟨secure, host, path, query, fragment, hostPlain, pathPlain,
      queryPlain⟩).toList ++ "://".toList ++ host.toList := by
    intro mem
    rcases List.mem_append.mp mem with inside | inside
    · have plain : ∀ secure : Bool,
          '%' ∉ (if secure then "https" else "http" : String).toList ++ "://".toList := by decide
      exact plain secure inside
    · exact (inHost_plain (hostPlain _ inside)).2.1 rfl
  rw [text] at h
  simp only [← List.append_assoc] at h
  obtain ⟨a₁, fragment', rfl, h, -⟩ := uppered_optional h (by decide) (by decide)
  obtain ⟨a₂, query', rfl, h, queries⟩ := uppered_optional h (by decide) (by decide)
  obtain ⟨a₃, path', rfl, front, behind⟩ := h.cut (by decide) (by decide)
  obtain rfl := front.plain percent
  have pathPlain' : ∀ c ∈ (String.ofList path').toList, inPath c = true := by
    rw [String.toList_ofList]
    exact behind.chars (fun c ok => (inPath_plain ok).2.2) pathPlain
  have queryPlain' : ∀ text, query' = some text → ∀ c ∈ text.toList, inQuery c = true := by
    intro text' given
    obtain ⟨text, there, upper⟩ := queries text' given
    exact upper.chars (fun c ok => (inQuery_plain ok).2.1) (queryPlain text there)
  refine ⟨⟨secure, host, String.ofList path', query', fragment', hostPlain, pathPlain',
    queryPlain'⟩, ?_, rfl⟩
  simp [text, scheme]

theorem laws : WebLaws WebUrl where
  stable url _ := by
    change parse (String.ofList url.text).toList = _
    rw [String.toList_ofList, parse_text]
  text url _ := by
    change (String.ofList url.text).toList = addressText url ++ markedPart '?' url.query ++
      markedPart '#' url.fragment
    rw [String.toList_ofList]
    simp [text, addressText, UrlCrate.scheme, UrlCrate.hostStr, UrlCrate.port, UrlCrate.path,
      portText]
  host url _ := by
    refine ⟨url.host, rfl, ⟨fun c mem => ?_, fun c mem => ?_, Or.inl fun mem => ?_⟩⟩
    · exact (inHost_plain (url.hostPlain c mem)).1
    · obtain ⟨-, -, slash, question, hash, at', -⟩ := inHost_plain (url.hostPlain c mem)
      exact ⟨slash, question, hash, at'⟩
    · exact (inHost_plain (url.hostPlain _ mem)).2.2.2.2.2.2 rfl
  port url _ := ⟨fun _ => nofun, fun _ => nofun⟩
  path url _ := by
    change (String.ofList ('/' :: url.path.toList)).toList.head? = _
    rw [String.toList_ofList]
    rfl
  query url text _ some := url.queryPlain text some
  setQuery url query _ plain := by
    have all : ∀ text ∈ query, text.toList.all inQuery = true :=
      fun text mem => List.all_eq_true.mpr (plain text mem)
    have changed : UrlCrate.setQuery query url = { url with query, queryPlain := plain } :=
      dif_pos all
    rw [changed]
    exact ⟨⟨⟨rfl, rfl, rfl⟩, rfl, rfl, rfl⟩, rfl, rfl⟩
  setFragment url _ := ⟨⟨⟨rfl, rfl, rfl⟩, rfl, rfl, rfl⟩, rfl, rfl⟩
  escapes url text _ upper := by
    have here : Uppered url.text text := by
      have written : (UrlCrate.asStr url).toList = url.text := String.toList_ofList
      rwa [written] at upper
    obtain ⟨url', rfl, same⟩ := url.text_uppered here
    refine ⟨url', ?_, rfl, ?_, rfl, rfl⟩
    · change parse (String.ofList url'.text).toList = _
      rw [String.toList_ofList, parse_text]
    · change url'.scheme = url.scheme
      rw [scheme, scheme, same]

end WebUrl

def linkedResult (rawUrl : String) (url : WebUrl) : NormalizedResult WebUrl where
  title := none
  rawUrl := rawUrl
  url := url
  provider := "p"
  providerRank := none
  snippet := none
  resultType := .organic
  publishedAt := none
  author := none
  language := none
  fileType := none
  thumbnail := none
  metadata := []
  provenance := []
  degradations := []

def trackedUrl : WebUrl where
  secure := true
  host := "docs.example.org"
  path := "a%2fb"
  query := some "utm_source=x&q=%c3%a9"
  fragment := some ""
  hostPlain := forall_mem_of_all (by decide)
  pathPlain := forall_mem_of_all (by decide)
  queryPlain := by
    rintro _ ⟨⟩
    exact forall_mem_of_all (by decide)

theorem trackedUrl_accepted :
    validateSearchUrl (String.ofList trackedUrl.text) = .ok trackedUrl := by
  have read : UrlCrate.parse (String.ofList trackedUrl.text) = some trackedUrl :=
    WebUrl.laws.stable trackedUrl ⟨Or.inr rfl, rfl, rfl⟩
  have valid : validateDeepUrl trackedUrl = .ok () := by
    have domain : blockedHostname "docs.example.org" = false := by decide +kernel
    simp only [validateDeepUrl, UrlCrate.username, UrlCrate.password, UrlCrate.host,
      trackedUrl, domain]
    rfl
  simp only [validateSearchUrl, read, valid]

theorem canonicalize_again_tracked :
    let first := canonicalize (linkedResult (String.ofList trackedUrl.text) trackedUrl)
    let again := linkedResult (UrlCrate.asStr first.canonicalUrl) first.canonicalUrl
    (canonicalize again).canonicalUrl = first.canonicalUrl ∧
      (canonicalize again).transformations = [] := by
  intro first again
  have url : again.url = first.canonicalUrl := rfl
  have text : again.rawUrl = UrlCrate.asStr again.url := rfl
  exact canonicalize_again WebUrl.laws trackedUrl_accepted url text

end Amatl
