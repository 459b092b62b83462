import Amatl.Deep.Consent
import Amatl.Server.Access
import Amatl.WebUrl

/-! The origins a browser sends and the origins that are accepted. The check compares texts, and a
browser leaves out the final slash, the credentials and the port of the scheme. -/

namespace Amatl

open Text UrlCrate

theorem textOf_printable {text : List Char} (h : ∀ c ∈ text, 32 ≤ c.toNat ∧ c.toNat < 127) :
    Request.textOf (text.map (fun c => UInt8.ofNat c.toNat)) = some (String.ofList text) := by
  have byte : ∀ c ∈ text, (UInt8.ofNat c.toNat).toNat = c.toNat := by
    intro c mem
    have small := (h c mem).2
    rw [UInt8.toNat_ofNat']
    exact Nat.mod_eq_of_lt (by omega)
  have visible : (text.map (fun c => UInt8.ofNat c.toNat)).all
      (fun byte => (32 ≤ byte && byte < 127) || byte == 9) = true := by
    rw [List.all_map, List.all_eq_true]
    intro c mem
    have range := h c mem
    have low : (32 : UInt8) ≤ UInt8.ofNat c.toNat := by
      rw [UInt8.le_iff_toNat_le, byte c mem]
      exact range.1
    have high : UInt8.ofNat c.toNat < (127 : UInt8) := by
      rw [UInt8.lt_iff_toNat_lt, byte c mem]
      exact range.2
    simp [low, high]
  have back : (text.map (fun c => UInt8.ofNat c.toNat)).map (fun byte => Char.ofNat byte.toNat) =
      text := by
    rw [List.map_map]
    conv_rhs => rw [← List.map_id text]
    refine List.map_congr_left (fun c mem => ?_)
    rw [Function.comp_apply, byte c mem, Char.ofNat_toNat, id_eq]
  rw [Request.textOf, if_pos visible, back]

def requestFrom (origin : List Char) : Request where
  method := .post
  path := "/search"
  headers := [("origin", origin.map (fun c => UInt8.ofNat c.toNat))]
  peer := none

theorem requestFrom_origin {origin : List Char}
    (h : ∀ c ∈ origin, 32 ≤ c.toNat ∧ c.toNat < 127) :
    (requestFrom origin).headerText "origin" = some (String.ofList origin) :=
  textOf_printable h

theorem validOrigin_iff {request : Request} {origin : String}
    (sent : request.headerText "origin" = some origin) (allowed : List String) :
    validOrigin request allowed = true ↔ origin ∈ allowed := by
  rw [Request.headerText] at sent
  cases found : request.header "origin" with
  | none =>
    rw [found] at sent
    cases sent
  | some value =>
    rw [found, Option.bind_some] at sent
    rw [validOrigin, found]
    simp only [sent, Option.any_some, List.contains_iff_mem]

def entryPort (host : String) : Option Nat :=
  (rsplitOnce ':' host.toList).bind (fun cut => parseUnsigned 10 (2 ^ 16) cut.2)

def servedScheme (server : ServerConfig) : String :=
  if server.tls.certPath.isSome then "https" else "http"

/-- What an allowed host is opened as, at the listening port unless it has a port. -/
def servedAt (server : ServerConfig) (host : String) : String :=
  if (entryPort host).isSome then servedScheme server ++ "://" ++ host
  else servedScheme server ++ "://" ++ (host ++ ":" ++ toString server.port)

def namedOrigins (server : ServerConfig) : List String :=
  if server.allowedOrigins.isEmpty then server.allowedHosts.map (servedAt server)
  else server.allowedOrigins

section

variable {Url : Type} [UrlCrate Url]

/-- The ASCII serialization of an origin, which has no path and no port of the scheme's own. -/
def browserOrigin (url : Url) : List Char :=
  (scheme url).toList ++ "://".toList ++ ((hostStr url).getD "").toList ++ portText (port url)

def IsWeb (url : Url) : Prop := scheme url = "http" ∨ scheme url = "https"

variable (Url) in
/-- What the `url` crate documents of the origins of `http` and `https` URLs. -/
structure ServedLaws : Prop where
  scheme : ∀ (scheme rest : String) (url : Url), scheme = "http" ∨ scheme = "https" →
    parse (scheme ++ "://" ++ rest) = some url → UrlCrate.scheme url = scheme
  host : ∀ url : Url, IsWeb url → ∃ host, hostStr url = some host ∧ HostText host.toList ∧
    ∀ c ∈ host.toList, 32 ≤ c.toNat ∧ c.toNat < 127
  /-- The text of an origin is parsed back to it. -/
  reparsed : ∀ url served : Url, IsWeb url →
    parse (String.ofList (browserOrigin url)) = some served → PlainWeb served ∧
      SameOrigin served url
  /-- The crate prints an origin with a slash behind it. -/
  text : ∀ url : Url, PlainWeb url → path url = "/" → query url = none → fragment url = none →
    (asStr url).toList = browserOrigin url ++ ['/']

theorem browserOrigin_same {url served : Url} (same : SameOrigin served url) :
    browserOrigin served = browserOrigin url := by
  rw [browserOrigin, same.1, same.2.1, same.2.2]
  rfl

theorem browserOrigin_printable (laws : ServedLaws Url) {url : Url} (web : IsWeb url) :
    ∀ c ∈ browserOrigin url, 32 ≤ c.toNat ∧ c.toNat < 127 := by
  obtain ⟨host, named, -, printable⟩ := laws.host url web
  intro c mem
  rw [browserOrigin, named] at mem
  rcases List.mem_append.mp mem with front | behind
  · rcases List.mem_append.mp front with front | inside
    · have schemes : c ∈ "http".toList ++ "://".toList ∨ c ∈ "https".toList ++ "://".toList := by
        rcases web with http | https
        · rw [http] at front
          exact Or.inl front
        · rw [https] at front
          exact Or.inr front
      rcases schemes with h | h
      · exact forall_mem_of_all (p := fun c => 32 ≤ c.toNat ∧ c.toNat < 127) (by decide) c h
      · exact forall_mem_of_all (p := fun c => 32 ≤ c.toNat ∧ c.toNat < 127) (by decide) c h
    · exact printable c inside
  · cases number : port url with
    | none =>
      rw [number] at behind
      cases behind
    | some number' =>
      rw [number, portText] at behind
      rcases List.mem_cons.mp behind with rfl | digit
      · decide
      · have digits := Nat.isDigit_of_mem_toDigits (by decide) (by decide) digit
        rw [Char.isDigit, Bool.and_eq_true, decide_eq_true_eq, decide_eq_true_eq] at digits
        have low : 48 ≤ c.toNat := digits.1
        have high : c.toNat ≤ 57 := digits.2
        omega

end

section

variable (Url : Type) [UrlCrate Url]

/-- What a browser sends for an origin that the configuration names is accepted. -/
def AcceptsOwnOrigins (server : ServerConfig) : Prop :=
  ∀ text ∈ namedOrigins server, ∀ url : Url, parse text = some url →
    ∀ request : Request,
      request.headerText "origin" = some (String.ofList (browserOrigin url)) →
        validOrigin request (effectiveOrigins server server.tls.certPath.isSome) = true

/-- Each listed origin is listed as the crate prints it, without the slash at its end. -/
def ListsPrinted (server : ServerConfig) : Prop :=
  ∀ entry ∈ server.allowedOrigins, ∀ url : Url, parse entry = some url →
    ∃ listed ∈ server.allowedOrigins, ∃ printed : Url, parse listed = some printed ∧
      PlainWeb printed ∧ SameOrigin printed url ∧ asStr printed = listed ++ "/"

/-- Each allowed host is served at the listening port, which is not the port of the scheme, and is
allowed as the crate spells it. -/
def ServesSpelled (server : ServerConfig) : Prop :=
  ∀ host ∈ server.allowedHosts, ∀ url : Url, parse (servedAt server host) = some url →
    port url = some server.port ∧ ∃ name ∈ server.allowedHosts, hostStr url = some name

end

section

variable {Url : Type} [UrlCrate Url]

theorem isExactOrigin_iff {origin : String} :
    isExactOrigin Url origin = true ↔ ∃ url : Url, parse origin = some url ∧ IsWeb url ∧
      (hostStr url).isSome = true ∧ path url = "/" ∧ query url = none ∧ fragment url = none := by
  rw [isExactOrigin]
  cases (parse origin : Option Url) with
  | none => simp
  | some url => simp [IsWeb, and_assoc]

theorem effectiveOrigins_listed {server : ServerConfig} (listed : server.allowedOrigins ≠ [])
    (https : Bool) : effectiveOrigins server https = server.allowedOrigins := by
  rw [effectiveOrigins, if_neg (by simpa using listed)]

theorem effectiveOrigins_derived {server : ServerConfig} (derived : server.allowedOrigins = []) :
    effectiveOrigins server server.tls.certPath.isSome = server.allowedHosts.map (fun host =>
      servedScheme server ++ "://" ++ host ++ ":" ++ toString server.port) := by
  rw [effectiveOrigins, if_pos (by rw [derived]; rfl)]
  rfl

/-- Being accepted is being among the effective origins. -/
theorem acceptsOwnOrigins_iff_mem (laws : ServedLaws Url) (server : ServerConfig)
    (web : ∀ text ∈ namedOrigins server, ∀ url : Url, parse text = some url → IsWeb url) :
    AcceptsOwnOrigins Url server ↔
      ∀ text ∈ namedOrigins server, ∀ url : Url, parse text = some url →
        String.ofList (browserOrigin url) ∈
          effectiveOrigins server server.tls.certPath.isSome := by
  constructor
  · intro accepts text mem url parsed
    have sent := requestFrom_origin (browserOrigin_printable laws (web text mem url parsed))
    exact (validOrigin_iff sent _).mp (accepts text mem url parsed _ sent)
  · intro listed text mem url parsed request sent
    exact (validOrigin_iff sent _).mpr (listed text mem url parsed)

theorem listed_iff_printed (laws : ServedLaws Url) {server : ServerConfig}
    (exact' : ∀ entry ∈ server.allowedOrigins, isExactOrigin Url entry = true) :
    (∀ entry ∈ server.allowedOrigins, ∀ url : Url, parse entry = some url →
        String.ofList (browserOrigin url) ∈ server.allowedOrigins) ↔ ListsPrinted Url server := by
  refine forall₂_congr (fun entry mem => forall₂_congr (fun url parsed => ?_))
  obtain ⟨same, parsed', web, -⟩ := isExactOrigin_iff.mp (exact' entry mem)
  cases parsed.symm.trans parsed'
  constructor
  · intro listed
    obtain ⟨printed, again, -, -, slash, noQuery, noFragment⟩ :=
      isExactOrigin_iff.mp (exact' _ listed)
    obtain ⟨plain, same⟩ := laws.reparsed url printed web again
    refine ⟨_, listed, printed, again, plain, same, ?_⟩
    rw [← String.toList_inj, laws.text printed plain slash noQuery noFragment,
      browserOrigin_same same, String.toList_append, String.toList_ofList]
    rfl
  · intro ⟨listed, inside, printed, again, plain, same, text⟩
    obtain ⟨found, parsed'', -, -, slash, noQuery, noFragment⟩ :=
      isExactOrigin_iff.mp (exact' listed inside)
    cases again.symm.trans parsed''
    have spelled := laws.text printed plain slash noQuery noFragment
    rw [text, String.toList_append, browserOrigin_same same] at spelled
    have whole : listed.toList = browserOrigin url := List.append_cancel_right spelled
    rw [← whole, String.ofList_toList]
    exact inside

theorem derived_eq_iff {host name : List Char} (h : HostText host) {number : Option UInt16}
    {listening : UInt16} :
    host ++ portText number = name ++ ':' :: Nat.toDigits 10 listening.toNat ↔
      number = some listening ∧ host = name := by
  constructor
  · intro same
    cases number with
    | none =>
      have suffix : (':' :: Nat.toDigits 10 listening.toNat) <:+ host ++ portText none :=
        ⟨name, same.symm⟩
      exact absurd suffix (port_not_suffix h (fun p given => by cases given))
    | some port =>
      obtain ⟨front, digits⟩ := append_cons_inj_right (colon_notMem_toDigits port.toNat)
        (colon_notMem_toDigits listening.toNat) same
      have number := toDigits_injective (by decide) (by decide) digits
      exact ⟨congrArg some (UInt16.toNat_inj.mp number), front⟩
  · rintro ⟨rfl, rfl⟩
    rfl

theorem servedScheme_web (server : ServerConfig) :
    servedScheme server = "http" ∨ servedScheme server = "https" := by
  rw [servedScheme]
  split
  · exact Or.inr rfl
  · exact Or.inl rfl

theorem servedAt_scheme (laws : ServedLaws Url) {server : ServerConfig} {host : String} {url : Url}
    (parsed : parse (servedAt server host) = some url) : scheme url = servedScheme server := by
  rw [servedAt] at parsed
  split at parsed
  · exact laws.scheme _ _ url (servedScheme_web server) parsed
  · exact laws.scheme _ _ url (servedScheme_web server) parsed

theorem browserOrigin_derived_iff (laws : ServedLaws Url) {server : ServerConfig} {url : Url}
    (served : scheme url = servedScheme server) (name : String) :
    servedScheme server ++ "://" ++ name ++ ":" ++ toString server.port =
        String.ofList (browserOrigin url) ↔
      port url = some server.port ∧ hostStr url = some name := by
  have web : IsWeb url := by
    rw [IsWeb, served]
    exact servedScheme_web server
  obtain ⟨host, named, written, -⟩ := laws.host url web
  have digits : (toString server.port).toList = Nat.toDigits 10 server.port.toNat :=
    String.toList_ofList
  rw [← String.toList_inj, String.toList_ofList, browserOrigin, named, served, eq_comm]
  simp only [String.toList_append, List.append_assoc, digits, Option.getD_some]
  rw [List.append_cancel_left_eq, List.append_cancel_left_eq]
  refine (derived_eq_iff written).trans (and_congr_right (fun _ => ?_))
  rw [String.toList_inj, Option.some.injEq]

theorem derived_iff_spelled (laws : ServedLaws Url) {server : ServerConfig} :
    (∀ text ∈ server.allowedHosts.map (servedAt server), ∀ url : Url, parse text = some url →
        String.ofList (browserOrigin url) ∈ server.allowedHosts.map (fun host =>
          servedScheme server ++ "://" ++ host ++ ":" ++ toString server.port)) ↔
      ServesSpelled Url server := by
  rw [List.forall_mem_map]
  refine forall₂_congr (fun host _ => forall₂_congr (fun url parsed => ?_))
  have served := servedAt_scheme laws parsed
  rw [List.mem_map]
  constructor
  · intro ⟨name, mem, same⟩
    obtain ⟨number, named⟩ := (browserOrigin_derived_iff laws served name).mp same
    exact ⟨number, name, mem, named⟩
  · intro ⟨number, name, mem, named⟩
    exact ⟨name, mem, (browserOrigin_derived_iff laws served name).mpr ⟨number, named⟩⟩

/-- The origins a configuration names are accepted from a browser exactly when the listed ones are
listed as they are printed, or the derived ones come out as they are sent. -/
theorem acceptsOwnOrigins_iff [TimeCrate] [HttpCrate] (laws : ServedLaws Url)
    (server : ServerConfig) (bind : Net.IpAddr) (valid : validateServer Url server bind = .ok ()) :
    AcceptsOwnOrigins Url server ↔
      (server.allowedOrigins = [] → ServesSpelled Url server) ∧ ListsPrinted Url server := by
  obtain ⟨-, -, -, -, -, origins⟩ := validateServer_eq_ok.mp valid
  have exact' : ∀ entry ∈ server.allowedOrigins, isExactOrigin Url entry = true := by
    intro entry mem
    have passed := List.any_eq_false.mp origins entry mem
    simpa using passed
  by_cases derived : server.allowedOrigins = []
  · have named : namedOrigins server = server.allowedHosts.map (servedAt server) := by
      rw [namedOrigins, if_pos (by rw [derived]; rfl)]
    have unlisted : ListsPrinted Url server := by
      rw [ListsPrinted, derived]
      exact fun entry mem => absurd mem List.not_mem_nil
    rw [acceptsOwnOrigins_iff_mem laws, named, effectiveOrigins_derived derived]
    · rw [derived_iff_spelled laws]
      exact ⟨fun spelled => ⟨fun _ => spelled, unlisted⟩, fun h => h.1 derived⟩
    · intro text mem url parsed
      rw [named] at mem
      obtain ⟨host, -, rfl⟩ := List.mem_map.mp mem
      rw [IsWeb, servedAt_scheme laws parsed]
      exact servedScheme_web server
  · have named : namedOrigins server = server.allowedOrigins := by
      rw [namedOrigins, if_neg (by simpa using derived)]
    rw [acceptsOwnOrigins_iff_mem laws, named, effectiveOrigins_listed derived]
    · rw [listed_iff_printed laws exact']
      exact ⟨fun printed => ⟨fun empty => absurd empty derived, printed⟩, fun h => h.2⟩
    · intro text mem url parsed
      rw [named] at mem
      obtain ⟨same, parsed', web, -⟩ := isExactOrigin_iff.mp (exact' text mem)
      cases parsed.symm.trans parsed'
      exact web

end

namespace WebUrl

theorem parse_web (secure : Bool) (rest : List Char) :
    parse ((if secure then "https" else "http" : String).toList ++ "://".toList ++ rest) =
      let bare := (cutAt '#' rest).1
      let front := (cutAt '?' bare).1
      build secure (String.ofList (cutAt '/' front).1) ((cutAt '/' front).2.getD "")
        (cutAt '?' bare).2 (cutAt '#' rest).2 := by
  cases secure with
  | false =>
    have cut := splitOnce_scheme (a := "http".toList) (by decide) rest
    change parse ("http".toList ++ "://".toList ++ rest) = _
    rw [parse, cut]
    rfl
  | true =>
    have cut := splitOnce_scheme (a := "https".toList) (by decide) rest
    change parse ("https".toList ++ "://".toList ++ rest) = _
    rw [parse, cut]
    rfl

theorem build_some {secure : Bool} {host path : String} {query fragment : Option String}
    {url : WebUrl} (h : build secure host path query fragment = some url) :
    url.secure = secure ∧ url.host = host := by
  rw [build] at h
  split at h
  · cases h
    exact ⟨rfl, rfl⟩
  · cases h

theorem plainWeb (url : WebUrl) : PlainWeb url := by
  refine ⟨?_, rfl, rfl⟩
  change (if url.secure then "https" else "http") = "http" ∨
    (if url.secure then "https" else "http") = "https"
  cases url.secure with
  | false => exact Or.inl rfl
  | true => exact Or.inr rfl

theorem servedLaws : ServedLaws WebUrl where
  scheme given rest url web parsed := by
    obtain ⟨secure, rfl⟩ : ∃ secure : Bool, given = if secure then "https" else "http" := by
      rcases web with rfl | rfl
      · exact ⟨false, rfl⟩
      · exact ⟨true, rfl⟩
    change parse (_ ++ "://" ++ rest).toList = some url at parsed
    rw [String.toList_append, String.toList_append, parse_web] at parsed
    change (if url.secure then "https" else "http") = _
    rw [(build_some parsed).1]
  host url _ := by
    obtain ⟨host, named, written⟩ := laws.host url (url.plainWeb)
    refine ⟨host, named, written, fun c mem => ?_⟩
    cases named
    have plain := url.hostPlain c mem
    simp only [inHost, isAsciiLower, isAsciiDigit, Bool.or_eq_true, Bool.and_eq_true,
      decide_eq_true_eq, beq_iff_eq] at plain
    rcases plain with ((lower | digit) | rfl) | rfl
    · omega
    · omega
    · decide
    · decide
  reparsed url served _ parsed := by
    change parse (String.ofList (browserOrigin url)).toList = some served at parsed
    have none : ∀ mark : Char, mark ∉ url.host.toList →
        cutAt mark url.host.toList = (url.host.toList, none) := by
      intro mark absent
      have cut := cutAt_optional absent Option.none
      rwa [markedPart, List.append_nil] at cut
    have plain := fun c mem => inHost_plain (url.hostPlain c mem)
    have slash := none '/' (fun mem => (plain _ mem).2.2.1 rfl)
    have question := none '?' (fun mem => (plain _ mem).2.2.2.1 rfl)
    have hash := none '#' (fun mem => (plain _ mem).2.2.2.2.1 rfl)
    have origin : browserOrigin url =
        (if url.secure then "https" else "http" : String).toList ++ "://".toList ++
          url.host.toList := List.append_nil _
    rw [String.toList_ofList, origin, parse_web] at parsed
    simp only [hash, question, slash] at parsed
    obtain ⟨secure, host⟩ := build_some parsed
    rw [String.ofList_toList] at host
    have same : UrlCrate.scheme served = UrlCrate.scheme url := by
      change (if served.secure then "https" else "http") = if url.secure then "https" else "http"
      rw [secure]
    exact ⟨served.plainWeb, same, congrArg some host, rfl⟩
  text url plain slash noQuery noFragment := by
    rw [laws.text url plain, addressText, slash, noQuery, noFragment, markedPart, markedPart,
      List.append_nil, List.append_nil]
    rfl

end WebUrl

def originsServer (allowedOrigins : List String) : ServerConfig :=
  { ServerConfig.default with allowedOrigins }

def amatlUrl : WebUrl where
  secure := true
  host := "amatl.example"
  path := ""
  query := none
  fragment := none
  hostPlain := forall_mem_of_all (by decide)
  pathPlain := nofun
  queryPlain := nofun

theorem parse_amatl : UrlCrate.parse "https://amatl.example" = some amatlUrl := rfl

theorem parse_amatl_slash : UrlCrate.parse "https://amatl.example/" = some amatlUrl := rfl

theorem acceptsOwnOrigins_listed :
    AcceptsOwnOrigins WebUrl (originsServer ["https://amatl.example"]) := by
  let _ := noDates
  let _ := plainHeaders
  have valid : validateServer WebUrl (originsServer ["https://amatl.example"])
      (.v4 ⟨127, 0, 0, 1⟩) = .ok () := by decide +kernel
  refine (acceptsOwnOrigins_iff WebUrl.servedLaws _ (.v4 ⟨127, 0, 0, 1⟩) valid).mpr ?_
  refine ⟨fun empty => absurd empty (List.cons_ne_nil _ _), ?_⟩
  intro entry mem url parsed
  obtain rfl := List.mem_singleton.mp mem
  cases parsed.symm.trans parse_amatl
  exact ⟨_, List.mem_singleton_self _, amatlUrl, parse_amatl, amatlUrl.plainWeb, ⟨rfl, rfl, rfl⟩,
    by decide⟩

/-- With a slash at its end the origin is valid, and what browsers send for it is refused. -/
theorem slashedOrigin_refused :
    letI := noDates
    letI := plainHeaders
    validateServer WebUrl (originsServer ["https://amatl.example/"]) (.v4 ⟨127, 0, 0, 1⟩) =
        .ok () ∧
      ¬AcceptsOwnOrigins WebUrl (originsServer ["https://amatl.example/"]) := by
  refine ⟨by decide +kernel, fun accepts => ?_⟩
  have sent := requestFrom_origin
    (browserOrigin_printable WebUrl.servedLaws (Or.inr rfl : IsWeb amatlUrl))
  have accepted := accepts _ (List.mem_singleton_self _) amatlUrl parse_amatl_slash _ sent
  have listed := (validOrigin_iff sent _).mp accepted
  revert listed
  decide

end Amatl
