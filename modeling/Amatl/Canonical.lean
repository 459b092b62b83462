import Amatl.Normalize

/-! URL canonicalization. The raw text only decides which transformations are
reported; the canonical URL is computed from the parsed one. -/

namespace Amatl

open Text

def trackingKeys : List String :=
  ["fbclid", "gclid", "msclkid", "yclid", "_ga", "_gl", "mc_cid", "mc_eid"]

def hasMalformedPercentEncoding : List Char → Bool
  | [] => false
  | c :: rest =>
    (c == '%' && !(match rest with
      | high :: low :: _ => isAsciiHexDigit high && isAsciiHexDigit low
      | _ => false)) || hasMalformedPercentEncoding rest

def authorityOf (raw : List Char) : Option (List Char) :=
  (splitOnce "://".toList raw).map
    (fun r => ((splitBy (fun c => c == '/' || c == '?' || c == '#') r.2).head?).getD [])

def rawHost (raw : List Char) : Option (List Char) := do
  let authority ← authorityOf raw
  let hostPort := match rsplitOnce '@' authority with
    | some (_, rest) => rest
    | none => authority
  if hostPort.head? == some '[' then none
  else some (match rsplitOnce ':' hostPort with
    | some (host, _) => host
    | none => hostPort)

def hasDefaultPort (raw : List Char) (scheme : String) : Bool :=
  match authorityOf raw with
  | none => false
  | some authority =>
    (scheme == "http" && ":80".toList.isSuffixOf authority) ||
      (scheme == "https" && ":443".toList.isSuffixOf authority)

def hasEmptyPath (raw : List Char) : Bool :=
  match splitOnce "://".toList raw with
  | none => false
  | some (_, rest) => !rest.contains '/'

def normalizePercentHex : List Char → List Char
  | '%' :: high :: low :: rest =>
    if isAsciiHexDigit high && isAsciiHexDigit low then
      '%' :: toAsciiUpper high :: toAsciiUpper low :: normalizePercentHex rest
    else '%' :: normalizePercentHex (high :: low :: rest)
  | c :: rest => c :: normalizePercentHex rest
  | [] => []

def splitTracking : List (List Char) → List (List Char) × List String
  | [] => ([], [])
  | segment :: rest =>
    let (kept, removed) := splitTracking rest
    let key := match splitOnce ['='] segment with
      | some (key, _) => key
      | none => segment
    let lower := key.map toAsciiLower
    if "utm_".toList.isPrefixOf lower || trackingKeys.any (fun k => k.toList == lower) then
      (kept, String.ofList key :: removed)
    else (segment :: kept, removed)

section

variable {Url : Type} [UrlCrate Url]

open UrlCrate

def structuralTransformations (raw : List Char) (parsed : Url) : List CanonicalTransformation :=
  let schemeChange := match splitOnce [':'] raw with
    | some (scheme, _) => scheme != scheme.map toAsciiLower
    | none => false
  let hostChange : List CanonicalTransformation := match rawHost raw with
    | none => []
    | some rawHost =>
      if !rawHost.all (fun c => c.toNat < 128) then [.idnToPunycode]
      else match hostStr parsed with
        | none => []
        | some host =>
          if rawHost ≠ host.toList ∧ rawHost.map toAsciiLower = host.toList.map toAsciiLower then
            [.lowercaseHost]
          else []
  (if schemeChange then [.lowercaseScheme] else []) ++ hostChange ++
    (if hasDefaultPort raw (scheme parsed) then [.removeDefaultPort] else []) ++
    (if hasEmptyPath raw then [.addRootPath] else [])

def percentStep (url : Url) : Url × List CanonicalTransformation :=
  let normalized := String.ofList (normalizePercentHex (asStr url).toList)
  if normalized ≠ asStr url then
    match parse normalized with
    | some url => (url, [.normalizePercentHex])
    | none => (url, [])
  else (url, [])

def trackingStep (url : Url) : Url × List CanonicalTransformation :=
  match query url with
  | none => (url, [])
  | some text =>
    let (kept, removed) := splitTracking (splitBy (· == '&') text.toList)
    let kept := if kept.isEmpty then none else some (String.ofList (join ['&'] kept))
    (setQuery kept url, removed.map .removeTrackingParameter)

def fragmentStep (url : Url) : Url × List CanonicalTransformation :=
  if fragment url = some "" then (setFragment none url, [.removeEmptyFragment]) else (url, [])

def canonicalize (result : NormalizedResult Url) : CanonicalResult Url :=
  let (url, percent) := percentStep result.url
  let (url, tracking) := trackingStep url
  let (url, emptied) := fragmentStep url
  let malformed := hasMalformedPercentEncoding result.rawUrl.toList
  { title := result.title, originalUrl := result.url, canonicalUrl := url,
    provider := result.provider, providerRank := result.providerRank, snippet := result.snippet,
    resultType := result.resultType, publishedAt := result.publishedAt, author := result.author,
    language := result.language, fileType := result.fileType, thumbnail := result.thumbnail,
    metadata := result.metadata, provenance := result.provenance,
    transformations :=
      structuralTransformations result.rawUrl.toList result.url ++ percent ++ tracking ++ emptied,
    canonicalizationStatus := if malformed then .degraded else .complete,
    degradations := if malformed then
        result.degradations ++ [⟨"canonicalization_incomplete", "canonicalization",
          "malformed percent escape was preserved conservatively"⟩]
      else result.degradations }

theorem canonicalize_provider (result : NormalizedResult Url) :
    (canonicalize result).provider = result.provider := rfl

end

end Amatl
