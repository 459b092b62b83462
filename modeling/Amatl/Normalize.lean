import Amatl.Model
import Amatl.Security

/-! Cleaning of provider items: text fields, dates, thumbnails and metadata. An
item is dropped only when its URL fails the contract. -/

namespace Amatl

def degradation (code message : String) : Degradation := ⟨code, "normalization", message⟩

/-- One pass of the reference loop per unit of fuel; every pass that goes on
shortens the text. -/
def decodeNumericEntities : Nat → List Char → List Char
  | 0, output => output
  | fuel + 1, output =>
    match Text.find "&#".toList output with
    | none => output
    | some start =>
      match Text.find [';'] (output.drop start) with
      | none => output
      | some relativeEnd =>
        let entity := (output.drop (start + 2)).take (relativeEnd - 2)
        let hex := match entity with
          | 'x' :: digits => Text.parseUnsigned 16 (2 ^ 32) digits
          | 'X' :: digits => Text.parseUnsigned 16 (2 ^ 32) digits
          | _ => none
        let code := hex.or (Text.parseUnsigned 10 (2 ^ 32) entity)
        match code with
        | none => output
        | some code =>
          if code.isValidChar then
            decodeNumericEntities fuel
              (output.take start ++ Char.ofNat code :: output.drop (start + relativeEnd + 1))
          else output

def namedEntities : List (String × String) :=
  [("&amp;", "&"), ("&lt;", "<"), ("&gt;", ">"), ("&quot;", "\""), ("&#39;", "'"),
    ("&apos;", "'"), ("&nbsp;", " ")]

def decodeHtmlEntities (value : List Char) : List Char :=
  let output := namedEntities.foldl
    (fun text entity => Text.replace entity.1.toList entity.2.toList text) value
  decodeNumericEntities output.length output

def cleanText (value : String) : Option String :=
  if value.toList.any (fun c => c.toNat == 0 || c.toNat == 0xfffd) ||
      value.toList.any (fun c => Text.isControl c && !Text.isWhitespace c) then none
  else
    let clean := Text.join [' '] (Text.splitWhitespace (decodeHtmlEntities value.toList))
    if clean.isEmpty then none else some (String.ofList clean)

def cleanField (value : Option String) (field : String) : Option String × List Degradation :=
  match value with
  | none => (none, [])
  | some value =>
    match cleanText value with
    | some clean => (some clean, [])
    | none => (none, [degradation ("invalid_" ++ field) ("invalid " ++ field ++ " was removed")])

def cleanMetadata : List (String × String) → List (String × String) × List Degradation
  | [] => ([], [])
  | (key, value) :: rest =>
    let (kept, degradations) := cleanMetadata rest
    match cleanText value with
    | some clean => ((key, clean) :: kept, degradations)
    | none => (kept, degradation "invalid_metadata_field" "invalid metadata field was removed" ::
        degradations)

section

variable [TimeCrate]

def normalizeDate (value : String) : Option String :=
  (TimeCrate.reformatRfc3339 value).or (TimeCrate.midnightRfc3339 value)

/-- An unreadable date moves to the metadata. -/
def normalizePublishedAt (value : Option String) (metadata : List (String × String)) :
    Option String × List (String × String) × List Degradation :=
  match value with
  | none => (none, metadata, [])
  | some value =>
    match normalizeDate value with
    | some date => (some date, metadata, [])
    | none => (none, OrdMap.insert "reported_published_at_invalid" value metadata,
        [degradation "invalid_published_at" "invalid published date was preserved as metadata"])

variable {Url : Type} [UrlCrate Url]

variable (Url) in
def cleanThumbnail (value : Option String) : Option String × List Degradation :=
  match value with
  | none => (none, [])
  | some value =>
    match (validateSearchUrl value : Except String Url) with
    | .ok _ => (some value, [])
    | .error _ => (none, [degradation "invalid_thumbnail_url" "invalid thumbnail was removed"])

def fieldProvenance (reportedType : Bool) (present : List (String × Bool)) :
    List (String × FieldProvenance) :=
  let base := OrdMap.ofList [("url", FieldProvenance.reported),
    ("result_type", if reportedType then .reported else .derived)]
  present.foldl (fun m f => if f.2 then OrdMap.insert f.1 .reported m else m) base

/-- The body of the item loop for an item whose URL was accepted. -/
def normalizeItem (provider : String) (url : Url) (item : ProviderItem) : NormalizedResult Url :=
  let (title, d1) := cleanField item.title "title"
  let (snippet, d2) := cleanField item.snippet "snippet"
  let (author, d3) := cleanField item.author "author"
  let (language, d4) := cleanField item.language "language"
  let (fileType, d5) := cleanField item.fileType "file_type"
  let (thumbnail, d6) := cleanThumbnail Url item.thumbnail
  let (metadata, d7) := cleanMetadata item.metadata
  let (publishedAt, metadata, d8) := normalizePublishedAt item.publishedAt metadata
  { title, rawUrl := item.url, url, provider, providerRank := item.providerRank, snippet,
    resultType := item.resultType.getD .organic, publishedAt, author, language, fileType,
    thumbnail, metadata,
    provenance := fieldProvenance item.resultType.isSome
      [("title", title.isSome), ("snippet", snippet.isSome), ("published_at", publishedAt.isSome),
        ("author", author.isSome), ("language", language.isSome), ("file_type", fileType.isSome),
        ("thumbnail", thumbnail.isSome), ("metadata", !metadata.isEmpty)],
    degradations := d1 ++ d2 ++ d3 ++ d4 ++ d5 ++ d6 ++ d7 ++ d8 }

/-- One provider item: the cleaned result, or the degradation it leaves behind. -/
def normalizeOne (provider : String) (item : ProviderItem) :
    Except Degradation (NormalizedResult Url) :=
  match (validateSearchUrl item.url : Except String Url) with
  | .error code => .error (degradation code "provider item discarded due to URL contract")
  | .ok url => .ok (normalizeItem provider url item)

/-- The items of all providers, in arrival order, each with its provider. -/
def arrivals (results : List ProviderResult) : List (String × ProviderItem) :=
  results.flatMap (fun r => r.results.map (fun item => (r.provider, item)))

def normalize (results : List ProviderResult) : List (NormalizedResult Url) × List Degradation :=
  let cleaned := (arrivals results).map (fun a =>
    (normalizeOne a.1 a.2 : Except Degradation (NormalizedResult Url)))
  (cleaned.filterMap Except.toOption,
    cleaned.filterMap (fun r => match r with
      | .error d => some d
      | .ok _ => none))

end

end Amatl
