import Amatl.Lib.Net
import Amatl.Lib.Text
import Mathlib.Algebra.Field.Rat

/-! The third-party code and the Unicode tables the program is built on, as
parameters of the model. Nothing is assumed of them here; a result that relies
on documented behaviour says so in its own hypotheses. -/

namespace Amatl

/-- The `url` crate. `asStr` is the serialization, which is also what `Ord` and
`Eq` compare. -/
class UrlCrate (Url : Type) where
  parse : String → Option Url
  asStr : Url → String
  scheme : Url → String
  username : Url → String
  password : Url → Option String
  host : Url → Option Net.Host
  hostStr : Url → Option String
  portOrKnownDefault : Url → Option UInt16
  /-- `none` where the port is the scheme's own. -/
  port : Url → Option UInt16
  path : Url → String
  query : Url → Option String
  fragment : Url → Option String
  setQuery : Option String → Url → Url
  setFragment : Option String → Url → Url
  join : Url → String → Option Url

/-- NFKC from `unicode-normalization` and the character tables of `char` and
`str`. -/
class UnicodeTables where
  nfkc : List Char → List Char
  toLowercase : Char → List Char
  /-- `str::to_lowercase`, which also knows the final sigma. -/
  strToLowercase : List Char → List Char
  isAlphanumeric : Char → Bool

/-- The `time` crate: instants are nanoseconds of the Unix clock, days are
Julian day numbers. -/
class TimeCrate where
  parseRfc3339 : String → Option Int
  /-- Parse as RFC 3339 and print in the crate's own RFC 3339 form. -/
  reformatRfc3339 : String → Option String
  /-- Parse `[year]-[month]-[day]` and print midnight UTC as RFC 3339. -/
  midnightRfc3339 : String → Option String
  parseIsoDate : String → Option Int

/-- The `http` crate's checks on header names, header values and authorities. -/
class HttpCrate where
  headerName : String → Bool
  headerValue : String → Bool
  authority : String → Bool
  /-- `Authority::host` of a text that is an authority. -/
  authorityHost : String → String

/-- The `sha2` crate on the bytes of a text. -/
class Sha256 where
  digest : String → Vector UInt8 32

/-- A digest in hexadecimal digits, two for each byte. -/
def hexDigest [Sha256] (value : String) : String :=
  String.ofList ((Sha256.digest value).toList.flatMap (fun byte =>
    [Nat.digitChar (byte.toNat / 16), Nat.digitChar (byte.toNat % 16)]))

/-- `2_f64.powf` on exact arguments. -/
class Powf where
  exp2 : ℚ → ℚ

/-- The URLs `https://host/path` that the crate stores as they are written: a
lower-case host name and a path that needs no escape. -/
structure PlainUrl where
  host : String
  path : String
  deriving DecidableEq, Repr

def PlainUrl.parse (text : String) : Option PlainUrl :=
  match Text.splitOnce "https://".toList text.toList with
  | some ([], rest) =>
    match Text.splitOnce ['/'] rest with
    | none => some ⟨String.ofList rest, "/"⟩
    | some (host, path) => some ⟨String.ofList host, "/" ++ String.ofList path⟩
  | _ => none

instance : UrlCrate PlainUrl where
  parse := PlainUrl.parse
  asStr url := "https://" ++ url.host ++ url.path
  scheme _ := "https"
  username _ := ""
  password _ := none
  host url := some (.domain url.host)
  hostStr url := some url.host
  portOrKnownDefault _ := some 443
  port _ := none
  path url := url.path
  query _ := none
  fragment _ := none
  setQuery _ url := url
  setFragment _ url := url
  join _ location := PlainUrl.parse location

structure PageUrl where
  host : String
  path : String
  fragment : Option String
  deriving DecidableEq, Repr

def PageUrl.at (host : String) (rest : List Char) : PageUrl :=
  match Text.splitOnce ['#'] rest with
  | none => ⟨host, String.ofList rest, none⟩
  | some (path, fragment) => ⟨host, String.ofList path, some (String.ofList fragment)⟩

def PageUrl.parse (text : String) : Option PageUrl :=
  match Text.splitOnce "https://".toList text.toList with
  | some ([], rest) =>
    match Text.splitOnce ['/'] rest with
    | none => some ⟨String.ofList rest, "/", none⟩
    | some (host, path) => some (PageUrl.at (String.ofList host) ('/' :: path))
  | _ => none

instance : UrlCrate PageUrl where
  parse := PageUrl.parse
  asStr url := "https://" ++ url.host ++ url.path ++ (url.fragment.map ("#" ++ ·)).getD ""
  scheme _ := "https"
  username _ := ""
  password _ := none
  host url := some (.domain url.host)
  hostStr url := some url.host
  portOrKnownDefault _ := some 443
  port _ := none
  path url := url.path
  query _ := none
  fragment url := url.fragment
  setQuery _ url := url
  setFragment fragment url := { url with fragment }
  join url location :=
    match location.toList with
    | '/' :: path => some (PageUrl.at url.host ('/' :: path))
    | c :: fragment =>
      if c = '#' then some { url with fragment := some (String.ofList fragment) }
      else PageUrl.parse location
    | [] => some { url with fragment := none }

/-- The Unicode tables on ASCII text, where NFKC changes nothing. -/
@[reducible] def asciiTables : UnicodeTables where
  nfkc text := text
  toLowercase c := [Text.toAsciiLower c]
  strToLowercase text := text.map Text.toAsciiLower
  isAlphanumeric c := Text.isAsciiDigit c || Text.isAsciiLower c || Text.isAsciiUpper c

@[reducible] def noDates : TimeCrate where
  parseRfc3339 _ := none
  reformatRfc3339 _ := none
  midnightRfc3339 _ := none
  parseIsoDate _ := none

@[reducible] def integerPowers : Powf where
  exp2 exponent := 2 ^ exponent.num

@[reducible] def plainHeaders : HttpCrate where
  headerName _ := true
  headerValue _ := true
  authority _ := true
  authorityHost authority := String.ofList (authority.toList.takeWhile (· != ':'))

def sampleToken : String := "0123456789abcdef0123456789abcdef"

@[reducible] def sampleSha256 : Sha256 where
  digest token :=
    if token = sampleToken then #v[62, 177, 189, 67, 153, 71, 235, 118, 41, 152, 229, 102, 204,
        194, 224, 153, 199, 145, 17, 139, 47, 64, 87, 156, 196, 247, 218, 43, 80, 97, 183, 249]
    else Vector.replicate 32 0

end Amatl
