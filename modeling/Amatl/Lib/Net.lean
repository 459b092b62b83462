import Amatl.Lib.Text
import Mathlib.Data.UInt

/-! Internet addresses as the Rust standard library has them: the address
predicates, and the text forms read by `FromStr`. -/

namespace Net

@[ext]
structure Ipv4Addr where
  a : UInt8
  b : UInt8
  c : UInt8
  d : UInt8
  deriving DecidableEq, Repr

/-- Eight 16-bit segments, most significant first. -/
@[ext]
structure Ipv6Addr where
  segments : List UInt16
  size : segments.length = 8
  deriving DecidableEq

inductive IpAddr where
  | v4 (address : Ipv4Addr)
  | v6 (address : Ipv6Addr)
  deriving DecidableEq

inductive Host where
  | domain (name : String)
  | ipv4 (address : Ipv4Addr)
  | ipv6 (address : Ipv6Addr)
  deriving DecidableEq

@[ext]
structure SocketAddr where
  ip : IpAddr
  port : UInt16
  deriving DecidableEq

namespace Ipv4Addr

def isPrivate (x : Ipv4Addr) : Bool :=
  x.a == 10 || (x.a == 172 && 16 ≤ x.b && x.b ≤ 31) || (x.a == 192 && x.b == 168)

def isLoopback (x : Ipv4Addr) : Bool := x.a == 127

def isLinkLocal (x : Ipv4Addr) : Bool := x.a == 169 && x.b == 254

def isBroadcast (x : Ipv4Addr) : Bool := x.a == 255 && x.b == 255 && x.c == 255 && x.d == 255

def isDocumentation (x : Ipv4Addr) : Bool :=
  (x.a == 192 && x.b == 0 && x.c == 2) || (x.a == 198 && x.b == 51 && x.c == 100) ||
    (x.a == 203 && x.b == 0 && x.c == 113)

def isUnspecified (x : Ipv4Addr) : Bool := x.a == 0 && x.b == 0 && x.c == 0 && x.d == 0

def isMulticast (x : Ipv4Addr) : Bool := 224 ≤ x.a && x.a ≤ 239

end Ipv4Addr

namespace Ipv6Addr

def isLoopback (x : Ipv6Addr) : Bool := x.segments == [0, 0, 0, 0, 0, 0, 0, 1]

def isUnspecified (x : Ipv6Addr) : Bool := x.segments == [0, 0, 0, 0, 0, 0, 0, 0]

def segment (x : Ipv6Addr) (i : Nat) : UInt16 := x.segments.getD i 0

def isMulticast (x : Ipv6Addr) : Bool := x.segment 0 &&& 0xff00 == 0xff00

def toIpv4Mapped (x : Ipv6Addr) : Option Ipv4Addr :=
  match x.segments with
  | [0, 0, 0, 0, 0, 0xffff, high, low] =>
    some ⟨(high >>> 8).toUInt8, high.toUInt8, (low >>> 8).toUInt8, low.toUInt8⟩
  | _ => none

end Ipv6Addr

def IpAddr.isLoopback : IpAddr → Bool
  | .v4 x => x.isLoopback
  | .v6 x => x.isLoopback

/-- Digits in the given radix, at most `digits` of them, and the rest. A zero in
front of other digits is refused when `zeroPrefix` is off. -/
def readNumber (radix digits bound : Nat) (zeroPrefix : Bool) (s : List Char) :
    Option (Nat × List Char) :=
  let word := s.takeWhile (fun c => (Text.digitValue radix c).isSome)
  let value := (Text.digitsValue radix word none).getD 0
  if word.isEmpty || digits < word.length || bound ≤ value then none
  else if !zeroPrefix && word.head? == some '0' && 1 < word.length then none
  else some (value, s.drop word.length)

def readSeparator (sep : Char) (index : Nat) (s : List Char) : Option (List Char) :=
  if index = 0 then some s
  else match s with
    | c :: rest => if c = sep then some rest else none
    | [] => none

def readOctet (index : Nat) (s : List Char) : Option (UInt8 × List Char) := do
  let (value, rest) ← readNumber 10 3 256 false (← readSeparator '.' index s)
  return (UInt8.ofNat value, rest)

def readIpv4 (s : List Char) : Option (Ipv4Addr × List Char) := do
  let (a, s) ← readOctet 0 s
  let (b, s) ← readOctet 1 s
  let (c, s) ← readOctet 2 s
  let (d, s) ← readOctet 3 s
  return (⟨a, b, c, d⟩, s)

/-- Up to `limit` groups from position `index` on. The flag says whether the last
two came from an embedded IPv4 address, for which two places must be left. -/
def readGroups : (limit index : Nat) → List Char → List UInt16 × Bool × List Char
  | 0, _, s => ([], false, s)
  | limit + 1, index, s =>
    let embedded := if 0 < limit then (readSeparator ':' index s).bind readIpv4 else none
    match embedded with
    | some (x, rest) =>
      ([x.a.toUInt16 <<< 8 ||| x.b.toUInt16, x.c.toUInt16 <<< 8 ||| x.d.toUInt16], true, rest)
    | none =>
      match (readSeparator ':' index s).bind (readNumber 16 4 65536 true) with
      | none => ([], false, s)
      | some (value, rest) =>
        let (groups, ipv4, rest) := readGroups limit (index + 1) rest
        (UInt16.ofNat value :: groups, ipv4, rest)

def ipv6OfSegments (segments : List UInt16) : Option Ipv6Addr :=
  if h : segments.length = 8 then some ⟨segments, h⟩ else none

def readIpv6 (s : List Char) : Option (Ipv6Addr × List Char) :=
  let (head, ipv4, rest) := readGroups 8 0 s
  if head.length = 8 then (ipv6OfSegments head).map (fun x => (x, rest))
  else if ipv4 then none
  else match rest with
    | ':' :: ':' :: rest =>
      let (tail, _, rest) := readGroups (8 - (head.length + 1)) 0 rest
      let zeros := List.replicate (8 - head.length - tail.length) 0
      (ipv6OfSegments (head ++ zeros ++ tail)).map (fun x => (x, rest))
    | _ => none

/-- `IpAddr::from_str`: an IPv4 address first, then an IPv6 address, with nothing
after it. -/
def parseIpAddr (s : String) : Option IpAddr :=
  let all {α : Type} : Option (α × List Char) → Option α
    | some (x, []) => some x
    | _ => none
  match readIpv4 s.toList with
  | some (x, rest) => all (some (IpAddr.v4 x, rest))
  | none => all ((readIpv6 s.toList).map (fun r => (IpAddr.v6 r.1, r.2)))

example : parseIpAddr "127.0.0.1" = some (.v4 ⟨127, 0, 0, 1⟩) := by decide
example : parseIpAddr "0.0.0.0" = some (.v4 ⟨0, 0, 0, 0⟩) := by decide
example : parseIpAddr "::1" = some (.v6 ⟨[0, 0, 0, 0, 0, 0, 0, 1], rfl⟩) := by decide
example : parseIpAddr "127.00.0.1" = none := by decide

end Net
