import Mathlib.Data.List.Basic

/-! UTF-8 as the Rust standard library decodes it: `from_utf8` refuses a text
with an ill-formed sequence, `from_utf8_lossy` puts one replacement character
for every longest beginning of a sequence that cannot be completed. -/

namespace Utf8

/-- What a leading byte asks for: how many bytes follow, the range of the first
of them and the bits the leading byte gives. -/
def lead (b : UInt8) : Option (Nat × UInt8 × UInt8 × Nat) :=
  if 0xc2 ≤ b && b ≤ 0xdf then some (1, 0x80, 0xbf, b.toNat - 0xc0)
  else if b == 0xe0 then some (2, 0xa0, 0xbf, 0)
  else if b == 0xed then some (2, 0x80, 0x9f, 0xd)
  else if 0xe1 ≤ b && b ≤ 0xef then some (2, 0x80, 0xbf, b.toNat - 0xe0)
  else if b == 0xf0 then some (3, 0x90, 0xbf, 0)
  else if 0xf1 ≤ b && b ≤ 0xf3 then some (3, 0x80, 0xbf, b.toNat - 0xf0)
  else if b == 0xf4 then some (3, 0x80, 0x8f, 4)
  else none

/-- The rest of a sequence: its character, or `none` where it breaks off. -/
def follow : Nat → UInt8 → UInt8 → Nat → List UInt8 → Option Char × List UInt8
  | 0, _, _, value, rest => (some (Char.ofNat value), rest)
  | _ + 1, _, _, _, [] => (none, [])
  | need + 1, low, high, value, b :: rest =>
    if low ≤ b && b ≤ high then follow need 0x80 0xbf (value * 64 + (b.toNat - 0x80)) rest
    else (none, b :: rest)

def next (b : UInt8) (rest : List UInt8) : Option Char × List UInt8 :=
  if b < 0x80 then (some (Char.ofNat b.toNat), rest)
  else match lead b with
    | none => (none, rest)
    | some (need, low, high, value) => follow need low high value rest

/-- The characters of a text, `none` for an ill-formed sequence. A character
takes at least one byte, so the number of bytes is fuel enough. -/
def decodeFrom : Nat → List UInt8 → List (Option Char)
  | 0, _ => []
  | _ + 1, [] => []
  | fuel + 1, b :: rest => (next b rest).1 :: decodeFrom fuel (next b rest).2

def decode (bytes : List UInt8) : List (Option Char) := decodeFrom bytes.length bytes

def fromUtf8 (bytes : List UInt8) : Option (List Char) :=
  if (decode bytes).all Option.isSome then some ((decode bytes).filterMap id) else none

def fromUtf8Lossy (bytes : List UInt8) : List Char :=
  (decode bytes).map (fun c => c.getD (Char.ofNat 0xfffd))

end Utf8
