import Amatl.Externals
import Amatl.Lib.OrdMap

/-! Text folding for ranking and for title comparison. -/

namespace Amatl

/-- Characters folded to a Latin lookalike, grouped by what they fold to. -/
def confusables : List (String × String) :=
  [("аА", "a"), ("еЕ", "e"), ("оО", "o"), ("рР", "p"), ("сС", "c"), ("уУ", "y"), ("хХ", "x"),
    ("іІ", "i"), ("јЈ", "j"), ("ѕЅ", "s"), ("ѵѴ", "v"), ("ѡѠ", "w"), ("һҺ", "h"), ("ԁԀ", "d"),
    ("ԛԚ", "q"), ("тТ", "t"), ("Ьь", "b"), ("Α", "a"), ("Β", "b"), ("Ε", "e"), ("Ζ", "z"),
    ("Η", "h"), ("Ι", "i"), ("Κ", "k"), ("Μ", "m"), ("Ν", "n"), ("Ο", "o"), ("Ρ", "p"),
    ("Τ", "t"), ("Υ", "y"), ("Χ", "x"), ("α", "a"), ("ε", "e"), ("ι", "i"), ("κ", "k"),
    ("ν", "v"), ("ο", "o"), ("ρ", "p"), ("τ", "t"), ("υ", "u"), ("χ", "x"), ("ɑɐɒᴀᴁ", "a"),
    ("ʙ", "b"), ("ᴄƈɕʗ", "c"), ("ᴅ", "d"), ("ᴇɛɜ", "e"), ("ꜰ", "f"), ("ɢ", "g"), ("ʜ", "h"),
    ("ɪɩ", "i"), ("ᴊ", "j"), ("ᴋ", "k"), ("ʟⅼǀǁ", "l"), ("ᴍ", "m"), ("ɴ", "n"), ("ᴏ", "o"),
    ("ᴘ", "p"), ("ǫ", "q"), ("ʀ", "r"), ("ꜱ", "s"), ("ᴛ", "t"), ("ᴜ", "u"), ("ᴠ", "v"),
    ("ᴡ", "w"), ("ʏ", "y"), ("ᴢʐ", "z"), ("ⅰⅠ", "i"), ("ⅱⅡ", "ii"), ("ⅲⅢ", "iii"), ("ⅳⅣ", "iv"),
    ("ⅴⅤ", "v"), ("ⅵⅥ", "vi"), ("ⅶⅦ", "vii"), ("ⅷⅧ", "viii"), ("ⅸⅨ", "ix"), ("ⅹⅩ", "x"),
    ("ⅺⅪ", "xi"), ("ⅻⅫ", "xii"), ("ⅽⅭ", "c"), ("ⅾⅮ", "d"), ("ⅿⅯ", "m"), ("ˡ", "l"), ("ʰ", "h"),
    ("ʸ", "y"), ("ᵗ", "t"), ("ᵘ", "u"), ("ᵛ", "v"), ("ᵃ", "a"), ("ᵇ", "b"), ("ᶜ", "c"),
    ("ᵈ", "d"), ("ᵉ", "e"), ("ᶠ", "f"), ("ᵍ", "g"), ("ᵢ", "i"), ("ʲ", "j"), ("ᵏ", "k"),
    ("ᵐ", "m"), ("ⁿ", "n"), ("ᵒ", "o"), ("ᵖ", "p"), ("ʳ", "r"), ("ˢ", "s"), ("ʷ", "w"),
    ("ˣ", "x"), ("ᶻ", "z"), ("ǃ", "i")]

def foldConfusableChar (character : Char) : Option (List Char) :=
  (confusables.find? (fun row => row.1.toList.contains character)).map (fun row => row.2.toList)

section

variable [UnicodeTables]

open UnicodeTables

def joinWords (text : List Char) : List Char := Text.join [' '] (Text.splitWhitespace text)

def caseFold (character : Char) : List Char :=
  if character = 'ß' ∨ character = 'ẞ' then ['s', 's']
  else if character = 'ς' then ['σ']
  else toLowercase character

def confusableFold (character : Char) : List Char :=
  if character = 'ß' ∨ character = 'ẞ' then ['s', 's']
  else if character = 'ς' then ['σ']
  else (foldConfusableChar character).getD (toLowercase character)

def normalizedText (value : List Char) : List Char := joinWords ((nfkc value).flatMap caseFold)

def normalizedConfusableText (value : List Char) : List Char :=
  joinWords ((nfkc value).flatMap confusableFold)

def alphanumericTokens (text : List Char) : List String :=
  OrdMap.setOf (((Text.splitBy (fun c => !isAlphanumeric c) text).filter (fun t => !t.isEmpty)).map
    String.ofList)

def tokens (value : List Char) : List String := alphanumericTokens (normalizedText value)

end

end Amatl
