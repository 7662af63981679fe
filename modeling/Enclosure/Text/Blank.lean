import Enclosure.Text.Rune

/-!
# White space

The white-space characters are the twenty-five code points with the Unicode property
`White_Space`. Two readings of it are needed: on runes, to count the leading white space of a line,
and on bytes from both ends, to trim a text. The second looks for the encodings themselves, from
the front on the text and from the back on its reversal.

## Main definitions

* `Rune.isBlank`: the property on runes.
* `Text.trimStart`, `Text.trimEnd`, `Text.trim`: a text without the white space at its ends.
* `Text.isBlank`: a text of white space only.
-/

namespace Enclosure

/-- The code points with the property `White_Space`. -/
def blankCodes : List Nat :=
  [0x09, 0x0A, 0x0B, 0x0C, 0x0D, 0x20, 0x85, 0xA0, 0x1680, 0x2000, 0x2001, 0x2002, 0x2003, 0x2004,
    0x2005, 0x2006, 0x2007, 0x2008, 0x2009, 0x200A, 0x2028, 0x2029, 0x202F, 0x205F, 0x3000]

/-- A white-space character. A stray byte is none. -/
def Rune.isBlank : Rune → Bool
  | scalar c => blankCodes.contains c.toNat
  | stray _ => false

namespace Text

/-- White-space characters of one byte. -/
def isBlankByte (b : UInt8) : Bool :=
  (9 ≤ b && b ≤ 13) || b == 32

/-- Encodings of two bytes: next line and no-break space. -/
def isBlankPair (b₀ b₁ : UInt8) : Bool :=
  b₀ == 0xC2 && (b₁ == 0x85 || b₁ == 0xA0)

/-- Encodings of three bytes: Ogham space mark, the spaces from U+2000 to U+200A, line and
paragraph separator, narrow no-break space, medium mathematical space and ideographic space. -/
def isBlankTriple (b₀ b₁ b₂ : UInt8) : Bool :=
  (b₀ == 0xE1 && b₁ == 0x9A && b₂ == 0x80)
    || (b₀ == 0xE2 && b₁ == 0x80
      && ((0x80 ≤ b₂ && b₂ ≤ 0x8A) || b₂ == 0xA8 || b₂ == 0xA9 || b₂ == 0xAF))
    || (b₀ == 0xE2 && b₁ == 0x81 && b₂ == 0x9F)
    || (b₀ == 0xE3 && b₁ == 0x80 && b₂ == 0x80)

/-- The number of bytes of the white-space character a text starts with, or 0. -/
def blankWidth : Text → Nat
  | [] => 0
  | [b] => if isBlankByte b then 1 else 0
  | [b₀, b₁] => if isBlankByte b₀ then 1 else if isBlankPair b₀ b₁ then 2 else 0
  | b₀ :: b₁ :: b₂ :: _ =>
    if isBlankByte b₀ then 1
    else if isBlankPair b₀ b₁ then 2
    else if isBlankTriple b₀ b₁ b₂ then 3
    else 0

/-- As `blankWidth`, for the last character of a text that is given in reverse. -/
def blankWidthBack : Text → Nat
  | [] => 0
  | [b] => if isBlankByte b then 1 else 0
  | [b₁, b₀] => if isBlankByte b₁ then 1 else if isBlankPair b₀ b₁ then 2 else 0
  | b₂ :: b₁ :: b₀ :: _ =>
    if isBlankByte b₂ then 1
    else if isBlankPair b₁ b₂ then 2
    else if isBlankTriple b₀ b₁ b₂ then 3
    else 0

/-- Drops characters from the front as long as `width` says that there is one to drop. The number
counts the bytes of the current character that are still to go. -/
def dropUnits (width : Text → Nat) : Nat → Text → Text
  | _, [] => []
  | skip + 1, _ :: t => dropUnits width skip t
  | 0, b :: t =>
    match width (b :: t) with
    | 0 => b :: t
    | skip + 1 => dropUnits width skip t

/-- The text without its leading white space. -/
def trimStart (t : Text) : Text :=
  dropUnits blankWidth 0 t

/-- The text without its trailing white space. -/
def trimEnd (t : Text) : Text :=
  (dropUnits blankWidthBack 0 t.reverse).reverse

/-- The text without the white space at either end. -/
def trim (t : Text) : Text :=
  trimEnd (trimStart t)

/-- A text of white space only. -/
def isBlank (t : Text) : Bool :=
  (trim t).isEmpty

/-- The number of leading white-space characters; a tab counts as one. -/
def indent (t : Text) : Nat :=
  (t.runes.takeWhile Rune.isBlank).length

end Text

end Enclosure
