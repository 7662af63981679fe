import Enclosure.Text.Basic

/-!
# Characters of a byte text

A byte text is read from the left as a sequence of *runes*. A rune is either a character, given by
a well-formed UTF-8 sequence, or one stray byte that starts no such sequence. Overlong forms,
surrogates and values beyond U+10FFFF are not well formed, so each of their bytes is stray. A byte
that can start a sequence never continues one, which is why reading can always resume at the byte
after a stray one.

## Main definitions

* `Rune`: a character or a stray byte.
* `Text.runes`: the runes of a text, in order.
* `Rune.bytes`: the bytes a rune was read from.
* `Rune.repaired`: the bytes of a rune with U+FFFD in place of a stray byte.
-/

namespace Enclosure

/-- One unit of a byte text: a character, or a byte that belongs to none. -/
inductive Rune where
  /-- A character in its well-formed encoding. -/
  | scalar (c : Char)
  /-- A byte that starts no well-formed sequence. -/
  | stray (b : UInt8)
deriving DecidableEq, Repr

namespace Rune

/-- The bytes a rune was read from. -/
def bytes : Rune → Text
  | scalar c => String.utf8EncodeChar c
  | stray b => [b]

/-- The character shown for a rune: U+FFFD stands for a stray byte. -/
def toChar : Rune → Char
  | scalar c => c
  | stray _ => '\uFFFD'

/-- The code point of the character shown for a rune. -/
def code (r : Rune) : Nat :=
  r.toChar.toNat

/-- The encoding of the character shown for a rune. -/
def repaired (r : Rune) : Text :=
  String.utf8EncodeChar r.toChar

/-- A byte that can continue a sequence. -/
def isContinuation (b : UInt8) : Bool :=
  0x80 ≤ b && b ≤ 0xBF

/-- The payload of a continuation byte. -/
def payload (b : UInt8) : Nat :=
  b.toNat % 64

/-- Whether `b₁` may follow the leading byte `b₀`. The narrower ranges after E0, ED, F0 and F4
rule out overlong forms, surrogates and values beyond U+10FFFF. -/
def isSecond (b₀ b₁ : UInt8) : Bool :=
  if b₀ == 0xE0 then 0xA0 ≤ b₁ && b₁ ≤ 0xBF
  else if b₀ == 0xED then 0x80 ≤ b₁ && b₁ ≤ 0x9F
  else if b₀ == 0xF0 then 0x90 ≤ b₁ && b₁ ≤ 0xBF
  else if b₀ == 0xF4 then 0x80 ≤ b₁ && b₁ ≤ 0x8F
  else isContinuation b₁

/-- The rune at the front of the text `b₀ :: t`, and how many bytes of `t` it takes. -/
def first (b₀ : UInt8) (t : Text) : Rune × Nat :=
  if b₀ < 0x80 then (scalar (Char.ofNat b₀.toNat), 0)
  else if 0xC2 ≤ b₀ && b₀ ≤ 0xDF then
    match t with
    | b₁ :: _ =>
      if isSecond b₀ b₁ then
        (scalar (Char.ofNat (b₀.toNat % 32 * 64 + payload b₁)), 1)
      else (stray b₀, 0)
    | _ => (stray b₀, 0)
  else if 0xE0 ≤ b₀ && b₀ ≤ 0xEF then
    match t with
    | b₁ :: b₂ :: _ =>
      if isSecond b₀ b₁ && isContinuation b₂ then
        (scalar (Char.ofNat (b₀.toNat % 16 * 4096 + payload b₁ * 64 + payload b₂)), 2)
      else (stray b₀, 0)
    | _ => (stray b₀, 0)
  else if 0xF0 ≤ b₀ && b₀ ≤ 0xF4 then
    match t with
    | b₁ :: b₂ :: b₃ :: _ =>
      if isSecond b₀ b₁ && isContinuation b₂ && isContinuation b₃ then
        (scalar (Char.ofNat
          (b₀.toNat % 8 * 262144 + payload b₁ * 4096 + payload b₂ * 64 + payload b₃)), 3)
      else (stray b₀, 0)
    | _ => (stray b₀, 0)
  else (stray b₀, 0)

/-- A rune that is a decimal digit, an ASCII letter or an underscore. -/
def isWord : Rune → Bool
  | scalar c => c.toNat < 128 && Text.isWord c.toUInt8
  | stray _ => false

end Rune

namespace Text

/-- Reads runes from the left. `acc` holds the runes read so far, in reverse, and `skip` counts the
bytes that still belong to the last of them. -/
def runesFrom (acc : List Rune) : Nat → Text → List Rune
  | _, [] => acc.reverse
  | skip + 1, _ :: t => runesFrom acc skip t
  | 0, b :: t =>
    let (r, width) := Rune.first b t
    runesFrom (r :: acc) width t

/-- The runes of a text, in order. -/
def runes (t : Text) : List Rune :=
  runesFrom [] 0 t

/-- The bytes of some runes, in order. -/
def ofRunes (rs : List Rune) : Text :=
  rs.flatMap Rune.bytes

/-- The encoding of some characters. -/
def ofChars (cs : List Char) : Text :=
  cs.flatMap String.utf8EncodeChar

/-- Whether the text is well-formed UTF-8 throughout. -/
def isUtf8 (t : Text) : Bool :=
  t.runes.all fun
    | .scalar _ => true
    | .stray _ => false

/-- The text with U+FFFD in place of each stray byte. -/
def repaired (t : Text) : Text :=
  t.runes.flatMap Rune.repaired

/-- The characters shown for a text: U+FFFD stands for each stray byte. -/
def toDisplay (t : Text) : String :=
  String.ofList (t.runes.map Rune.toChar)

end Text

end Enclosure
