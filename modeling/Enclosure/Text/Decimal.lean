import Enclosure.Text.Basic

/-!
# Numbers as text

Integers are written in decimal with a minus sign where needed and nothing else. Hexadecimal digits
serve the escapes of quoted text and of URLs.

## Main definitions

* `Text.ofNat`, `Text.ofInt`: decimal notation.
* `Text.hex`: fixed-width hexadecimal notation.
* `Text.digitsValue`: the number that decimal digits stand for.
* `wrap64`, `wrap32`: the representative of an integer in a machine word of that width.
-/

namespace Enclosure

/-- The value of an integer as a signed 64-bit word. -/
def wrap64 (n : Int) : Int :=
  n.bmod 0x10000000000000000

/-- The value of an integer as a signed 32-bit word. -/
def wrap32 (n : Int) : Int :=
  n.bmod 0x100000000

namespace Text

/-- A natural number in decimal. -/
def ofNat (n : Nat) : Text :=
  (Nat.toDigits 10 n).map Char.toUInt8

/-- An integer in decimal, with a minus sign if it is negative. -/
def ofInt : Int → Text
  | .ofNat n => ofNat n
  | .negSucc n => 45 :: ofNat (n + 1)

/-- The lower-case hexadecimal digit of a number below 16. -/
def hexDigit (n : Nat) : UInt8 :=
  if n < 10 then (48 + n).toUInt8 else (87 + n).toUInt8

/-- The last `width` hexadecimal digits of a number, in lower case. -/
def hex : (width : Nat) → Nat → Text
  | 0, _ => []
  | width + 1, n => hex width (n / 16) ++ [hexDigit (n % 16)]

/-- The upper-case form of an ASCII letter; any other byte is kept. -/
def upperByte (b : UInt8) : UInt8 :=
  if 97 ≤ b && b ≤ 122 then b - 32 else b

/-- The value of a hexadecimal digit of either case. -/
def hexValue? (b : UInt8) : Option Nat :=
  if 48 ≤ b && b ≤ 57 then some (b.toNat - 48)
  else if 97 ≤ b && b ≤ 102 then some (b.toNat - 87)
  else if 65 ≤ b && b ≤ 70 then some (b.toNat - 55)
  else none

/-- The number that some hexadecimal digits stand for, if all of them are digits. -/
def hexNumber? (ds : Text) : Option Nat :=
  ds.foldl (fun acc b => do return (← acc) * 16 + (← hexValue? b)) (some 0)

/-- The number that decimal digits stand for. -/
def digitsValue (ds : Text) : Nat :=
  ds.foldl (fun n b => n * 10 + (b.toNat - 48)) 0

end Text

end Enclosure
