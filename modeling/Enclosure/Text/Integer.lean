import Enclosure.Text.Decimal

/-!
# Integers and truth values from text

An integer is written with an optional sign and digits. It is read either in decimal only or with a
mark of its base in front: `0x`, `0o` and `0b` in either case, and a bare zero for octal. With such
marks there may also be underscores between the digits. Whatever is read has to fit a signed 64-bit
word.

## Main definitions

* `IntegerFault`: why a text is no integer.
* `Text.decimal`: an integer in decimal.
* `Text.integer`: an integer with an optional mark of its base.
* `Text.truth?`: a truth value.
-/

namespace Enclosure

/-- Why a text is no integer. -/
inductive IntegerFault where
  /-- The text does not have the form of an integer. -/
  | malformed
  /-- The integer does not fit, and this is the closest one that does. -/
  | outOfRange (closest : Int)
deriving DecidableEq, Repr

/-- The largest integer of a signed 64-bit word. -/
def maxWord : Int := 0x7fffffffffffffff

/-- The smallest integer of a signed 64-bit word. -/
def minWord : Int := -0x8000000000000000

/-- The integer of a signed 64-bit word that is closest to those beyond it. -/
def wordBound (negative : Bool) : Int :=
  if negative then minWord else maxWord

namespace Text

/-- The value of a digit of the base. -/
def digit? (base : Nat) (b : UInt8) : Option Nat :=
  let value :=
    if isDigit b then b.toNat - 48
    else if isLetter b then (lowerByte b).toNat - 87
    else base
  if value < base then some value else none

/-- The number that digits stand for, from the left and starting with the value `n` of those before
them. The number is given up as soon as it exceeds an unsigned 64-bit word. -/
def magnitudeFrom (base : Nat) (separated : Bool) : Nat → Text → Except IntegerFault Nat
  | n, [] => .ok n
  | n, b :: t =>
    if separated && b == 95 then magnitudeFrom base separated n t
    else match digit? base b with
      | none => .error .malformed
      | some d =>
        if 0xffffffffffffffff < n * base + d then .error (.outOfRange maxWord)
        else magnitudeFrom base separated (n * base + d) t

/-- Whether each underscore has a digit on either side. The flag says whether a digit, or the mark
of a base, stands in front. -/
def underscoresSeparate : Bool → Text → Bool
  | _, [] => true
  | afterDigit, b :: t =>
    if b == 95 then
      afterDigit && (match t with
        | [] => false
        | c :: _ => c != 95) && underscoresSeparate false t
    else underscoresSeparate true t

/-- The base of a number that starts with a zero, and its digits. -/
def splitBase (t : Text) : Nat × Text :=
  match t with
  | 48 :: mark :: d :: rest =>
    if lowerByte mark == 98 then (2, d :: rest)
    else if lowerByte mark == 111 then (8, d :: rest)
    else if lowerByte mark == 120 then (16, d :: rest)
    else (8, mark :: d :: rest)
  | 48 :: rest => (8, rest)
  | _ => (10, t)

/-- The number that digits with an optional mark of their base stand for. -/
def magnitude (t : Text) : Except IntegerFault Nat := do
  if t.isEmpty then throw .malformed
  let (base, digits) := splitBase t
  let n ← magnitudeFrom base true 0 digits
  if underscoresSeparate (digits.length < t.length) digits then return n else throw .malformed

/-- The number that decimal digits stand for. -/
def decimalMagnitude (t : Text) : Except IntegerFault Nat :=
  if t.isEmpty then .error .malformed else magnitudeFrom 10 false 0 t

/-- The integer with a sign and a magnitude, if it fits a signed 64-bit word. -/
def signed (negative : Bool) : Except IntegerFault Nat → Except IntegerFault Int
  | .error .malformed => .error .malformed
  | .error (.outOfRange _) => .error (.outOfRange (wordBound negative))
  | .ok n =>
    let value : Int := if negative then -n else n
    if minWord ≤ value && value ≤ maxWord then .ok value
    else .error (.outOfRange (wordBound negative))

/-- Reads an optional sign and what follows it. -/
def withSign (read : Text → Except IntegerFault Nat) (t : Text) : Except IntegerFault Int :=
  match t with
  | 43 :: rest => signed false (read rest)
  | 45 :: rest => signed true (read rest)
  | _ => signed false (read t)

/-- An integer in decimal. -/
def decimal (t : Text) : Except IntegerFault Int :=
  withSign decimalMagnitude t

/-- An integer with an optional mark of its base. -/
def integer (t : Text) : Except IntegerFault Int :=
  withSign magnitude t

/-- The spellings of a truth value, those of `true` first. -/
def truthSpellings : List (Text × Bool) :=
  [("1", true), ("t", true), ("T", true), ("TRUE", true), ("true", true), ("True", true),
    ("0", false), ("f", false), ("F", false), ("FALSE", false), ("false", false), ("False", false)]

/-- A truth value. -/
def truth? (t : Text) : Option Bool :=
  truthSpellings.lookup t

end Text

end Enclosure
