import Enclosure.Text.Blank
import Enclosure.Text.Decimal

/-!
# Hunk headers

A hunk header reads `@@ -a,b +c,d @@`, possibly followed by a heading. A count that is left out
is 1. The header is first cut at single blanks, which fixes its four parts, and then read number by
number. A number may be preceded by white space and by a sign of its own, and has to fit 32 bits.

## Main definitions

* `Hunk`: the two line ranges of a header.
* `Hunk.parse`: reads a header.
* `HunkFault`: why a header cannot be read.
-/

namespace Enclosure

/-- The ranges of lines that a hunk replaces and puts in their place. -/
structure Hunk where
  oldFirst : Int
  oldCount : Int
  newFirst : Int
  newCount : Int
deriving DecidableEq, Repr

/-- Why a hunk header cannot be read. -/
inductive HunkFault where
  /-- The parts between blanks are not those of a hunk header. -/
  | malformed
  /-- There is no digit where a number should be. -/
  | notInteger
  /-- A fixed character is missing. -/
  | mismatch
  /-- A blank is missing. -/
  | noBlank
  /-- The number fits 64 bits but not 32. -/
  | beyond32 (token : Text)
  /-- The number does not fit 64 bits. -/
  | beyond64 (token : Text)
deriving DecidableEq, Repr

namespace Hunk

/-- How hunk headers start. -/
def mark : Text := "@@ "

/-- Skips one fixed byte. -/
def skipByte (b : UInt8) : Text → Except HunkFault Text
  | [] => .error .mismatch
  | c :: t => if c == b then .ok t else .error .mismatch

/-- Skips white space, of which there must be some unless the text ends. -/
def skipBlank (t : Text) : Except HunkFault Text :=
  if t.isEmpty || Text.blankWidth t != 0 then .ok t.trimStart else .error .noBlank

/-- The sign at the front, as written. -/
def signOf (t : Text) : Text :=
  t.take 1 |>.filter fun b => b == 43 || b == 45

/-- The value of a sign and digits. -/
def tokenValue (sign digits : Text) : Int :=
  if sign == [45] then -(Text.digitsValue digits : Int) else Text.digitsValue digits

/-- Reads a number of at most 32 bits. -/
def readNumber (t : Text) : Except HunkFault (Int × Text) :=
  let t := t.trimStart
  let sign := signOf t
  let t := t.drop sign.length
  let digits := t.takeWhile Text.isDigit
  let token := sign ++ digits
  let n := tokenValue sign digits
  if digits.isEmpty then .error .notInteger
  else if wrap64 n != n then .error (.beyond64 token)
  else if wrap32 n != n then .error (.beyond32 token)
  else .ok (n, t.dropWhile Text.isDigit)

/-- Reads a range: a first line, a comma and a count. -/
def readRange (sign : UInt8) (t : Text) : Except HunkFault ((Int × Int) × Text) := do
  let (first, t) ← readNumber (← skipByte sign t)
  let (count, t) ← readNumber (← skipByte 44 t)
  return ((first, count), t)

/-- A range with its count written out. -/
def withCount (part : Text) : Text :=
  if part.contains 44 then part else part ++ ",1"

/-- The header with both counts written out, if its parts are those of a header. -/
def normalized? (line : Text) : Option Text :=
  match Text.splitAt 32 line with
  | opening :: old :: new :: closing :: heading =>
    if opening == Text.ofString "@@" && closing == Text.ofString "@@" then
      some (Text.join " " (opening :: withCount old :: withCount new :: closing :: heading))
    else none
  | _ => none

/-- Reads a header whose counts are written out. -/
def readNormalized (t : Text) : Except HunkFault Hunk := do
  let t ← skipBlank (← skipByte 64 (← skipByte 64 t))
  let (old, t) ← readRange 45 t
  let t ← skipBlank t
  let (new, t) ← readRange 43 t
  let t ← skipBlank t
  let _ ← skipByte 64 (← skipByte 64 t)
  return ⟨old.1, old.2, new.1, new.2⟩

/-- Reads a hunk header. -/
def parse (line : Text) : Except HunkFault Hunk :=
  match normalized? line with
  | none => .error .malformed
  | some t => readNormalized t

end Hunk

end Enclosure
