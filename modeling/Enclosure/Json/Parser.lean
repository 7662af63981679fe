import Enclosure.Json.Value
import Enclosure.Text.Quoted

/-!
# Reading JSON

A reader takes a text and gives the value at its front together with the rest, or says what is wrong
at the first byte that cannot go on. Numbers are kept as spelled. In strings an escape stands for a
character, two numbered escapes may form a surrogate pair, and U+FFFD stands for a surrogate without
its partner and for a stray byte. Arrays and objects nest only so deep.

## Main definitions

* `JsonFault`: what is wrong with a text.
* `Json.readValue`: the value at the front of a text.
* `Json.first?`: the first value of a text, if it is not blank.
* `Json.parse`: the value that a whole text stands for.
-/

namespace Enclosure

/-- What is wrong with a text. -/
inductive JsonFault where
  /-- The text ends too early. -/
  | unexpectedEnd
  /-- A byte has no place where it stands. -/
  | unexpected (b : UInt8) (place : Text)
deriving DecidableEq, Repr

namespace JsonFault

/-- A byte between single quotes. -/
def showByte (b : UInt8) : Text :=
  if b == 39 then "'\\''"
  else if b == 34 then "'\"'"
  else
    let quoted := Text.quoted (String.utf8EncodeChar (Char.ofNat b.toNat))
    39 :: ((quoted.drop 1).dropLast ++ [39])

/-- The wording of a fault. -/
def message : JsonFault → Text
  | unexpectedEnd => "unexpected EOF"
  | unexpected b place => "invalid character " ++ showByte b ++ " " ++ place

end JsonFault

namespace Json

/-- A blank between the pieces of a value. -/
def isBlank (b : UInt8) : Bool :=
  b == 32 || b == 9 || b == 10 || b == 13

/-- The text without the blanks in front. -/
def skipBlank (t : Text) : Text :=
  t.dropWhile isBlank

/-- A fault at the front of a text. -/
def faultAt (place : Text) : Text → JsonFault
  | [] => .unexpectedEnd
  | b :: _ => .unexpected b place

/-! ### Strings -/

/-- The code that four hexadecimal digits at the front of a text stand for. -/
def readCode (t : Text) : Except JsonFault Nat :=
  let digits := t.take 4
  match digits.dropWhile fun b => (Text.hexValue? b).isSome with
  | b :: _ => .error (.unexpected b "in \\u hexadecimal character escape")
  | [] => if digits.length < 4 then .error .unexpectedEnd else .ok ((Text.hexNumber? digits).getD 0)

/-- The first code of a surrogate pair. -/
def isHighSurrogate (n : Nat) : Bool :=
  0xD800 ≤ n && n < 0xDC00

/-- The second code of a surrogate pair. -/
def isLowSurrogate (n : Nat) : Bool :=
  0xDC00 ≤ n && n < 0xE000

/-- The code of the numbered escape at the front of a text. -/
def escapedCode? : Text → Option Nat
  | 92 :: 117 :: t => (readCode t).toOption
  | _ => none

/-- The character that a numbered escape stands for, and how many bytes it takes after the letter,
given its code and the text after it. -/
def codeUnit (code : Nat) (after : Text) : Char × Nat :=
  if isHighSurrogate code then
    match escapedCode? after with
    | none => ('\uFFFD', 4)
    | some low =>
      if isLowSurrogate low then
        (Char.ofNat (0x10000 + (code - 0xD800) * 0x400 + (low - 0xDC00)), 10)
      else ('\uFFFD', 4)
  else if isLowSurrogate code then ('\uFFFD', 4)
  else (Char.ofNat code, 4)

/-- What an escape stands for, and how many bytes it takes after the backslash. -/
def escapeUnit : Text → Except JsonFault (Text × Nat)
  | [] => .error .unexpectedEnd
  | c :: t =>
    match ((47, 47) :: shortEscapes).find? (fun e => e.1 == c) with
    | some (_, value) => .ok ([value], 1)
    | none =>
      if c == 117 then do
        let (char, width) := codeUnit (← readCode t) (t.drop 4)
        return (String.utf8EncodeChar char, width + 1)
      else .error (.unexpected c "in string escape code")

/-- What the front of the text `b :: t` stands for between quotes, and how many bytes of `t` it
takes. -/
def stringUnit (b : UInt8) (t : Text) : Except JsonFault (Text × Nat) :=
  if b == 92 then escapeUnit t
  else if b < 32 then .error (.unexpected b "in string literal")
  else
    let (rune, width) := Rune.first b t
    .ok (rune.repaired, width)

/-- Reads a string from after the opening quote. `acc` holds the bytes read so far, in reverse, and
the number counts the bytes of the current unit that are still to go. -/
def readString (acc : Text) : Nat → Text → Except JsonFault (Text × Text)
  | _, [] => .error .unexpectedEnd
  | skip + 1, _ :: t => readString acc skip t
  | 0, b :: t =>
    if b == 34 then .ok (acc.reverse, t)
    else match stringUnit b t with
      | .error fault => .error fault
      | .ok (bytes, width) => readString (bytes.reverse ++ acc) width t

/-! ### Numbers and words -/

/-- Reads one or more digits. -/
def readDigits (place : Text) (t : Text) : Except JsonFault (Text × Text) :=
  let digits := t.takeWhile Text.isDigit
  if digits.isEmpty then .error (faultAt place t) else .ok (digits, t.dropWhile Text.isDigit)

/-- Reads the digits before the point. A zero in front stands alone. -/
def readWhole : Text → Except JsonFault (Text × Text)
  | 48 :: t => .ok ([48], t)
  | t => readDigits "in numeric literal" t

/-- Reads the point and the digits after it, if there is a point. -/
def readFraction : Text → Except JsonFault (Text × Text)
  | 46 :: t => (readDigits "after decimal point in numeric literal" t).map fun (ds, rest) =>
      (46 :: ds, rest)
  | t => .ok ([], t)

/-- Reads the exponent, if there is one. -/
def readExponent : Text → Except JsonFault (Text × Text)
  | [] => .ok ([], [])
  | b :: t =>
    if b == 101 || b == 69 then
      let sign := (t.take 1).takeWhile fun c => c == 43 || c == 45
      (readDigits "in exponent of numeric literal" (t.drop sign.length)).map fun (ds, rest) =>
        (b :: (sign ++ ds), rest)
    else .ok ([], b :: t)

/-- Reads a number. -/
def readNumber (t : Text) : Except JsonFault (Json × Text) := do
  let sign := (t.take 1).takeWhile (· == 45)
  let (whole, t) ← readWhole (t.drop sign.length)
  let (fraction, t) ← readFraction t
  let (exponent, t) ← readExponent t
  return (.number (sign ++ whole ++ fraction ++ exponent), t)

/-- Reads the rest of a word. -/
def readWord (word : Text) (v : Json) : Text → Text → Except JsonFault (Json × Text)
  | [], t => .ok (v, t)
  | _ :: _, [] => .error .unexpectedEnd
  | e :: es, b :: t =>
    if b == e then readWord word v es t
    else .error (.unexpected b ("in literal " ++ word ++ " (expecting '" ++ [e] ++ "')"))

/-! ### Values -/

/-- How deep arrays and objects nest at most. -/
def maxDepth : Nat := 10000

/-- Reads a value that is neither an array nor an object. -/
def readSimple (t : Text) : Except JsonFault (Json × Text) :=
  match t with
  | [] => .error .unexpectedEnd
  | b :: rest =>
    if b == 34 then (readString [] 0 rest).map fun (s, rest) => (.string s, rest)
    else if b == 45 || Text.isDigit b then readNumber t
    else if b == 116 then readWord "true" (.bool true) "rue" rest
    else if b == 102 then readWord "false" (.bool false) "alse" rest
    else if b == 110 then readWord "null" .null "ull" rest
    else .error (.unexpected b "looking for beginning of value")

/-- Reads the name of a member, and the colon behind it. -/
def readName (t : Text) : Except JsonFault (Text × Text) :=
  match t with
  | 34 :: rest => do
    let (name, rest) ← readString [] 0 rest
    match skipBlank rest with
    | 58 :: rest => return (name, rest)
    | rest => throw (faultAt "after object key" rest)
  | _ => .error (faultAt "looking for beginning of object key string" t)

mutual

/-- Reads a value `depth` levels below the top. The first number bounds the steps taken. -/
def readValue : Nat → Nat → Text → Except JsonFault (Json × Text)
  | 0, _, _ => .error .unexpectedEnd
  | fuel + 1, depth, t =>
    match skipBlank t with
    | 91 :: rest =>
      if maxDepth ≤ depth then .error (.unexpected 91 "exceeded max depth")
      else match skipBlank rest with
        | 93 :: rest => .ok (.array [], rest)
        | rest => (readItems fuel (depth + 1) rest).map fun (items, rest) => (.array items, rest)
    | 123 :: rest =>
      if maxDepth ≤ depth then .error (.unexpected 123 "exceeded max depth")
      else match skipBlank rest with
        | 125 :: rest => .ok (.object [], rest)
        | rest => (readMembers fuel (depth + 1) rest).map fun (members, rest) =>
            (.object members, rest)
    | t => readSimple t

/-- Reads one or more items up to the end of the array. -/
def readItems : Nat → Nat → Text → Except JsonFault (List Json × Text)
  | 0, _, _ => .error .unexpectedEnd
  | fuel + 1, depth, t => do
    let (v, rest) ← readValue fuel depth t
    match skipBlank rest with
    | 93 :: rest => return ([v], rest)
    | 44 :: rest =>
      let (vs, rest) ← readItems fuel depth rest
      return (v :: vs, rest)
    | rest => throw (faultAt "after array element" rest)

/-- Reads one or more members up to the end of the object. -/
def readMembers : Nat → Nat → Text → Except JsonFault (List (Text × Json) × Text)
  | 0, _, _ => .error .unexpectedEnd
  | fuel + 1, depth, t => do
    let (name, rest) ← readName (skipBlank t)
    let (v, rest) ← readValue fuel depth rest
    match skipBlank rest with
    | 125 :: rest => return ([(name, v)], rest)
    | 44 :: rest =>
      let (members, rest) ← readMembers fuel depth rest
      return ((name, v) :: members, rest)
    | rest => throw (faultAt "after object key:value pair" rest)

end

/-- The value at the front of a text, and the rest. Each step but the last takes at least one byte,
and two steps take at least one. -/
def read (t : Text) : Except JsonFault (Json × Text) :=
  readValue (2 * t.length + 2) 0 t

/-- The first value of a text, if it is not blank. What follows does not matter. -/
def first? (t : Text) : Except JsonFault (Option Json) :=
  if (skipBlank t).isEmpty then .ok none else (read t).map fun (v, _) => some v

/-- The value that a whole text stands for. -/
def parse (t : Text) : Except JsonFault Json := do
  let (v, rest) ← read t
  match skipBlank rest with
  | [] => return v
  | b :: _ => throw (.unexpected b "after top-level value")

end Json

end Enclosure
