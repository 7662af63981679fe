import Enclosure.Text.Quoted
import Enclosure.Toml.Value

/-!
# Reading keys, strings and numbers

The small pieces of a TOML document. Every reader takes a text and gives what it read together with
the rest, or nothing if the text does not start with such a piece.

Strings come in four styles. In each of them a *unit* is what the next bytes stand for: a character
as it is, an escape, or, between three double quotes, a backslash at the end of a line, which stands
for nothing and takes the white space after it along. A string between three quotes may end in up to
two more quotes.

## Main definitions

* `Toml.readKey`: a dotted key.
* `Toml.readString`: a string of any style.
* `Toml.readNumber`: a number, a date or a time.
* `Toml.skipComment`, `Toml.skipNewline`, `Toml.skipGap`: what may stand between the pieces.
-/

namespace Enclosure

namespace Toml

/-- A blank within a line. -/
def isSpace (b : UInt8) : Bool :=
  b == 32 || b == 9

/-- The text without the blanks in front. -/
def skipSpace (t : Text) : Text :=
  t.dropWhile isSpace

/-- Skips one given byte. -/
def expect (b : UInt8) : Text → Option Text
  | [] => none
  | c :: t => if c == b then some t else none

/-- Skips the end of a line. -/
def skipNewline : Text → Option Text
  | 10 :: t => some t
  | 13 :: 10 :: t => some t
  | _ => none

/-- Control characters, the tab apart, have no place in a document. -/
def isControl (b : UInt8) : Bool :=
  (b < 32 && b != 9) || b == 127

/-- The character at the front of `b :: t` as it is, and how many bytes of `t` it takes. -/
def plainUnit (b : UInt8) (t : Text) : Option (Text × Nat) :=
  if isControl b then none
  else match Rune.first b t with
    | (.scalar c, width) => some (String.utf8EncodeChar c, width)
    | (.stray _, _) => none

/-- Skips the rest of a comment up to the end of the line. The number counts the bytes of the
current character that are still to go. -/
def skipCommentFrom : Nat → Text → Option Text
  | _, [] => some []
  | skip + 1, _ :: t => skipCommentFrom skip t
  | 0, b :: t =>
    if b == 10 then some (b :: t)
    else if b == 13 && t.head? == some 10 then some t
    else match plainUnit b t with
      | some (_, width) => skipCommentFrom width t
      | none => none

/-- Skips a comment, if there is one, up to the end of the line. -/
def skipComment (t : Text) : Option Text :=
  if t.head? == some 35 then skipCommentFrom 0 t else some t

/-- Skips blanks, comments and line ends. The flag says whether a comment has begun, and the number
counts the bytes of the current character that are still to go. -/
def skipGapFrom : Bool → Nat → Text → Option Text
  | _, _, [] => some []
  | inComment, skip + 1, _ :: t => skipGapFrom inComment skip t
  | true, 0, b :: t =>
    if b == 10 then skipGapFrom false 0 t
    else if b == 13 && t.head? == some 10 then skipGapFrom false 1 t
    else match plainUnit b t with
      | some (_, width) => skipGapFrom true width t
      | none => none
  | false, 0, b :: t =>
    if isSpace b || b == 10 then skipGapFrom false 0 t
    else if b == 13 then if t.head? == some 10 then skipGapFrom false 1 t else none
    else if b == 35 then skipGapFrom true 0 t
    else some (b :: t)

/-- Skips blanks, comments and line ends. -/
def skipGap (t : Text) : Option Text :=
  skipGapFrom false 0 t

/-! ### Strings -/

/-- The letters of the short escapes and the characters they stand for. -/
def escapes : List (UInt8 × UInt8) :=
  [(34, 34), (92, 92), (98, 8), (102, 12), (110, 10), (114, 13), (116, 9), (101, 27)]

/-- What an escape stands for, and how many bytes it takes after the backslash. -/
def escapeUnit (t : Text) : Option (Text × Nat) :=
  match t with
  | [] => none
  | c :: rest =>
    match escapes.find? (fun e => e.1 == c) with
    | some (_, value) => some ([value], 1)
    | none => do
      guard (c == 117 || c == 85)
      let width := if c == 117 then 4 else 8
      let digits := rest.take width
      guard (digits.length == width)
      let ch ← Text.charOfCode? (← Text.hexNumber? digits)
      return (String.utf8EncodeChar ch, width + 1)

/-- A unit between double quotes. -/
def basicUnit (b : UInt8) (t : Text) : Option (Text × Nat) :=
  if b == 92 then escapeUnit t else plainUnit b t

/-- A unit between three single quotes: lines may end. -/
def multilineUnit (b : UInt8) (t : Text) : Option (Text × Nat) :=
  if b == 10 then some ([10], 0)
  else if b == 13 then if t.head? == some 10 then some ([13, 10], 1) else none
  else plainUnit b t

/-- Blanks and the bytes of line ends. -/
def isGap (b : UInt8) : Bool :=
  isSpace b || b == 10 || b == 13

/-- Whether each carriage return is followed by a line feed. -/
def returnsPaired : Text → Bool
  | [] => true
  | b :: t => (b != 13 || t.head? == some 10) && returnsPaired t

/-- The white space that a backslash takes along, if nothing but blanks stands between it and the
end of the line. -/
def trimmedGap? (t : Text) : Option Text :=
  if (skipNewline (skipSpace t)).isSome then some (t.takeWhile isGap) else none

/-- A unit between three double quotes. -/
def multilineBasicUnit (b : UInt8) (t : Text) : Option (Text × Nat) :=
  if b == 92 then
    match trimmedGap? t with
    | some gap => if returnsPaired gap then some ([], gap.length) else none
    | none => escapeUnit t
  else multilineUnit b t

/-- Reads units up to the closing quote. `acc` holds the bytes read so far, in reverse, and the
number counts the bytes of the current unit that are still to go. -/
def readUnits (unit : UInt8 → Text → Option (Text × Nat)) (quote : UInt8) (acc : Text) :
    Nat → Text → Option (Text × Text)
  | _, [] => none
  | skip + 1, _ :: t => readUnits unit quote acc skip t
  | 0, b :: t =>
    if b == quote then some (acc.reverse, t)
    else match unit b t with
      | some (bytes, width) => readUnits unit quote (bytes.reverse ++ acc) width t
      | none => none

/-- As `readUnits`, up to three closing quotes, before which up to two more may stand. -/
def readTripleUnits (unit : UInt8 → Text → Option (Text × Nat)) (quote : UInt8) (acc : Text) :
    Nat → Text → Option (Text × Text)
  | _, [] => none
  | skip + 1, _ :: t => readTripleUnits unit quote acc skip t
  | 0, b :: t =>
    if b == quote && (t.take 2) == [quote, quote] then
      let run := (b :: t).takeWhile (· == quote)
      if run.length ≤ 5 then
        some (acc.reverse ++ run.drop 3, t.drop (run.length - 1))
      else none
    else match unit b t with
      | some (bytes, width) => readTripleUnits unit quote (bytes.reverse ++ acc) width t
      | none => none

/-- Reads a string between three quotes, from after the opening ones. A line end that follows these
at once does not count. -/
def readTriple (unit : UInt8 → Text → Option (Text × Nat)) (quote : UInt8) (t : Text) :
    Option (Text × Text) :=
  readTripleUnits unit quote [] 0 ((skipNewline t).getD t)

/-- Reads a string within one line. -/
def readLineString (t : Text) : Option (Text × Text) :=
  match t with
  | 34 :: rest => readUnits basicUnit 34 [] 0 rest
  | 39 :: rest => readUnits plainUnit 39 [] 0 rest
  | _ => none

/-- Reads a string of any style. -/
def readString (t : Text) : Option (Text × Text) :=
  match t with
  | 34 :: 34 :: 34 :: rest => readTriple multilineBasicUnit 34 rest
  | 39 :: 39 :: 39 :: rest => readTriple multilineUnit 39 rest
  | _ => readLineString t

/-! ### Keys -/

/-- A byte of a name that needs no quotes. -/
def isBare (b : UInt8) : Bool :=
  Text.isWord b || b == 45

/-- Reads one name of a key. -/
def readName (t : Text) : Option (Text × Text) :=
  match t with
  | 34 :: _ | 39 :: _ => readLineString t
  | _ =>
    let name := t.takeWhile isBare
    if name.isEmpty then none else some (name, t.dropWhile isBare)

/-- Reads a key with at most `fuel` names. -/
def readKeyFrom : Nat → Text → Option (Key × Text)
  | 0, _ => none
  | fuel + 1, t => do
    let (name, t) ← readName t
    match skipSpace t with
    | 46 :: rest =>
      let (names, t) ← readKeyFrom fuel (skipSpace rest)
      return (name :: names, t)
    | t => return ([name], t)

/-- Reads a key: names with dots between them, and blanks around the dots. The blanks behind it are
skipped too. -/
def readKey (t : Text) : Option (Key × Text) :=
  readKeyFrom (t.length + 1) t

/-! ### Numbers, dates and times -/

/-- Whether the text starts with the year of a date or the hour of a time. -/
def startsTime (t : Text) : Bool :=
  let digits := (t.takeWhile Text.isDigit).length
  !(t.drop 2).isEmpty && ((digits == 2 && t[2]? == some 58) || (digits == 4 && t[4]? == some 45))

/-- Bytes of a date or time. -/
def isTimeByte (b : UInt8) : Bool :=
  Text.isDigit b || ("-Tt:.+Zz" : Text).contains b

/-- Reads a date, a time, or both with a `T` or one blank between them. A blank counts if a digit
follows; then that digit and the byte after it belong to the token whatever it is. -/
def readTime (t : Text) : Text × Text :=
  let token := t.takeWhile isTimeByte
  match t.dropWhile isTimeByte with
  | 32 :: d :: rest =>
    if Text.isDigit d then
      let clock := rest.drop 1
      (token ++ 32 :: d :: rest.take 1 ++ clock.takeWhile isTimeByte, clock.dropWhile isTimeByte)
    else (token, 32 :: d :: rest)
  | rest => (token, rest)

/-- The digits of a number that starts with a zero and the given letter. -/
def basedDigit (mark : UInt8) : Option (UInt8 → Bool) :=
  if mark == 120 then some fun b => (Text.hexValue? b).isSome || b == 95
  else if mark == 111 then some fun b => (48 ≤ b && b ≤ 55) || b == 95
  else if mark == 98 then some fun b => b == 48 || b == 49 || b == 95
  else none

/-- Bytes of an integer or float in decimal. -/
def isNumberByte (b : UInt8) : Bool :=
  Text.isDigit b || isSign b || b == 95 || b == 46 || b == 101 || b == 69

/-- Bytes that make a number a float. -/
def isFloatByte (b : UInt8) : Bool :=
  b == 46 || b == 101 || b == 69

/-- Reads a number in decimal, which may end in the name of infinity or of not-a-number. -/
def readDecimal (t : Text) : Option (Value × Text) :=
  let token := t.takeWhile isNumberByte
  let rest : Text := t.dropWhile isNumberByte
  if rest.startsWith "inf" || rest.startsWith "nan" then
    some (.float (token ++ rest.take 3), rest.drop 3)
  else if rest.head? == some 105 || rest.head? == some 110 || token.isEmpty then none
  else some (if token.any isFloatByte then .float token else .integer token, rest)

/-- Reads an integer or a float. A zero in front is followed by a point, an exponent or the mark of
a base, or is a number of its own. -/
def readScalar (t : Text) : Option (Value × Text) :=
  match t with
  | 48 :: mark :: next :: rest =>
    if isFloatByte mark then readDecimal t
    else match basedDigit mark with
      | some isDigit =>
        some (.integer (48 :: mark :: (next :: rest).takeWhile isDigit),
          (next :: rest).dropWhile isDigit)
      | none => some (.integer [48], mark :: next :: rest)
  | _ => readDecimal t

/-- Reads a number, a date or a time. -/
def readNumber (t : Text) : Option (Value × Text) :=
  if startsTime t then
    let (token, rest) := readTime t
    some (.time token, rest)
  else readScalar t

end Toml

end Enclosure
