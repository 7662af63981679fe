import Enclosure.Text.Decimal
import Enclosure.Text.Rune

/-!
# Points in time and their layouts

A point in time is read according to a *layout*: fixed text interleaved with fields such as a
four-digit year or a two-digit minute. Reading goes from left to right; the first field or fixed
text that does not fit decides the error. A fraction of a second may follow the seconds although no
layout asks for it, and a blank in the layout matches any run of blanks, even an empty one at the
end of the input.

## Main definitions

* `TimeField`, `TimeLayout`: the parts of a layout.
* `Instant`: seconds and nanoseconds since the start of 1970 in UTC.
* `TimeLayout.parse`: reads a point in time.
* `TimeError.message`: what is said when that fails.
-/

namespace Enclosure

/-- A part of a point in time as written. -/
inductive TimeField where
  /-- Four digits. -/
  | year
  /-- Two digits from 01 to 12. -/
  | month
  /-- Two digits; whether the month has that day is decided at the end. -/
  | day
  /-- One or two digits below 24. -/
  | hour
  /-- Two digits below 60. -/
  | minute
  /-- Two digits below 60, possibly with a fraction. -/
  | second
  /-- A sign and four digits. -/
  | offset
  /-- The letter Z, or a sign and two pairs of digits with a colon between. -/
  | offsetOrZulu
deriving DecidableEq, Repr

/-- Fixed text followed by a field, which the layout spells in its own way. -/
structure TimeStep where
  literal : Text
  field : TimeField
  spelling : Text

/-- Steps and the fixed text after the last of them. -/
structure TimeLayout where
  steps : List TimeStep
  final : Text

/-- The layout as it is spelled. -/
def TimeLayout.shown (l : TimeLayout) : Text :=
  l.steps.flatMap (fun s => s.literal ++ s.spelling) ++ l.final

/-- The fields read so far. The offset is in seconds east of UTC. -/
structure TimeParts where
  year : Nat := 0
  month : Nat := 1
  day : Nat := 1
  hour : Nat := 0
  minute : Nat := 0
  second : Nat := 0
  nanos : Nat := 0
  offset : Int := 0
deriving DecidableEq, Repr

/-- A point in time: seconds since the start of 1970 in UTC, and nanoseconds beyond them. -/
structure Instant where
  seconds : Int
  nanos : Nat
deriving DecidableEq, Repr

namespace Instant

/-- The start of year 1 in UTC, which stands for a time that was never given. -/
def zero : Instant := ⟨-62135596800, 0⟩

/-- Whether `a` is earlier than `b`. -/
def before (a b : Instant) : Bool :=
  a.seconds < b.seconds || (a.seconds == b.seconds && a.nanos < b.nanos)

end Instant

/-- Years divisible by four are leap years, but of the centuries only those divisible by 400. -/
def isLeapYear (y : Nat) : Bool :=
  y % 4 == 0 && (y % 100 != 0 || y % 400 == 0)

/-- The number of days of a month. -/
def daysInMonth (y m : Nat) : Nat :=
  if m == 2 then (if isLeapYear y then 29 else 28)
  else if m == 4 || m == 6 || m == 9 || m == 11 then 30
  else 31

/-- Days from the start of 1970 to the start of a year. -/
def daysBeforeYear (y : Nat) : Int :=
  let p : Int := y - 1
  p * 365 + p / 4 - p / 100 + p / 400 - 719162

/-- Days from the start of a year to the start of one of its months. -/
def daysBeforeMonth (y m : Nat) : Nat :=
  (List.range (m - 1)).foldl (fun days i => days + daysInMonth y (i + 1)) 0

/-- The point in time that some fields stand for. -/
def TimeParts.instant (p : TimeParts) : Instant :=
  let days := daysBeforeYear p.year + daysBeforeMonth p.year p.month + (p.day - 1 : Nat)
  ⟨days * 86400 + p.hour * 3600 + p.minute * 60 + p.second - p.offset, p.nanos⟩

/-- Why a point in time cannot be read. -/
inductive TimeError where
  /-- The rest of the input does not start with this element of the layout. -/
  | mismatch (rest element : Text)
  /-- A field is written well but has no such value. -/
  | outOfRange (field : Text)
  /-- Something follows the point in time. -/
  | extra (rest : Text)
deriving DecidableEq, Repr

/-- Text between double quotes in errors about time: bytes that are no printable ASCII appear as
hexadecimal escapes. -/
def quotedForTime (t : Text) : Text :=
  34 :: (t.flatMap quotedByte ++ [34])
where
  /-- One byte between the quotes. -/
  quotedByte (b : UInt8) : Text :=
    if b < 32 || 0x80 ≤ b then "\\x" ++ Text.hex 2 b.toNat
    else if b == 34 || b == 92 then [92, b]
    else [b]

/-- What is said when `value` cannot be read by `layout`. -/
def TimeError.message (layout value : Text) : TimeError → Text
  | mismatch rest element =>
    "parsing time " ++ quotedForTime value ++ " as " ++ quotedForTime layout ++ ": cannot parse "
      ++ quotedForTime rest ++ " as " ++ quotedForTime element
  | outOfRange field => "parsing time " ++ quotedForTime value ++ ": " ++ field ++ " out of range"
  | extra rest => "parsing time " ++ quotedForTime value ++ ": extra text: " ++ quotedForTime rest

/-- What reading a field can come to. -/
inductive FieldOutcome where
  | read (parts : TimeParts) (rest : Text)
  | malformed
  | outOfRange (field : Text)

/-- A number of two digits, and of one if that is allowed. -/
def readNumber (oneDigit : Bool) (v : Text) : Option (Nat × Text) :=
  match v with
  | [] => none
  | [a] => if Text.isDigit a && oneDigit then some (a.toNat - 48, []) else none
  | a :: b :: rest =>
    if !Text.isDigit a then none
    else if Text.isDigit b then some ((a.toNat - 48) * 10 + (b.toNat - 48), rest)
    else if oneDigit then some (a.toNat - 48, b :: rest)
    else none

/-- Nanoseconds from the digits of a fraction; digits beyond the ninth are dropped. -/
def nanosOfDigits (ds : Text) : Nat :=
  let kept := ds.take 9
  Text.digitsValue kept * Nat.pow 10 (9 - kept.length)

/-- A fraction of a second at the front, in nanoseconds: a point or comma and digits. -/
def readFraction (v : Text) : Nat × Text :=
  match v with
  | mark :: d :: rest =>
    if (mark == 46 || mark == 44) && Text.isDigit d then
      (nanosOfDigits (d :: rest.takeWhile Text.isDigit), rest.dropWhile Text.isDigit)
    else (0, v)
  | _ => (0, v)

/-- Puts a time-zone offset together from a sign and the digits of hours and minutes. -/
def readOffset (p : TimeParts) (sign : UInt8) (hours minutes rest : Text) : FieldOutcome :=
  let hr := readNumber false hours
  let mm := readNumber false minutes
  match hr with
  | none => .malformed
  | some (h, _) =>
    match mm with
    | none => if h > 24 then .outOfRange "time zone offset hour" else .malformed
    | some (m, _) =>
      if m > 60 then .outOfRange "time zone offset minute"
      else if h > 24 then .outOfRange "time zone offset hour"
      else
        let seconds : Int := (h * 60 + m) * 60
        if sign == 43 then .read { p with offset := seconds } rest
        else if sign == 45 then .read { p with offset := -seconds } rest
        else .malformed

/-- Reads one field at the front of the input. -/
def TimeField.read (f : TimeField) (p : TimeParts) (v : Text) : FieldOutcome :=
  match f with
  | .year =>
    let ds := v.take 4
    if ds.length == 4 && ds.all Text.isDigit then
      .read { p with year := Text.digitsValue ds } (v.drop 4)
    else .malformed
  | .month =>
    match readNumber false v with
    | none => .malformed
    | some (n, rest) =>
      if n == 0 || 12 < n then .outOfRange "month" else .read { p with month := n } rest
  | .day =>
    match readNumber false v with
    | none => .malformed
    | some (n, rest) => .read { p with day := n } rest
  | .hour =>
    match readNumber true v with
    | none => .malformed
    | some (n, rest) => if 24 ≤ n then .outOfRange "hour" else .read { p with hour := n } rest
  | .minute =>
    match readNumber false v with
    | none => .malformed
    | some (n, rest) => if 60 ≤ n then .outOfRange "minute" else .read { p with minute := n } rest
  | .second =>
    match readNumber false v with
    | none => .malformed
    | some (n, rest) =>
      if 60 ≤ n then .outOfRange "second"
      else
        let (nanos, rest) := readFraction rest
        .read { p with second := n, nanos := nanos } rest
  | .offset =>
    match v with
    | s :: h₁ :: h₀ :: m₁ :: m₀ :: rest => readOffset p s [h₁, h₀] [m₁, m₀] rest
    | _ => .malformed
  | .offsetOrZulu =>
    match v with
    | 90 :: rest => .read { p with offset := 0 } rest
    | s :: h₁ :: h₀ :: c :: m₁ :: m₀ :: rest =>
      if c == 58 then readOffset p s [h₁, h₀] [m₁, m₀] rest else .malformed
    | _ => .malformed

/-- Skips fixed text. A blank matches any run of blanks, and an empty one only at the end of the
input. The answer is what follows, or the place where the texts differ. -/
def skipLiteral : (literal value : Text) → Except Text Text
  | [], v => .ok v
  | c :: cs, [] => if c == 32 then skipLiteral cs [] else .error []
  | c :: cs, b :: v =>
    if b != c then .error (b :: v)
    else if c == 32 then skipLiteral cs (v.dropWhile (· == 32))
    else skipLiteral cs v

/-- Reads the steps of a layout one after the other. -/
def readSteps : List TimeStep → TimeParts → Text → Except TimeError (TimeParts × Text)
  | [], p, v => .ok (p, v)
  | s :: steps, p, v =>
    match skipLiteral s.literal v with
    | .error rest => .error (.mismatch rest s.literal)
    | .ok v =>
      match s.field.read p v with
      | .malformed => .error (.mismatch v s.spelling)
      | .outOfRange field => .error (.outOfRange field)
      | .read p rest => readSteps steps p rest

/-- Reads a point in time. Nothing may follow it, and its month must have its day. -/
def TimeLayout.parse (l : TimeLayout) (v : Text) : Except TimeError Instant := do
  let (p, v) ← readSteps l.steps {} v
  match skipLiteral l.final v with
  | .error rest => throw (.mismatch rest l.final)
  | .ok v =>
    if !v.isEmpty then throw (.extra v)
    if p.day == 0 || daysInMonth p.year p.month < p.day then throw (.outOfRange "day")
    return p.instant

namespace TimeLayout

/-- The date and time of day that layouts have in common, with the text between them. -/
def dateAndTime (opening between : Text) : List TimeStep :=
  [⟨opening, .year, "2006"⟩, ⟨"-", .month, "01"⟩, ⟨"-", .day, "02"⟩, ⟨between, .hour, "15"⟩,
    ⟨":", .minute, "04"⟩, ⟨":", .second, "05"⟩]

/-- Date, time of day and offset with blanks between, as in the headers of diffs. -/
def zoned : TimeLayout :=
  ⟨dateAndTime [] " " ++ [⟨" ", .offset, "-0700"⟩], []⟩

/-- As `zoned`, without the offset. -/
def unzoned : TimeLayout :=
  ⟨dateAndTime [] " ", []⟩

/-- The notation of the Internet, between `quote`s. -/
def internet (quote : Text) : TimeLayout :=
  ⟨dateAndTime quote "T" ++ [⟨[], .offsetOrZulu, "Z07:00"⟩], quote⟩

end TimeLayout

end Enclosure
