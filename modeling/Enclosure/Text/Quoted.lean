import Enclosure.Text.Decimal
import Enclosure.Text.Printable

/-!
# Quoted text

A text is shown in messages between double quotes, with a backslash escape for every rune that
would not print. File names in diffs arrive in the same notation, and also between single quotes
(one character) or backquotes (taken as they are, less carriage returns).

## Main definitions

* `Text.quoted`: a text between double quotes.
* `Text.unquoted?`: the text that a quoted one stands for.
-/

namespace Enclosure

namespace Text

/-- The letters of the short escapes and the control characters they stand for. -/
def shortEscapes : List (UInt8 × UInt8) :=
  [(97, 7), (98, 8), (102, 12), (110, 10), (114, 13), (116, 9), (118, 11)]

/-- A rune as it stands between double quotes. -/
def quoteRune : Rune → Text
  | .stray b => "\\x" ++ hex 2 b.toNat
  | .scalar c =>
    let n := c.toNat
    if n == 34 || n == 92 then [92, n.toUInt8]
    else if isPrintable c then String.utf8EncodeChar c
    else match shortEscapes.find? (fun e => e.2.toNat == n) with
      | some (letter, _) => [92, letter]
      | none =>
        if n < 32 || n == 127 then "\\x" ++ hex 2 n
        else if n < 0x10000 then "\\u" ++ hex 4 n
        else "\\U" ++ hex 8 n

/-- A text between double quotes, with escapes for quotes, backslashes and all that does not
print. -/
def quoted (t : Text) : Text :=
  34 :: (t.runes.flatMap quoteRune ++ [34])

/-- The character with a given code point, if there is one. -/
def charOfCode? (n : Nat) : Option Char :=
  if h : n.isValidChar then some (Char.ofNatAux n h) else none

/-- The bytes that an escape stands for, and how many bytes it takes. The text starts after the
backslash, and only the quote in use may be escaped. -/
def readEscape (quote : UInt8) (t : Text) : Option (Text × Nat) :=
  match t with
  | [] => none
  | c :: rest =>
    match shortEscapes.find? (fun e => e.1 == c) with
    | some (_, value) => some ([value], 1)
    | none =>
      if c == 120 then do
        let ds := rest.take 2
        guard (ds.length == 2)
        return ([(← hexNumber? ds).toUInt8], 3)
      else if c == 117 || c == 85 then do
        let width := if c == 117 then 4 else 8
        let ds := rest.take width
        guard (ds.length == width)
        let ch ← charOfCode? (← hexNumber? ds)
        return (String.utf8EncodeChar ch, width + 1)
      else if 48 ≤ c && c ≤ 55 then
        match rest with
        | d₁ :: d₀ :: _ =>
          if 48 ≤ d₁ && d₁ ≤ 55 && 48 ≤ d₀ && d₀ ≤ 55 then
            let n := (c.toNat - 48) * 64 + (d₁.toNat - 48) * 8 + (d₀.toNat - 48)
            if n ≤ 255 then some ([n.toUInt8], 3) else none
          else none
        | _ => none
      else if c == 92 then some ([92], 1)
      else if c == quote then some ([c], 1)
      else none

/-- The bytes that the character at the front of `b :: t` stands for between quotes, and how many
bytes of `t` it takes. A stray byte is repaired. -/
def readQuotedUnit (quote b : UInt8) (t : Text) : Option (Text × Nat) :=
  if b == newline then none
  else if 0x80 ≤ b then
    let (r, width) := Rune.first b t
    some (r.repaired, width)
  else if b == 92 then readEscape quote t
  else some ([b], 0)

/-- Reads up to the closing quote. `acc` holds the bytes read so far, in reverse, and the number
counts the bytes of the current character that are still to go. The answer is the text read and
what follows the quote. -/
def readQuoted (quote : UInt8) (acc : Text) : Nat → Text → Option (Text × Text)
  | _, [] => none
  | skip + 1, _ :: t => readQuoted quote acc skip t
  | 0, b :: t =>
    if b == quote then some (acc.reverse, t)
    else match readQuotedUnit quote b t with
      | none => none
      | some (bytes, width) => readQuoted quote (bytes.reverse ++ acc) width t

/-- Reads at most one character between single quotes. -/
def readSingleQuoted (t : Text) : Option (Text × Text) :=
  match t with
  | [] => none
  | b :: rest =>
    if b == 39 then some ([], rest)
    else do
      let (bytes, width) ← readQuotedUnit 39 b rest
      match rest.drop width with
      | 39 :: after => some (bytes, after)
      | _ => none

/-- The text at the front that stands between double quotes, single quotes or backquotes, and what
follows the closing quote. -/
def readAnyQuoted (t : Text) : Option (Text × Text) :=
  match t with
  | 34 :: rest => readQuoted 34 [] 0 rest
  | 39 :: rest => readSingleQuoted rest
  | 96 :: rest =>
    match cut [96] rest with
    | some (body, after) => some (body.filter (· != 13), after)
    | none => none
  | _ => none

/-- The text that a quoted text stands for; nothing may follow the closing quote. -/
def unquoted? (t : Text) : Option Text :=
  match readAnyQuoted t with
  | some (body, []) => some body
  | _ => none

end Text

end Enclosure
