import Enclosure.Text.Rune

/-!
# Shell wildcards

The wildcards of shells: `*` for any characters, `?` for one, and brackets for one of a set. A
backslash takes the next character as it is. Where paths are matched, no wildcard stands for a
slash.

## Main definitions

* `Wildcard`: one piece of a pattern.
* `Wildcard.parse`: the pieces of a pattern.
* `Wildcard.accepts`: whether the pieces match a text.
-/

namespace Enclosure

/-- One piece of a pattern. -/
inductive Wildcard where
  /-- Any number of characters. -/
  | anything
  /-- One character. -/
  | one
  /-- One character that is in one of the ranges, or in none of them. -/
  | oneOf (negated : Bool) (ranges : List (Char × Char))
  /-- The given character. -/
  | exactly (c : Char)
  /-- Nothing at all, as brackets that are not closed. -/
  | nothing
deriving DecidableEq, Repr

namespace Wildcard

/-- The character at the front, where a backslash takes the next one as it is, and the rest. -/
def readChar : List Char → Option (Char × List Char)
  | [] => none
  | '\\' :: c :: cs => some (c, cs)
  | c :: cs => some (c, cs)

/-- Reads at most `fuel` ranges up to the closing bracket. A character on its own is a range too. -/
def readRanges : Nat → List Char → Option (List (Char × Char) × List Char)
  | 0, _ => none
  | _, ']' :: cs => some ([], cs)
  | fuel + 1, cs => do
    let (lo, cs) ← readChar cs
    let (hi, cs) ← match cs with
      | '-' :: ']' :: _ => some (lo, cs)
      | '-' :: cs => readChar cs
      | cs => some (lo, cs)
    let (ranges, cs) ← readRanges fuel cs
    return ((lo, hi) :: ranges, cs)

/-- Reads a set from after its opening bracket. -/
def readSet (cs : List Char) : Option (Wildcard × List Char) :=
  let negated := cs.head? == some '^' || cs.head? == some '!'
  let cs := if negated then cs.tail else cs
  (readRanges (cs.length + 1) cs).map fun (ranges, cs) => (oneOf negated ranges, cs)

/-- Reads at most `fuel` pieces. -/
def readPieces : Nat → List Char → List Wildcard
  | 0, _ => []
  | _, [] => []
  | fuel + 1, '*' :: cs => anything :: readPieces fuel cs
  | fuel + 1, '?' :: cs => one :: readPieces fuel cs
  | fuel + 1, '[' :: cs =>
    match readSet cs with
    | some (set, cs) => set :: readPieces fuel cs
    | none => [nothing]
  | fuel + 1, cs =>
    match readChar cs with
    | some (c, cs) => exactly c :: readPieces fuel cs
    | none => []

/-- The pieces of a pattern. -/
def parse (pattern : List Char) : List Wildcard :=
  readPieces pattern.length pattern

/-- What can be left of a text after any characters, of which none is a slash if `path` is set. -/
def remainders (path : Bool) : List Char → List (List Char)
  | [] => [[]]
  | c :: cs => (c :: cs) :: (if path && c == '/' then [] else remainders path cs)

/-- Whether pieces match a text. If `path` is set no wildcard stands for a slash. -/
def accepts (path : Bool) : List Wildcard → List Char → Bool
  | [], cs => cs.isEmpty
  | anything :: ps, cs => (remainders path cs).any fun rest => accepts path ps rest
  | one :: ps, c :: cs => !(path && c == '/') && accepts path ps cs
  | oneOf negated ranges :: ps, c :: cs =>
    !(path && c == '/') && (ranges.any fun (lo, hi) => lo ≤ c && c ≤ hi) != negated
      && accepts path ps cs
  | exactly d :: ps, c :: cs => c == d && accepts path ps cs
  | _, _ => false

end Wildcard

end Enclosure
