import Enclosure.Toml.Reader

/-!
# Reading documents

A value is read by recursion into arrays and inline tables. Each level of nesting and each item
takes at least one byte, so the length of the text bounds the recursion; `fuel` counts it down.

## Main definitions

* `Toml.readValue`: a value of any kind.
* `Toml.parse?`: the statements of a document.
-/

namespace Enclosure

namespace Toml

mutual

/-- Reads a value. -/
def readValue : Nat → Text → Option (Value × Text)
  | 0, _ => none
  | fuel + 1, t =>
    match t with
    | [] => none
    | 34 :: _ | 39 :: _ => (readString t).map fun (s, t) => (.string s, t)
    | 116 :: 114 :: 117 :: 101 :: rest => some (.boolean true, rest)
    | 102 :: 97 :: 108 :: 115 :: 101 :: rest => some (.boolean false, rest)
    | 91 :: rest => (readItems fuel [] rest).map fun (vs, t) => (.array vs, t)
    | 123 :: rest => (readEntries fuel [] rest).map fun (es, t) => (.table es, t)
    | _ => readNumber t

/-- Reads the items of an array up to its end; `acc` holds those read so far, in reverse. A comma
may follow the last one. -/
def readItems : Nat → List Value → Text → Option (List Value × Text)
  | 0, _, _ => none
  | fuel + 1, acc, t => do
    let t ← skipGap t
    match t with
    | 93 :: rest => return (acc.reverse, rest)
    | _ =>
      let t ← if acc.isEmpty then some t else skipGap (← expect 44 t)
      match t with
      | 93 :: rest => return (acc.reverse, rest)
      | _ =>
        let (v, t) ← readValue fuel t
        readItems fuel (v :: acc) t

/-- Reads the entries of an inline table up to its end; `acc` holds those read so far, in
reverse. -/
def readEntries : Nat → List (Key × Value) → Text → Option (List (Key × Value) × Text)
  | 0, _, _ => none
  | fuel + 1, acc, t =>
    match skipSpace t with
    | 125 :: rest => some (acc.reverse, rest)
    | t => do
      let t ← if acc.isEmpty then some t else (expect 44 t).map skipSpace
      let (key, t) ← readKey t
      let (v, t) ← readValue fuel (skipSpace (← expect 61 t))
      readEntries fuel ((key, v) :: acc) t

end

/-- Enough fuel for the values of a text: an item and its value take two rounds and at least one
byte. -/
def enoughFuel (t : Text) : Nat :=
  2 * t.length + 2

/-- Reads the heading of a table or of a table in an array, or a key with its value. -/
def readStatement (t : Text) : Option (Statement × Text) :=
  match t with
  | 91 :: 91 :: rest => do
    let (key, t) ← readKey (skipSpace rest)
    return (.arrayTable key, ← expect 93 (← expect 93 t))
  | 91 :: rest => do
    let (key, t) ← readKey (skipSpace rest)
    return (.table key, ← expect 93 t)
  | _ => do
    let (key, t) ← readKey t
    let t := skipSpace (← expect 61 t)
    let (v, t) ← readValue (enoughFuel t) t
    return (.assign key v, t)

/-- Whether there is nothing to read in the rest of a line. -/
def isLineEnd (t : Text) : Bool :=
  match t with
  | [] | 10 :: _ | 13 :: _ | 35 :: _ => true
  | _ => false

/-- Reads at most `fuel` lines. A line holds at most one statement, and `acc` has those read so far,
in reverse. -/
def readLines : Nat → List Statement → Text → Option (List Statement)
  | 0, acc, _ => some acc.reverse
  | fuel + 1, acc, t => do
    let t := skipSpace t
    let (acc, t) ← if isLineEnd t then some (acc, t)
      else (readStatement t).map fun (s, t) => (s :: acc, t)
    match ← skipComment (skipSpace t) with
    | [] => return acc.reverse
    | t => readLines fuel acc (← skipNewline t)

/-- The statements of a document, if it is well formed. -/
def parse? (t : Text) : Option (List Statement) :=
  readLines (t.length + 1) [] t

end Toml

end Enclosure
