import Enclosure.Text.Decimal

/-!
# TOML documents

A TOML document is a sequence of statements: keys that are given values, and the headings of tables
and of tables in arrays. A key is a path of names. Numbers are kept as written, because whether one
is in range or has its underscores in the right places is judged only where a number is wanted; the
same holds for floats and for dates and times, which nothing here ever wants.

## Main definitions

* `Toml.Value`, `Toml.Statement`: the parts of a document.
* `Toml.Value.integer?`, `Toml.Value.boolean?`, `Toml.Value.string?`, `Toml.Value.strings?`: a value
  as one of the kinds that settings are made of.
-/

namespace Enclosure

namespace Toml

/-- A path of names. -/
abbrev Key := List Text

/-- A value. -/
inductive Value where
  | string (t : Text)
  | boolean (b : Bool)
  /-- An integer as written. -/
  | integer (token : Text)
  /-- A float as written. -/
  | float (token : Text)
  /-- A date, a time or both, as written. -/
  | time (token : Text)
  | array (items : List Value)
  | table (entries : List (Key × Value))
deriving Repr

/-- One expression of a document. -/
inductive Statement where
  /-- A key is given a value in the current table. -/
  | assign (key : Key) (v : Value)
  /-- The heading of a table. -/
  | table (key : Key)
  /-- The heading of one more table in an array of tables. -/
  | arrayTable (key : Key)
deriving Repr

/-- Whether a byte is the sign of a number. -/
def isSign (b : UInt8) : Bool :=
  b == 43 || b == 45

/-- The token without its underscores, each of which must stand between two other bytes. -/
def withoutUnderscores? (token : Text) : Option Text :=
  let pieces := Text.splitAt 95 token
  if pieces.length ≤ 1 then some token
  else if pieces.any List.isEmpty || (pieces.head?.getD []).all isSign then none
  else some pieces.flatten

/-- The value of a digit in a base of at most 16. -/
def digitValue? (base : Nat) (b : UInt8) : Option Nat :=
  match Text.hexValue? b with
  | some d => if d < base then some d else none
  | none => none

/-- The number that digits stand for in a base; there has to be one. -/
def magnitude? (base : Nat) (digits : Text) : Option Nat :=
  if digits.isEmpty then none
  else digits.foldl (fun acc b => do return (← acc) * base + (← digitValue? base b)) (some 0)

/-- A number, if it fits 64 bits. -/
def word? (n : Int) : Option Int :=
  if wrap64 n = n then some n else none

/-- The value of a decimal integer: an optional sign and digits without a leading zero. -/
def decimal? (token : Text) : Option Int := do
  let t ← withoutUnderscores? token
  let digits := match t with
    | b :: rest => if isSign b then rest else t
    | [] => t
  guard !(1 < digits.length && digits.head? == some 48)
  let n ← magnitude? 10 digits
  word? (if t.head? == some 45 then -(n : Int) else n)

/-- The value of digits in a base other than ten. -/
def based? (base : Nat) (digits : Text) : Option Int := do
  let n ← magnitude? base (← withoutUnderscores? digits)
  word? n

/-- The value of an integer as written. -/
def integerValue? (token : Text) : Option Int :=
  match token with
  | 48 :: mark :: d :: rest =>
    if mark == 120 then based? 16 (d :: rest)
    else if mark == 111 then based? 8 (d :: rest)
    else if mark == 98 then based? 2 (d :: rest)
    else decimal? token
  | _ => decimal? token

namespace Value

/-- The value as an integer of 64 bits. -/
def integer? : Value → Option Int
  | integer token => integerValue? token
  | _ => none

/-- The value as a truth value. -/
def boolean? : Value → Option Bool
  | boolean b => some b
  | _ => none

/-- The value as a text. -/
def string? : Value → Option Text
  | string t => some t
  | _ => none

/-- The value as a list of texts. -/
def strings? : Value → Option (List Text)
  | array items => items.mapM string?
  | _ => none

end Value

end Toml

end Enclosure
