import Enclosure.Text.Decimal
import Enclosure.Text.Quoted

/-!
# Kinds of blocks

A block is a function or a class. Kinds have number codes, 1 and 2, and reports that come from
outside may carry other codes; such a kind can be shown but not written as data.

## Main definitions

* `BlockKind`: function, class, or a code without meaning.
* `BlockKind.shown`: the kind as shown to people.
* `BlockKind.name?`, `BlockKind.ofName?`: the kind's name in data, and back.
-/

namespace Enclosure

/-- What a block defines. -/
inductive BlockKind where
  | function
  | classBody
  /-- A code that stands for neither. -/
  | unknown (code : Int)
deriving DecidableEq, Repr

namespace BlockKind

/-- The kind with a given code. -/
def ofCode (n : Int) : BlockKind :=
  if n = 1 then function else if n = 2 then classBody else unknown n

/-- The code of a kind. -/
def code : BlockKind → Int
  | function => 1
  | classBody => 2
  | unknown n => n

/-- The kind as shown to people. -/
def shown : BlockKind → Text
  | function => "function"
  | classBody => "class"
  | unknown n => "Kind(" ++ Text.ofInt n ++ ")"

/-- The name of a kind in data. A code without meaning has none. -/
def name? : BlockKind → Option Text
  | function => some "function"
  | classBody => some "class"
  | unknown _ => none

/-- The kind that a name in data stands for. -/
def ofName? (t : Text) : Option BlockKind :=
  if t = Text.ofString "function" then some function
  else if t = Text.ofString "class" then some classBody
  else none

/-- What is said about a kind that has no name. -/
def namelessMessage (k : BlockKind) : Text :=
  "invalid kind " ++ Text.ofInt k.code

/-- What is said about a name that stands for no kind. -/
def unknownNameMessage (t : Text) : Text :=
  "invalid kind " ++ t.quoted

end BlockKind

end Enclosure
