import Enclosure.Source.Kind

/-!
# Headers of blocks

A function header is `def`, white space, a name, optional white space and an opening parenthesis; a
class header is `class`, white space, a name and then a colon, or a parenthesised list and a colon
on the same line. Names are ASCII words. White space here is ASCII only and does not include the
vertical tab. Nothing is asked of what follows.

A name is followed by a character that no name contains, so the longest word at the place of the
name is the only candidate.

## Main definitions

* `Header`: the kind and the name that a header announces.
* `Header.parse?`: reads the header at the front of a line.
-/

namespace Enclosure

/-- What the first line of a block announces. -/
structure Header where
  kind : BlockKind
  name : Text
deriving DecidableEq, Repr

namespace Header

/-- The white space that may stand inside a header: tab, newline, form feed, carriage return and
space. -/
def isGap (b : UInt8) : Bool :=
  b == 9 || b == 10 || b == 12 || b == 13 || b == 32

/-- Reads a keyword, white space and a word. The answer is the word and what follows it. -/
def readNamed (keyword t : Text) : Option (Text × Text) := do
  let rest ← keyword.isPrefixOf? t
  guard (!(rest.takeWhile isGap).isEmpty)
  let rest := rest.dropWhile isGap
  let name := rest.takeWhile Text.isWord
  guard (!name.isEmpty)
  return (name, rest.dropWhile Text.isWord)

/-- Whether an opening parenthesis follows, possibly after white space. -/
def opensParameters (t : Text) : Bool :=
  (t.dropWhile isGap).head? == some 40

/-- Whether a colon follows, possibly after a parenthesised list that ends on the same line. -/
def opensBody (t : Text) : Bool :=
  match t with
  | 58 :: _ => true
  | 40 :: rest => Text.hasInfix "):" (rest.takeWhile (· != Text.newline))
  | _ => false

/-- The name of the function whose header the text starts with. -/
def functionName? (t : Text) : Option Text := do
  let (name, rest) ← readNamed "def" t
  guard (opensParameters rest)
  return name

/-- The name of the class whose header the text starts with. -/
def className? (t : Text) : Option Text := do
  let (name, rest) ← readNamed "class" t
  guard (opensBody rest)
  return name

/-- The header at the front of a line without indentation. -/
def parse? (t : Text) : Option Header :=
  match functionName? t with
  | some name => some ⟨.function, name⟩
  | none =>
    match className? t with
    | some name => some ⟨.classBody, name⟩
    | none => none

end Header

end Enclosure
