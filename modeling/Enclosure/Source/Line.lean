import Enclosure.Text.Blank

/-!
# Lines of a source

Only the lines that are not blank matter for the block structure of a source. A `SourceLine` is
such a line with its number, its indentation and its content without surrounding white space.
Numbers count all lines of the text from 1, the blank ones included.

## Main definitions

* `SourceLine`: a line that is not blank.
* `sourceLines`: the lines of a text that are not blank, in order.
-/

namespace Enclosure

/-- A line of a source that is not blank. -/
structure SourceLine where
  /-- The number of the line in the text, counted from 1. -/
  number : Nat
  /-- The number of leading white-space characters. -/
  indent : Nat
  /-- The line without surrounding white space. -/
  content : Text
deriving DecidableEq, Repr

/-- The record of a raw line, unless it is blank. -/
def SourceLine.ofRaw? (raw : Text) (number : Nat) : Option SourceLine :=
  let content := raw.trim
  if content.isEmpty then none else some ⟨number, raw.indent, content⟩

/-- The lines of a text that are not blank, in order. -/
def sourceLines (t : Text) : List SourceLine :=
  (t.lines.zipIdx 1).filterMap fun (raw, number) => SourceLine.ofRaw? raw number

end Enclosure
