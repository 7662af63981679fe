import Enclosure.Source.Header
import Enclosure.Source.Line

/-!
# Blocks and the block that encloses a range

A header opens a block. The block runs from its header to the last line, before the first line that
is indented no deeper than the header, that is indented deeper; blank lines do not count, and a
header without such lines is a block of one line.

The block that encloses a range of lines is, among the blocks that contain the whole range, the one
with the widest span; of several with that span, the one that comes first. A method inside a class
therefore gives the class.

## Main definitions

* `Block`: a kind, a name and a span of lines.
* `blocks`: the blocks of a text, in order of their headers.
* `enclosing?`: the block that encloses a range of lines.
-/

namespace Enclosure

/-- A function or class with the lines it spans, both ends included. -/
structure Block where
  kind : BlockKind
  name : Text
  first : Int
  last : Int
deriving DecidableEq, Repr

namespace Block

/-- Whether the block contains the whole range from `lo` to `hi`. -/
def contains (b : Block) (lo hi : Int) : Bool :=
  b.first ≤ lo && hi ≤ b.last

/-- The distance from the first to the last line. -/
def span (b : Block) : Int :=
  b.last - b.first

/-- The span as reported, in a 64-bit word. -/
def size (b : Block) : Int :=
  wrap64 b.span

/-- The block as shown to people. -/
def shown (b : Block) : Text :=
  b.kind.shown ++ " " ++ b.name ++ " (lines " ++ Text.ofInt b.first ++ "-" ++ Text.ofInt b.last
    ++ ")"

end Block

/-- The number of the last line of the block that `header` opens, where `rest` are the lines after
it. -/
def lastLine (header : SourceLine) (rest : List SourceLine) : Nat :=
  match (rest.takeWhile fun l => header.indent < l.indent).getLast? with
  | some l => l.number
  | none => header.number

/-- The blocks that open on the given lines, in order. -/
def blocksOfLines : List SourceLine → List Block
  | [] => []
  | l :: rest =>
    match Header.parse? l.content with
    | some h => ⟨h.kind, h.name, l.number, lastLine l rest⟩ :: blocksOfLines rest
    | none => blocksOfLines rest

/-- The blocks of a text, in order of their headers. -/
def blocks (t : Text) : List Block :=
  blocksOfLines (sourceLines t)

/-- Of two blocks the wider one, and the earlier one if they are equally wide. -/
def widerOf (best : Option Block) (b : Block) : Option Block :=
  match best with
  | none => some b
  | some a => if a.span < b.span then some b else some a

/-- The first of the widest blocks among those that contain the whole range. -/
def widest? (bs : List Block) (lo hi : Int) : Option Block :=
  (bs.filter (·.contains lo hi)).foldl widerOf none

/-- The block of a text that encloses the range from `lo` to `hi`. -/
def enclosing? (t : Text) (lo hi : Int) : Option Block :=
  widest? (blocks t) lo hi

end Enclosure
