import Enclosure.Files.Tree
import Enclosure.Text.Blank
import Enclosure.Tool.Scanner

/-!
# Standard input

The command reads file names or a file from its standard input. Names come one a line; a line that
is too long spoils the whole list. As a file the input can be read only once: after that nothing is
left of it.

## Main definitions

* `linesRead`, `inputLines`: the lines of the input that are not blank.
* `readTarget`: the content of a file, or of the input.
-/

namespace Enclosure

/-- What is said about a line that is too long. -/
def tooLongMessage : Text := "error reading from stdin: bufio.Scanner: token too long"

/-- Puts a line in front of those that are kept, without the white space around it, unless it is
blank. -/
def keepLine (kept : List Text) (l : Text) : List Text :=
  if l.trim.isEmpty then kept else l.trim :: kept

/-- The lines that are kept when all of the input is scanned. `kept` holds, in reverse, those from
what is scanned already; they are lost if a line is too long. -/
def Scanner.linesFrom (s : Scanner) (kept : List Text) : Except Text (List Text) :=
  match _h : s.step with
  | .line l next => next.linesFrom (keepLine kept l)
  | .more next => next.linesFrom kept
  | .done last => .ok (last.toList.foldl keepLine kept).reverse
  | .tooLong => .error tooLongMessage
termination_by s.weight
decreasing_by
  · exact weight_lt_of_line _h
  · exact weight_lt_of_more _h

/-- The lines of the input without the white space around them, less those that are blank, if the
reads bring the given portions. -/
def linesRead (portion : Nat → Nat) (input : Text) : Except Text (List Text) :=
  (Scanner.start portion input).linesFrom []

/-- The lines of the input, if each read brings as much as there is room for. -/
def inputLines (input : Text) : Except Text (List Text) :=
  linesRead (fun _ => lineLimit) input

/-- The name that stands for the input. -/
def inputName : Text := "-"

/-- The content of a file, or of the input, and what is left of the input. -/
def readTarget (tree : FileTree) (input target : Text) : Except Text (Text × Text) :=
  if target == inputName then .ok (input, [])
  else match tree.read target with
    | .ok content => .ok (content, input)
    | .error fault => .error ("error reading " ++ target ++ ": " ++ fault.readMessage target)

end Enclosure
