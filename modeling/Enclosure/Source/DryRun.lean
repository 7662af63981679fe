import Enclosure.Text.Blank
import Enclosure.Text.Decimal

/-!
# The dry run

A dry run judges every line of a text on its own: the brackets of each of three kinds must be as
many opening as closing, whatever their order, and the line must not end in a lone backslash. White
space at the ends of a line does not matter. The first line at fault decides, and of its two
possible faults the brackets come first.

## Main definitions

* `LineFault`, `Fault`: what is wrong with a line, and where.
* `firstFault?`: the first fault of a text.
* `Verdict`, `dryRun`: the outcome as reported.
-/

namespace Enclosure

/-- What can be wrong with a line. -/
inductive LineFault where
  /-- Some kind of bracket opens more or less often than it closes. -/
  | unbalanced
  /-- The line ends in a lone backslash. -/
  | dangling
deriving DecidableEq, Repr

/-- A fault and the number of its line. -/
structure Fault where
  cause : LineFault
  line : Nat
deriving DecidableEq, Repr

/-- The fault as reported. -/
def Fault.message (f : Fault) : Text :=
  match f.cause with
  | .unbalanced => "Syntax error: Unbalanced brackets/parentheses at line " ++ Text.ofNat f.line
  | .dangling => "Syntax error: Incomplete line at line " ++ Text.ofNat f.line

/-- The three kinds of brackets: parentheses, square brackets and braces. -/
def bracketPairs : List (UInt8 × UInt8) :=
  [(40, 41), (91, 93), (123, 125)]

/-- Whether each kind of bracket opens as often as it closes. -/
def bracketsBalanced (line : Text) : Bool :=
  bracketPairs.all fun (opening, closing) => line.count opening == line.count closing

/-- Whether the line ends in a backslash that has no backslash before it. -/
def endsDangling (line : Text) : Bool :=
  line.getLast? == some 92 && line.dropLast.getLast? != some 92

/-- What is wrong with a raw line, if anything. -/
def lineFault? (raw : Text) : Option LineFault :=
  let line := raw.trim
  if !bracketsBalanced line then some .unbalanced
  else if endsDangling line then some .dangling
  else none

/-- The first fault of a text. -/
def firstFault? (t : Text) : Option Fault :=
  (t.lines.zipIdx 1).findSome? fun (raw, number) => (lineFault? raw).map (⟨·, number⟩)

/-- The outcome of a dry run; the error is empty when the text is valid. -/
structure Verdict where
  valid : Bool
  error : Text
deriving DecidableEq, Repr

/-- The outcome for a text. -/
def dryRun (t : Text) : Verdict :=
  match firstFault? t with
  | none => ⟨true, []⟩
  | some f => ⟨false, f.message⟩

end Enclosure
