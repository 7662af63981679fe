import Enclosure.Analysis.Basic
import Enclosure.Files.Tree

/-!
# Results of a review

What a review hands over to the steps that follow it: the analysis, whether the review succeeded,
and a sentence about it. The result is appended to a file as one *block*: a line that opens it, the
result as JSON on one line, and a line that closes it. Since JSON text holds no newline, nothing in
a result can close its block early.

## Main definitions

* `ReviewResult`: the result.
* `ReviewResult.block`: the block with a result.
* `ReviewResult.publish`: appends the block to a file.
-/

namespace Enclosure

/-- What a review hands over. -/
structure ReviewResult where
  analysis : Analysis
  success : Bool
  message : Text
deriving DecidableEq, Repr

/-- Why a result cannot be handed over. -/
inductive PublishError where
  /-- A block of the analysis has a kind without a name. -/
  | nameless (kind : BlockKind)
  /-- The file cannot be opened. -/
  | file (path : Text) (fault : FileFault)
deriving DecidableEq, Repr

/-- The wording of an error. -/
def PublishError.message : PublishError → Text
  | nameless kind => "failed to marshal output data: " ++ kind.dataMessage
  | file path fault => "failed to open GITHUB_OUTPUT: " ++ fault.message "open" path

namespace ReviewResult

/-- The result of a review that failed before there was an analysis. -/
def empty : ReviewResult :=
  ⟨⟨none, none⟩, false, []⟩

/-- The result of a review that has an analysis but has not succeeded yet. -/
def pending (a : Analysis) : ReviewResult :=
  ⟨a, false, []⟩

/-- The result as data, unless the analysis has a block whose kind has no name. -/
def json (r : ReviewResult) : Except BlockKind Json := do
  let verdict : List (Text × Json) :=
    [("success", .bool r.success), ("message", .string r.message)]
  return .object ((← r.analysis.members) ++ verdict)

/-- The line that opens a block. -/
def opening : Text := "data<<EOF\n"

/-- The line that closes a block. -/
def closing : Text := "\nEOF\n"

/-- The block with a result. -/
def block (r : ReviewResult) : Except BlockKind Text :=
  r.json.map fun v => opening ++ v.render ++ closing

/-- Appends the block of a result to a file. Where no file is named nothing is done. -/
def publish (r : ReviewResult) (path : Text) (tree : FileTree) : Except PublishError FileTree :=
  if path.isEmpty then .ok tree
  else match r.block with
    | .error kind => .error (.nameless kind)
    | .ok text => (tree.append path text).mapError (.file path)

end ReviewResult

end Enclosure
