import Enclosure.Json.Value
import Enclosure.Patch.Changes
import Enclosure.Source.Block

/-!
# Analyses

The result of an analysis: for each changed file its hunks, each with the block that encloses it if
there is one, and the files that could not be analysed, each with the reason.

An analysis can also come from outside, and then any of its lists may be absent. An absent list has
no items, but in data it is shown differently from an empty one.

## Main definitions

* `Listing`: a list that may be absent.
* `HunkReport`, `FileReport`, `SkippedFile`, `Analysis`: the parts of an analysis.
* `Analysis.contextCount`: how many hunks have an enclosing block.
* `Analysis.json`: the analysis as data.
-/

namespace Enclosure

/-- A list that may be absent. -/
abbrev Listing (α : Type) := Option (List α)

/-- The items of a list; an absent one has none. -/
def Listing.items {α : Type} (l : Listing α) : List α :=
  l.getD []

/-- A changed range of lines and the block that encloses it. -/
structure HunkReport where
  range : LineRange
  block : Option Block
deriving DecidableEq, Repr

/-- The hunks of a file. -/
structure FileReport where
  name : Text
  hunks : Listing HunkReport
deriving DecidableEq, Repr

/-- A file that could not be analysed, and why. -/
structure SkippedFile where
  name : Text
  reason : Text
deriving DecidableEq, Repr

/-- The result of an analysis. -/
structure Analysis where
  files : Listing FileReport
  skipped : Listing SkippedFile
deriving DecidableEq, Repr

/-- How many hunks of a file have an enclosing block. -/
def FileReport.contextCount (f : FileReport) : Nat :=
  f.hunks.items.countP fun h => h.block.isSome

/-- How many hunks have an enclosing block. -/
def Analysis.contextCount (a : Analysis) : Nat :=
  a.files.items.foldl (fun n f => n + f.contextCount) 0

/-- What is said about a kind that cannot be written as data. -/
def BlockKind.dataMessage (k : BlockKind) : Text :=
  "json: error calling MarshalText for type *pycontext.Kind: " ++ k.namelessMessage

/-- The list as data. -/
def Listing.json {α : Type} (f : α → Except BlockKind Json) (l : Listing α) :
    Except BlockKind Json :=
  match l with
  | none => .ok .null
  | some items => (items.mapM f).map .array

/-- The range as data. -/
def LineRange.json (r : LineRange) : Json :=
  .object [("start", .int r.first), ("end", .int r.last)]

/-- The block as data, unless its kind has no name. -/
def Block.json (b : Block) : Except BlockKind Json :=
  match b.kind.name? with
  | none => .error b.kind
  | some name => .ok (.object [("type", .string name), ("name", .string b.name),
      ("start", .int b.first), ("end", .int b.last)])

/-- The hunk as data. -/
def HunkReport.json (h : HunkReport) : Except BlockKind Json := do
  let block ← match h.block with
    | none => pure .null
    | some b => b.json
  return .object [("hunk", h.range.json), ("context", block)]

/-- The file as data. -/
def FileReport.json (f : FileReport) : Except BlockKind Json := do
  return .object [("file", .string f.name), ("hunks", ← Listing.json HunkReport.json f.hunks)]

/-- The skipped file as data. -/
def SkippedFile.json (s : SkippedFile) : Json :=
  .object [("file", .string s.name), ("reason", .string s.reason)]

namespace Analysis

/-- The members of an analysis as data. -/
def members (a : Analysis) : Except BlockKind (List (Text × Json)) := do
  return [("files", ← Listing.json FileReport.json a.files),
    ("skipped", ← Listing.json (fun s => pure s.json) a.skipped)]

/-- The analysis as data, unless it has a block whose kind has no name. -/
def json (a : Analysis) : Except BlockKind Json :=
  a.members.map .object

end Analysis

end Enclosure
