import Enclosure.Analysis.Basic

/-!
# The comment on a pull request

The comment starts with a header, by which it is found again, and shows the enclosing blocks in a
table and the skipped files in a list.

## Main definitions

* `LineRange.shown`: a range as shown to people.
* `Analysis.comment`: the comment for an analysis.
-/

namespace Enclosure

/-- A range of lines as shown to people: one number if both ends are equal. -/
def showLines (first last : Int) : Text :=
  if first = last then Text.ofInt first else Text.ofInt first ++ "-" ++ Text.ofInt last

/-- A range as shown to people. -/
def LineRange.shown (r : LineRange) : Text :=
  showLines r.first r.last

/-- The row of a hunk, if it has an enclosing block. -/
def HunkReport.row (file : Text) (h : HunkReport) : Text :=
  match h.block with
  | none => []
  | some b => "| `" ++ file ++ "` | " ++ h.range.shown ++ " | " ++ b.kind.shown ++ " `"
      ++ b.name ++ "` (lines " ++ showLines b.first b.last ++ ") |\n"

/-- The rows of a file. -/
def FileReport.rows (f : FileReport) : Text :=
  f.hunks.items.flatMap (HunkReport.row f.name)

/-- The entry of a skipped file. -/
def SkippedFile.entry (s : SkippedFile) : Text :=
  "- `" ++ s.name ++ "`: " ++ s.reason ++ "\n"

namespace Analysis

/-- The table of enclosing blocks, or a sentence that there are none. -/
def table (a : Analysis) : Text :=
  if a.contextCount = 0 then "No changed hunk is enclosed by a function or class.\n"
  else "| File | Changed lines | Enclosing block |\n| --- | --- | --- |\n"
    ++ a.files.items.flatMap FileReport.rows

/-- The list of skipped files, if there are any. -/
def skippedList (a : Analysis) : Text :=
  if a.skipped.items.isEmpty then []
  else "\n**Skipped files**\n" ++ a.skipped.items.flatMap SkippedFile.entry

/-- The comment for an analysis. -/
def comment (header : Text) (a : Analysis) : Text :=
  header ++ "\n### Enclosing context for changed hunks\n\n" ++ a.table ++ a.skippedList

end Analysis

end Enclosure
