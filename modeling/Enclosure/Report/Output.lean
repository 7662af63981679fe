import Enclosure.Analysis.Basic
import Enclosure.Report.Format
import Enclosure.Source.DryRun

/-!
# What the command prints

Three things are printed: the block that encloses a range, the verdicts of dry runs, and the result
of an analysis, each in every format. Only output for programs can fail, namely on a block whose
kind has no name.

## Main definitions

* `printBlock`, `printVerdicts`, `printAnalysis`: the text printed.
-/

namespace Enclosure

/-- The verdict on a file. -/
structure FileVerdict where
  file : Text
  verdict : Verdict
deriving DecidableEq, Repr

/-- The verdict as data. -/
def FileVerdict.json (v : FileVerdict) : Json :=
  .object [("file", .string v.file), ("valid", .bool v.verdict.valid),
    ("error", .string v.verdict.error)]

/-- The verdict as shown to people. -/
def FileVerdict.shown (v : FileVerdict) : Text :=
  v.file ++ ": " ++ (if v.verdict.valid then ("OK" : Text) else v.verdict.error)

/-- A line of data. -/
def printJson (v : Except BlockKind Json) : Except Text Text :=
  match v with
  | .ok v => .ok (v.render ++ "\n")
  | .error kind => .error ("failed to marshal output: " ++ kind.dataMessage)

/-- What is printed about the block that encloses a range. -/
def printBlock (block : Option Block) (format : OutputFormat) : Except Text Text :=
  match format, block with
  | .json, none => printJson (.ok .null)
  | .json, some b => printJson b.json
  | .oneLine, none => .ok "-\n"
  | .oneLine, some b => .ok (b.kind.shown ++ " " ++ b.name ++ " " ++ Text.ofInt b.first ++ " "
      ++ Text.ofInt b.last ++ "\n")
  | _, none => .ok "No enclosing function or class\n"
  | _, some b => .ok (b.shown ++ "\n")

/-- What is printed about dry runs. -/
def printVerdicts (verdicts : List FileVerdict) (format : OutputFormat) : Text :=
  match format with
  | .json => (Json.array (verdicts.map FileVerdict.json)).render ++ "\n"
  | .oneLine => Text.join ", " (verdicts.map FileVerdict.shown) ++ "\n"
  | _ => Text.join "\n" (verdicts.map FileVerdict.shown) ++ "\n"

/-- Both ends of a range, also if they are equal. -/
def LineRange.ends (r : LineRange) : Text :=
  Text.ofInt r.first ++ "-" ++ Text.ofInt r.last

/-- The enclosing block of a hunk as shown to people. -/
def HunkReport.shownBlock (h : HunkReport) : Text :=
  match h.block with
  | none => "-"
  | some b => b.shown

/-- The line of a hunk. -/
def HunkReport.line (format : OutputFormat) (file : Text) (h : HunkReport) : Text :=
  if format = .oneLine then file ++ ":" ++ h.range.ends ++ " " ++ h.shownBlock ++ "\n"
  else "  " ++ h.range.ends ++ ": " ++ h.shownBlock ++ "\n"

/-- The lines of a file; for people they have its name as a title. -/
def FileReport.lines (format : OutputFormat) (f : FileReport) : Text :=
  (if format = .standard then f.name ++ ":\n" else ([] : Text))
    ++ f.hunks.items.flatMap (HunkReport.line format f.name)

/-- The line of a skipped file. -/
def SkippedFile.line (s : SkippedFile) : Text :=
  "skipped " ++ s.name ++ ": " ++ s.reason ++ "\n"

/-- What is printed about an analysis. For people an empty line stands between two files. -/
def printAnalysis (a : Analysis) (format : OutputFormat) : Except Text Text :=
  match format with
  | .json => printJson a.json
  | _ =>
    let gap : Text := if format = .standard then "\n" else []
    .ok (Text.join gap (a.files.items.map (FileReport.lines format))
      ++ a.skipped.items.flatMap SkippedFile.line)

end Enclosure
