import Enclosure.Analysis.Basic
import Enclosure.Files.Reader
import Enclosure.Settings.Basic
import Enclosure.Source.DryRun
import Enclosure.Source.Language

/-!
# Running an analysis

A changed file is analysed unless it is ignored or of an unsupported kind. It is read and dry-run;
if it cannot be read it is skipped, and if it fails the dry run it is skipped where the settings say
so. Of the file's hunks those that only remove lines are left out, and each of the others is given
the block that encloses it.

Files may be finished in any order, and each has at most one warning. The result keeps the order of
the files; the warnings, whose order tells nothing, are put in bytewise order.

## Main definitions

* `Settings.eligibility`: whether a file is analysed, and if not, why.
* `analyseFile`: the outcome for one file.
* `analyse`: the outcome for all changed files.
-/

namespace Enclosure

/-- Whether a changed file is analysed. -/
inductive Eligibility where
  | eligible
  | ignored
  | unsupported
deriving DecidableEq, Repr

/-- Whether a file is analysed under the settings, and if not, why. -/
def Settings.eligibility (s : Settings) (file : Text) : Eligibility :=
  if s.isIgnored file then .ignored
  else if isSupported s.extensions file then .eligible
  else .unsupported

/-- What is noted about a file that is not analysed. -/
def Eligibility.note? (file : Text) : Eligibility → Option Text
  | eligible => none
  | ignored => some ("Ignoring " ++ file ++ "\n")
  | unsupported => some ("No parser for " ++ file ++ "\n")

/-- The hunks of a file that do not only remove lines, each with the block that encloses it. -/
def hunkReports (content : Text) (ranges : List LineRange) : List HunkReport :=
  (ranges.filter fun r => !r.isDeletion).map fun r => ⟨r, enclosing? content r.first r.last⟩

/-- What becomes of a file that is analysed. -/
inductive FileOutcome where
  /-- The file was analysed; there may be a warning all the same. -/
  | reported (report : FileReport) (warning : Option Text)
  /-- The file was skipped, with a warning. -/
  | skipped (file : SkippedFile) (warning : Text)
deriving DecidableEq, Repr

namespace FileOutcome

/-- The report, if the file was analysed. -/
def report? : FileOutcome → Option FileReport
  | reported report _ => some report
  | skipped _ _ => none

/-- The record of the file, if it was skipped. -/
def skipped? : FileOutcome → Option SkippedFile
  | reported _ _ => none
  | skipped file _ => some file

/-- The warning, if there is one. -/
def warning? : FileOutcome → Option Text
  | reported _ warning => warning
  | skipped _ warning => some warning

end FileOutcome

/-- The outcome for one file. -/
def analyseFile (s : Settings) (reader : FileReader) (file : ChangedFile) : FileOutcome :=
  match reader.read file.name with
  | .error reason =>
    .skipped ⟨file.name, reason⟩ ("WARNING: Unable to read " ++ file.name ++ ": " ++ reason ++ "\n")
  | .ok content =>
    let report : FileReport := ⟨file.name, some (hunkReports content file.ranges)⟩
    let verdict := dryRun content
    if verdict.valid then .reported report none
    else
      let warning : Text := "WARNING: " ++ file.name ++ " failed dry run: " ++ verdict.error ++ "\n"
      if s.skipInvalid then .skipped ⟨file.name, verdict.error⟩ warning
      else .reported report (some warning)

/-- The outcome of an analysis: what was noted about the files left out, the warnings, and the
result, unless the analysis was called off. -/
structure AnalysisOutcome where
  notes : List Text
  warnings : List Text
  result : Option Analysis
deriving DecidableEq, Repr

/-- The analysis that the outcomes of its files make up. -/
def Analysis.ofOutcomes (outcomes : List FileOutcome) : Analysis :=
  ⟨some (outcomes.filterMap FileOutcome.report?), some (outcomes.filterMap FileOutcome.skipped?)⟩

/-- What is said about an analysis that was called off. -/
def calledOffMessage : Text := "context canceled"

/-- The outcome for all changed files. An analysis that is called off before it starts has no
result, except where there is no file to analyse. -/
def analyse (s : Settings) (reader : FileReader) (calledOff : Bool) (files : List ChangedFile) :
    AnalysisOutcome :=
  let notes := files.filterMap fun f => (s.eligibility f.name).note? f.name
  let eligible := files.filter fun f => s.eligibility f.name = .eligible
  if calledOff && !eligible.isEmpty then ⟨notes, [], none⟩
  else
    let outcomes := eligible.map (analyseFile s reader)
    ⟨notes, Text.sort (outcomes.filterMap FileOutcome.warning?), some (.ofOutcomes outcomes)⟩

end Enclosure
