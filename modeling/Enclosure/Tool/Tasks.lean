import Enclosure.Analysis.Run
import Enclosure.Git.Command
import Enclosure.Ignore.Walk
import Enclosure.Report.Output
import Enclosure.Settings.Read
import Enclosure.Tool.Input

/-!
# The tasks of the command

The command finds the block that encloses a range of lines, dry-runs files, dry-runs all files of a
repository, and analyses a diff. Each task is a function of the files, the standard input and git,
and its outcome is all that it writes and the error it ends with, if any.

## Main definitions

* `TaskOutcome`: what a task writes.
* `findTask`, `dryRunTask`, `scanTask`, `diffTask`: the tasks.
* `supportedFiles`: the files of a walk that a scan is about.
-/

namespace Enclosure

/-- What a task writes, and the error it ends with. -/
structure TaskOutcome where
  /-- The text printed. -/
  output : Text
  /-- What is reported on request. -/
  info : List Text
  /-- What is reported always. -/
  warnings : List Text
  error : Option Text
deriving DecidableEq, Repr

namespace TaskOutcome

/-- An outcome that is an error and nothing else. -/
def failed (message : Text) : TaskOutcome :=
  ⟨[], [], [], some message⟩

/-- An outcome with the text printed or the error met. -/
def ofPrinted (info warnings : List Text) : Except Text Text → TaskOutcome
  | .ok output => ⟨output, info, warnings, none⟩
  | .error message => ⟨[], info, warnings, some message⟩

end TaskOutcome

/-- Whether something was found, in words. -/
def showFlag (b : Bool) : Text :=
  if b then "true" else "false"

/-- Finds the block that encloses the lines from `first` to `last` of a file. -/
def findTask (tree : FileTree) (input target : Text) (first last : Int) (format : OutputFormat) :
    TaskOutcome :=
  if first < 1 || last < first then
    .failed ("invalid line range " ++ Text.ofInt first ++ "-" ++ Text.ofInt last)
  else match readTarget tree input target with
    | .error message => .failed message
    | .ok (content, _) =>
      let block := enclosing? content first last
      let note : Text := target ++ " " ++ Text.ofInt first ++ "-" ++ Text.ofInt last ++ ": found="
        ++ showFlag block.isSome ++ "\n"
      .ofPrinted [note] [] (printBlock block format)

/-- What is said about targets without a name. -/
def emptyTargetMessage : Text := "empty target file path is not allowed"

/-- What is said about files that failed the dry run. -/
def failedMessage (failures total : Nat) : Text :=
  Text.ofNat failures ++ " of " ++ Text.ofNat total ++ " file(s) failed the dry run"

/-- The verdicts on some files, or the error of the first that cannot be judged. -/
def targetVerdicts (tree : FileTree) : Text → List Text → Except Text (List FileVerdict)
  | _, [] => .ok []
  | input, target :: rest =>
    if target.isEmpty then .error emptyTargetMessage
    else match readTarget tree input target with
      | .error message => .error message
      | .ok (content, input) =>
        match targetVerdicts tree input rest with
        | .error message => .error message
        | .ok verdicts => .ok (⟨target, dryRun content⟩ :: verdicts)

/-- Dry-runs files. Nothing is printed unless all of them can be judged. -/
def dryRunTask (tree : FileTree) (input : Text) (targets : List Text) (format : OutputFormat) :
    TaskOutcome :=
  match targetVerdicts tree input targets with
  | .error message => .failed message
  | .ok verdicts =>
    let failures := verdicts.countP fun v => !v.verdict.valid
    ⟨printVerdicts verdicts format, [], [],
      if failures = 0 then none else some (failedMessage failures targets.length)⟩

/-- The files of a walk of `root` that a scan is about, in bytewise order: those below the target
that are neither ignored nor unsupported, as paths from the root. -/
def supportedFiles (s : Settings) (root target : Text) (walked : List Text) : List Text :=
  Text.sort ((walked.map (Path.relative root)).filter fun file =>
    (target.isEmpty || file.startsWith target) && s.eligibility file = .eligible)

/-- The verdicts of a scan on the files that can be read, and the warnings about the others. -/
def scanVerdicts (reader : FileReader) (files : List Text) : List FileVerdict × List Text :=
  let read := files.map fun file => (file, reader.read file)
  (read.filterMap fun (file, content) =>
      match content with
      | .ok content => some ⟨file, dryRun content⟩
      | .error _ => none,
    read.filterMap fun (_, content) =>
      match content with
      | .ok _ => none
      | .error message => some ("WARNING: " ++ message ++ "\n"))

/-- The warnings about settings. -/
def SettingsReport.warnings (r : SettingsReport) : List Text :=
  r.error.toList.map Settings.warning

/-- Dry-runs the files of a repository, given the files that a walk of it delivers. -/
def scanFiles (tree : FileTree) (root target : Text) (walked : List Text) (format : OutputFormat) :
    TaskOutcome :=
  let report := Settings.read root tree.plainReader
  let files := supportedFiles report.settings root target walked
  let (verdicts, unread) := scanVerdicts (tree.reader root) files
  let failures := verdicts.filter fun v => !v.verdict.valid
  let info : List Text := ["Scanning " ++ Text.ofNat files.length ++ " file(s)\n"]
  let warnings := report.warnings ++ unread
  if failures.isEmpty then
    ⟨if format = .json then printVerdicts [] format else [], info, warnings, none⟩
  else
    ⟨printVerdicts failures format, info, warnings,
      some (failedMessage failures.length files.length)⟩

/-- Dry-runs all files of a repository, or of a part of it. -/
def scanTask (tree : FileTree) (root target : Text) (format : OutputFormat) : TaskOutcome :=
  if !tree.isDirectory root then .failed ("root is not a directory: " ++ root)
  else scanFiles tree root target (tree.walk root) format

/-- What a diff is taken from. -/
structure DiffRequest where
  root : Text
  base : Text
  head : Text
  /-- The file with the diff; if empty, git is asked. -/
  patch : Text
  format : OutputFormat
deriving DecidableEq, Repr

/-- The changed files of a diff and the reader for their content. -/
def DiffRequest.changes (r : DiffRequest) (tree : FileTree) (input : Text) (git : Git)
    (s : Settings) : Except Text (List ChangedFile × FileReader) :=
  if !r.patch.isEmpty then
    match readTarget tree input r.patch with
    | .error message => .error message
    | .ok (content, _) =>
      match changedFiles content with
      | .error e => .error (patchMessage e)
      | .ok files => .ok (files, tree.reader r.root)
  else if !tree.isDirectory (Path.join r.root FileTree.gitDirectory) then
    .error ("root is not a Git repository: " ++ r.root)
  else
    let git := git.within tree r.root
    match git.changes r.base r.head s.ignoredDirectories with
    | .error e => .error e.message
    | .ok files => .ok (files, git.reader r.head)

/-- Analyses a diff. -/
def diffTask (tree : FileTree) (input : Text) (git : Git) (calledOff : Bool) (r : DiffRequest) :
    TaskOutcome :=
  let report := Settings.read r.root tree.plainReader
  match r.changes tree input git report.settings with
  | .error message => ⟨[], [], report.warnings, some message⟩
  | .ok (files, reader) =>
    let outcome := analyse report.settings reader calledOff files
    let info := ("Analyzing " ++ Text.ofNat files.length ++ " changed file(s)\n" : Text)
      :: outcome.notes
    let warnings := report.warnings ++ outcome.warnings
    match outcome.result with
    | none => ⟨[], info, warnings, some calledOffMessage⟩
    | some a => .ofPrinted info warnings (printAnalysis a r.format)

end Enclosure
