import Enclosure.Arguments.Flags
import Enclosure.Compaction
import Enclosure.Tool.Tasks

/-!
# The command line

The command has flags of its own, then the name of a task with the flags and operands of that task.
Help is shown on request: for a flag, for the task `help`, and where no task is named. The task
`help` is also a part of every task, and asked for something unknown it ends the command with an
exit code of its own.

Reports on request go to the error output only if they are wanted, or else to a log file, where the
warnings go as well.

## Main definitions

* `Workspace`: what the command works on.
* `CommandOutcome`: how the command ends.
* `Task`: the tasks, with their names, flags and actions.
* `runHelp`, `runTask`, `runCommand`: the command and its parts.
-/

namespace Enclosure

/-- What the command works on. The input may be absent. -/
structure Workspace where
  tree : FileTree
  input : Option Text
  git : Git

/-- How the command ends: its exit code, what it prints, what it reports and the files after it. -/
structure CommandOutcome where
  exit : Nat
  output : Text
  reports : Text
  tree : FileTree

/-- Where reports go. -/
structure Reporting where
  /-- The log file; without a name there is none. -/
  logFile : Text
  verbose : Bool
deriving DecidableEq, Repr

namespace CommandOutcome

/-- Stands in what is printed for the text of a help screen. -/
def helpScreen : Text := "<help>\n"

/-- The exit code of a command that asks for help on something unknown. -/
def unknownTopicExit : Nat := 3

/-- What is said about an unknown topic. -/
def unknownTopicMessage (topic : Text) : Text :=
  "No help topic for '" ++ topic ++ "'"

/-- The report of an error. -/
def errorReport (message : Text) : Text :=
  "Error: " ++ message ++ "\n"

/-- An outcome that only prints something. -/
def printed (tree : FileTree) (output : Text) : CommandOutcome :=
  ⟨0, output, [], tree⟩

/-- An outcome with an error, after something was printed. -/
def failed (tree : FileTree) (output message : Text) : CommandOutcome :=
  ⟨1, output, errorReport message, tree⟩

/-- The outcome for arguments that cannot be read. -/
def misused (tree : FileTree) (fault : FlagFault) : CommandOutcome :=
  failed tree ("Incorrect Usage: " ++ fault.message ++ "\n\n" ++ helpScreen) fault.message

/-- The outcome of a task, with its reports where they belong. Nothing is logged unless there is
something to report, and a log file that cannot be written does not matter. -/
def ofTask (tree : FileTree) (reporting : Reporting) (t : TaskOutcome) : CommandOutcome :=
  let logged := t.info.flatten ++ t.warnings.flatten
  let tree := if reporting.logFile.isEmpty then tree else tree.log reporting.logFile logged
  let onRequest := if reporting.verbose && reporting.logFile.isEmpty then t.info.flatten else []
  let reports := onRequest ++ t.warnings.flatten
  match t.error with
  | none => ⟨0, t.output, reports, tree⟩
  | some message => ⟨1, t.output, reports ++ errorReport message, tree⟩

end CommandOutcome

/-! ### Tasks -/

/-- The tasks. -/
inductive Task where
  | find
  | dryRun
  | scan
  | diff
deriving DecidableEq, Repr

/-- The names of the task `help`. -/
def helpTopics : List Text := ["help", "h"]

/-- The flag for help. -/
def helpFlag : Flag := ⟨helpTopics, .switch⟩

/-- The flag for the first line of a range. -/
def firstFlag : Flag := ⟨["start", "s"], .number⟩

/-- The flag for the last line of a range. -/
def lastFlag : Flag := ⟨["end", "e"], .number⟩

/-- The flag for the format. -/
def formatFlag : Flag := ⟨["format", "f"], .word⟩

/-- The flag for the directory of the repository. -/
def rootFlag : Flag := ⟨["root", "r", "repo"], .word⟩

/-- The flag for the commit a diff starts from. -/
def baseFlag : Flag := ⟨["base"], .word⟩

/-- The flag for the commit a diff leads to. -/
def headFlag : Flag := ⟨["head"], .word⟩

/-- The flag for a file with a diff. -/
def patchFlag : Flag := ⟨["patch", "p"], .word⟩

namespace Task

/-- The names of a task. -/
def names : Task → List Text
  | find => ["context", "c"]
  | dryRun => ["dryrun", "d"]
  | scan => ["scan", "s"]
  | diff => ["diff"]

/-- All tasks. -/
def all : List Task :=
  [find, dryRun, scan, diff]

/-- The task with a given name. -/
def ofName? (name : Text) : Option Task :=
  all.find? fun t => t.names.contains name

/-- The flags of a task. -/
def flags : Task → List Flag
  | find => [firstFlag, lastFlag, formatFlag, helpFlag]
  | dryRun => [formatFlag, helpFlag]
  | scan => [rootFlag, formatFlag, helpFlag]
  | diff => [rootFlag, baseFlag, headFlag, patchFlag, formatFlag, helpFlag]

/-- The main name of a flag that a task needs but was not given. -/
def missing? (t : Task) (a : Arguments) : Option Text :=
  match t with
  | find => if (a.value? firstFlag).isNone then firstFlag.names.head? else none
  | _ => none

/-- What is said about a flag that is needed. -/
def missingMessage (name : Text) : Text :=
  "Required flag \"" ++ name ++ "\" not set"

/-- The format asked for. -/
def format (a : Arguments) : Except Text OutputFormat :=
  OutputFormat.checked (a.word formatFlag "default")

/-- The directory of the repository asked for. -/
def root (a : Arguments) : Text :=
  a.word rootFlag "./"

/-- The files to dry-run, and what is then left of the input: the operands, or else the lines of the
input. -/
def targets (w : Workspace) (a : Arguments) : Except Text (List Text × Text) :=
  match a.operands, w.input with
  | [], some input => (inputLines input).map fun lines => (lines, [])
  | operands, input => .ok (operands, input.getD [])

/-- Finds the block that encloses some lines. Without a last line, the first one is the last. -/
def runFind (w : Workspace) (a : Arguments) : Except Text TaskOutcome :=
  match a.operands with
  | [target] => do
    let format ← format a
    let first := a.number firstFlag 0
    let last := a.number lastFlag 0
    return findTask w.tree (w.input.getD []) target first (if last = 0 then first else last) format
  | _ => .error "exactly one target file is required"

/-- What is said if there is no file to dry-run. -/
def noTargetMessage : Text := "at least one target file is required"

/-- Dry-runs files, each of them once. -/
def runDryRun (w : Workspace) (a : Arguments) : Except Text TaskOutcome := do
  let (targets, input) ← targets w a
  if targets.isEmpty then throw noTargetMessage
  return dryRunTask w.tree input (withoutRepeats targets) (← format a)

/-- Dry-runs a repository, or the part of it that the first operand names. -/
def runScan (w : Workspace) (a : Arguments) : Except Text TaskOutcome := do
  return scanTask w.tree (root a) (a.operands.head?.getD []) (← format a)

/-- Analyses a diff. -/
def runDiff (w : Workspace) (a : Arguments) : Except Text TaskOutcome := do
  let format ← format a
  return diffTask w.tree (w.input.getD []) w.git false
    ⟨root a, a.word baseFlag "main", a.word headFlag "HEAD", a.word patchFlag [], format⟩

/-- Performs a task with its arguments. -/
def perform (t : Task) (w : Workspace) (a : Arguments) : TaskOutcome :=
  let outcome := match t with
    | find => runFind w a
    | dryRun => runDryRun w a
    | scan => runScan w a
    | diff => runDiff w a
  match outcome with
  | .ok outcome => outcome
  | .error message => .failed message

end Task

/-! ### Help -/

/-- The topics of help for the whole command. -/
def commandTopics : List Text :=
  Task.all.flatMap Task.names ++ helpTopics

/-- The topic that the first operand names: without one, or if it is empty, help is about where it
was asked for. -/
def topic? (operands : List Text) : Option Text :=
  operands.head?.filter fun topic => !topic.isEmpty

/-- The topic that operands name although there is no such topic. -/
def unknownTopic? (topics operands : List Text) : Option Text :=
  (topic? operands).filter fun topic => !topics.contains topic

/-- The outcome of a flag for help. -/
def helpByFlag (tree : FileTree) (topics operands : List Text) : CommandOutcome :=
  match unknownTopic? topics operands with
  | none => .printed tree CommandOutcome.helpScreen
  | some topic => .failed tree [] (CommandOutcome.unknownTopicMessage topic)

/-- The outcome of the task `help`. -/
def helpByTask (tree : FileTree) (topics operands : List Text) : CommandOutcome :=
  match unknownTopic? topics operands with
  | none => .printed tree CommandOutcome.helpScreen
  | some topic =>
    ⟨CommandOutcome.unknownTopicExit, [], CommandOutcome.unknownTopicMessage topic ++ "\n", tree⟩

/-- Reads arguments in which each flag has one form. -/
def readArguments (flags : List Flag) (arguments : List Text) : Except FlagFault Arguments := do
  (← Arguments.parse flags arguments).oneForm flags

/-- Runs the task `help` as a part of something with the given topics. It is a part of itself, so
its name may be repeated, but not more often than there are arguments. -/
def runHelp (tree : FileTree) : Nat → List Text → List Text → CommandOutcome
  | 0, _, _ => .printed tree CommandOutcome.helpScreen
  | fuel + 1, topics, arguments =>
    match readArguments [helpFlag] arguments with
    | .error fault => .misused tree fault
    | .ok a =>
      if a.isOn helpFlag false then helpByFlag tree topics a.operands
      else match a.operands with
        | [] => helpByTask tree topics []
        | first :: rest =>
          if helpTopics.contains first then runHelp tree fuel helpTopics rest
          else helpByTask tree topics (first :: rest)

/-! ### The command -/

/-- Runs a task with the arguments after its name. -/
def runTask (w : Workspace) (reporting : Reporting) (t : Task) (arguments : List Text) :
    CommandOutcome :=
  match readArguments t.flags arguments with
  | .error fault => .misused w.tree fault
  | .ok a =>
    if a.isOn helpFlag false then helpByFlag w.tree helpTopics a.operands
    else match t.missing? a with
      | some name =>
        .failed w.tree (helpByFlag w.tree helpTopics a.operands).output (Task.missingMessage name)
      | none =>
        match a.operands with
        | first :: rest =>
          if helpTopics.contains first then runHelp w.tree (rest.length + 1) helpTopics rest
          else .ofTask w.tree reporting (t.perform w a)
        | [] => .ofTask w.tree reporting (t.perform w a)

/-- The flag for detailed reports. -/
def verboseFlag : Flag := ⟨["verbose", "v"], .switch⟩

/-- The flag for the log file. -/
def logFileFlag : Flag := ⟨["log-file"], .word⟩

/-- The flag for the version. -/
def versionFlag : Flag := ⟨["version", "V"], .switch⟩

/-- The flags of the command itself. -/
def commandFlags : List Flag :=
  [verboseFlag, logFileFlag, helpFlag, versionFlag]

/-- The version of the command. -/
def version : Text := "v0.1.0"

/-- Runs the command. -/
def runCommand (w : Workspace) (arguments : List Text) : CommandOutcome :=
  match readArguments commandFlags arguments with
  | .error fault => .misused w.tree fault
  | .ok a =>
    if a.isOn helpFlag false then helpByFlag w.tree commandTopics a.operands
    else if a.isOn versionFlag false then .printed w.tree (version ++ "\n")
    else match a.operands with
      | [] => helpByTask w.tree commandTopics []
      | name :: rest =>
        if helpTopics.contains name then runHelp w.tree (rest.length + 1) commandTopics rest
        else match Task.ofName? name with
          | some t =>
            runTask w ⟨a.word logFileFlag [], a.isOn verboseFlag false⟩ t rest
          | none => helpByTask w.tree commandTopics (name :: rest)

end Enclosure
