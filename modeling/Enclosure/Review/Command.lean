import Enclosure.PullRequest.Web
import Enclosure.Review.Flags
import Enclosure.Review.Run

/-!
# The review command

The whole command: it reads its flags, reviews the pull request, and hands the result over in the
file that the environment names. What it has to report goes to the error output: the warnings, then
the reports on request, and last the error that it ends with.

## Main definitions

* `ReviewCommandOutcome`: how the command ends.
* `reviewCommand`: the command.
-/

namespace Enclosure

/-- How the command ends: its exit code, what it prints, what it reports, the files after it and the
state of the script. -/
structure ReviewCommandOutcome where
  exit : Nat
  output : Text
  reports : Text
  tree : FileTree
  script : Script

/-- The warnings of a session and, where wanted, its reports on request. -/
def Session.reports {σ : Type} (s : Session σ) (verbose : Bool) : Text :=
  s.warnings.flatten ++ if verbose then s.info.flatten else []

/-- The exit code and the report for arguments that cannot be read. -/
def FlagFault.exitReport (env : Environment) (fault : FlagFault) : Nat × Text :=
  let usage := (ReviewFlags.ofEnvironment env).usage
  if fault = .helpWanted then (0, usage) else (2, fault.message ++ "\n" ++ usage)

/-- Ends the command after a review. -/
def ReviewOutcome.finish (outcome : ReviewOutcome Script) (verbose : Bool) (file : Text)
    (tree : FileTree) : ReviewCommandOutcome :=
  let s := outcome.session
  match outcome.error with
  | some e => ⟨1, [], s.reports verbose ++ e.message ++ "\n", tree, s.server⟩
  | none =>
    let output := outcome.result.message ++ "\n"
    match outcome.result.publish file tree with
    | .ok tree => ⟨0, output, s.reports verbose, tree, s.server⟩
    | .error e =>
      let s := s.warn ("WARNING: " ++ e.message ++ "\n")
      ⟨0, output, s.reports verbose, tree, s.server⟩

/-- The command, given its environment, its arguments, the files, git and the script of the
server. -/
def reviewCommand (env : Environment) (arguments : List Text) (tree : FileTree) (git : Git)
    (script : Script) : ReviewCommandOutcome :=
  match ReviewFlags.parse env arguments with
  | .error fault =>
    let (exit, report) := fault.exitReport env
    ⟨exit, [], report, tree, script⟩
  | .ok flags =>
    if !flags.missing.isEmpty then
      ⟨1, [], ReviewFlags.missingMessage flags.missing ++ "\n", tree, script⟩
    else match Repository.ofFullName? flags.repository with
      | none =>
        ⟨1, [], "Failed to initialize app: " ++ Repository.badNameMessage flags.repository ++ "\n",
          tree, script⟩
      | some repository =>
        (review (repository.server flags.token) (git.within tree flags.dir) false
          ⟨flags.pull, flags.verbose, flags.quiet⟩ (.start script)).finish flags.verbose
            ((env "GITHUB_OUTPUT").getD []) tree

end Enclosure
