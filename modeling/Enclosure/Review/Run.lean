import Enclosure.Analysis.Comment
import Enclosure.Analysis.Run
import Enclosure.Git.Command
import Enclosure.PullRequest.Session
import Enclosure.Review.Result
import Enclosure.Settings.Read

/-!
# Reviews

A review of a pull request asks the server for it, reads the settings at the commit it starts from,
so that a pull request cannot change its own settings, analyses the differences between its two
commits, and puts the outcome into a comment on it. If the very comment is there already nothing is
written; otherwise the comment with the configured header is edited, or a new one is added.

Everything a review writes down goes through its session, so that reports of all parts stand in the
order in which they were made.

## Main definitions

* `ReviewRequest`: what to review and how.
* `ReviewError`: why a review fails.
* `postComment`: brings the comment up to date.
* `review`: the whole review.
-/

namespace Enclosure

/-- What to review and how. -/
structure ReviewRequest where
  /-- The number of the pull request. -/
  pull : Int
  /-- Whether all steps are reported. -/
  verbose : Bool
  /-- Whether nothing is written on the pull request. -/
  quiet : Bool
deriving DecidableEq, Repr

/-- Why a review fails. -/
inductive ReviewError where
  /-- The pull request could not be had. -/
  | pull (error : SessionError)
  /-- The differences could not be had. -/
  | diff (error : DiffError)
  /-- The analysis was called off. -/
  | calledOff
  /-- The comment could not be written. -/
  | comment (error : SessionError)

/-- The wording of an error. -/
def ReviewError.message : ReviewError → Text
  | pull error => "InitPR Error: " ++ error.message
  | diff error => "NewGitDiff Error: " ++ error.message
  | calledOff => "Analyze Error: " ++ calledOffMessage
  | comment error => "UpsertComment Error: " ++ error.message

/-- How a review ends: its result, the error if it failed, the settings if it came to read them, and
the session after it. -/
structure ReviewOutcome (σ : Type) where
  result : ReviewResult
  error : Option ReviewError
  settings : Option Settings
  session : Session σ

/-- The lines about the hunks of a file. -/
def FileReport.notes (f : FileReport) : List Text :=
  f.hunks.items.map fun h =>
    "- " ++ f.name ++ ":" ++ h.range.shown ++ ": "
      ++ (match h.block with
        | none => "<none>"
        | some b => b.shown)
      ++ "\n"

/-- The line about a skipped file. -/
def SkippedFile.note (s : SkippedFile) : Text :=
  "- " ++ s.name ++ ": skipped (" ++ s.reason ++ ")\n"

namespace Analysis

/-- The lines about all that was found. -/
def notes (a : Analysis) : List Text :=
  ("Hunk Contexts:\n" : Text)
    :: (a.files.items.flatMap FileReport.notes ++ a.skipped.items.map SkippedFile.note)

/-- The part of the summary about skipped files, if there are any. -/
def skippedSummary (a : Analysis) : Text :=
  if a.skipped.items.isEmpty then []
  else ", skipped " ++ Text.ofNat a.skipped.items.length ++ " file(s)"

/-- The sentence about a review that succeeded. -/
def summary (a : Analysis) : Text :=
  "Resolved enclosing context for " ++ Text.ofNat a.contextCount ++ " hunk(s) in "
    ++ Text.ofNat a.files.items.length ++ " file(s)" ++ a.skippedSummary

/-- Whether there is anything to comment on. -/
def isWorthComment (a : Analysis) : Bool :=
  a.contextCount != 0 || !a.skipped.items.isEmpty

end Analysis

variable {σ : Type}

/-- Reports a step of a review, if all steps are reported. -/
def ReviewRequest.note (r : ReviewRequest) (line : Text) (s : Session σ) : Session σ :=
  if r.verbose then s.inform line else s

/-- Reports some steps of a review. -/
def ReviewRequest.notes (r : ReviewRequest) (lines : List Text) (s : Session σ) : Session σ :=
  lines.foldl (fun s line => r.note line s) s

/-- Whether the very comment is there already. -/
def isUpToDate (server : Server σ) (comment : Text) (s : Session σ) : Bool × Session σ :=
  match s.hasComment server comment none with
  | (.ok found, s) => (found, s)
  | (.error e, s) =>
    (false, s.warn ("WARNING: Error checking existing comments: " ++ e.message ++ "\n"))

/-- Brings the comment on the pull request up to date. -/
def postComment (server : Server σ) (r : ReviewRequest) (settings : CommentSettings) (a : Analysis)
    (s : Session σ) : Except SessionError Unit × Session σ :=
  if r.quiet || !settings.enabled then (.ok (), r.note "Commenting disabled\n" s)
  else if !a.isWorthComment then (.ok (), r.note "Nothing to comment\n" s)
  else
    let comment := a.comment settings.header
    match isUpToDate server comment s with
    | (true, s) => (.ok (), r.note "Comment already up to date\n" s)
    | (false, s) => s.putComment server settings.header comment

/-- Finishes a review that has an analysis. -/
def conclude (server : Server σ) (r : ReviewRequest) (settings : Settings) (a : Analysis)
    (s : Session σ) : ReviewOutcome σ :=
  match postComment server r settings.comment a (r.notes a.notes s) with
  | (.error e, s) => ⟨.pending a, some (.comment e), some settings, s⟩
  | (.ok _, s) => ⟨⟨a, true, a.summary⟩, none, some settings, s⟩

/-- Reviews the differences between the commits of a pull request under the settings. -/
def reviewChanges (server : Server σ) (git : Git) (calledOff : Bool) (r : ReviewRequest)
    (settings : Settings) (pull : PullRequest) (s : Session σ) : ReviewOutcome σ :=
  let s := r.note ("Getting diff for " ++ pull.base ++ "..." ++ pull.head ++ "\n") s
  match git.changes pull.base pull.head settings.ignoredDirectories with
  | .error e => ⟨.empty, some (.diff e), some settings, s⟩
  | .ok files =>
    let names := Text.join " " (files.map ChangedFile.name)
    let s := r.note ("Changed files: [" ++ names ++ "]\n") s
    let outcome := analyse settings (git.reader pull.head) calledOff files
    let s := outcome.warnings.foldl Session.warn (r.notes outcome.notes s)
    match outcome.result with
    | none => ⟨.empty, some .calledOff, some settings, s⟩
    | some a => conclude server r settings a s

/-- Reviews a pull request. -/
def review (server : Server σ) (git : Git) (calledOff : Bool) (r : ReviewRequest) (s : Session σ) :
    ReviewOutcome σ :=
  match s.loadPull server r.pull with
  | (.error e, s) => ⟨.empty, some (.pull e), none, s⟩
  | (.ok _, s) =>
    let pull := s.pull.getD .blank
    let s := r.note ("PR: " ++ Text.ofInt pull.number ++ "\n") s
    let report := Settings.read [] (git.reader pull.base)
    let s := report.error.toList.foldl (fun s e => s.warn (Settings.warning e)) s
    reviewChanges server git calledOff r report.settings pull s

end Enclosure
