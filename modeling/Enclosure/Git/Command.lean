import Enclosure.Files.Reader
import Enclosure.Patch.Changes

/-!
# Git as a source of files and changes

All that is asked of git are three things: the differences between two commits, the content of a
file at a commit, and whether there is such a file. A `Git` is anything that answers these commands.

## Main definitions

* `GitCommand`, `Git`: the commands and what answers them.
* `Git.reader`: the files of a commit.
* `Git.changes`: the files changed between two commits.
* `Git.within`: git run in a directory.
-/

namespace Enclosure

/-- What is asked of git. -/
inductive GitCommand where
  /-- The differences between two commits, from where they parted. -/
  | diff (base head : Text)
  /-- The content of a file at a commit. -/
  | content (ref path : Text)
  /-- Whether there is a file at a commit. -/
  | presence (ref path : Text)
deriving DecidableEq, Repr

/-- The words of a command. -/
def GitCommand.arguments : GitCommand → List Text
  | diff base head => ["diff", "-U0", base ++ "..." ++ head]
  | content ref path => ["show", ref ++ ":" ++ path]
  | presence ref path => ["cat-file", "-e", ref ++ ":" ++ path]

/-- A command that failed: why, and what it printed. -/
structure GitFailure where
  reason : Text
  output : Text
deriving DecidableEq, Repr

/-- Anything that answers commands. -/
abbrev Git := GitCommand → Except GitFailure Text

/-- Why there are no changes to report. -/
inductive DiffError where
  /-- Git failed. -/
  | command (failure : GitFailure)
  /-- What git printed is no diff. -/
  | patch (e : PatchError)

/-- The wording of an error. -/
def DiffError.message : DiffError → Text
  | command failure => "diff error: " ++ failure.reason ++ "\n" ++ failure.output
  | patch e => patchMessage e

/-- Whether a file of a diff lies below one of the given directories. -/
def FilePatch.isBelow (dirs : List Text) (p : FilePatch) : Bool :=
  dirs.any fun dir => (dropLetter p.newName).startsWith dir

namespace Git

/-- The command for the content of a file. A slash in front of the path does not matter. -/
def contentOf (ref path : Text) : GitCommand :=
  .content ref (path.dropFirst "/")

/-- The command for the presence of a file. A slash in front of the path does not matter. -/
def presenceOf (ref path : Text) : GitCommand :=
  .presence ref (path.dropFirst "/")

/-- The files of a commit. -/
def reader (git : Git) (ref : Text) : FileReader where
  has path := (git (presenceOf ref path)).isOk
  read path := (git (contentOf ref path)).mapError fun failure =>
    "failed to read file " ++ path.dropFirst "/" ++ " from ref " ++ ref ++ ": " ++ failure.reason

/-- The files changed between two commits, less those below the directories to leave out. -/
def changes (git : Git) (base head : Text) (leaveOut : List Text) :
    Except DiffError (List ChangedFile) :=
  match git (.diff base head) with
  | .error failure => .error (.command failure)
  | .ok output =>
    match Patch.parse output with
    | .error e => .error (.patch e)
    | .ok ps => .ok ((ps.filter fun p => !p.isBelow leaveOut).filterMap FilePatch.change?)

/-- Git run in a directory of a file tree; without a directory it runs where it is. -/
def within (git : Git) (tree : FileTree) (dir : Text) : Git := fun command =>
  if dir.isEmpty then git command
  else match tree.lookup dir with
    | .ok .directory => git command
    | .ok (.file _) => .error ⟨FileFault.notDirectory.message "chdir" dir, []⟩
    | .error fault => .error ⟨fault.message "chdir" dir, []⟩

end Git

end Enclosure
