import Enclosure.Files.Tree
import Enclosure.Ignore.Rules

/-!
# Walking a directory

The files below a directory that no ignore file excludes. The ignore files of a directory are about
everything below it, so each of the directories on the way to a file has a say: the innermost that
says anything decides, and of the two kinds of ignore files the second overrules the first. Lists of
modules overrule both, but only for directories. What lies in an excluded directory is out of reach,
whatever the ignore files in there say, and so is what lies in the directories of git itself.

## Main definitions

* `FileTree.isExcluded`: whether the walk passes over a file or directory.
* `FileTree.walk`: the files below a directory that are not passed over.
-/

namespace Enclosure

namespace FileTree

/-- The name of the directories that are never entered. -/
def gitDirectory : Text := ".git"

/-- The name of the first kind of ignore files. -/
def gitIgnoreFile : Text := ".gitignore"

/-- The name of the second kind of ignore files. -/
def ignoreFile : Text := ".ignore"

/-- The name of lists of modules. -/
def moduleFile : Text := ".gitmodules"

/-- The characters of the elements of a path. -/
def elementChars (path : List Text) : List (List Char) :=
  path.map fun e => e.runes.map Rune.toChar

/-- The directories on the way to a path below `dir`, the outermost first, each with the path that
is left from there. -/
def steps (dir : List Text) : List Text → List (List Text × List Text)
  | [] => []
  | e :: path => (dir, e :: path) :: steps (dir ++ [e]) path

/-- What the files of one name say about a path, the innermost that says anything deciding. `rules`
reads such a file as a sequence of lists of rules, of which the last one that says anything
decides. -/
def overruled (t : FileTree) (name : Text) (rules : Text → List (List IgnoreRule))
    (dir path : List Text) (isDirectory : Bool) (before : Bool) : Bool :=
  (steps dir path).foldl
    (fun before (dir, rest) =>
      match t.content? (dir ++ [name]) with
      | none => before
      | some content => (rules content).foldl
          (fun before rules => (verdict? rules (elementChars rest) isDirectory).getD before) before)
    before

/-- Whether the walk of `dir` passes over the file or directory at `path` below it. -/
def isExcluded (t : FileTree) (dir path : List Text) (isDirectory : Bool) : Bool :=
  let byGit := t.overruled gitIgnoreFile (fun c => [ignoreRules c]) dir path isDirectory false
  let byBoth := t.overruled ignoreFile (fun c => [ignoreRules c]) dir path isDirectory byGit
  if isDirectory then
    path.getLast? == some gitDirectory || t.overruled moduleFile moduleRules dir path true byBoth
  else byBoth

/-- Whether the walk of `dir` reaches the file at `path` below it. -/
def isReached (t : FileTree) (dir path : List Text) : Bool :=
  !t.isExcluded dir path false
    && ((List.range (path.length - 1)).all fun n => !t.isExcluded dir (path.take (n + 1)) true)

/-- The path of a file below a directory, if it lies there. -/
def below? (dir path : List Text) : Option (List Text) :=
  match dir.isPrefixOf? path with
  | some [] | none => none
  | some rest => some rest

/-- The files below `root` that are not passed over, as paths from where the root is given. A root
that is no directory has none. -/
def walk (t : FileTree) (root : Text) : List Text :=
  match t.place root with
  | .error _ => []
  | .ok dir =>
    t.entries.filterMap fun (path, content) => do
      let _ ← content
      let rest ← below? dir path
      if t.isReached dir rest then some (Path.join root (Text.join "/" rest)) else none

end FileTree

end Enclosure
