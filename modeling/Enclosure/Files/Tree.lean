import Enclosure.Files.Path

/-!
# File trees

The files that a program sees from its working directory, and the outcome of looking a path up
among them. A relative path starts at the working directory and an absolute one at the root, so
there are paths to files above the working directory and beside it, too. A path is followed element
by element as it is spelled: every element but the last has to be a directory, also one that is left
again through `..`.

## Main definitions

* `FileTree`: the files and empty directories there are, and the working directory.
* `FileTree.lookup`: what a path leads to, or why it leads nowhere.
* `FileTree.read`: the content of a file.
* `FileTree.append`: the tree with more text at the end of a file.
* `FileTree.log`: the tree with more text at the end of a log file.
-/

namespace Enclosure

/-- Why a path cannot be followed or used. -/
inductive FileFault where
  | missing
  | notDirectory
  | isDirectory
  | nameTooLong
  | badName
deriving DecidableEq, Repr

namespace FileFault

/-- The wording of a fault. -/
def reason : FileFault → Text
  | missing => "no such file or directory"
  | notDirectory => "not a directory"
  | isDirectory => "is a directory"
  | nameTooLong => "file name too long"
  | badName => "invalid argument"

/-- The report of a fault: what was tried, on which path, and why it failed. -/
def message (fault : FileFault) (verb path : Text) : Text :=
  verb ++ " " ++ path ++ ": " ++ fault.reason

/-- The report of a fault while reading. A directory can be opened, but not read. -/
def readMessage (fault : FileFault) (path : Text) : Text :=
  fault.message (if fault = isDirectory then "read" else "open") path

end FileFault

/-- What stands at a place. -/
inductive Node where
  | file (content : Text)
  | directory
deriving DecidableEq, Repr

/-- The files and empty directories there are, and the working directory. Places are given by the
elements on the way to them from the root. An entry without content is a directory, and so is every
place on the way to an entry or to the working directory. -/
structure FileTree where
  /-- The working directory. -/
  home : List Text
  entries : List (List Text × Option Text)
deriving DecidableEq, Repr

namespace FileTree

/-- The tree with the given files, as they are called in the directory `home`. A path that ends in a
slash is a directory. -/
def seenFrom (home : Text) (files : List (Text × Text)) : FileTree :=
  let home := Path.destination [] home
  ⟨home, files.map fun (path, content) =>
    (Path.destination home path, if path.endsWith "/" then none else some content)⟩

/-- The tree with the given files, where it does not matter what the working directory is called. -/
def ofPaths (files : List (Text × Text)) : FileTree :=
  seenFrom "/srv/files" files

/-- The content of the file at a place. -/
def content? (t : FileTree) (place : List Text) : Option Text :=
  t.entries.findSome? fun (path, content) => if path == place then content else none

/-- Whether there is a directory at a place. -/
def hasDirectory (t : FileTree) (place : List Text) : Bool :=
  place.isPrefixOf t.home || t.entries.any fun (path, content) =>
    place.isPrefixOf path && (content.isNone || place.length < path.length)

/-- What stands at a place. -/
def node? (t : FileTree) (place : List Text) : Option Node :=
  match t.content? place with
  | some content => some (.file content)
  | none => if t.hasDirectory place then some .directory else none

/-- The longest name of a file, in bytes. -/
def maxName : Nat := 255

/-- The longest path, in bytes. -/
def maxPath : Nat := 4095

/-- Follows one element of a path. -/
def follow (t : FileTree) (place : List Text) (e : Text) : Except FileFault (List Text) :=
  if t.node? place != some .directory then .error .notDirectory
  else if e.isEmpty || e == Path.here then .ok place
  else if e == Path.parent then .ok (Path.step place e)
  else if maxName < e.length then .error .nameTooLong
  else if (t.node? (Path.step place e)).isSome then .ok (Path.step place e)
  else .error .missing

/-- The place that a path leads to. -/
def place (t : FileTree) (path : Text) : Except FileFault (List Text) :=
  if path.contains 0 then .error .badName
  else if path.isEmpty then .error .missing
  else if maxPath < path.length then .error .nameTooLong
  else (Text.splitAt Text.slash path).foldlM t.follow (Path.start t.home path)

/-- What a path leads to. -/
def lookup (t : FileTree) (path : Text) : Except FileFault Node :=
  match t.place path with
  | .error fault => .error fault
  | .ok place =>
    match t.node? place with
    | some node => .ok node
    | none => .error .missing

/-- Whether a path leads to a directory. -/
def isDirectory (t : FileTree) (path : Text) : Bool :=
  t.lookup path matches .ok .directory

/-- The content of the file that a path leads to. -/
def read (t : FileTree) (path : Text) : Except FileFault Text :=
  match t.lookup path with
  | .error fault => .error fault
  | .ok (.file content) => .ok content
  | .ok .directory => .error .isDirectory

/-- The tree with more text at the end of the file at a place, which may be new. -/
def appendAt (t : FileTree) (place : List Text) (more : Text) : FileTree :=
  match t.content? place with
  | none => { t with entries := t.entries ++ [(place, some more)] }
  | some _ => { t with entries := t.entries.map fun (path, content) =>
      (path, if path == place then content.map (· ++ more) else content) }

/-- The tree with more text at the end of the file that a path leads to. The file may be new, but
its directory has to be there. -/
def append (t : FileTree) (path more : Text) : Except FileFault FileTree := do
  match t.lookup path with
  | .ok .directory => throw .isDirectory
  | .ok (.file _) => return t.appendAt (← t.place path) more
  | .error .missing =>
    match (Text.splitAt Text.slash path).reverse.dropWhile List.isEmpty with
    | [] => throw .missing
    | name :: pieces =>
      let directory ← pieces.reverse.foldlM t.follow (Path.start t.home path)
      if path.endsWith "/" then throw .isDirectory
      return t.appendAt (Path.step directory name) more
  | .error fault => throw fault

/-- Whether a file stands at a place or on the way there, so that it cannot become a directory. -/
def isBlocked (t : FileTree) (place : List Text) : Bool :=
  t.entries.any fun (path, content) => content.isSome && path.isPrefixOf place

/-- The tree with a directory at a place. -/
def withDirectory (t : FileTree) (place : List Text) : FileTree :=
  if t.hasDirectory place then t else { t with entries := t.entries ++ [(place, none)] }

/-- The tree with more text at the end of a log file, whose directory is made where needed. -/
def log (t : FileTree) (path more : Text) : FileTree :=
  let directory := Path.destination t.home (Path.directory path)
  if more.isEmpty || t.isBlocked directory then t
  else
    let t := t.withDirectory directory
    (t.append path more).toOption.getD t

end FileTree

end Enclosure
