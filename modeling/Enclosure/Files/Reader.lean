import Enclosure.Files.Tree

/-!
# Readers

An analysis does not care where files come from: the working tree, a commit, or memory. A **reader**
answers the two questions that matter, whether there is a file and what is in it.

## Main definitions

* `FileReader`: a source of files.
* `FileTree.plainReader`: reads paths as they are.
* `FileTree.reader`: reads paths below a directory.
-/

namespace Enclosure

/-- A source of files. -/
structure FileReader where
  /-- Whether there is something to read at a path. -/
  has : Text → Bool
  /-- The content of a file, or why there is none. -/
  read : Text → Except Text Text

namespace FileTree

/-- Reads paths as they are. Something is there unless it is known to be missing. -/
def plainReader (t : FileTree) : FileReader where
  has path := !(t.lookup path matches .error .missing)
  read path := (t.read path).mapError (·.readMessage path)

/-- Reads paths below a directory. A slash in front of a path does not matter. -/
def reader (t : FileTree) (dir : Text) : FileReader where
  has path := t.lookup (Path.join dir (path.dropFirst "/")) matches .ok (.file _)
  read path :=
    let full := Path.join dir (path.dropFirst "/")
    (t.read full).mapError fun fault =>
      "failed to read file " ++ path ++ ": " ++ fault.readMessage full

end FileTree

end Enclosure
