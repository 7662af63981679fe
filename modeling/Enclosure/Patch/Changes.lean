import Enclosure.Patch.Parser

/-!
# Changed files

What an analysis needs of a diff: for each file that still exists, its name and the ranges of lines
that its hunks cover in the new version. A hunk that only removes lines covers an empty range, whose
end is before its start.

## Main definitions

* `LineRange`, `ChangedFile`: the changed lines of a file.
* `FilePatch.change?`: the change of one file, unless it was deleted.
* `changedFiles`: the changed files of a diff.
-/

namespace Enclosure

/-- A range of lines, both ends included. -/
structure LineRange where
  first : Int
  last : Int
deriving DecidableEq, Repr

/-- Whether the range is empty, as that of a hunk that only removes lines. -/
def LineRange.isDeletion (r : LineRange) : Bool :=
  r.last < r.first

/-- A file and the ranges of its changed lines. -/
structure ChangedFile where
  name : Text
  ranges : List LineRange
deriving DecidableEq, Repr

/-- The lines a hunk covers in the new version, computed in 32 bits. -/
def Hunk.newRange (h : Hunk) : LineRange :=
  ⟨h.newFirst, wrap32 (h.newFirst + h.newCount - 1)⟩

/-- A file name in a diff without the one-letter directory in front of it. -/
def dropLetter (name : Text) : Text :=
  if name.length > 2 && name[1]? == some Text.slash then name.drop 2 else name

/-- The change of a file, unless it was deleted. -/
def FilePatch.change? (p : FilePatch) : Option ChangedFile :=
  if p.newName == noFile then none
  else some ⟨dropLetter p.newName, p.hunks.map Hunk.newRange⟩

/-- What is said about a diff that cannot be read. -/
def patchMessage (e : PatchError) : Text :=
  "failed to parse diff: " ++ e.message

/-- The changed files of a diff, in order. -/
def changedFiles (t : Text) : Except PatchError (List ChangedFile) :=
  match Patch.parse t with
  | .ok ps => .ok (ps.filterMap FilePatch.change?)
  | .error e => .error e

end Enclosure
