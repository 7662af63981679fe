import Enclosure.Text.Basic

/-!
# Paths

A path is a text of elements with slashes between them. Two spellings of a path can name the same
place; the **clean** one has no empty elements, no elements `.`, and `..` only in front, and a path
that names the place it starts from is written `.`.

## Main definitions

* `Path.clean`: the clean spelling of a path.
* `Path.join`: one path below another, in its clean spelling.
* `Path.relative`: a path without the directory it lies below.
* `Path.destination`: where a path leads by its spelling.
-/

namespace Enclosure

namespace Path

/-- The element that stands for the directory itself. -/
def here : Text := "."

/-- The element that stands for the directory above. -/
def parent : Text := ".."

/-- Whether a path starts at the root of the file system. -/
def isAbsolute (p : Text) : Bool :=
  p.head? == some Text.slash

/-- The elements of a path that name something. -/
def elements (p : Text) : List Text :=
  (Text.splitAt Text.slash p).filter fun e => !e.isEmpty && e != here

/-- One more element on a stack of clean ones, of which the last comes first. The parent of the root
is the root. -/
def push (absolute : Bool) (stack : List Text) (e : Text) : List Text :=
  if e == parent then
    match stack with
    | [] => if absolute then [] else [parent]
    | top :: below => if top == parent then parent :: stack else below
  else e :: stack

/-- The clean elements of a path. -/
def cleanElements (p : Text) : List Text :=
  ((elements p).foldl (push (isAbsolute p)) []).reverse

/-- The clean spelling of a path. -/
def clean (p : Text) : Text :=
  let body := Text.join "/" (cleanElements p)
  if isAbsolute p then Text.slash :: body
  else if body.isEmpty then here
  else body

/-- One path below another, clean. An empty part does not count, and without any part there is no
path. -/
def join (dir p : Text) : Text :=
  let parts := [dir, p].filter fun part => !part.isEmpty
  if parts.isEmpty then [] else clean (Text.join "/" parts)

/-- The directory that a path lies in: what stands before its final slash, clean. -/
def directory (p : Text) : Text :=
  clean (p.reverse.dropWhile (· != Text.slash)).reverse

/-- A path without the directory `root` in front of it. The comparison is by spelling: a slash at
the end of the root does not matter, and from `.` nothing is taken away. -/
def relative (root p : Text) : Text :=
  if root == here then p else p.dropFirst (root.dropFinal "/" ++ "/")

/-! ### Places -/

/-- The place that one more element leads to. A place is given by the elements on the way to it from
the root, and the parent of the root is the root. -/
def step (place : List Text) (e : Text) : List Text :=
  if e == parent then place.dropLast else place ++ [e]

/-- The place where a path starts: the working directory `home`, or the root if it is absolute. -/
def start (home : List Text) (p : Text) : List Text :=
  if isAbsolute p then [] else home

/-- The place where a path leads by its spelling. -/
def destination (home : List Text) (p : Text) : List Text :=
  (cleanElements p).foldl step (start home p)

end Path

end Enclosure
