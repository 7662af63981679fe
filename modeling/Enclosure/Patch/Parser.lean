import Enclosure.Patch.GitHeader
import Enclosure.Patch.HunkHeader
import Enclosure.Timestamp.Layout

/-!
# Unified diffs

A diff of several files is read line by line. For each file there may be header lines (and any
other text before them), then the line that names the old file, the line that names the new file,
and hunks. A file whose header lines already say all ends where the next one starts. A line
`Only in d: f`, which tools that compare directories write, stands for a file of its own.

Where a file ends is decided by the line after it, which then belongs to the next file. A hunk may
hold any lines that start with a blank, a minus sign, a plus sign or a backslash; that a hunk
contains `---` followed by `+++` and then by a hunk header is taken as the start of the next file.

Positions in errors count the lines and bytes of headers and hunks. After a file with hunks the
count goes on from the end of that file's headers; after any other file it goes back to where that
file started.

## Main definitions

* `FilePatch`: the new name of a file and its hunks.
* `PatchError`: why a diff cannot be read.
* `Patch.Stage`, `Patch.step`, `Patch.run`: the machine that reads lines.
* `Patch.parse`: the files of a diff.
-/

namespace Enclosure

/-- The change of one file. -/
structure FilePatch where
  newName : Text
  hunks : List Hunk
deriving DecidableEq, Repr

/-- A place in a diff, by lines and by bytes without line ends. -/
structure Position where
  line : Nat
  offset : Nat
deriving DecidableEq, Repr

/-- The place after one more line. -/
def Position.after (p : Position) (l : Text) : Position :=
  ⟨p.line + 1, p.offset + l.length⟩

/-- Why a diff cannot be read. -/
inductive PatchError where
  /-- The line that names the new file is missing. -/
  | noNewName (place : Position)
  /-- A hunk header without the parts of one. -/
  | badHunkHeader (place : Position) (line : Text)
  /-- A hunk header whose numbers cannot be read. -/
  | badHunkNumbers (fault : HunkFault)
  /-- A file name is followed by something that is no point in time. -/
  | badTime (value : Text) (fault : TimeError)
deriving DecidableEq, Repr

namespace PatchError

/-- A place as shown in errors. -/
def placeShown (p : Position) : Text :=
  "line " ++ Text.ofNat p.line ++ ", char " ++ Text.ofNat p.offset

/-- What is said about a hunk header whose numbers cannot be read. -/
def numbersMessage : HunkFault → Text
  | .malformed => "bad hunk header"
  | .notInteger => "expected integer"
  | .mismatch => "input does not match format"
  | .noBlank => "expected space in input to match format"
  | .beyond32 token => "integer overflow on token " ++ token
  | .beyond64 token => "strconv.ParseInt: parsing \"" ++ token ++ "\": value out of range"

/-- What is said about a diff that cannot be read. -/
def message : PatchError → Text
  | noNewName p => placeShown p ++ ": bad file header"
  | badHunkHeader p line => placeShown p ++ ": bad hunk header: " ++ line
  | badHunkNumbers fault => numbersMessage fault
  | badTime value fault => fault.message TimeLayout.zoned.shown value

end PatchError

namespace Patch

/-- How the lines that name the old and the new file start. -/
def oldMark : Text := "--- "

@[inherit_doc oldMark]
def newMark : Text := "+++ "

/-- A line without the carriage return at its end. -/
def dropReturn (l : Text) : Text :=
  if l.getLast? == some 13 then l.dropLast else l

/-- Terminated lines lose a carriage return at their end; the last piece is a line only if it is not
empty, and is kept as it is. -/
def unterminated : List Text → List Text
  | [] => []
  | [last] => if last.isEmpty then [] else [last]
  | l :: ls => dropReturn l :: unterminated ls

/-- The lines of a diff. -/
def linesOf (t : Text) : List Text :=
  unterminated t.lines

/-- Checks what follows a file name: a point in time, with or without an offset. -/
def checkTime (value : Text) : Except PatchError Unit :=
  match TimeLayout.zoned.parse value with
  | .ok _ => .ok ()
  | .error e =>
    match TimeLayout.unzoned.parse value with
    | .ok _ => .ok ()
    | .error _ => .error (.badTime value e)

/-- The file name in a line, less the mark at the line's front. A tab ends the name. -/
def fileName (rest : Text) : Except PatchError Text :=
  let t := rest.trim
  let name : Text := t.takeWhile (· != 9)
  let shown := name.unquoted?.getD name
  match t.dropWhile (· != 9) with
  | [] => .ok shown
  | _ :: value =>
    match checkTime value with
    | .ok () => .ok shown
    | .error e => .error e

/-- Whether the line says that a file is only in one of two directories. -/
def isOnlyIn (l : Text) : Bool :=
  match List.isPrefixOf? (Text.ofString "Only in ") l with
  | some rest => Text.hasInfix ": " rest
  | none => false

/-- How far the current file has been read. -/
inductive Stage where
  /-- Header lines so far, the last one first. -/
  | headers (lines : List Text)
  /-- The old file has been named. -/
  | oldNamed
  /-- Both files have been named. -/
  | named (newName : Text)
  /-- Inside a hunk; `headersEnd` is where the headers of the file ended, and the hunks are listed
  last one first. -/
  | hunks (headersEnd : Position) (newName : Text) (hunks : List Hunk)
deriving DecidableEq, Repr

/-- The state between two lines. -/
structure State where
  /-- The files read so far, the last one first. -/
  files : List FilePatch := []
  /-- Where the current file starts. -/
  start : Position := ⟨0, 0⟩
  /-- The current place. -/
  here : Position := ⟨0, 0⟩
  stage : Stage := .headers []
deriving DecidableEq, Repr

/-- The state after a file has ended, where the next one starts at `start`. -/
def State.finish (s : State) (file : FilePatch) (start : Position) : State :=
  ⟨file :: s.files, start, start, .headers []⟩

/-- Whether a line that starts the headers of a version-controlled diff was seen. -/
def sawGit (headers : List Text) : Bool :=
  headers.any (·.startsWith gitMark)

/-- Reads a line among the header lines of the current file. -/
def headerStep (s : State) (headers : List Text) (l : Text) : Except PatchError State :=
  if l.startsWith gitMark && sawGit headers then
    let next := s.finish ⟨(EmptyDiff.ofHeaders headers.reverse).names.new, []⟩ s.start
    .ok { next with here := next.here.after l, stage := .headers [l] }
  else
    match oldMark.isPrefixOf? l with
    | some rest =>
      match fileName rest with
      | .ok _ => .ok { s with here := s.here.after l, stage := .oldNamed }
      | .error e => .error e
    | none =>
      if isOnlyIn l then .ok (s.finish ⟨[], []⟩ s.start)
      else .ok { s with here := s.here.after l, stage := .headers (l :: headers) }

/-- Reads the line that has to name the new file. Without a name the file ends here. -/
def newNameStep (s : State) (l : Text) : Except PatchError State :=
  match newMark.isPrefixOf? l with
  | none => .error (.noNewName s.here)
  | some rest =>
    match fileName rest with
    | .error e => .error e
    | .ok name =>
      if name.isEmpty then .ok (s.finish ⟨[], []⟩ s.start)
      else .ok { s with here := s.here.after l, stage := .named name }

/-- Reads a hunk header. -/
def hunkStep (s : State) (headersEnd : Position) (name : Text) (hunks : List Hunk) (l : Text) :
    Except PatchError State :=
  let here := s.here.after l
  match Hunk.parse l with
  | .ok h => .ok { s with here := here, stage := .hunks headersEnd name (h :: hunks) }
  | .error .malformed => .error (.badHunkHeader here l)
  | .error fault => .error (.badHunkNumbers fault)

/-- Whether a line inside a hunk, with the lines after it, is the start of another file. -/
def startsFile (l : Text) (rest : List Text) : Bool :=
  l.startsWith "---" &&
    match rest with
    | new :: hunk :: _ => new.startsWith "+++" && hunk.startsWith Hunk.mark
    | _ => false

/-- Whether a hunk can hold the line. -/
def isHunkLine (l : Text) : Bool :=
  match l with
  | [] => true
  | b :: _ => b == 32 || b == 45 || b == 43 || b == 92

/-- Reads one line, of which `rest` are the lines after it. -/
def step (s : State) (l : Text) (rest : List Text) : Except PatchError State :=
  match s.stage with
  | .headers headers => headerStep s headers l
  | .oldNamed => newNameStep s l
  | .named name =>
    if l.startsWith Hunk.mark then hunkStep s s.here name [] l
    else headerStep (s.finish ⟨name, []⟩ s.start) [] l
  | .hunks headersEnd name hunks =>
    if startsFile l rest then headerStep (s.finish ⟨name, hunks.reverse⟩ headersEnd) [] l
    else if l.startsWith Hunk.mark then hunkStep s headersEnd name hunks l
    else if isHunkLine l then .ok { s with here := s.here.after l }
    else headerStep (s.finish ⟨name, hunks.reverse⟩ headersEnd) [] l

/-- Reads all lines. -/
def run (s : State) : List Text → Except PatchError State
  | [] => .ok s
  | l :: rest =>
    match step s l rest with
    | .ok s => run s rest
    | .error e => .error e

/-- The files read when the lines have ended. Header lines alone are a file only if they are those
of a diff without hunks, and an old name alone is none. -/
def State.result (s : State) : List FilePatch :=
  let last : List FilePatch :=
    match s.stage with
    | .headers headers =>
      let d := EmptyDiff.ofHeaders headers.reverse
      if d.recognized then [⟨d.names.new, []⟩] else []
    | .oldNamed => []
    | .named name => [⟨name, []⟩]
    | .hunks _ name hunks => [⟨name, hunks.reverse⟩]
  s.files.reverse ++ last

/-- The files of a diff, in order. -/
def parse (t : Text) : Except PatchError (List FilePatch) :=
  match run {} (linesOf t) with
  | .ok s => .ok s.result
  | .error e => .error e

end Patch

end Enclosure
