import Enclosure.Text.Quoted

/-!
# Headers of version-controlled diffs

Before the two lines that name its files, the diff of one file may have header lines that start
with `diff --git` and tell what happened: a mode changed, a file was renamed or copied, created or
deleted, or is binary. If nothing else follows, the diff is *empty*, and the file names have to be
taken from these lines.

The arguments of the first line are ambiguous when a name holds a blank and is not quoted. They are
then split in the middle if that gives the same name twice; for renames and copies the names can be
put together from the other lines.

## Main definitions

* `FileNames`: the names of a file before and after a change.
* `FileNames.ofArguments?`: the names given in the first line.
* `EmptyDiff`: what header lines alone say about a file.
-/

namespace Enclosure

/-- The names of a file before and after a change. -/
structure FileNames where
  old : Text
  new : Text
deriving DecidableEq, Repr

/-- How the first header line starts. -/
def gitMark : Text := "diff --git "

/-- The name of no file: the old name of a new file, or the new name of a deleted one. -/
def noFile : Text := "/dev/null"

namespace FileNames

/-- Splits after the quote that closes a quoted text: the first one, beyond the opening one, with
an even number of backslashes before it. `acc` holds what was passed, in reverse. -/
def closeQuote (acc : Text) (escaped : Bool) : Text → Option (Text × Text)
  | [] => none
  | b :: t =>
    if b == 34 && !escaped then some ((b :: acc).reverse, t)
    else closeQuote (b :: acc) (b == 92 && !escaped) t

/-- Reads a quoted name at the front and gives what follows it. -/
def readQuotedName (t : Text) : Option (Text × Text) :=
  match t with
  | 34 :: rest => do
    let (quoted, after) ← closeQuote [34] false rest
    return (← quoted.unquoted?, after)
  | _ => none

/-- Splits two names that hold blanks in the middle, if that gives the same name twice, either with
different first letters before a slash or with no such letters at all. -/
def splitMiddle (args : Text) : FileNames :=
  let first : Text := args.take (args.length / 2)
  let second : Text := args.drop (args.length / 2 + 1)
  let sameName := first.length ≥ 3 && first[1]? == some Text.slash && first.drop 1 == second.drop 1
  let lettered := first.startsWith "a/" && second.startsWith "b/"
  if args.length % 2 == 1 && (sameName || (!lettered && first == second)) then ⟨first, second⟩
  else ⟨[], []⟩

/-- The names when neither is quoted. -/
def ofUnquoted? (args : Text) : Option FileNames :=
  let first := args.takeWhile (· != 32)
  let rest := (args.dropWhile (· != 32)).drop 1
  if first.isEmpty || rest.isEmpty then none
  else if rest.contains 32 then some (splitMiddle args)
  else if rest.head? == some 34 then none
  else some ⟨first, rest⟩

/-- The names when the first is quoted. -/
def ofFirstQuoted? (args : Text) : Option FileNames := do
  let (first, after) ← readQuotedName args
  match after with
  | 32 :: 34 :: _ =>
    let (second, extra) ← readQuotedName (after.drop 1)
    guard extra.isEmpty
    return ⟨first, second⟩
  | 32 :: b :: second => return ⟨first, b :: second⟩
  | _ => none

/-- The names when only the second is quoted. -/
def ofSecondQuoted? (args : Text) : Option FileNames := do
  let first := args.takeWhile (· != 34)
  let rest := args.dropWhile (· != 34)
  guard (rest.length > 2 && first.getLast? == some 32)
  let (second, extra) ← readQuotedName rest
  guard extra.isEmpty
  return ⟨first.dropLast, second⟩

/-- The names that the arguments of the first header line give. Both are empty if the arguments are
well formed but ambiguous. -/
def ofArguments? (args : Text) : Option FileNames :=
  if args.length < 3 then none
  else if args.head? == some 34 then ofFirstQuoted? args
  else if args.getLast? == some 34 then ofSecondQuoted? args
  else ofUnquoted? args

end FileNames

/-- What header lines alone say about a file. -/
structure EmptyDiff where
  /-- Whether the lines are those of a diff without hunks, with well-formed arguments. -/
  recognized : Bool
  names : FileNames
deriving DecidableEq, Repr

namespace EmptyDiff

/-- Whether line `i` exists and starts with `pat`. -/
def lineStarts (headers : List Text) (i : Nat) (pat : Text) : Bool :=
  headers[i]?.any (·.startsWith pat)

/-- Lines that say from where to where a file went, starting with line `i`. -/
def moves (headers : List Text) (verb : Text) (i : Nat) : Bool :=
  lineStarts headers i (verb ++ " from ") && lineStarts headers (i + 1) (verb ++ " to ")

/-- Lines 1 and 2 change the mode. -/
def changesMode (headers : List Text) : Bool :=
  lineStarts headers 1 "old mode " && lineStarts headers 2 "new mode "

/-- Line `i` says that the contents are binary. -/
def isBinary (headers : List Text) (i : Nat) : Bool :=
  lineStarts headers i "Binary files "

/-- The headers of a copy without changes. -/
def isCopy (headers : List Text) : Bool :=
  let n := headers.length
  (n == 4 && moves headers "copy" 2)
    || (n == 6 && moves headers "copy" 2 && isBinary headers 5)
    || (n == 6 && changesMode headers && moves headers "copy" 4)

/-- The headers of a renaming without changes. -/
def isRename (headers : List Text) : Bool :=
  let n := headers.length
  (n == 4 && moves headers "rename" 2)
    || (n == 5 && moves headers "rename" 2 && isBinary headers 4)
    || (n == 6 && moves headers "rename" 2 && isBinary headers 5)
    || (n == 6 && changesMode headers && moves headers "rename" 4)

/-- Header lines end here, or a binary file follows. -/
def endsOrBinary (headers : List Text) : Bool :=
  let n := headers.length
  n == 3 || (n == 4 && isBinary headers 3) || (n > 4 && lineStarts headers 3 "GIT binary patch")

/-- The headers of a deleted empty or binary file. -/
def isDeletion (headers : List Text) : Bool :=
  endsOrBinary headers && lineStarts headers 1 "deleted file mode "

/-- The headers of a new empty or binary file. -/
def isCreation (headers : List Text) : Bool :=
  endsOrBinary headers && lineStarts headers 1 "new file mode "

/-- The headers of a change of mode only. -/
def isModeChange (headers : List Text) : Bool :=
  headers.length == 3 && changesMode headers

/-- The headers of a change to a binary file. -/
def isBinaryChange (headers : List Text) : Bool :=
  (headers.length == 3 && isBinary headers 2)
    || (headers.length > 3 && lineStarts headers 2 "GIT binary patch")

/-- A name with the two characters that stand at position `i` of the arguments in front, if there
is such a position and the second character is a slash. -/
def lettered? (args : Text) (i : Int) (name : Text) : Option Text :=
  if i < 0 then none
  else
    let letters := (args.drop i.toNat).take 2
    if letters[1]? == some Text.slash then some (letters ++ name) else none

/-- Names put together from lines that say from where to where a file went. -/
def reconstruct (args : Text) (names : FileNames) (header : Text) : FileNames :=
  let after (pat : Text) : Option Text := pat.isPrefixOf? header
  let source? := after "copy from " <|> after "rename from "
  let target? := after "copy to " <|> after "rename to "
  let old? := source?.bind (lettered? args 0)
  let new? := target?.bind fun name => lettered? args (args.length - name.length - 2 : Int) name
  ⟨old?.getD names.old, new?.getD names.new⟩

/-- What header lines alone say about a file. Where the arguments are malformed, the name that a
creation or deletion gives away is known all the same. -/
def ofHeaders (headers : List Text) : EmptyDiff :=
  let unknown : EmptyDiff := ⟨false, ⟨[], []⟩⟩
  match headers with
  | [] => unknown
  | first :: _ =>
    if !first.startsWith gitMark then unknown
    else
      let moved := isCopy headers || isRename headers
      if !(isModeChange headers || moved || isBinaryChange headers || isCreation headers
          || isDeletion headers) then unknown
      else
        let args := first.drop gitMark.length
        let parsed := FileNames.ofArguments? args
        let names := parsed.getD ⟨[], []⟩
        let names : FileNames :=
          ⟨if isCreation headers then noFile else names.old,
            if isDeletion headers then noFile else names.new⟩
        if parsed.isSome && moved && names.old.isEmpty && names.new.isEmpty then
          ⟨true, headers.foldl (reconstruct args) names⟩
        else ⟨parsed.isSome, names⟩

end EmptyDiff

end Enclosure
