import Enclosure.Ignore.Wildcard
import Enclosure.Text.Blank

/-!
# Ignore files

An ignore file lists patterns, one a line, for the files and directories below its own directory.
The last line that matches decides. A line that starts with `#` says nothing; `!` in front takes the
decision of earlier lines back; a slash in front ties the pattern to the directory of the file; a
slash at the end restricts it to directories. A pattern without other slashes is for the last
element of a path, one with a slash for the whole path, and in one with `**` the elements are
matched one by one, where `**` stands for any number of them. A line in which `**` is not an element
of its own says nothing either. Blanks at the end of a pattern do not count, so that a line of
blanks says nothing, but behind a `!` they are part of the pattern.

## Main definitions

* `IgnoreRule.parse?`: the rule of a line.
* `IgnoreRule.appliesTo`: whether a rule is about a path.
* `ignoreRules`, `moduleRules`: the rules of an ignore file and of a list of modules.
* `verdict?`: what some rules say about a path.
-/

namespace Enclosure

/-- A token of a line. -/
inductive IgnoreToken where
  | slash
  /-- Two stars. -/
  | anyDepth
  /-- A run of blanks. -/
  | blanks (cs : List Char)
  /-- A run of other characters. -/
  | word (cs : List Char)
deriving DecidableEq, Repr

/-- The characters of a token. -/
def IgnoreToken.chars : IgnoreToken → List Char
  | slash => ['/']
  | anyDepth => ['*', '*']
  | blanks cs | word cs => cs

/-- Whether the token is a run of blanks. -/
def IgnoreToken.isBlanks : IgnoreToken → Bool
  | blanks _ => true
  | _ => false

/-- What a rule compares a path with. -/
inductive IgnorePattern where
  /-- The last element of the path. -/
  | base (pieces : List Wildcard)
  /-- The whole path, where wildcards stand for slashes too. -/
  | whole (pieces : List Wildcard)
  /-- The whole path. -/
  | path (pieces : List Wildcard)
  /-- The elements of the path; nothing stands for any number of them. -/
  | elements (es : List (Option (List Wildcard)))
deriving DecidableEq, Repr

/-- The rule of a line. -/
structure IgnoreRule where
  negated : Bool
  directoryOnly : Bool
  pattern : IgnorePattern
deriving DecidableEq, Repr

namespace IgnoreRule

/-- A blank within a line. -/
def isBlankChar (c : Char) : Bool :=
  c == ' ' || c == '\t'

/-- The characters of a word, where a backslash takes the next character along, and the rest. `acc`
holds those read so far, in reverse. -/
def readWord (acc : List Char) : List Char → List Char × List Char
  | [] => (acc.reverse, [])
  | '\\' :: c :: cs => readWord (c :: '\\' :: acc) cs
  | '*' :: '*' :: cs => (acc.reverse, '*' :: '*' :: cs)
  | c :: cs =>
    if isBlankChar c || c == '/' then (acc.reverse, c :: cs) else readWord (c :: acc) cs

/-- Reads at most `fuel` tokens. -/
def readTokens : Nat → List Char → List IgnoreToken
  | 0, _ => []
  | _, [] => []
  | fuel + 1, '/' :: cs => .slash :: readTokens fuel cs
  | fuel + 1, '*' :: '*' :: cs => .anyDepth :: readTokens fuel cs
  | fuel + 1, c :: cs =>
    if isBlankChar c then
      .blanks ((c :: cs).takeWhile isBlankChar) :: readTokens fuel (cs.dropWhile isBlankChar)
    else
      let (w, rest) := readWord [] (c :: cs)
      .word w :: readTokens fuel rest

/-- The tokens of a line, less blanks that follow two stars at its end. Two stars have to be an
element of their own. -/
def checked? : List IgnoreToken → Option (List IgnoreToken)
  | [] => some []
  | [.anyDepth, .blanks _] => some [.anyDepth]
  | .anyDepth :: .slash :: ts => (checked? (.slash :: ts)).map (.anyDepth :: ·)
  | .anyDepth :: ts => if ts.isEmpty then some [.anyDepth] else none
  | .slash :: ts => (checked? ts).map (.slash :: ·)
  | t :: ts => if ts.head? == some .anyDepth then none else (checked? ts).map (t :: ·)

/-- The tokens of a line less the blanks at its end. -/
def dropFinalBlanks (ts : List IgnoreToken) : List IgnoreToken :=
  (ts.reverse.dropWhile IgnoreToken.isBlanks).reverse

/-- The pattern that tokens stand for. -/
def patternOf (anchored : Bool) (ts : List IgnoreToken) : IgnorePattern :=
  let pieces := Wildcard.parse (ts.flatMap IgnoreToken.chars)
  if ts.contains .anyDepth then
    .elements ((ts.filter (· != .slash)).map fun t =>
      if t == .anyDepth then none else some (Wildcard.parse t.chars))
  else if ts.contains .slash then .path pieces
  else if anchored then .whole pieces
  else .base pieces

/-- The rule of a line, if it has one. -/
def parse? (line : List Char) : Option IgnoreRule := do
  guard (line.head? != some '#' && !line.contains '\r')
  let negated := line.head? == some '!'
  let line := if negated then line.tail else line
  let ts ← checked? (readTokens line.length line)
  let ts := if negated then ts else dropFinalBlanks ts
  let anchored := ts.head? == some .slash
  let ts := if anchored then ts.tail else ts
  guard !ts.isEmpty
  let directoryOnly := ts.getLast? == some .slash
  let ts := if directoryOnly then ts.dropLast else ts
  return ⟨negated, directoryOnly, patternOf anchored ts⟩

/-- What is left of a list after any number of items. -/
def suffixes {α : Type} : List α → List (List α)
  | [] => [[]]
  | a :: l => (a :: l) :: suffixes l

/-- Whether elements of a pattern match the elements of a path. -/
def acceptsElements : List (Option (List Wildcard)) → List (List Char) → Bool
  | [], path => path.isEmpty
  | none :: es, path => (suffixes path).any fun rest => acceptsElements es rest
  | some pieces :: es, e :: path => Wildcard.accepts true pieces e && acceptsElements es path
  | some _ :: _, [] => false

/-- Whether a rule is about a path, given by its elements. -/
def appliesTo (rule : IgnoreRule) (path : List (List Char)) (isDirectory : Bool) : Bool :=
  let whole := (path.intersperse ['/']).flatten
  (isDirectory || !rule.directoryOnly) &&
    match rule.pattern with
    | .base pieces => Wildcard.accepts false pieces (path.getLast?.getD [])
    | .whole pieces => Wildcard.accepts false pieces whole
    | .path pieces => Wildcard.accepts true pieces whole
    | .elements es => acceptsElements es path

end IgnoreRule

/-- The rules of an ignore file. A carriage return before the end of a line does not count. -/
def ignoreRules (t : Text) : List IgnoreRule :=
  let lines := t.lines
  let ended := lines.dropLast.map fun l : Text => l.dropFinal "\r"
  (ended ++ lines.getLast?.toList).filterMap fun l => IgnoreRule.parse? (l.runes.map Rune.toChar)

/-- The path in a line of a list of modules, if it gives one. -/
def modulePath? (line : Text) : Option Text := do
  let isBlankByte := fun b : UInt8 => b == 32 || b == 9 || b == 12 || b == 13
  let rest ← ("path" : Text).isPrefixOf? (line.dropWhile isBlankByte)
  match rest.dropWhile isBlankByte with
  | 61 :: path => some path
  | _ => none

/-- The rules of a list of modules: each module's path is a file of one rule. -/
def moduleRules (t : Text) : List (List IgnoreRule) :=
  (t.lines.filterMap modulePath?).map fun path => ignoreRules path.trim

/-- Whether the path is ignored by the rules of one file, if they say anything: the last rule that
is about it decides. -/
def verdict? (rules : List IgnoreRule) (path : List (List Char)) (isDirectory : Bool) :
    Option Bool :=
  (rules.reverse.find? fun rule => rule.appliesTo path isDirectory).map fun rule => !rule.negated

end Enclosure
