import Enclosure.Glob.Pattern

/-!
# Matching paths against globs

The matcher goes through pattern and path from the left. It remembers the last star and the last
`**` passed; when a character does not fit it goes back to the star, which then takes one more
character, or else to the `**`, which takes one more path element. Braces are resolved by trying the
alternatives in order, each in place of the braces.

A pattern may turn out to be malformed while it is matched, and then matching has no answer. A
failed match checks the rest of the pattern, from where it failed, for being well formed; a match
that succeeds checks nothing more. Because an alternative that shows the pattern to be malformed
ends the search, the difference matters.

A pattern matches more than its letters say in three cases: `**` at the end matches everything
below, `/**` also matches the directory itself, and so do `**/` and `/**/`.

## Main definitions

* `GlobResult`: match, no match, or malformed.
* `Glob.step`: one step of the matcher.
* `Glob.run`: the whole match of a pattern against a path.
* `Glob.accepts`: whether a path matches a pattern.
-/

namespace Enclosure

/-- What matching can come to. -/
inductive GlobResult where
  | accepted
  | rejected
  | malformed
deriving DecidableEq, Repr

namespace Glob

/-- The character between path elements. -/
def separator : Char := '/'

/-- A place to go back to: the pattern passed until then, in reverse, and the path from there. -/
structure Mark where
  passed : Glob
  path : List Char
deriving DecidableEq, Repr

/-- Where the matcher stands. The pattern is `passed`, reversed, followed by `rest`. -/
structure State where
  /-- The pattern passed so far, in reverse. -/
  passed : Glob
  /-- The pattern still to come. -/
  rest : Glob
  /-- The path still to come. -/
  path : List Char
  /-- Whether a path element starts here. -/
  atStart : Bool
  /-- The last star. -/
  star : Option Mark
  /-- The last `**` that stands for path elements. -/
  deep : Option Mark
deriving DecidableEq, Repr

/-- What one step can come to. -/
inductive Step where
  | done (r : GlobResult)
  | next (s : State)
  /-- Braces were met: the alternatives and what follows the braces. -/
  | branch (s : State) (alternatives : List Glob) (after : Glob)

/-- The state `n` pattern characters further. -/
def State.advance (s : State) (n : Nat) : State :=
  { s with passed := (s.rest.take n).reverse ++ s.passed, rest := s.rest.drop n }

/-- The state back at a mark; the path goes on from `path`. -/
def State.goBack (s : State) (m : Mark) (path : List Char) (atStart : Bool) : State :=
  let again := (s.passed.take (s.passed.length - m.passed.length)).reverse
  { s with passed := m.passed, rest := again ++ s.rest, path := path, atStart := atStart }

/-- The path after its next separator, if it has one. -/
def afterSeparator? : List Char → Option (List Char)
  | [] => none
  | c :: path => if c == separator then some path else afterSeparator? path

/-- Goes back after a misfit: to the last star, unless it would have to take a separator, or else to
the last `**`. If there is nothing to go back to, the match has failed. -/
def retreat (s : State) : Step :=
  match s.star with
  | some m =>
    if m.path.head? != some separator then
      let path := m.path.drop 1
      .next { s.goBack m path false with star := some ⟨m.passed, path⟩ }
    else retreatDeep s
  | none => retreatDeep s
where
  /-- Goes back to the last `**`. -/
  retreatDeep (s : State) : Step :=
    match s.deep with
    | some m =>
      match afterSeparator? m.path with
      | some path => .next { s.goBack m path true with star := none, deep := some ⟨m.passed, path⟩ }
      | none => fail s
    | none => fail s
  /-- The match has failed; the rest of the pattern is checked. -/
  fail (s : State) : Step :=
    .done (if wellFormed s.rest then .rejected else .malformed)

/-- Passes a star. -/
def passStar (s : State) : Step :=
  .next { s with atStart := false, star := some ⟨s.passed, s.path⟩ }

/-- Steps over a star or a double star. A double star stands for path elements only if it is an
element itself; at the end of the pattern it takes all that is left. -/
def stepStar (s : State) : Step :=
  let one := s.advance 1
  if one.rest.head? == some '*' then
    let two := s.advance 2
    if s.atStart && two.rest.isEmpty then .done .accepted
    else if s.atStart && two.rest.head? == some separator then
      let three := s.advance 3
      .next { three with star := none, deep := some ⟨three.passed, three.path⟩ }
    else passStar two
  else passStar one

/-- What the next character of a class is taken for. -/
inductive ClassMode where
  /-- A member, or a hyphen that turns the member before it into the start of a range. -/
  | member (last : Option Char)
  /-- A member, whatever it is. -/
  | escaped
  /-- The end of a range, or a backslash in front of it. -/
  | rangeEnd (lo : Char)
  /-- The end of a range, whatever it is. -/
  | escapedEnd (lo : Char)
deriving DecidableEq, Repr

/-- Looks for `c` in a class. The answer says whether it was found and how many pattern characters
were read; reading stops at the first find, or else before the bracket that closes the class. -/
def scanClass (c : Char) : ClassMode → (read : Nat) → Glob → Bool × Nat
  | _, n, [] => (false, n)
  | .member last, n, ch :: t =>
    if ch == ']' then (false, n)
    else if ch == '\\' then scanClass c .escaped (n + 1) t
    else
      match last with
      | some lo =>
        if ch == '-' && !t.isEmpty && t.head? != some ']' then scanClass c (.rangeEnd lo) (n + 1) t
        else if ch == c then (true, n + 1)
        else scanClass c (.member (some ch)) (n + 1) t
      | none =>
        if ch == c then (true, n + 1) else scanClass c (.member (some ch)) (n + 1) t
  | .escaped, n, ch :: t =>
    if ch == c then (true, n + 1) else scanClass c (.member (some ch)) (n + 1) t
  | .rangeEnd lo, n, ch :: t =>
    if ch == '\\' then scanClass c (.escapedEnd lo) (n + 1) t
    else if lo ≤ c && c ≤ ch then (true, n + 1)
    else scanClass c (.member none) (n + 1) t
  | .escapedEnd lo, n, ch :: t =>
    if lo ≤ c && c ≤ ch then (true, n + 1) else scanClass c (.member none) (n + 1) t

/-- The number of characters up to and including the bracket that closes a class. -/
def closeClass : (read : Nat) → Glob → Option Nat
  | _, [] => none
  | n, c :: t =>
    if c == '\\' then
      match t with
      | [] => none
      | _ :: t => closeClass (n + 2) t
    else if c == ']' then some (n + 1)
    else closeClass (n + 1) t

/-- Matches the first character `c` of the path against a class. -/
def stepClass (s : State) (c : Char) : Step :=
  let s := { s.advance 1 with atStart := false }
  let negated := s.rest.head? == some '!' || s.rest.head? == some '^'
  let s := if negated then s.advance 1 else s
  if s.rest.isEmpty || s.rest.head? == some ']' then .done .malformed
  else
    let (found, read) := scanClass c (.member none) 0 s.rest
    let s := s.advance read
    if found == negated then
      if s.rest.isEmpty then .done .malformed else retreat s
    else
      match closeClass 0 s.rest with
      | none => .done .malformed
      | some n => .next { s.advance n with path := s.path.drop 1 }

/-- Matches the first character `c` of the path against the character `p` of the pattern, which
`width` pattern characters spell. -/
def stepLiteral (s : State) (p c : Char) (width : Nat) : Step :=
  if p == c then .next { s.advance width with path := s.path.drop 1, atStart := p == separator }
  else if width == 1 && s.passed.head? == some '\\' then
    retreat { s with passed := s.passed.drop 1, rest := '\\' :: s.rest }
  else retreat s

/-- One step against a path that goes on with `c`. -/
def step (s : State) (c : Char) : Step :=
  match s.rest with
  | [] => retreat s
  | p :: rest =>
    if p == '*' then stepStar s
    else if p == '?' then
      let s := { s with atStart := false }
      if c == separator then retreat s else .next { s.advance 1 with path := s.path.drop 1 }
    else if p == '[' then stepClass s c
    else if p == '{' then
      match alternatives? rest with
      | none => .done .malformed
      | some (alts, after) => .branch s alts after
    else if p == '\\' then
      match rest with
      | [] => .done .malformed
      | p :: _ => stepLiteral s p c 2
    else stepLiteral s p c 1

/-- The first answer among the alternatives that is not a rejection. -/
def firstAnswer (attempt : Glob → GlobResult) : List Glob → GlobResult
  | [] => .rejected
  | a :: alts =>
    match attempt a with
    | .rejected => firstAnswer attempt alts
    | r => r

/-- The patterns that match the empty path although they are not empty. -/
def emptyForms : List Glob :=
  [[], ['*'], ['*', '*'], ['/', '*', '*'], ['*', '*', '/'], ['/', '*', '*', '/']]

/-- Whether a pattern matches the empty path. `fuel` bounds the number of braces. -/
def acceptsEmpty : (fuel : Nat) → Glob → GlobResult
  | 0, _ => .rejected
  | fuel + 1, p =>
    if emptyForms.contains p then .accepted
    else
      match p with
      | '{' :: t =>
        match alternatives? t with
        | none => .malformed
        | some (alts, after) => firstAnswer (fun a => acceptsEmpty fuel (a ++ after)) alts
      | _ => if wellFormed p then .rejected else .malformed

/-- Runs the matcher for at most `fuel` steps. -/
def runFrom : (fuel : Nat) → State → GlobResult
  | 0, _ => .rejected
  | fuel + 1, s =>
    match s.path with
    | [] => acceptsEmpty (s.rest.length + 1) s.rest
    | c :: _ =>
      match step s c with
      | .done r => r
      | .next s => runFrom fuel s
      | .branch s alts after =>
        firstAnswer (fun a => runFrom fuel { s with rest := a ++ after, atStart := true }) alts

/-- More steps than any match takes: every return to a star or a `**` moves one of the two marks
forward in the pattern or in the path, and between two returns the pattern is read at most once. -/
def enoughSteps (p : Glob) (path : List Char) : Nat :=
  Nat.pow (p.length + 2) 3 * Nat.pow (path.length + 2) 2

/-- Matches a path against a pattern. -/
def run (p : Glob) (path : List Char) : GlobResult :=
  runFrom (enoughSteps p path) ⟨[], p, path, true, none, none⟩

/-- Whether a path matches a pattern. A malformed pattern matches nothing. -/
def accepts (p path : Text) : Bool :=
  run (ofText p) (ofText path) == .accepted

end Glob

end Enclosure
