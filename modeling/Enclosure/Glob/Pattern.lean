import Enclosure.Text.Rune

/-!
# Glob patterns

A glob pattern describes paths. `*` and `?` stand for characters other than the slash, `**` as a
whole path element for any number of elements, `[…]` for one of some characters, and `{…,…}` for one
of some texts; a backslash takes the next character literally.

A pattern is well formed if no backslash ends it, every class is closed and holds something, and the
braces outside classes are balanced.

## Main definitions

* `Glob`: a pattern, as characters.
* `Glob.wellFormed`: whether the pattern is well formed.
* `Glob.alternatives?`: the alternatives at the front of a pattern, and what follows them.
-/

namespace Enclosure

/-- A pattern as the characters it is written with. -/
abbrev Glob := List Char

namespace Glob

/-- The pattern that a text shows. -/
def ofText (t : Text) : Glob :=
  t.runes.map Rune.toChar

/-- Where the check stands with respect to a class. -/
inductive ClassPlace where
  /-- Outside any class. -/
  | outside
  /-- After the opening bracket. -/
  | opened
  /-- After the sign that negates the class. -/
  | negated
  /-- After the first character of the class. -/
  | inside
deriving DecidableEq, Repr

/-- Whether the rest of a pattern is well formed, where `depth` braces are open. -/
def wellFormedFrom : ClassPlace → (depth : Nat) → Glob → Bool
  | .outside, depth, [] => depth == 0
  | _, _, [] => false
  | .outside, depth, c :: t =>
    if c == '\\' then
      match t with
      | [] => false
      | _ :: t => wellFormedFrom .outside depth t
    else if c == '[' then wellFormedFrom .opened depth t
    else if c == '{' then wellFormedFrom .outside (depth + 1) t
    else if c == '}' then depth != 0 && wellFormedFrom .outside (depth - 1) t
    else wellFormedFrom .outside depth t
  | .opened, depth, c :: t =>
    if c == '^' || c == '!' then wellFormedFrom .negated depth t
    else if c == ']' then false
    else if c == '\\' then
      match t with
      | [] => false
      | _ :: t => wellFormedFrom .inside depth t
    else wellFormedFrom .inside depth t
  | .negated, depth, c :: t =>
    if c == ']' then false
    else if c == '\\' then
      match t with
      | [] => false
      | _ :: t => wellFormedFrom .inside depth t
    else wellFormedFrom .inside depth t
  | .inside, depth, c :: t =>
    if c == ']' then wellFormedFrom .outside depth t
    else if c == '\\' then
      match t with
      | [] => false
      | _ :: t => wellFormedFrom .inside depth t
    else wellFormedFrom .inside depth t

/-- Whether the pattern is well formed. -/
def wellFormed (p : Glob) : Bool :=
  wellFormedFrom .outside 0 p

/-- The text up to the brace that closes an open one, and what follows that brace. `acc` holds, in
reverse, what was passed, and `depth` counts the braces opened since. -/
def closeBrace (acc : Glob) : (depth : Nat) → Glob → Option (Glob × Glob)
  | _, [] => none
  | depth, c :: t =>
    if c == '\\' then
      match t with
      | [] => none
      | d :: t => closeBrace (d :: c :: acc) depth t
    else if c == '{' then closeBrace (c :: acc) (depth + 1) t
    else if c == '}' then
      if depth == 0 then some (acc.reverse, t) else closeBrace (c :: acc) (depth - 1) t
    else closeBrace (c :: acc) depth t

/-- The pieces between the commas outside inner braces. `acc` holds the current piece in reverse. -/
def splitCommas (acc : Glob) : (depth : Nat) → Glob → List Glob
  | _, [] => [acc.reverse]
  | depth, c :: t =>
    if c == '\\' then
      match t with
      | [] => [(c :: acc).reverse]
      | d :: t => splitCommas (d :: c :: acc) depth t
    else if c == '{' then splitCommas (c :: acc) (depth + 1) t
    else if c == '}' then splitCommas (c :: acc) (depth - 1) t
    else if c == ',' && depth == 0 then acc.reverse :: splitCommas [] depth t
    else splitCommas (c :: acc) depth t

/-- The alternatives of a brace that was just opened, and what follows its closing brace. There is
no answer if the brace is never closed. -/
def alternatives? (t : Glob) : Option (List Glob × Glob) :=
  match closeBrace [] 0 t with
  | some (inner, after) => some (splitCommas [] 0 inner, after)
  | none => none

end Glob

end Enclosure
