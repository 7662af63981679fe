import Enclosure.Text.Basic

/-!
# Formats of output

What the command prints can be meant for people, for line-based tools or for programs.

## Main definitions

* `OutputFormat`: the formats.
* `OutputFormat.ofName`, `OutputFormat.checked`: the format with a given name.
-/

namespace Enclosure

/-- A format of output. -/
inductive OutputFormat where
  /-- For people. -/
  | standard
  /-- For line-based tools. -/
  | oneLine
  /-- For programs. -/
  | json
  /-- Any other name; the command accepts none. -/
  | other
deriving DecidableEq, Repr

namespace OutputFormat

/-- The names of the formats. -/
def names : List (Text × OutputFormat) :=
  [("default", standard), ("one-line", oneLine), ("json", json)]

/-- The format with a given name. -/
def ofName (name : Text) : OutputFormat :=
  (names.lookup name).getD other

/-- What is said about a name that no format has. -/
def unknownMessage (name : Text) : Text :=
  "invalid format " ++ name ++ ". Must be one of " ++ Text.join ", " (names.map (·.1))

/-- The format with a given name, or what is said about it. -/
def checked (name : Text) : Except Text OutputFormat :=
  match names.lookup name with
  | some format => .ok format
  | none => .error (unknownMessage name)

end OutputFormat

end Enclosure
