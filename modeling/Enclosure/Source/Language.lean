import Enclosure.Text.Blank
import Enclosure.Text.LowerCase

/-!
# Supported files

Whether a file is a source that can be analysed is decided by its extension: the last element of
the path from its last dot on, in lower case. Two extensions are supported from the start; more can
be configured, with or without the dot.

## Main definitions

* `extension`: the extension of a path, or the empty text.
* `isSupported`: whether a path has a supported extension.
-/

namespace Enclosure

/-- The last element of a path. -/
def baseName (path : Text) : Text :=
  (path.reverse.takeWhile (· != Text.slash)).reverse

/-- The part of the last element from its last dot on; empty if it has no dot. -/
def extension (path : Text) : Text :=
  let base := baseName path
  let tail := (base.reverse.takeWhile (· != 46)).reverse
  if tail.length < base.length then 46 :: tail else []

/-- The extensions that are supported without configuration. -/
def standardExtensions : List Text :=
  [".py", ".pyi"]

/-- A configured extension in the form in which it is compared. -/
def normalExtension (configured : Text) : Text :=
  let e := configured.trim.lower
  if e.head? == some 46 then e else 46 :: e

/-- Whether the path has a supported extension. -/
def isSupported (configured : List Text) (path : Text) : Bool :=
  let e := (extension path).lower
  if e.isEmpty then false
  else standardExtensions.contains e || configured.any (normalExtension · == e)

end Enclosure
