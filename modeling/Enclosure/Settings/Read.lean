import Enclosure.Files.Reader
import Enclosure.Settings.Decode
import Enclosure.Text.Quoted

/-!
# Reading settings

The settings of a repository are in a file at its root. Without the file the standard settings hold,
and they also hold if the file cannot be read or decoded; then it is said why. A pattern that is not
well formed is reported as well, but the settings stay as they were given.

Reading does not depend on the notation: it takes any function that decodes a text.

## Main definitions

* `SettingsError`: what can be wrong with the settings of a repository.
* `Settings.readWith`: reads settings in any notation.
* `Settings.read`: reads settings in TOML.
-/

namespace Enclosure

/-- What can be wrong with the settings of a repository. -/
inductive SettingsError where
  /-- The file cannot be read. -/
  | unreadable (reason : Text)
  /-- The file is not well formed or has a value of the wrong kind. -/
  | malformed (path : Text)
  /-- A pattern of ignored files is not well formed. -/
  | badPattern (pattern : Text)
deriving DecidableEq, Repr

namespace SettingsError

/-- Stands in reports for the details of a malformed file. -/
def malformedMark : Text := "<toml>"

/-- The wording of an error. -/
def message : SettingsError → Text
  | unreadable reason => reason
  | malformed path => "failed to parse " ++ path ++ ": " ++ malformedMark
  | badPattern pattern => "invalid ignore pattern " ++ pattern.quoted

end SettingsError

/-- The settings in force after reading, and what went wrong. -/
structure SettingsReport where
  settings : Settings
  error : Option SettingsError
deriving DecidableEq, Repr

namespace Settings

/-- The name of the file with the settings. -/
def fileName : Text := "hunkcontext.toml"

/-- The settings that follow from a configuration, with a report on the first bad pattern. -/
def report (g : GivenSettings) : SettingsReport :=
  let s := g.settings
  ⟨s, s.badPattern?.map .badPattern⟩

/-- Reads the settings of the repository at `dir` in the notation that `decode` understands. -/
def readWith (decode : Text → Option GivenSettings) (dir : Text) (reader : FileReader) :
    SettingsReport :=
  let path := Path.join dir fileName
  if !reader.has path then ⟨standard, none⟩
  else match reader.read path with
    | .error reason => ⟨standard, some (.unreadable reason)⟩
    | .ok content =>
      match decode content with
      | none => ⟨standard, some (.malformed path)⟩
      | some g => report g

/-- Reads the settings of the repository at `dir`. -/
def read (dir : Text) (reader : FileReader) : SettingsReport :=
  readWith decode dir reader

/-- The warning about settings that could not be taken as they are. -/
def warning (e : SettingsError) : Text :=
  "WARNING: Error reading " ++ fileName ++ " - using default config: " ++ e.message ++ "\n"

end Settings

end Enclosure
