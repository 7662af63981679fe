import Enclosure.Glob.Match
import Enclosure.Text.Blank

/-!
# Settings

What can be configured for a repository: which files are ignored, which extensions are supported
beyond the standard ones, how many files are analysed at a time, whether files that fail the dry run
are skipped, and the comment on a pull request.

## Main definitions

* `Settings`: the settings in force.
* `Settings.standard`: the settings without configuration.
* `GivenSettings`, `GivenSettings.settings`: what a configuration gives, and the settings that
  follow from it.
* `Settings.isIgnored`: whether a file is ignored.
* `Settings.ignoredDirectories`: the ignore patterns that are plain directories.
-/

namespace Enclosure

/-- Settings of the comment on a pull request. -/
structure CommentSettings where
  enabled : Bool
  /-- The first line of the comment, by which it is found again. -/
  header : Text
deriving DecidableEq, Repr

/-- The settings in force. -/
structure Settings where
  /-- Patterns of ignored files; one that ends in a slash stands for all files below. -/
  ignore : List Text
  /-- Supported extensions beyond the standard ones. -/
  extensions : List Text
  /-- How many files may be analysed at a time. -/
  maxWorkers : Int
  /-- Whether files that fail the dry run are skipped. -/
  skipInvalid : Bool
  comment : CommentSettings
deriving DecidableEq, Repr

/-- What a configuration gives. A part that is absent takes its standard value. -/
structure GivenSettings where
  ignore : Option (List Text)
  extensions : Option (List Text)
  maxWorkers : Int
  skipInvalid : Option Bool
  comment : Option CommentSettings
deriving DecidableEq, Repr

/-- The header of comments unless another one is configured. -/
def standardHeader : Text := "<!-- hunk-context -->"

/-- The settings without configuration. -/
def Settings.standard : Settings :=
  ⟨[], [], 4, true, ⟨true, standardHeader⟩⟩

/-- What holds before a configuration is read. -/
def GivenSettings.standard : GivenSettings :=
  ⟨some [], some [], 4, some true, some ⟨true, standardHeader⟩⟩

/-- The comment settings with the standard header in place of a blank one. -/
def CommentSettings.normalized (c : CommentSettings) : CommentSettings :=
  if c.header.isBlank then { c with header := standardHeader } else c

/-- The settings that follow from a configuration: absent parts, a number of workers below one and a
blank header take their standard values. -/
def GivenSettings.settings (g : GivenSettings) : Settings :=
  { ignore := g.ignore.getD Settings.standard.ignore
    extensions := g.extensions.getD Settings.standard.extensions
    maxWorkers := if g.maxWorkers < 1 then Settings.standard.maxWorkers else g.maxWorkers
    skipInvalid := g.skipInvalid.getD Settings.standard.skipInvalid
    comment := (g.comment.getD Settings.standard.comment).normalized }

namespace Settings

/-- The first ignore pattern that is not well formed. -/
def badPattern? (s : Settings) : Option Text :=
  s.ignore.find? fun p => !(Glob.ofText p).wellFormed

/-- The pattern that is matched for an ignore entry: one that ends in a slash stands for all files
below. -/
def fullPattern (entry : Text) : Text :=
  if entry.endsWith "/" then entry ++ "**" else entry

/-- Whether a file is ignored. A slash in front of its path does not matter. -/
def isIgnored (s : Settings) (file : Text) : Bool :=
  let path := file.dropFirst "/"
  s.ignore.any fun entry => Glob.accepts (fullPattern entry) path

/-- Whether an ignore entry is a plain directory: it ends in a slash and has no character that
starts a wildcard. -/
def isPlainDirectory (entry : Text) : Bool :=
  entry.endsWith "/" && !entry.any ("*?[\x7b" : Text).contains

/-- The ignore entries that are plain directories, by which a diff can be filtered early. -/
def ignoredDirectories (s : Settings) : List Text :=
  s.ignore.filter isPlainDirectory

end Settings

end Enclosure
