import Enclosure.Arguments.Flags

/-!
# Flags of the review command

What the review command is told comes from its flags and, where a flag is not given, from variables
of the environment. A variable that cannot be read counts as if it said nothing, except that a
number that is too large counts as the largest one.

## Main definitions

* `ReviewFlags`: what the command is told.
* `ReviewFlags.ofEnvironment`: what the environment says.
* `ReviewFlags.parse`: what the flags say beyond that.
* `ReviewFlags.missing`: what is needed but not told.
* `ReviewFlags.usage`: the text about the flags.
-/

namespace Enclosure

/-- The variables of an environment. -/
abbrev Environment := Text → Option Text

/-- What the review command is told. -/
structure ReviewFlags where
  token : Text
  /-- The directory of the repository. -/
  dir : Text
  /-- The number of the pull request. -/
  pull : Int
  /-- The full name of the repository. -/
  repository : Text
  verbose : Bool
  quiet : Bool
deriving DecidableEq, Repr

namespace ReviewFlags

/-- The flag for the token. -/
def tokenFlag : Flag := ⟨["token"], .word⟩

/-- The flag for the directory. -/
def dirFlag : Flag := ⟨["dir"], .word⟩

/-- The flag for the pull request. -/
def pullFlag : Flag := ⟨["pr"], .number⟩

/-- The flag for the repository. -/
def repositoryFlag : Flag := ⟨["repo"], .word⟩

/-- The flag for detailed reports. -/
def verboseFlag : Flag := ⟨["v"], .switch⟩

/-- The flag that keeps the command from commenting. -/
def quietFlag : Flag := ⟨["quiet"], .switch⟩

/-- All flags. -/
def all : List Flag :=
  [tokenFlag, dirFlag, pullFlag, repositoryFlag, verboseFlag, quietFlag]

/-- The number in a variable. -/
def numberIn (value : Text) : Int :=
  match value.decimal with
  | .ok n => n
  | .error (.outOfRange closest) => closest
  | .error .malformed => 0

/-- What the environment says. -/
def ofEnvironment (env : Environment) : ReviewFlags where
  token := (env "INPUT_GITHUB-TOKEN").getD []
  dir := (env "GITHUB_WORKSPACE").getD "/"
  pull := numberIn ((env "INPUT_PR").getD [])
  repository := (env "INPUT_REPOSITORY").getD []
  verbose := ((env "INPUT_VERBOSE").bind Text.truth?).getD false
  quiet := ((env "INPUT_QUIET").bind Text.truth?).getD false

/-- What is said beyond `d` by the flags. -/
def override (d : ReviewFlags) (a : Arguments) : ReviewFlags where
  token := a.word tokenFlag d.token
  dir := a.word dirFlag d.dir
  pull := a.number pullFlag d.pull
  repository := a.word repositoryFlag d.repository
  verbose := a.isOn verboseFlag d.verbose
  quiet := a.isOn quietFlag d.quiet

/-- What the command is told by its environment and its arguments. -/
def parse (env : Environment) (arguments : List Text) : Except FlagFault ReviewFlags :=
  (Arguments.parse all arguments).map (ofEnvironment env).override

/-- The flags that are needed but say nothing. -/
def missing (f : ReviewFlags) : List Text :=
  let silent := [(tokenFlag, f.token.isEmpty), (pullFlag, f.pull == 0),
    (repositoryFlag, f.repository.isEmpty)]
  (silent.filter fun (_, isSilent) => isSilent).flatMap fun (flag, _) => flag.names

/-- What is said about flags that are needed. -/
def missingMessage (names : List Text) : Text :=
  "required flags or environment variables not set: [" ++ Text.join " " names ++ "]"

/-! ### The text about the flags -/

/-- What follows the purpose of a flag: its value when it is not given, unless that says nothing. -/
def usageDefault (value : Text) : Text :=
  if value.isEmpty then [] else " (default " ++ value ++ ")"

/-- The text about a flag: its name and what it takes, and then what it is for, on the same line
only if the name is a single letter. -/
def usageEntry (name takes purpose value : Text) : Text :=
  let head : Text := "  -" ++ name ++ takes
  let gap : Text := if head.length ≤ 4 then "\t" else "\n    \t"
  head ++ gap ++ purpose ++ usageDefault value ++ "\n"

/-- A text as the value of a flag; an empty one says nothing. -/
def shownWord (t : Text) : Text :=
  if t.isEmpty then [] else t.quoted

/-- An integer as the value of a flag; zero says nothing. -/
def shownNumber (n : Int) : Text :=
  if n = 0 then [] else Text.ofInt n

/-- A truth value as the value of a flag; `false` says nothing. -/
def shownSwitch (b : Bool) : Text :=
  if b then "true" else []

/-- The text about the flags, by name, where `d` is what holds without them. -/
def usage (d : ReviewFlags) : Text :=
  "Usage of hunk-context:\n"
    ++ usageEntry "dir" " string" "Path to local Git repo" (shownWord d.dir)
    ++ usageEntry "pr" " int" "Pull Request number" (shownNumber d.pull)
    ++ usageEntry "quiet" [] "Do not post PR comments" (shownSwitch d.quiet)
    ++ usageEntry "repo" " string" "GitHub repo name" (shownWord d.repository)
    ++ usageEntry "token" " string" "GitHub authentication token" (shownWord d.token)
    ++ usageEntry "v" [] "Verbose output" (shownSwitch d.verbose)

end ReviewFlags

end Enclosure
