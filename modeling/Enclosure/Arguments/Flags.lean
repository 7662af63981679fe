import Enclosure.Text.Integer
import Enclosure.Text.Quoted

/-!
# Flags among the arguments of a command

The arguments of a command are flags first and operands after them. A flag starts with one or two
dashes; its value follows an equals sign or is the next argument, and only a *switch* needs none.
The first argument that is no flag, or the one after a double dash, is the first operand. Of several
occurrences of a flag the last one counts.

A flag may have several names. Where that matters, only one of them may be used at a time.

## Main definitions

* `Flag`, `FlagKind`: what a flag is called and what it takes.
* `Arguments`: the flags given and the operands.
* `FlagFault`: what can be wrong with the arguments.
* `Arguments.parse`: reads the arguments of a command.
* `Arguments.oneForm`: refuses two names of one flag.
-/

namespace Enclosure

/-- What a flag takes. -/
inductive FlagKind where
  /-- A truth value, which is `true` if the flag stands alone. -/
  | switch
  /-- An integer. -/
  | number
  /-- Any text. -/
  | word
deriving DecidableEq, Repr

/-- A flag with its names, of which the first is the main one. -/
structure Flag where
  names : List Text
  kind : FlagKind
deriving DecidableEq, Repr

/-- The value of a flag. -/
inductive FlagValue where
  | switch (b : Bool)
  | number (n : Int)
  | word (t : Text)
deriving DecidableEq, Repr

/-- An occurrence of a flag: the name used and the value. -/
structure Given where
  name : Text
  value : FlagValue
deriving DecidableEq, Repr

/-- The flags given, in order, and the operands. -/
structure Arguments where
  given : List Given
  operands : List Text
deriving DecidableEq, Repr

/-- What can be wrong with the arguments of a command. -/
inductive FlagFault where
  /-- There is no name after the dashes. -/
  | nameless (argument : Text)
  /-- There is no such flag. -/
  | undefined (name : Text)
  /-- There is no flag for help, but help is asked for. -/
  | helpWanted
  /-- The value is missing. -/
  | valueMissing (name : Text)
  /-- The value of a switch is no truth value. -/
  | badSwitch (value name : Text)
  /-- The value is no integer. -/
  | badNumber (value name : Text) (fault : IntegerFault)
  /-- Two names of one flag are used. -/
  | twoForms (second first : Text)
deriving DecidableEq, Repr

/-- Why an integer is refused, in a word. -/
def IntegerFault.reason : IntegerFault → Text
  | malformed => "parse error"
  | outOfRange _ => "value out of range"

/-- The wording of a fault. -/
def FlagFault.message : FlagFault → Text
  | nameless argument => "bad flag syntax: " ++ argument
  | undefined name => "flag provided but not defined: -" ++ name
  | helpWanted => "flag: help requested"
  | valueMissing name => "flag needs an argument: -" ++ name
  | badSwitch value name =>
    "invalid boolean value " ++ value.quoted ++ " for -" ++ name ++ ": parse error"
  | badNumber value name fault =>
    "invalid value " ++ value.quoted ++ " for flag -" ++ name ++ ": " ++ fault.reason
  | twoForms second first => "Cannot use two forms of the same flag: " ++ second ++ " " ++ first

/-- Reads the value of a flag. -/
def FlagKind.read (kind : FlagKind) (name value : Text) : Except FlagFault FlagValue :=
  match kind with
  | switch =>
    match value.truth? with
    | some b => .ok (.switch b)
    | none => .error (.badSwitch value name)
  | number =>
    match value.integer with
    | .ok n => .ok (.number n)
    | .error fault => .error (.badNumber value name fault)
  | word => .ok (.word value)

/-- What a single argument is. -/
inductive ArgumentRole where
  | operand
  /-- The double dash that ends the flags. -/
  | terminator
  /-- A flag with its value. -/
  | flag (given : Given)
  /-- A flag whose value is the next argument. -/
  | flagBefore (name : Text) (kind : FlagKind)
deriving DecidableEq, Repr

namespace Arguments

/-- What the flag with the given name takes. -/
def kind? (flags : List Flag) (name : Text) : Option FlagKind :=
  (flags.find? fun f => f.names.contains name).map Flag.kind

/-- The names by which help is asked for even if there is no flag for it. -/
def helpNames : List Text := ["help", "h"]

/-- The role of an argument that is a flag, from what follows the dashes. -/
def flagRole (flags : List Flag) (body : Text) : Except FlagFault ArgumentRole :=
  let (name, value) := match Text.cut "=" body with
    | none => (body, none)
    | some (name, value) => (name, some value)
  match kind? flags name, value with
  | none, _ => .error (if helpNames.contains name then .helpWanted else .undefined name)
  | some kind, some value => (kind.read name value).map fun v => .flag ⟨name, v⟩
  | some .switch, none => .ok (.flag ⟨name, .switch true⟩)
  | some kind, none => .ok (.flagBefore name kind)

/-- The role of an argument. -/
def role (flags : List Flag) (argument : Text) : Except FlagFault ArgumentRole :=
  match argument with
  | 45 :: 45 :: body => if body.isEmpty then .ok .terminator else named body
  | 45 :: b :: body => named (b :: body)
  | _ => .ok .operand
where
  /-- The role of a flag, which must have a name. -/
  named (body : Text) : Except FlagFault ArgumentRole :=
    if body.head? == some 45 || body.head? == some 61 then .error (.nameless argument)
    else flagRole flags body

/-- The arguments with one more flag in front. -/
def give (g : Given) (a : Arguments) : Arguments :=
  { a with given := g :: a.given }

/-- Reads the arguments of a command. -/
def parse (flags : List Flag) : List Text → Except FlagFault Arguments
  | [] => .ok ⟨[], []⟩
  | argument :: rest =>
    match role flags argument with
    | .error fault => .error fault
    | .ok .operand => .ok ⟨[], argument :: rest⟩
    | .ok .terminator => .ok ⟨[], rest⟩
    | .ok (.flag g) => (parse flags rest).map (give g)
    | .ok (.flagBefore name kind) =>
      match rest with
      | [] => .error (.valueMissing name)
      | value :: rest =>
        match kind.read name value with
        | .error fault => .error fault
        | .ok v => (parse flags rest).map (give ⟨name, v⟩)

/-- The names of a flag that were used. -/
def usedNames (a : Arguments) (f : Flag) : List Text :=
  f.names.filter fun name => a.given.any fun g => g.name == name

/-- The first flag of which two names were used. -/
def twoForms? (flags : List Flag) (a : Arguments) : Option FlagFault :=
  flags.findSome? fun f =>
    match a.usedNames f with
    | first :: second :: _ => some (.twoForms second first)
    | _ => none

/-- The arguments, unless two names of one flag were used. -/
def oneForm (flags : List Flag) (a : Arguments) : Except FlagFault Arguments :=
  match a.twoForms? flags with
  | some fault => .error fault
  | none => .ok a

/-- The value of a flag, if it was given. -/
def value? (a : Arguments) (f : Flag) : Option FlagValue :=
  (a.given.reverse.find? fun g => f.names.contains g.name).map Given.value

/-- Whether a switch is on. -/
def isOn (a : Arguments) (f : Flag) (default : Bool) : Bool :=
  match a.value? f with
  | some (.switch b) => b
  | _ => default

/-- The integer given with a flag. -/
def number (a : Arguments) (f : Flag) (default : Int) : Int :=
  match a.value? f with
  | some (.number n) => n
  | _ => default

/-- The text given with a flag. -/
def word (a : Arguments) (f : Flag) (default : Text) : Text :=
  match a.value? f with
  | some (.word t) => t
  | _ => default

end Arguments

end Enclosure
