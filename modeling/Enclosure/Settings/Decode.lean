import Enclosure.Settings.Basic
import Enclosure.Text.LowerCase
import Enclosure.Toml.Ledger
import Enclosure.Toml.Parser

/-!
# Settings in TOML

A configuration is a TOML document whose keys name settings, in any case. Keys that name no setting
are passed over, and so is everything in a table that names none. A setting whose value is of the
wrong kind spoils the whole configuration, as does a name that is defined twice.

## Main definitions

* `Field`, `CommentField`: the settings that a key can name.
* `Settings.decode`: what a configuration gives.
-/

namespace Enclosure

open Toml

/-- The settings that a key can name. -/
inductive Field where
  | ignore
  | extensions
  | maxWorkers
  | skipInvalid
  | comment
deriving DecidableEq, Repr

/-- The settings of the comment that a key can name. -/
inductive CommentField where
  | enabled
  | header
deriving DecidableEq, Repr

/-- The setting with a given name, in any case. -/
def Field.ofName? (name : Text) : Option Field :=
  let names : List (Text × Field) := [("ignore", ignore), ("extensions", extensions),
    ("max_workers", maxWorkers), ("skip_invalid", skipInvalid), ("comment", comment)]
  names.lookup name.lower

/-- The setting of the comment with a given name, in any case. -/
def CommentField.ofName? (name : Text) : Option CommentField :=
  let names : List (Text × CommentField) := [("enabled", enabled), ("header", header)]
  names.lookup name.lower

/-- Where the keys of the current table belong. -/
inductive Scope where
  /-- The settings themselves. -/
  | top
  /-- The settings of the comment. -/
  | comment
  /-- A setting that is not a table, so that no key fits. -/
  | scalar
  /-- A table without meaning. -/
  | unknown
deriving DecidableEq, Repr

namespace CommentSettings

/-- The settings of the comment with one of them given a value. -/
def assign (c : CommentSettings) (key : Key) (v : Value) : Option CommentSettings :=
  match key with
  | [] => none
  | name :: rest =>
    match CommentField.ofName? name with
    | none => some c
    | some field =>
      if !rest.isEmpty then none
      else match field with
        | .enabled => v.boolean?.map fun b => { c with enabled := b }
        | .header => v.string?.map fun t => { c with header := t }

end CommentSettings

namespace GivenSettings

/-- The settings of the comment as they stand. -/
def currentComment (g : GivenSettings) : CommentSettings :=
  g.comment.getD ⟨false, []⟩

/-- The settings with one of the comment's given a value. -/
def assignComment (g : GivenSettings) (key : Key) (v : Value) : Option GivenSettings :=
  (g.currentComment.assign key v).map fun c => { g with comment := some c }

/-- The settings with the comment given an inline table. -/
def assignCommentTable (g : GivenSettings) (v : Value) : Option GivenSettings :=
  match v with
  | .table entries => entries.foldlM (fun g (key, v) => g.assignComment key v) g
  | _ => none

/-- The settings with one of them given a value. -/
def assign (g : GivenSettings) (key : Key) (v : Value) : Option GivenSettings :=
  match key with
  | [] => none
  | name :: rest =>
    match Field.ofName? name with
    | none => some g
    | some .comment => if rest.isEmpty then g.assignCommentTable v else g.assignComment rest v
    | some field =>
      if !rest.isEmpty then none
      else match field with
        | .ignore => v.strings?.map fun l => { g with ignore := some l }
        | .extensions => v.strings?.map fun l => { g with extensions := some l }
        | .maxWorkers => v.integer?.map fun n => { g with maxWorkers := n }
        | .skipInvalid => v.boolean?.map fun b => { g with skipInvalid := some b }
        | .comment => none

/-- The list that a setting holds, if it holds a list. -/
def list? (g : GivenSettings) : Field → Option (List Text)
  | .ignore => some (g.ignore.getD [])
  | .extensions => some (g.extensions.getD [])
  | _ => none

/-- The settings with another list in one of them. -/
def withList (g : GivenSettings) (l : List Text) : Field → GivenSettings
  | .ignore => { g with ignore := some l }
  | .extensions => { g with extensions := some l }
  | _ => g

/-- Where the keys below the heading of a table belong. A heading may name a setting that is not a
table as long as no keys follow, but not a list that is empty. -/
def enterTable (g : GivenSettings) (key : Key) : Option Scope :=
  match key with
  | [] => none
  | name :: rest =>
    match Field.ofName? name, rest with
    | none, _ => some .unknown
    | some .comment, [] => some .comment
    | some .comment, name :: rest =>
      match CommentField.ofName? name with
      | none => some .unknown
      | some _ => if rest.isEmpty then some .scalar else none
    | some field, [] =>
      if g.list? field == some [] then none else some .scalar
    | some _, _ :: _ => none

/-- The settings after the heading of a table in an array, and where the keys below belong. In a
list of texts such a heading stands for one more empty text. -/
def enterArrayTable (g : GivenSettings) (key : Key) (isFirst : Bool) :
    Option (GivenSettings × Scope) :=
  match key with
  | [] => none
  | name :: rest =>
    match Field.ofName? name, rest with
    | none, _ => some (g, .unknown)
    | some .comment, name :: _ =>
      match CommentField.ofName? name with
      | none => some (g, .unknown)
      | some _ => none
    | some field, [] =>
      match g.list? field with
      | none => none
      | some l => some (g.withList ((if isFirst then [] else l) ++ [[]]) field, .scalar)
    | some _, _ :: _ => none

end GivenSettings

/-- How far a configuration has been taken in. -/
structure Decoding where
  ledger : Ledger
  given : GivenSettings
  scope : Scope

namespace Decoding

/-- Before the first statement. -/
def start : Decoding :=
  ⟨Ledger.empty, GivenSettings.standard, .top⟩

/-- Takes in one statement. The names in a table without meaning are not recorded. -/
def step (d : Decoding) : Statement → Option Decoding
  | .assign key v =>
    match d.scope with
    | .unknown => some d
    | .scalar => none
    | .top => do
      return { d with ledger := ← d.ledger.assign? key v, given := ← d.given.assign key v }
    | .comment => do
      return { d with ledger := ← d.ledger.assign? key v, given := ← d.given.assignComment key v }
  | .table key => do
    return { d with ledger := ← d.ledger.enterTable? key, scope := ← d.given.enterTable key }
  | .arrayTable key => do
    let (ledger, isFirst) ← d.ledger.enterArrayTable? key
    let (given, scope) ← d.given.enterArrayTable key isFirst
    return ⟨ledger, given, scope⟩

end Decoding

/-- What a configuration gives, if it is well formed and all its settings have values of the right
kind. -/
def Settings.decode (t : Text) : Option GivenSettings := do
  let d ← (← Toml.parse? t).foldlM Decoding.step Decoding.start
  return d.given

end Enclosure
