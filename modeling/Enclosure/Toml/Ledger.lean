import Enclosure.Toml.Value

/-!
# The names a document has defined

A document may define no name twice. The **ledger** records for each path what was defined there: a
value, a table or an array of tables. A table is *explicit* once it can be neither headed nor
extended again: after its own heading, and, for a table that arose from a dotted key, once the table
whose statements made it has ended.

## Main definitions

* `Toml.Ledger.assign?`: records a key that is given a value in the current table.
* `Toml.Ledger.enterTable?`, `Toml.Ledger.enterArrayTable?`: records a heading.
-/

namespace Enclosure

namespace Toml

/-- What a path stands for. -/
inductive EntryKind where
  | value
  | table
  | arrayTable
deriving DecidableEq, Repr

/-- The record of one path. -/
structure Entry where
  path : Key
  kind : EntryKind
  /-- Whether a table may no longer be headed or extended. -/
  explicit : Bool
  /-- Whether a dotted key of the current table made it. -/
  dotted : Bool
deriving Repr

/-- The records of a document so far. -/
structure Ledger where
  /-- The path of the current table. -/
  current : Key
  entries : List Entry
deriving Repr

namespace Ledger

/-- The ledger before the first statement. -/
def empty : Ledger :=
  ⟨[], []⟩

/-- The record of a path. -/
def find? (l : Ledger) (path : Key) : Option Entry :=
  l.entries.find? (·.path == path)

/-- One more record. -/
def add (l : Ledger) (e : Entry) : Ledger :=
  { l with entries := e :: l.entries }

/-- Whether a path lies strictly below another. -/
def isBelow (top path : Key) : Bool :=
  top.isPrefixOf path && top.length < path.length

/-- Closes the current table: the tables that its dotted keys made become explicit. -/
def close (l : Ledger) : Ledger :=
  { l with entries := l.entries.map fun e =>
      if e.dotted && isBelow l.current e.path then { e with explicit := true, dotted := false }
      else e }

/-- Passes through a path on the way to a heading: what is not there yet becomes a table, and a
value is in the way. -/
def pass? (l : Ledger) (path : Key) : Option Ledger :=
  match l.find? path with
  | none => some (l.add ⟨path, .table, false, false⟩)
  | some e => if e.kind = .value then none else some l

/-- Passes through all proper beginnings of a key. -/
def passAll? (l : Ledger) (key : Key) : Option Ledger :=
  (List.range (key.length - 1)).foldlM (fun l n => l.pass? (key.take (n + 1))) l

/-- Records the heading of a table. -/
def enterTable? (l : Ledger) (key : Key) : Option Ledger := do
  let l ← l.close.passAll? key
  let l := { l with current := key }
  match l.find? key with
  | none => return l.add ⟨key, .table, true, false⟩
  | some e =>
    guard (e.kind = .table && !e.explicit)
    return { l with entries := l.entries.map fun e =>
      if e.path == key then { e with explicit := true } else e }

/-- Records the heading of a table in an array. A further one starts with nothing defined below;
the flag tells whether it is the first. -/
def enterArrayTable? (l : Ledger) (key : Key) : Option (Ledger × Bool) := do
  let l ← l.close.passAll? key
  let l := { l with current := key }
  match l.find? key with
  | none => return (l.add ⟨key, .arrayTable, true, false⟩, true)
  | some e =>
    guard (e.kind = .arrayTable)
    return ({ l with entries := l.entries.filter fun e => !isBelow key e.path }, false)

/-- Records the names of a key below `path`. Only the last may not be there yet; the others have to
be tables that are not explicit. -/
def extend? (l : Ledger) (path : Key) : Key → Option Ledger
  | [] => some l
  | name :: rest =>
    let here := path ++ [name]
    match l.find? here with
    | none =>
      let kind := if rest.isEmpty then EntryKind.value else .table
      (l.add ⟨here, kind, false, true⟩).extend? here rest
    | some e =>
      if rest.isEmpty || e.kind ≠ .table || e.explicit then none
      else l.extend? here rest

mutual

/-- Whether the inline tables of a value define no name twice. Each inline table stands for
itself. -/
def soundValue : Value → Bool
  | .array items => soundItems items
  | .table entries => soundEntries empty entries
  | _ => true

/-- The same for the items of an array. -/
def soundItems : List Value → Bool
  | [] => true
  | v :: vs => soundValue v && soundItems vs

/-- The same for the entries of an inline table, where `l` has the names that came before. -/
def soundEntries (l : Ledger) : List (Key × Value) → Bool
  | [] => true
  | (key, v) :: rest =>
    match l.extend? [] key with
    | none => false
    | some l => soundValue v && soundEntries l rest

end

/-- Records a key that is given a value in the current table. -/
def assign? (l : Ledger) (key : Key) (v : Value) : Option Ledger := do
  let l ← l.extend? l.current key
  guard (soundValue v)
  return l

end Ledger

end Toml

end Enclosure
