/-!
# Lists taken as sets

Lists whose order or repetition does not matter: finite sets kept as lists without repetitions, the
list of first occurrences, and whether two lists hold the same items.

## Main definitions

* `ItemSet`: a finite set, with `add`, `remove` and `has`.
* `ItemFlags`: items with a flag each.
* `distinct`: the first occurrence of each item, in order.
* `sameItems`: equal length and the same set of items.
-/

namespace Enclosure

variable {α : Type} [DecidableEq α]

/-- A finite set of items, as a list without repetitions. -/
abbrev ItemSet (α : Type) := List α

namespace ItemSet

/-- The set with no items. -/
def empty : ItemSet α := []

/-- Whether an item is in the set. -/
def has (s : ItemSet α) (a : α) : Bool :=
  a ∈ s

/-- The set with one more item, or the set itself if the item is in it. -/
def add (s : ItemSet α) (a : α) : ItemSet α :=
  if s.has a then s else a :: s

/-- The set without an item. -/
def remove (s : ItemSet α) (a : α) : ItemSet α :=
  List.filter (· ≠ a) s

end ItemSet

/-- Items with a flag each. -/
structure ItemFlags (α : Type) where
  entries : List (α × Bool)
  /-- No item has two flags. -/
  nodup : (entries.map Prod.fst).Nodup

namespace ItemFlags

/-- No items at all. -/
def empty : ItemFlags α :=
  ⟨[], List.nodup_nil⟩

/-- The entries with another flag for an item, which may be new. -/
def putIn (flag : Bool) (a : α) : List (α × Bool) → List (α × Bool)
  | [] => [(a, flag)]
  | (b, old) :: entries =>
    if b = a then (b, flag) :: entries else (b, old) :: putIn flag a entries

/-- The items after one of them got another flag. -/
theorem map_fst_putIn (flag : Bool) (a : α) (entries : List (α × Bool)) :
    (putIn flag a entries).map Prod.fst =
      if a ∈ entries.map Prod.fst then entries.map Prod.fst else entries.map Prod.fst ++ [a] := by
  induction entries with
  | nil => simp [putIn]
  | cons entry entries ih =>
      obtain ⟨b, old⟩ := entry
      by_cases hb : b = a
      · simp [putIn, hb]
      · rw [putIn, if_neg hb, List.map_cons, ih, List.map_cons]
        simp only [List.mem_cons, Ne.symm hb, false_or]
        split <;> rfl

/-- Gives an item another flag. An item that is new comes last. -/
def put (flag : Bool) (s : ItemFlags α) (a : α) : ItemFlags α where
  entries := putIn flag a s.entries
  nodup := by
    rw [map_fst_putIn]
    split
    · exact s.nodup
    · rename_i ha
      refine List.nodup_append.mpr ⟨s.nodup, by simp, ?_⟩
      rintro b hb c hc rfl
      rw [List.mem_singleton] at hc
      exact ha (hc ▸ hb)

/-- Gives all items of a list another flag. -/
def putAll (flag : Bool) (s : ItemFlags α) (l : List α) : ItemFlags α :=
  l.foldl (put flag) s

end ItemFlags

/-- Goes through a list and keeps the items that are not kept already. `kept` holds them in
reverse. -/
def distinctFrom (kept : List α) : List α → List α
  | [] => kept.reverse
  | a :: l => if a ∈ kept then distinctFrom kept l else distinctFrom (a :: kept) l

/-- The first occurrence of each item of a list, in order. -/
def distinct (l : List α) : List α :=
  distinctFrom [] l

/-- Whether two lists of equal length hold the same items. All items of the first list are flagged
as not found, and then those of the second one as found. No item may be added by that, and none may
be left that was not found. -/
def sameItems (a b : List α) : Bool :=
  if a.length ≠ b.length then false
  else
    let own := ItemFlags.empty.putAll false a
    let both := own.putAll true b
    if both.entries.length ≠ own.entries.length then false
    else both.entries.all Prod.snd

end Enclosure
