import Enclosure.Distinct

/-!
# Removal in place

Items are removed from an array without a second array: the items that stay are moved to the front,
over items that have been tested already, and the rest is cut off. Nothing is moved as long as no
item has to go. Which items go is decided by a test with a memory, such as one that remembers the
items that have come before.

## Main definitions

* `MemoryTest`: a test with a memory.
* `MemoryTest.remove`: the array without the items that go.
* `withoutRepeats`: a list without the items that have come before.
-/

namespace Enclosure

/-- A test with a memory `σ`: whether an item has to go, and what is remembered from then on. -/
abbrev MemoryTest (σ α : Type) := σ → α → Bool × σ

namespace MemoryTest

variable {σ α : Type}

/-- The position of the first item that has to go, looked for from position `i` on, and what is
remembered then. -/
def find (test : MemoryTest σ α) (items : Array α) (memory : σ) (i : Nat) : Option Nat × σ :=
  if h : i < items.size then
    match test memory items[i] with
    | (true, memory) => (some i, memory)
    | (false, memory) => find test items memory (i + 1)
  else (none, memory)
termination_by items.size - i

/-- Tests the items from position `j` on. The next one that stays is moved to position `i`, which is
always in front of it. In the end, `i` is the number of items that stay. -/
def shift (test : MemoryTest σ α) (items : Array α) (memory : σ) (i j : Nat) (hij : i < j) :
    Array α × Nat × σ :=
  if h : j < items.size then
    match test memory items[j] with
    | (true, memory) => shift test items memory i (j + 1) (Nat.lt_succ_of_lt hij)
    | (false, memory) =>
      shift test (items.set i items[j] (Nat.lt_trans hij h)) memory (i + 1) (j + 1)
        (Nat.succ_lt_succ hij)
  else (items, i, memory)
termination_by items.size - j

/-- The array without the items that have to go, and what is remembered in the end. -/
def remove (test : MemoryTest σ α) (items : Array α) (memory : σ) : Array α × σ :=
  match test.find items memory 0 with
  | (none, memory) => (items, memory)
  | (some i, memory) =>
    let (moved, count, memory) := test.shift items memory i (i + 1) (Nat.lt_succ_self i)
    (moved.extract 0 count, memory)

end MemoryTest

variable {α : Type} [DecidableEq α]

/-- Whether an item has come before. From then on it has. -/
def ItemSet.recalls : MemoryTest (ItemSet α) α := fun seen a =>
  if seen.has a then (true, seen) else (false, seen.add a)

/-- A list without the items that have come before. -/
def withoutRepeats (l : List α) : List α :=
  (ItemSet.recalls.remove l.toArray ItemSet.empty).1.toList

end Enclosure
