import Enclosure.Compaction
import Enclosure.Proofs.Distinct

/-!
# Each item is tested once, in order

A removal in place reads an array that it is writing to, and calls its test, which has a memory, in
two loops. What the two loops leave to be done is at any time given by two positions: the items in
front of the first one stay, and those from the second one on are still to be tested. The **outlook**
is what stays and what is remembered in the end, if these items are now tested one after the other.
No step of either loop changes the outlook, so that the removal does what a single pass over the
items does.

For the test that remembers the items that have come before, this gives the first occurrence of each
item.

## Main definitions

* `MemoryTest.pass`: a single pass over a list.
* `MemoryTest.outlook`: what is to be expected of a removal that is under way.

## Main results

* `MemoryTest.outlook_of_goes`, `MemoryTest.outlook_of_stays`: a step keeps the outlook.
* `MemoryTest.outlook_of_find`, `MemoryTest.outlook_of_shift`: what the two loops leave.
* `MemoryTest.remove_eq_pass`: **a removal does what a single pass does**.
* `MemoryTest.remove_logging`: the items that are tested, in order, are those of the array.
* `withoutRepeats_keeps_first_occurrences`: **what stays are the first occurrences**.
-/

namespace Enclosure

namespace MemoryTest

variable {σ α : Type} {test : MemoryTest σ α} {items : Array α} {memory next : σ} {i j : Nat}

/-- The items of a list that stay if they are tested one after the other, and what is remembered in
the end. -/
def pass (test : MemoryTest σ α) (memory : σ) : List α → List α × σ
  | [] => ([], memory)
  | a :: l =>
    match test memory a with
    | (true, memory) => test.pass memory l
    | (false, memory) => (a :: (test.pass memory l).1, (test.pass memory l).2)

/-- What stays and what is remembered in the end, if the items in front of position `i` stay and
those from position `j` on are still to be tested. -/
def outlook (test : MemoryTest σ α) (items : Array α) (memory : σ) (i j : Nat) : List α × σ :=
  let rest := test.pass memory (items.toList.drop j)
  (items.toList.take i ++ rest.1, rest.2)

/-! ### What a step preserves -/

/-- The items from a position in the array on. -/
theorem drop_toList (h : j < items.size) :
    items.toList.drop j = items[j] :: items.toList.drop (j + 1) := by
  rw [List.drop_eq_getElem_cons (by simpa using h), Array.getElem_toList]

/-- **A step over an item that goes** does not change the outlook. -/
theorem outlook_of_goes (h : j < items.size) (htest : test memory items[j] = (true, next)) :
    test.outlook items memory i j = test.outlook items next i (j + 1) := by
  simp only [outlook, drop_toList h, pass, htest]

/-- **A step that moves an item** to the front, where it stays, does not change the outlook: what it
is written over has been tested already. -/
theorem outlook_of_stays (hij : i ≤ j) (h : j < items.size)
    (htest : test memory items[j] = (false, next)) :
    test.outlook items memory i j =
      test.outlook (items.set i items[j] (Nat.lt_of_le_of_lt hij h)) next (i + 1) (j + 1) := by
  have hi : i < items.toList.length := Nat.lt_of_le_of_lt hij (by simpa using h)
  have hunread : (items.toList.set i items[j]).drop (j + 1) = items.toList.drop (j + 1) :=
    List.drop_set_of_lt (Nat.lt_succ_of_le hij)
  have hwritten : (items.toList.set i items[j]).take (i + 1) = items.toList.take i ++ [items[j]] := by
    rw [List.take_succ_eq_append_getElem (by simpa using hi), List.take_set_of_le (Nat.le_refl i),
      List.getElem_set_self]
  simp only [outlook, drop_toList h, pass, htest, Array.toList_set, hunread, hwritten,
    List.append_assoc, List.singleton_append]

/-- Once all items are tested, the outlook is what is there. -/
theorem outlook_of_le (h : items.size ≤ j) :
    test.outlook items memory i j = (items.toList.take i, memory) := by
  have hnone : items.toList.drop j = [] := List.drop_eq_nil_of_le (by simpa using h)
  simp [outlook, hnone, pass]

/-! ### What the two loops preserve -/

/-- **What the first loop leaves.** If it finds no item that has to go, all of them stay. Else those in
front of the one it has found stay, and it is not tested again. -/
theorem outlook_of_find (test : MemoryTest σ α) (items : Array α) (memory : σ) (i : Nat) :
    test.outlook items memory i i =
      match test.find items memory i with
      | (none, next) => (items.toList, next)
      | (some k, next) => test.outlook items next k (k + 1) := by
  induction memory, i using find.induct test items with
  | case1 memory i hi next htest =>
      rw [find, dif_pos hi, htest]
      exact outlook_of_goes hi htest
  | case2 memory i hi next htest ih =>
      -- An item that stays before anything is moved is one that is written over itself.
      rw [find, dif_pos hi, htest, outlook_of_stays (Nat.le_refl i) hi htest,
        Array.set_getElem_self, ih]
  | case3 memory i hi =>
      have hend : items.toList.length ≤ i := by simpa using hi
      rw [find, dif_neg hi, outlook_of_le (Nat.le_of_not_lt hi), List.take_of_length_le hend]

/-- **What the second loop leaves.** The items that were to be expected to stay are in front. -/
theorem outlook_of_shift (test : MemoryTest σ α) (items : Array α) (memory : σ) (i j : Nat)
    (hij : i < j) :
    test.outlook items memory i j =
      match test.shift items memory i j hij with
      | (moved, count, last) => (moved.toList.take count, last) := by
  induction items, memory, i, j, hij using shift.induct test with
  | case1 items memory i j hij hj next htest ih =>
      rw [shift, dif_pos hj, htest, outlook_of_goes hj htest, ih]
  | case2 items memory i j hij hj next htest ih =>
      rw [shift, dif_pos hj, htest, outlook_of_stays (Nat.le_of_lt hij) hj htest, ih]
  | case3 items memory i j hij hj =>
      rw [shift, dif_neg hj, outlook_of_le (Nat.le_of_not_lt hj)]

/-- **A removal does what a single pass over the items does.** -/
theorem remove_eq_pass (test : MemoryTest σ α) (items : Array α) (memory : σ) :
    test.remove items memory =
      ((test.pass memory items.toList).1.toArray, (test.pass memory items.toList).2) := by
  have hstart : test.pass memory items.toList = test.outlook items memory 0 0 := rfl
  rw [hstart, outlook_of_find, remove]
  rcases test.find items memory 0 with ⟨_ | k, next⟩
  case none => rfl
  case some =>
    have hfront (moved : Array α) (count : Nat) :
        moved.extract 0 count = (moved.toList.take count).toArray := by
      apply Array.toList_inj.mp
      simp
    simp only [outlook_of_shift test items next k (k + 1) (Nat.lt_succ_self k), hfront]

/-! ### Each item is tested once -/

/-- The same test, which in addition writes down the items that it is given. -/
def logging (test : MemoryTest σ α) : MemoryTest (σ × List α) α := fun (memory, log) a =>
  ((test memory a).1, (test memory a).2, log ++ [a])

/-- Writing down the items changes nothing else, and a single pass is given each item once. -/
theorem pass_logging (test : MemoryTest σ α) (memory : σ) (log l : List α) :
    test.logging.pass (memory, log) l =
      ((test.pass memory l).1, (test.pass memory l).2, log ++ l) := by
  induction l generalizing memory log with
  | nil => simp [pass]
  | cons a l ih =>
      rcases htest : test memory a with ⟨goes, next⟩
      have hlogging : test.logging (memory, log) a = (goes, next, log ++ [a]) := by
        simp [logging, htest]
      cases goes <;> simp [pass, htest, hlogging, ih]

/-- **The items that a removal tests, in order, are those of the array.** So each of them is tested
once, and none after it has been written over. -/
theorem remove_logging (test : MemoryTest σ α) (items : Array α) (memory : σ) :
    test.logging.remove items (memory, []) =
      ((test.remove items memory).1, (test.remove items memory).2, items.toList) := by
  rw [remove_eq_pass, remove_eq_pass, pass_logging, List.nil_append]

end MemoryTest

/-! ### First occurrences -/

variable {α : Type} [DecidableEq α]

/-- A single pass that remembers the items keeps the first occurrences. -/
theorem pass_recalls (seen : ItemSet α) (l : List α) :
    seen.reverse ++ (ItemSet.recalls.pass seen l).1 = distinctFrom seen l := by
  induction l generalizing seen with
  | nil => simp [MemoryTest.pass, distinctFrom]
  | cons a l ih =>
      rw [distinctFrom]
      split
      · rename_i ha
        have htest : ItemSet.recalls seen a = (true, seen) := by
          simp [ItemSet.recalls, ItemSet.has, ha]
        rw [MemoryTest.pass, htest, ih]
      · rename_i ha
        have htest : ItemSet.recalls seen a = (false, a :: seen) := by
          simp [ItemSet.recalls, ItemSet.has, ItemSet.add, ha]
        rw [MemoryTest.pass, htest, ← ih, List.reverse_cons, List.append_assoc,
          List.singleton_append]

/-- **What stays are the first occurrences.** -/
theorem withoutRepeats_eq_distinct (l : List α) : withoutRepeats l = distinct l := by
  rw [withoutRepeats, MemoryTest.remove_eq_pass]
  exact pass_recalls ItemSet.empty l

/-- **A list loses its repetitions, and nothing else.** Each item is tested once, in order. What
stays is taken from the list in its order, has no repetitions, and has the same items. It is what
stands at exactly those positions whose item is at no position in front of them. Where there are no
repetitions left, nothing changes. -/
theorem withoutRepeats_keeps_first_occurrences (l : List α) :
    (∃ seen, ItemSet.recalls.logging.remove l.toArray (ItemSet.empty, []) =
      ((withoutRepeats l).toArray, seen, l)) ∧
    (withoutRepeats l).Sublist l ∧ (withoutRepeats l).Nodup ∧
    (∀ a, a ∈ withoutRepeats l ↔ a ∈ l) ∧
    (∃ kept : List Nat, kept.Pairwise (· < ·) ∧
      (∀ i, i ∈ kept ↔ ∃ h : i < l.length, l[i] ∉ l.take i) ∧
      withoutRepeats l = kept.filterMap (l[·]?)) ∧
    withoutRepeats (withoutRepeats l) = withoutRepeats l := by
  constructor
  · exact ⟨_, MemoryTest.remove_logging ItemSet.recalls l.toArray ItemSet.empty⟩
  · simp only [withoutRepeats_eq_distinct]
    refine ⟨distinct_sublist l, nodup_distinct l, fun a => mem_distinct_iff,
      ⟨firstPositions l, ?_, fun i => mem_firstPositions_iff, distinct_eq_filterMap l⟩,
      distinct_of_nodup (nodup_distinct l)⟩
    exact List.pairwise_lt_range.filter _

end Enclosure
