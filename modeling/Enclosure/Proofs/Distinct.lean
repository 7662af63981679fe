import Enclosure.Distinct
import Mathlib.Data.List.Induction
import Mathlib.Data.List.Perm.Subperm

/-!
# First occurrences and lists with the same items

The first occurrences of the items of a list are its first item and then the first occurrences of
what comes after it, less that item. From this equation follow all other facts about them: no item
comes twice, none is lost, and they keep the order in which the items first occur.

Two lists **hold the same items** if they are equally long and the same items occur in both, which
is decided with a flag for each item: the items of the second list add none to those of the first
one, and leave none of them that is not found. How often an item occurs does not matter. Only where
one of the lists has no item twice, the other one cannot have any either, and then one is the other
in some order.

## Main definitions

* `OccursFirst`, `firstPositions`: the positions at which an item occurs for the first time.

## Main results

* `distinct_cons`: the equation for the first occurrences.
* `mem_distinct_iff`, `nodup_distinct`: which items they are.
* `pairwise_idxOf_distinct`: they come in the order in which the items first occur.
* `distinct_append`: the first occurrences of two lists together.
* `distinct_eq_filterMap`, `mem_firstPositions_iff`: the positions at which they stand.
* `ItemFlags.mem_putAll_iff`, `ItemFlags.map_fst_putAll`: the flags after all items of a list got
  another one.
* `sameItems_iff_same_set`: **when two lists hold the same items**.
-/

namespace Enclosure

variable {α : Type} [DecidableEq α]

/-! ### First occurrences -/

/-- What is kept from some point on: the first occurrences of the rest, less what is kept
already. -/
theorem distinctFrom_eq (kept l : List α) :
    distinctFrom kept l = kept.reverse ++ (distinct l).filter (· ∉ kept) := by
  induction l generalizing kept with
  | nil => simp [distinct, distinctFrom]
  | cons a l ih =>
      have hfirst : distinct (a :: l) = a :: (distinct l).filter (· ∉ [a]) := ih [a]
      rw [distinctFrom, hfirst]
      split
      · rename_i ha
        rw [ih, List.filter_cons_of_neg (by simpa using ha), List.filter_filter]
        congr 1
        refine List.filter_congr fun b _ => ?_
        have hless : b ∉ kept → b ≠ a := fun hb heq => hb (heq ▸ ha)
        simpa using hless
      · rename_i ha
        rw [ih, List.filter_cons_of_pos (by simpa using ha), List.filter_filter, List.reverse_cons,
          List.append_assoc, List.singleton_append]
        congr 2
        refine List.filter_congr fun b _ => ?_
        simp [Bool.and_comm]

/-- **The first occurrences of a list**: its first item and then those of the rest, less that
item. -/
theorem distinct_cons (a : α) (l : List α) :
    distinct (a :: l) = a :: (distinct l).filter (· ≠ a) := by
  have hfirst : distinct (a :: l) = a :: (distinct l).filter (· ∉ [a]) := distinctFrom_eq [a] l
  simpa using hfirst

/-- No item is lost, and none is new. -/
theorem mem_distinct_iff {a : α} {l : List α} : a ∈ distinct l ↔ a ∈ l := by
  induction l with
  | nil => simp [distinct, distinctFrom]
  | cons b l ih =>
      by_cases hab : a = b
      · simp [distinct_cons, hab]
      · simp [distinct_cons, hab, ih]

/-- No item comes twice. -/
theorem nodup_distinct (l : List α) : (distinct l).Nodup := by
  induction l with
  | nil => exact List.nodup_nil
  | cons a l ih =>
      rw [distinct_cons, List.nodup_cons]
      exact ⟨by simp, ih.filter _⟩

/-- **First occurrences come in the order in which the items first occur.** -/
theorem pairwise_idxOf_distinct [BEq α] [LawfulBEq α] (l : List α) :
    (distinct l).Pairwise fun a b => l.idxOf a < l.idxOf b := by
  induction l with
  | nil => exact List.Pairwise.nil
  | cons c l ih =>
      have hlater {a : α} (ha : a ∈ (distinct l).filter (· ≠ c)) :
          (c :: l).idxOf a = l.idxOf a + 1 := by
        have hne : a ≠ c := by simpa using (List.mem_filter.mp ha).2
        exact List.idxOf_cons_ne l hne.symm
      rw [distinct_cons, List.pairwise_cons]
      constructor
      · intro a ha
        rw [hlater ha, List.idxOf_cons_self]
        exact Nat.succ_pos _
      · refine (ih.filter _).imp_of_mem fun ha hb hlt => ?_
        rw [hlater ha, hlater hb]
        exact Nat.succ_lt_succ hlt

/-- The first occurrences are taken from the list, in its order. -/
theorem distinct_sublist (l : List α) : (distinct l).Sublist l := by
  induction l with
  | nil => exact List.Sublist.refl _
  | cons a l ih =>
      rw [distinct_cons]
      exact (List.filter_sublist.trans ih).cons_cons a

/-- A list without repetitions is the list of its first occurrences. -/
theorem distinct_of_nodup {l : List α} (h : l.Nodup) : distinct l = l := by
  induction l with
  | nil => rfl
  | cons a l ih =>
      obtain ⟨ha, hl⟩ := List.nodup_cons.mp h
      have hother : ∀ b ∈ l, decide (b ≠ a) = true := by
        intro b hb
        exact decide_eq_true fun hba => ha (hba ▸ hb)
      rw [distinct_cons, ih hl, List.filter_eq_self.mpr hother]

/-- **The first occurrences of two lists together**: those of the first one, and those of the second
one that do not occur in the first one. -/
theorem distinct_append (a b : List α) :
    distinct (a ++ b) = distinct a ++ (distinct b).filter (· ∉ a) := by
  induction a with
  | nil => simp [distinct, distinctFrom]
  | cons c a ih =>
      rw [List.cons_append, distinct_cons, distinct_cons, ih, List.filter_append,
        List.filter_filter, List.cons_append]
      congr 3
      funext x
      simp

/-! ### The positions of first occurrences -/

/-- The item at a position is not among those in front of it. -/
def OccursFirst (l : List α) (i : Nat) : Prop :=
  l[i]? ∉ (l.take i).map some

instance (l : List α) (i : Nat) : Decidable (OccursFirst l i) :=
  inferInstanceAs (Decidable (l[i]? ∉ (l.take i).map some))

/-- The positions of a list, in order, at which an item occurs for the first time. -/
def firstPositions (l : List α) : List Nat :=
  (List.range l.length).filter (OccursFirst l ·)

omit [DecidableEq α] in
/-- Whether an item occurs for the first time, for a position in the list. -/
theorem occursFirst_iff {l : List α} {i : Nat} (hi : i < l.length) :
    OccursFirst l i ↔ l[i] ∉ l.take i := by
  simp only [OccursFirst, List.getElem?_eq_getElem hi, List.mem_map, Option.some.injEq,
    exists_eq_right]

omit [DecidableEq α] in
/-- Whether an item occurs for the first time does not depend on what comes after it. -/
theorem occursFirst_append {l : List α} {i : Nat} (hi : i < l.length) (rest : List α) :
    OccursFirst (l ++ rest) i ↔ OccursFirst l i := by
  rw [OccursFirst, List.getElem?_append_left hi, List.take_append_of_le_length (Nat.le_of_lt hi),
    OccursFirst]

omit [DecidableEq α] in
/-- The last item of a list occurs there for the first time if it is not among the others. -/
theorem occursFirst_concat_iff (l : List α) (a : α) :
    OccursFirst (l ++ [a]) l.length ↔ a ∉ l := by
  simp [OccursFirst]

/-- With one more item at the end of a list, its position is added if it is not among the others. -/
theorem firstPositions_concat (l : List α) (a : α) :
    firstPositions (l ++ [a]) = firstPositions l ++ if a ∈ l then [] else [l.length] := by
  have hfront : (List.range l.length).filter (OccursFirst (l ++ [a]) ·) = firstPositions l := by
    refine List.filter_congr fun i hi => ?_
    rw [decide_eq_decide]
    exact occursFirst_append (List.mem_range.mp hi) [a]
  rw [firstPositions, List.length_append, List.length_singleton, List.range_succ,
    List.filter_append, hfront]
  by_cases ha : a ∈ l
  · simp [ha, occursFirst_concat_iff]
  · simp [ha, occursFirst_concat_iff]

/-- **The first occurrences are the items at the positions** at which an item occurs for the first
time. -/
theorem distinct_eq_filterMap (l : List α) : distinct l = (firstPositions l).filterMap (l[·]?) := by
  induction l using List.reverseRecOn with
  | nil => rfl
  | append_singleton l a ih =>
      have hfront : (firstPositions l).filterMap ((l ++ [a])[·]?) =
          (firstPositions l).filterMap (l[·]?) := by
        refine List.filterMap_congr fun i hi => ?_
        have hlt : i < l.length := List.mem_range.mp (List.mem_filter.mp hi).1
        exact List.getElem?_append_left hlt
      rw [distinct_append, firstPositions_concat, List.filterMap_append, hfront, ← ih]
      by_cases ha : a ∈ l
      · simp [ha, distinct, distinctFrom]
      · simp [ha, distinct, distinctFrom]

/-- A position is one of a first occurrence if its item is not among those in front of it. -/
theorem mem_firstPositions_iff {l : List α} {i : Nat} :
    i ∈ firstPositions l ↔ ∃ h : i < l.length, l[i] ∉ l.take i := by
  rw [firstPositions, List.mem_filter, List.mem_range, ← exists_prop]
  refine exists_congr fun hi => ?_
  rw [decide_eq_true_eq, occursFirst_iff hi]

/-! ### The same items -/

namespace ItemFlags

variable {flag f : Bool} {a x : α}

/-- The entries after an item got another flag. -/
theorem mem_putIn_iff {entries : List (α × Bool)} (hnodup : (entries.map Prod.fst).Nodup) :
    (x, f) ∈ putIn flag a entries ↔ if x = a then f = flag else (x, f) ∈ entries := by
  induction entries with
  | nil => by_cases hx : x = a <;> simp [putIn, hx]
  | cons entry entries ih =>
      obtain ⟨b, old⟩ := entry
      obtain ⟨hb, hentries⟩ := List.nodup_cons.mp hnodup
      by_cases hba : b = a
      · -- The flag of this item is the one that changes, and the item comes nowhere else.
        rw [putIn, if_pos hba]
        by_cases hx : x = a
        · have hother : (x, f) ∉ entries := fun hmem =>
            hb (List.mem_map.mpr ⟨(x, f), hmem, hx.trans hba.symm⟩)
          simp [hx, hba, hx ▸ hother]
        · have hxb : x ≠ b := hba ▸ hx
          simp [hx, hxb]
      · rw [putIn, if_neg hba, List.mem_cons, ih hentries]
        by_cases hx : x = a
        · have hxb : x ≠ b := hx ▸ Ne.symm hba
          simp [hx, hx ▸ hxb]
        · simp [hx]

/-- **The flags after an item got another one.** -/
theorem mem_put_iff (s : ItemFlags α) :
    (x, f) ∈ (s.put flag a).entries ↔ if x = a then f = flag else (x, f) ∈ s.entries :=
  mem_putIn_iff s.nodup

/-- **The flags after all items of a list got another one.** -/
theorem mem_putAll_iff (s : ItemFlags α) (l : List α) :
    (x, f) ∈ (s.putAll flag l).entries ↔ if x ∈ l then f = flag else (x, f) ∈ s.entries := by
  induction l generalizing s with
  | nil => simp [putAll]
  | cons a l ih =>
      have hfirst : s.putAll flag (a :: l) = (s.put flag a).putAll flag l := rfl
      rw [hfirst, ih, mem_put_iff]
      by_cases hl : x ∈ l
      · simp [hl]
      · simp [hl]

/-- The items after all items of a list got another flag: they are kept as first occurrences are. -/
theorem map_fst_putAll (flag : Bool) (s : ItemFlags α) (l : List α) :
    (s.putAll flag l).entries.map Prod.fst =
      distinctFrom (s.entries.map Prod.fst).reverse l := by
  induction l generalizing s with
  | nil => exact (List.reverse_reverse _).symm
  | cons a l ih =>
      have hfirst : s.putAll flag (a :: l) = (s.put flag a).putAll flag l := rfl
      have hitems : (s.put flag a).entries.map Prod.fst =
          if a ∈ s.entries.map Prod.fst then s.entries.map Prod.fst
          else s.entries.map Prod.fst ++ [a] := map_fst_putIn flag a s.entries
      rw [hfirst, ih, hitems, distinctFrom]
      simp only [List.mem_reverse]
      split
      · rfl
      · rw [List.reverse_append, List.reverse_singleton, List.singleton_append]

/-- No items are added exactly if all of a list are there. -/
theorem length_putAll_iff (s : ItemFlags α) (l : List α) :
    (s.putAll flag l).entries.length = s.entries.length ↔ ∀ x ∈ l, x ∈ s.entries.map Prod.fst := by
  have hlength := congrArg List.length (map_fst_putAll flag s l)
  rw [distinctFrom_eq, List.length_append, List.reverse_reverse, List.length_map,
    List.length_map] at hlength
  rw [hlength, Nat.add_eq_left, List.length_eq_zero_iff, List.filter_eq_nil_iff]
  simp only [mem_distinct_iff, decide_eq_true_eq, not_not, List.mem_reverse]

/-- The items of a list, all with one flag. -/
theorem mem_map_fst_putAll_empty (l : List α) :
    x ∈ (empty.putAll flag l).entries.map Prod.fst ↔ x ∈ l := by
  rw [map_fst_putAll]
  exact mem_distinct_iff

end ItemFlags

/-- No items are added exactly if all items of the second list occur in the first one. -/
theorem length_both_iff (a b : List α) :
    ((ItemFlags.empty.putAll false a).putAll true b).entries.length =
      (ItemFlags.empty.putAll false a).entries.length ↔ ∀ x ∈ b, x ∈ a := by
  simp only [ItemFlags.length_putAll_iff, ItemFlags.mem_map_fst_putAll_empty]

/-- The flags of both lists: an item is found if it occurs in the second one. -/
theorem mem_both_iff {a b : List α} {x : α} {f : Bool} :
    (x, f) ∈ ((ItemFlags.empty.putAll false a).putAll true b).entries ↔
      if x ∈ b then f = true else x ∈ a ∧ f = false := by
  rw [ItemFlags.mem_putAll_iff, ItemFlags.mem_putAll_iff]
  by_cases ha : x ∈ a
  · simp [ha]
  · simp [ha, ItemFlags.empty]

/-- All items are found exactly if all items of the first list occur in the second one. -/
theorem all_found_iff (a b : List α) :
    ((ItemFlags.empty.putAll false a).putAll true b).entries.all Prod.snd = true ↔
      ∀ x ∈ a, x ∈ b := by
  rw [List.all_eq_true]
  constructor
  · intro hall x ha
    by_contra hb
    exact Bool.false_ne_true (hall (x, false) (mem_both_iff.mpr (by simp [ha, hb])))
  · rintro hab ⟨x, f⟩ hmem
    have hflag := mem_both_iff.mp hmem
    by_cases hb : x ∈ b
    · simpa [hb] using hflag
    · rw [if_neg hb] at hflag
      exact absurd (hab x hflag.1) hb

/-- **Two lists hold the same items** if they are equally long and the same items occur in both. -/
theorem sameItems_iff {a b : List α} :
    sameItems a b = true ↔ a.length = b.length ∧ ∀ x, x ∈ a ↔ x ∈ b := by
  simp only [sameItems, ne_eq, ite_not, Bool.if_false_right, Bool.and_eq_true, decide_eq_true_eq,
    length_both_iff, all_found_iff]
  constructor
  · rintro ⟨hlength, hba, hab⟩
    exact ⟨hlength, fun x => ⟨hab x, hba x⟩⟩
  · rintro ⟨hlength, hiff⟩
    exact ⟨hlength, fun x => (hiff x).mpr, fun x => (hiff x).mp⟩

/-- A list without repetitions is any other one with the same items, in some order. -/
theorem perm_of_sameItems {a b : List α} (ha : a.Nodup) (h : sameItems a b = true) : a.Perm b := by
  obtain ⟨hlength, hiff⟩ := sameItems_iff.mp h
  have hsubperm : a.Subperm b := List.subperm_of_subset ha fun x hx => (hiff x).mp hx
  exact hsubperm.perm_of_length_le (Nat.le_of_eq hlength.symm)

/-- Lists that are the same in some order hold the same items. -/
theorem sameItems_of_perm {a b : List α} (h : a.Perm b) : sameItems a b = true :=
  sameItems_iff.mpr ⟨h.length_eq, fun _ => h.mem_iff⟩

/-- It does not matter which of two lists is the first one. -/
theorem sameItems_symm {a b : List α} (h : sameItems a b = true) : sameItems b a = true := by
  obtain ⟨hlength, hiff⟩ := sameItems_iff.mp h
  exact sameItems_iff.mpr ⟨hlength.symm, fun x => (hiff x).symm⟩

/-- Holding the same items is an equivalence of lists. -/
theorem sameItems_equivalence : Equivalence fun a b : List α => sameItems a b = true where
  refl a := sameItems_of_perm (List.Perm.refl a)
  symm h := sameItems_symm h
  trans h h' := by
    obtain ⟨hlength, hiff⟩ := sameItems_iff.mp h
    obtain ⟨hlength', hiff'⟩ := sameItems_iff.mp h'
    exact sameItems_iff.mpr ⟨hlength.trans hlength', fun x => (hiff x).trans (hiff' x)⟩

/-- **When two lists hold the same items**: if and only if they are equally long and the same items
occur in both. So this is an equivalence of lists. If one of the lists has no item twice, it is the
case if and only if each is the other one in some order. -/
theorem sameItems_iff_same_set :
    (∀ a b : List α, sameItems a b = true ↔ a.length = b.length ∧ ∀ x, x ∈ a ↔ x ∈ b) ∧
    (Equivalence fun a b : List α => sameItems a b = true) ∧
    ∀ a b : List α, a.Nodup ∨ b.Nodup → (sameItems a b = true ↔ a.Perm b) := by
  refine ⟨fun a b => sameItems_iff, sameItems_equivalence, ?_⟩
  intro a b hnodup
  refine ⟨fun h => ?_, sameItems_of_perm⟩
  obtain ha | hb := hnodup
  · exact perm_of_sameItems ha h
  · exact (perm_of_sameItems hb (sameItems_symm h)).symm

/-- Three items in another order are the same items. With repetitions in both lists, the same items
need not be a rearrangement. -/
theorem sameItems_iff_same_set_repetitions :
    sameItems [1, 2, 3] [3, 1, 2] = true ∧ [1, 2, 3].Perm [3, 1, 2] ∧
    sameItems [1, 1, 2] [2, 2, 1] = true ∧ ¬ [1, 1, 2].Perm [2, 2, 1] := by
  obtain ⟨hsame, -, hperm⟩ := sameItems_iff_same_set (α := Nat)
  have hsorted : sameItems [1, 2, 3] [3, 1, 2] = true := by decide
  refine ⟨hsorted, (hperm [1, 2, 3] [3, 1, 2] (.inl (by decide))).mp hsorted,
    (hsame [1, 1, 2] [2, 2, 1]).mpr ⟨rfl, by grind⟩, by decide⟩

end Enclosure
