import Enclosure.Proofs.Source.Nesting
import Enclosure.Proofs.Text.Pieces
import Enclosure.Proofs.Text.WhiteSpace
import Enclosure.Source.DryRun

/-!
# Blank lines do not matter

A line of white space may be put into a text anywhere: at either end, inside a block, right after a
header, or between a block and the line that ends it. All that is found in the text is then found
again, on lines that are numbered one higher from there on. Blocks around the new line become wider
and others do not, but since the widest block is the first one, the same block encloses a range.

## Main definitions

* `Text.insertLine`: a text with one more line.
* `shiftLine`, `Block.shift`, `Fault.shift`: the number of a line after that, and the blocks and
  faults with such numbers.

## Main results

* `numbered_insertLine`: the numbered lines of a text with one more line.
* `blocks_insertLine`, `enclosing?_insertLine`, `firstFault?_insertLine`: the blocks, the enclosing
  block of a range and the first fault after a blank line is inserted.
* `blank_line_only_shifts`: **a blank line only shifts line numbers**.
-/

namespace Enclosure

/-- The text with one more line after its first `k` lines, or at its end if it has fewer. -/
def Text.insertLine (t : Text) (k : Nat) (w : Text) : Text :=
  Text.join [Text.newline] (t.lines.take k ++ w :: t.lines.drop k)

/-- The number of a line after one more line is put behind the first `k` lines. -/
def shiftLine (k : Nat) (n : Int) : Int :=
  if k < n then n + 1 else n

/-- As `shiftLine`, for a line of a text. -/
def shiftNumber (k n : Nat) : Nat :=
  if k < n then n + 1 else n

/-- The source line with its number after one more line is put behind the first `k` lines. -/
def SourceLine.shift (k : Nat) (l : SourceLine) : SourceLine :=
  { l with number := shiftNumber k l.number }

/-- The block with the numbers of its lines after one more line is put behind the first `k`. -/
def Block.shift (k : Nat) (b : Block) : Block :=
  { b with first := shiftLine k b.first, last := shiftLine k b.last }

/-- The fault with the number of its line after one more line is put behind the first `k`. -/
def Fault.shift (k : Nat) (f : Fault) : Fault :=
  { f with line := shiftNumber k f.line }

/-! ### Line numbers -/

/-- Both ways to number a line agree. -/
@[simp] theorem shiftLine_natCast (k n : Nat) : shiftLine k n = shiftNumber k n := by
  simp only [shiftLine, shiftNumber]
  split <;> split <;> omega

/-- Lines keep their order. -/
theorem shiftLine_le_iff (k : Nat) (m n : Int) : shiftLine k m ≤ shiftLine k n ↔ m ≤ n := by
  simp only [shiftLine]
  split <;> split <;> omega

/-- A block contains the same ranges as before. -/
theorem Block.contains_shift (k : Nat) (b : Block) (lo hi : Int) :
    (b.shift k).contains (shiftLine k lo) (shiftLine k hi) = b.contains lo hi := by
  simp only [Block.contains, Block.shift, shiftLine_le_iff]

/-- The lines up to the new one keep their numbers. -/
theorem map_shiftNumber_zipIdx_of_le {k n : Nat} {ls : List Text} (h : n + ls.length ≤ k + 1) :
    (ls.zipIdx n).map (Prod.map id (shiftNumber k)) = ls.zipIdx n := by
  induction ls generalizing n with
  | nil => rfl
  | cons l ls ih =>
      rw [List.length_cons] at h
      have hn : shiftNumber k n = n := if_neg (by omega)
      rw [List.zipIdx_cons, List.map_cons, ih (by omega), Prod.map_apply, hn, id]

/-- The lines behind the new one get the next number each. -/
theorem map_shiftNumber_zipIdx_of_lt {k n : Nat} (h : k < n) (ls : List Text) :
    (ls.zipIdx n).map (Prod.map id (shiftNumber k)) = ls.zipIdx (n + 1) := by
  induction ls generalizing n with
  | nil => rfl
  | cons l ls ih =>
      have hn : shiftNumber k n = n + 1 := if_pos h
      rw [List.zipIdx_cons, List.zipIdx_cons, List.map_cons, ih (by omega), Prod.map_apply, hn, id]

/-- The lines of a text with one more line. -/
theorem lines_insertLine (k : Nat) {w : Text} (hw : Text.newline ∉ w) (t : Text) :
    (t.insertLine k w).lines = t.lines.take k ++ w :: t.lines.drop k := by
  refine Text.splitAt_join (List.append_ne_nil_of_right_ne_nil _ (List.cons_ne_nil w _)) ?_
  intro p hp
  rw [List.mem_append, List.mem_cons] at hp
  obtain hp | rfl | hp := hp
  · exact Text.not_mem_of_mem_splitAt (List.mem_of_mem_take hp)
  · exact hw
  · exact Text.not_mem_of_mem_splitAt (List.mem_of_mem_drop hp)

/-- **The numbered lines of a text with one more line** are the numbered lines of the text with
their new numbers, and the new line somewhere among them. -/
theorem numbered_insertLine (k : Nat) {w : Text} (hw : Text.newline ∉ w) (t : Text) :
    ∃ front number back, (t.insertLine k w).lines.zipIdx 1 = front ++ (w, number) :: back ∧
      (t.lines.zipIdx 1).map (Prod.map id (shiftNumber k)) = front ++ back := by
  refine ⟨(t.lines.take k).zipIdx 1, 1 + (t.lines.take k).length,
    (t.lines.drop k).zipIdx (1 + (t.lines.take k).length + 1), ?_, ?_⟩
  · rw [lines_insertLine k hw, List.zipIdx_append, List.zipIdx_cons]
  · conv_lhs => rw [← List.take_append_drop k t.lines, List.zipIdx_append, List.map_append]
    have hlength : (t.lines.take k).length ≤ k := List.length_take_le k t.lines
    rw [map_shiftNumber_zipIdx_of_le (by omega)]
    congr 1
    by_cases hk : k < t.lines.length
    · have htake : (t.lines.take k).length = k := List.length_take_of_le hk.le
      exact map_shiftNumber_zipIdx_of_lt (by omega) _
    · rw [List.drop_eq_nil_of_le (by omega)]
      rfl

/-- What is found on the numbered lines of a text is found again, with new numbers, if there is
nothing to find on the new line. -/
theorem filterMap_insertLine {α : Type} (k : Nat) {w : Text} (hw : Text.newline ∉ w) (t : Text)
    (find : Text → Nat → Option α) (shift : α → α) (hblank : ∀ n, find w n = none)
    (hshift : ∀ raw n, find raw (shiftNumber k n) = (find raw n).map shift) :
    ((t.insertLine k w).lines.zipIdx 1).filterMap (fun (raw, n) => find raw n) =
      ((t.lines.zipIdx 1).filterMap fun (raw, n) => find raw n).map shift := by
  obtain ⟨front, number, back, hinserted, hnumbered⟩ := numbered_insertLine k hw t
  calc ((t.insertLine k w).lines.zipIdx 1).filterMap (fun (raw, n) => find raw n)
    _ = (front ++ back).filterMap fun (raw, n) => find raw n := by
        rw [hinserted, List.filterMap_append, List.filterMap_append, List.filterMap_cons_none]
        exact hblank number
    _ = (t.lines.zipIdx 1).filterMap fun (raw, n) => (find raw n).map shift := by
        rw [← hnumbered, List.filterMap_map]
        exact congrArg (List.filterMap · _) (funext fun (raw, n) => hshift raw n)
    _ = ((t.lines.zipIdx 1).filterMap fun (raw, n) => find raw n).map shift := by
        rw [List.map_filterMap]

/-! ### Blocks -/

/-- Blocks do not depend on how the lines are numbered. -/
theorem blocksOfLines_shift (k : Nat) (ls : List SourceLine) :
    blocksOfLines (ls.map (SourceLine.shift k)) = (blocksOfLines ls).map (Block.shift k) := by
  have hnumber (l : SourceLine) : (l.shift k).number = shiftNumber k l.number := rfl
  refine blocksOfLines_map hnumber (fun _ _ => Iff.rfl) (fun _ => rfl) ?_ ls
  intro kind name m n
  simp only [Block.shift, shiftLine_natCast]

section Insert

variable (k : Nat) {w : Text} (hw : Text.newline ∉ w) (hblank : ∀ r ∈ w.runes, r.isBlank = true)
  (t : Text)

include hw hblank

/-- The lines that are not blank are the same, with their new numbers. -/
theorem sourceLines_insertLine :
    sourceLines (t.insertLine k w) = (sourceLines t).map (SourceLine.shift k) := by
  refine filterMap_insertLine k hw t _ _ ?_ ?_
  · intro n
    rw [SourceLine.ofRaw?, Text.trim_eq_nil_iff.mpr hblank]
    rfl
  · intro raw n
    simp only [SourceLine.ofRaw?]
    split <;> rfl

/-- The blocks are the same, with the new numbers of their lines. -/
theorem blocks_insertLine : blocks (t.insertLine k w) = (blocks t).map (Block.shift k) := by
  rw [blocks, sourceLines_insertLine k hw hblank, blocksOfLines_shift]
  rfl

/-- The block that encloses a range is the same. A search for the first block around the range does
not look at how wide blocks are, and so it does not matter which of them have become wider. -/
theorem enclosing?_insertLine {lo hi : Int} (hle : lo ≤ hi) :
    enclosing? (t.insertLine k w) (shiftLine k lo) (shiftLine k hi) =
      (enclosing? t lo hi).map (Block.shift k) := by
  have hle' : shiftLine k lo ≤ shiftLine k hi := (shiftLine_le_iff k lo hi).mpr hle
  have hcontains : (fun b : Block => b.contains (shiftLine k lo) (shiftLine k hi)) ∘ Block.shift k =
      fun b => b.contains lo hi := funext fun b => b.contains_shift k lo hi
  rw [enclosing?_eq_find? _ hle', enclosing?_eq_find? t hle, blocks_insertLine k hw hblank,
    List.find?_map, hcontains]

/-- The first fault is the same, with the new number of its line. -/
theorem firstFault?_insertLine :
    firstFault? (t.insertLine k w) = (firstFault? t).map (Fault.shift k) := by
  have hfaults := filterMap_insertLine k hw t
    (fun raw n => (lineFault? raw).map (⟨·, n⟩)) (Fault.shift k) ?_ ?_
  · simp only [firstFault?, ← List.head?_filterMap, hfaults, List.head?_map]
  · intro n
    have hclean : lineFault? w = none := by
      rw [lineFault?, Text.trim_eq_nil_iff.mpr hblank]
      rfl
    rw [hclean, Option.map_none]
  · intro raw n
    cases lineFault? raw <;> rfl

end Insert

/-- **A blank line only shifts line numbers.** With a line of white space put behind its first `k`
lines, a text has the same blocks, any range has the same enclosing block or still none, and the
dry run fails for the same reason or still not at all, on lines that are numbered one higher from
there on. -/
theorem blank_line_only_shifts (k : Nat) (w t : Text) (hw : Text.newline ∉ w)
    (hblank : ∀ r ∈ w.runes, r.isBlank = true) :
    (t.insertLine k w).lines = t.lines.take k ++ w :: t.lines.drop k ∧
    blocks (t.insertLine k w) = (blocks t).map (Block.shift k) ∧
    (∀ lo hi, lo ≤ hi → enclosing? (t.insertLine k w) (shiftLine k lo) (shiftLine k hi) =
      (enclosing? t lo hi).map (Block.shift k)) ∧
    (dryRun (t.insertLine k w)).valid = (dryRun t).valid ∧
    firstFault? (t.insertLine k w) = (firstFault? t).map (Fault.shift k) ∧
    ∀ f, firstFault? t = some f → (dryRun t).error = f.message ∧
      (dryRun (t.insertLine k w)).error = (f.shift k).message := by
  have hfault := firstFault?_insertLine k hw hblank t
  refine ⟨lines_insertLine k hw t, blocks_insertLine k hw hblank t,
    fun lo hi hle => enclosing?_insertLine k hw hblank t hle, ?_, hfault, ?_⟩
  · rw [dryRun, dryRun, hfault]
    cases firstFault? t <;> rfl
  · intro f hf
    rw [dryRun, dryRun, hfault, hf]
    exact ⟨rfl, rfl⟩

/-- An ideographic space and a tab as the only text on a line, inserted right after the header of a
method: the class and the method end one line later, and the function behind them moves down. -/
theorem blank_line_only_shifts_unevenOutline :
    blocks (unevenOutline.insertLine 2 [0xE3, 0x80, 0x80, 9]) =
      [⟨.classBody, "A", 1, 8⟩, ⟨.function, "f", 2, 5⟩, ⟨.function, "g", 7, 8⟩,
        ⟨.function, "h", 10, 10⟩] ∧
    enclosing? (unevenOutline.insertLine 2 [0xE3, 0x80, 0x80, 9]) 4 5 =
      some ⟨.classBody, "A", 1, 8⟩ := by
  obtain ⟨-, hblocks, henclosing, -⟩ := blank_line_only_shifts 2 [0xE3, 0x80, 0x80, 9]
    unevenOutline (by decide) (by decide)
  exact ⟨hblocks.trans (by decide), (henclosing 3 4 (by decide)).trans (by decide)⟩

end Enclosure
