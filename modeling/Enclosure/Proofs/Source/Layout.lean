import Enclosure.Proofs.Source.Origin
import Enclosure.Proofs.Text.WhiteSpace
import Enclosure.Source.DryRun
import Mathlib.Data.List.Forall2
import Mathlib.Order.Monotone.Basic

/-!
# Layout does not matter

Of the white space on a line only so much matters as tells how the line is indented compared with
other lines. The indentation of all lines can be changed together, as long as lines that are
indented deeper than others stay so, and white space can be put at the end of any line: the text
keeps its blocks and its faults, on the same lines.

What the blocks of a text and its dry run depend on is, for each line, what is left of it when it is
trimmed and, unless it is blank, its indentation. A line is **relaid** by a function on indentations
if the first stays the same and the second changes by that function. Every change of layout that is
considered here relays all lines of a text by one strictly increasing function.

## Main definitions

* `Text.relayout`: a text with other indentations and with more white space at the ends of lines.
* `Text.withReturns`, `Text.indentedBy`, `Text.expandTabs`: a text with carriage returns, with more
  indentation, and with spaces in place of tabs.
* `Text.SameOutline`: texts with the same blocks, the same enclosing blocks and the same dry run.
* `Relaid`: a line and the same line relaid.

## Main results

* `sameOutline_of_relaid`: **a text whose lines are relaid keeps its outline**.
* `layout_keeps_outline`: changes of layout keep the outline of a text.
-/

namespace Enclosure

namespace Text

/-- A text of `k` spaces. -/
def spaces (k : Nat) : Text :=
  List.replicate k 32

/-- The line with `f n` spaces in place of its `n` leading white-space characters. A blank line stays
as it is. -/
def reindent (f : Nat → Nat) (raw : Text) : Text :=
  if raw.isBlank then raw
  else spaces (f raw.indent) ++ ofRunes (raw.runes.dropWhile Rune.isBlank)

/-- The text with another line in place of each line, which may depend on its number. -/
def mapLines (g : Text → Nat → Text) (t : Text) : Text :=
  join [newline] ((t.lines.zipIdx 1).map fun (raw, n) => g raw n)

/-- The text with each line indented anew by `f`, and with `tail n` at the end of line `n`. -/
def relayout (f : Nat → Nat) (tail : Nat → Text) (t : Text) : Text :=
  t.mapLines fun raw n => raw.reindent f ++ tail n

/-- The text with a carriage return in front of each newline. -/
def withReturns (t : Text) : Text :=
  t.flatMap fun b => if b = newline then [13, newline] else [b]

/-- The text with `k` spaces in front of each line. -/
def indentedBy (k : Nat) (t : Text) : Text :=
  t.mapLines fun raw _ => spaces k ++ raw

/-- How many tabs a line starts with. -/
def leadingTabs (raw : Text) : Nat :=
  (raw.takeWhile (· == 9)).length

/-- The text with `m` spaces in place of each tab that a line starts with. -/
def expandTabs (m : Nat) (t : Text) : Text :=
  t.mapLines fun raw _ => spaces (m * raw.leadingTabs) ++ raw.drop raw.leadingTabs

/-- A text whose lines are indented by tabs only, unless they are blank. -/
def IsTabIndented (t : Text) : Prop :=
  ∀ raw ∈ t.lines, raw.isBlank = false → raw.indent = raw.leadingTabs

/-- Two texts with the **same outline**: they have the same blocks, the same enclosing block of
every range, and the same dry run. -/
def SameOutline (s t : Text) : Prop :=
  blocks s = blocks t ∧ dryRun s = dryRun t ∧ ∀ lo hi, enclosing? s lo hi = enclosing? t lo hi

end Text

/-- The line `raw'` is the line `raw` **relaid** by `f`: it is trimmed to the same text, and unless it
is blank it is indented by `f n` instead of `n` characters. -/
def Relaid (f : Nat → Nat) (raw raw' : Text) : Prop :=
  raw'.trim = raw.trim ∧ (raw.isBlank = false → raw'.indent = f raw.indent)

/-! ### Relaid lines -/

/-- A source line with its indentation changed by `f`. -/
def SourceLine.reindent (f : Nat → Nat) (l : SourceLine) : SourceLine :=
  { l with indent := f l.indent }

/-- The record of a relaid line. -/
theorem Relaid.ofRaw? {f : Nat → Nat} {raw raw' : Text} (h : Relaid f raw raw') (n : Nat) :
    SourceLine.ofRaw? raw' n = (SourceLine.ofRaw? raw n).map (SourceLine.reindent f) := by
  obtain ⟨htrim, hindent⟩ := h
  simp only [SourceLine.ofRaw?, htrim]
  split
  · rfl
  · rename_i hsolid
    rw [hindent (Bool.eq_false_iff.mpr hsolid)]
    rfl

/-- The fault of a relaid line. -/
theorem Relaid.lineFault? {f : Nat → Nat} {raw raw' : Text} (h : Relaid f raw raw') :
    lineFault? raw' = lineFault? raw := by
  simp only [Enclosure.lineFault?, h.1]

/-- What is found on relaid lines, if it is found on each of them. -/
theorem filterMap_zipIdx_of_relaid {α : Type} {f : Nat → Nat} (find : Text → Nat → Option α)
    (change : α → α) (hfind : ∀ raw raw' n, Relaid f raw raw' → find raw' n = (find raw n).map change)
    {ls ls' : List Text} (h : List.Forall₂ (Relaid f) ls ls') (start : Nat) :
    (ls'.zipIdx start).filterMap (fun (raw, n) => find raw n) =
      ((ls.zipIdx start).filterMap fun (raw, n) => find raw n).map change := by
  induction h generalizing start with
  | nil => rfl
  | cons hraw hrest ih =>
      simp only [List.zipIdx_cons, List.filterMap_cons, hfind _ _ start hraw]
      cases find _ start with
      | none => exact ih _
      | some a => exact congrArg (change a :: ·) (ih _)

/-- Blocks depend only on which lines are indented deeper than which. -/
theorem blocksOfLines_reindent {f : Nat → Nat} (hf : StrictMono f) (ls : List SourceLine) :
    blocksOfLines (ls.map (SourceLine.reindent f)) = blocksOfLines ls := by
  have hnumber (l : SourceLine) : (l.reindent f).number = id l.number := rfl
  have hblock (kind : BlockKind) (name : Text) (m n : Nat) :
      id (⟨kind, name, m, n⟩ : Block) = ⟨kind, name, (id m : Nat), (id n : Nat)⟩ := rfl
  rw [blocksOfLines_map hnumber (fun _ _ => hf.lt_iff_lt) (fun _ => rfl) hblock, List.map_id]

/-- **A text whose lines are relaid keeps its outline.** -/
theorem sameOutline_of_relaid {f : Nat → Nat} (hf : StrictMono f) {s t : Text}
    (h : List.Forall₂ (Relaid f) t.lines s.lines) : s.SameOutline t := by
  have hlines : sourceLines s = (sourceLines t).map (SourceLine.reindent f) :=
    filterMap_zipIdx_of_relaid _ _ (fun _ _ n hraw => hraw.ofRaw? n) h 1
  have hblocks : blocks s = blocks t := by
    rw [blocks, hlines, blocksOfLines_reindent hf, blocks]
  have hfaults := filterMap_zipIdx_of_relaid (fun raw n => (lineFault? raw).map (Fault.mk · n)) id
    (fun _ _ _ hraw => by rw [hraw.lineFault?, Option.map_id, id]) h 1
  have hfirst : firstFault? s = firstFault? t := by
    simp only [firstFault?, ← List.head?_filterMap, hfaults, List.map_id]
  refine ⟨hblocks, ?_, ?_⟩
  · rw [dryRun, hfirst, dryRun]
  · intro lo hi
    rw [enclosing?, hblocks, enclosing?]

/-- White space at the end of a relaid line does not matter. -/
theorem Relaid.append {f : Nat → Nat} {raw raw' tail : Text} (h : Relaid f raw raw')
    (htail : ∀ b ∈ tail, Text.isBlankByte b = true) : Relaid f raw (raw' ++ tail) := by
  obtain ⟨htrim, hindent⟩ := h
  refine ⟨(Text.trim_append_blank htail raw').trans htrim, fun hsolid => ?_⟩
  have hsolid' : raw'.isBlank = false := by
    rw [Text.isBlank, htrim]
    exact hsolid
  rw [Text.indent_append_blank htail hsolid', hindent hsolid]

/-! ### Changes of layout -/

namespace Text

/-- The lines of a text with other lines in place of its lines. -/
theorem lines_mapLines {g : Text → Nat → Text} {t : Text}
    (hg : ∀ raw ∈ t.lines, ∀ n, newline ∉ g raw n) :
    (t.mapLines g).lines = (t.lines.zipIdx 1).map fun (raw, n) => g raw n := by
  refine splitAt_join ?_ ?_
  · rw [ne_eq, List.map_eq_nil_iff, List.zipIdx_eq_nil_iff]
    exact splitAt_ne_nil newline t
  · intro p hp
    obtain ⟨⟨raw, n⟩, hmem, rfl⟩ := List.mem_map.mp hp
    exact hg raw (List.fst_mem_of_mem_zipIdx hmem) n

/-- A text keeps its outline if each of its lines is relaid in its place. -/
theorem sameOutline_mapLines {f : Nat → Nat} (hf : StrictMono f) {g : Text → Nat → Text} {t : Text}
    (hg : ∀ raw ∈ t.lines, ∀ n, newline ∉ g raw n)
    (hrelaid : ∀ raw ∈ t.lines, ∀ n, Relaid f raw (g raw n)) : (t.mapLines g).SameOutline t := by
  have hlines : (t.lines.zipIdx 1).map Prod.fst = t.lines := List.zipIdx_map_fst 1 t.lines
  have hpairs : List.Forall₂ (Relaid f) ((t.lines.zipIdx 1).map Prod.fst)
      ((t.lines.zipIdx 1).map fun (raw, n) => g raw n) := by
    rw [List.forall₂_map_left_iff, List.forall₂_map_right_iff, List.forall₂_same]
    rintro ⟨raw, n⟩ hmem
    exact hrelaid raw (List.fst_mem_of_mem_zipIdx hmem) n
  rw [hlines, ← lines_mapLines hg] at hpairs
  exact sameOutline_of_relaid hf hpairs

/-- Spaces are white space. -/
theorem isBlankByte_of_mem_spaces {k : Nat} : ∀ b ∈ spaces k, isBlankByte b = true := by
  intro b hb
  rw [List.eq_of_mem_replicate hb]
  rfl

/-- A text without newlines has none with spaces in front. -/
theorem newline_not_mem_spaces_append (k : Nat) {t : Text} (ht : newline ∉ t) :
    newline ∉ spaces k ++ t := by
  intro hmem
  rcases List.mem_append.mp hmem with hspace | hmem
  · exact absurd (List.eq_of_mem_replicate hspace) (by decide)
  · exact ht hmem

/-- A line that is indented anew is relaid. -/
theorem relaid_reindent (f : Nat → Nat) (raw : Text) : Relaid f raw (raw.reindent f) := by
  rw [reindent, ← trimStart_eq_ofRunes]
  split
  · rename_i hblank
    exact ⟨rfl, fun hsolid => by rw [hblank] at hsolid; cases hsolid⟩
  · refine ⟨?_, fun _ => ?_⟩
    · rw [trim_blank_append isBlankByte_of_mem_spaces, trim_trimStart]
    · rw [indent_blank_append isBlankByte_of_mem_spaces, indent_trimStart, spaces,
        List.length_replicate, Nat.add_zero]

/-- A line that is indented anew has no newline. -/
theorem newline_not_mem_reindent (f : Nat → Nat) {raw : Text} (hraw : newline ∉ raw) :
    newline ∉ raw.reindent f := by
  rw [reindent, ← trimStart_eq_ofRunes]
  split
  · exact hraw
  · exact newline_not_mem_spaces_append _ fun hmem =>
      hraw ((dropUnits_suffix blankWidth 0 raw).mem hmem)

/-- With more spaces in front a line is relaid. -/
theorem relaid_spaces_append (k : Nat) (raw : Text) : Relaid (k + ·) raw (spaces k ++ raw) := by
  refine ⟨trim_blank_append isBlankByte_of_mem_spaces raw, fun _ => ?_⟩
  rw [indent_blank_append isBlankByte_of_mem_spaces, spaces, List.length_replicate]

/-- With spaces in place of the tabs it is indented by a line is relaid. -/
theorem relaid_expandTabs (m : Nat) {raw : Text}
    (hraw : raw.isBlank = false → raw.indent = raw.leadingTabs) :
    Relaid (m * ·) raw (spaces (m * raw.leadingTabs) ++ raw.drop raw.leadingTabs) := by
  have htabs : ∀ b ∈ raw.take raw.leadingTabs, isBlankByte b = true := by
    intro b hb
    rw [leadingTabs, ← List.prefix_iff_eq_take.mp (List.takeWhile_prefix (· == 9))] at hb
    have htab : (b == 9) = true := List.mem_takeWhile_imp (p := (· == 9)) hb
    rw [beq_iff_eq.mp htab]
    rfl
  have hsplit : raw.take raw.leadingTabs ++ raw.drop raw.leadingTabs = raw :=
    List.take_append_drop _ _
  have hlength : (raw.take raw.leadingTabs).length = raw.leadingTabs :=
    List.length_take_of_le (List.takeWhile_prefix (· == 9)).length_le
  refine ⟨?_, fun hsolid => ?_⟩
  · rw [trim_blank_append isBlankByte_of_mem_spaces]
    conv_rhs => rw [← hsplit, trim_blank_append htabs]
  · have hrest := indent_blank_append htabs (raw.drop raw.leadingTabs)
    rw [hsplit, hlength, hraw hsolid] at hrest
    have hnone : indent (raw.drop raw.leadingTabs) = 0 := by omega
    rw [indent_blank_append isBlankByte_of_mem_spaces, hnone, spaces, List.length_replicate,
      hraw hsolid, Nat.add_zero]

/-- One more byte in front of the first line of two texts. -/
theorem forall₂_consFirst {ls ls' : List Text} (b : UInt8)
    (h : List.Forall₂ (fun raw raw' => raw' = raw ∨ raw' = raw ++ [13]) ls ls') :
    List.Forall₂ (fun raw raw' => raw' = raw ∨ raw' = raw ++ [13]) (consFirst b ls)
      (consFirst b ls') := by
  cases h with
  | nil => exact .cons (.inl rfl) .nil
  | cons hraw hrest =>
      rcases hraw with rfl | rfl
      · exact .cons (.inl rfl) hrest
      · exact .cons (.inr rfl) hrest

/-- With carriage returns in front of its newlines a text has the same lines, some of them with a
carriage return at the end. -/
theorem lines_withReturns (t : Text) :
    List.Forall₂ (fun raw raw' => raw' = raw ∨ raw' = raw ++ [13]) t.lines t.withReturns.lines := by
  have hlines (b : UInt8) (t : Text) : lines (b :: t) =
      if b = newline then [] :: lines t else consFirst b (lines t) := splitAt_cons newline b t
  induction t with
  | nil => exact .cons (.inl rfl) .nil
  | cons b t ih =>
      by_cases hb : b = newline
      · have hreturns : withReturns (b :: t) = 13 :: newline :: withReturns t := by
          rw [withReturns, List.flatMap_cons, if_pos hb]
          rfl
        rw [hreturns, hlines, hlines, hlines, if_pos hb, if_neg (by decide), if_pos rfl]
        exact .cons (.inr rfl) ih
      · have hreturns : withReturns (b :: t) = b :: withReturns t := by
          rw [withReturns, List.flatMap_cons, if_neg hb]
          rfl
        rw [hreturns, hlines, hlines, if_neg hb, if_neg hb]
        exact forall₂_consFirst b ih

/-- With carriage returns in front of the newlines all lines are relaid, none with another
indentation. -/
theorem relaid_withReturns (t : Text) : List.Forall₂ (Relaid id) t.lines t.withReturns.lines := by
  refine t.lines_withReturns.imp ?_
  rintro raw raw' (rfl | rfl)
  · exact ⟨rfl, fun _ => rfl⟩
  · refine Relaid.append ⟨rfl, fun _ => rfl⟩ ?_
    intro b hb
    rw [List.mem_singleton.mp hb]
    rfl

end Text

/-- **Changes of layout keep the outline of a text.** The indentation of all lines that are not blank
may be changed by a strictly increasing function, and white space may be put at the end of any line.
In particular lines may end in carriage returns, the whole text may be indented, and each tab that
lines are indented by may be replaced by the same number of spaces. -/
theorem layout_keeps_outline (t : Text) :
    (∀ (f : Nat → Nat) (tail : Nat → Text), StrictMono f →
      (∀ n, ∀ b ∈ tail n, b = 32 ∨ b = 9 ∨ b = 13) →
      (t.relayout f tail).lines =
        ((t.lines.zipIdx 1).map fun (raw, n) => raw.reindent f ++ tail n) ∧
      (t.relayout f tail).SameOutline t) ∧
    t.withReturns.SameOutline t ∧
    (∀ k, (t.indentedBy k).SameOutline t) ∧
    ∀ m, 1 ≤ m → t.IsTabIndented → (t.expandTabs m).SameOutline t := by
  have hline {raw : Text} (hraw : raw ∈ t.lines) : Text.newline ∉ raw :=
    Text.not_mem_of_mem_splitAt hraw
  refine ⟨?_, ?_, ?_, ?_⟩
  · intro f tail hf htail
    have hblank (n : Nat) : ∀ b ∈ tail n, Text.isBlankByte b = true := by
      intro b hb
      rcases htail n b hb with rfl | rfl | rfl <;> rfl
    have hnewline : ∀ raw ∈ t.lines, ∀ n, Text.newline ∉ raw.reindent f ++ tail n := by
      intro raw hraw n hmem
      rcases List.mem_append.mp hmem with hmem | hmem
      · exact Text.newline_not_mem_reindent f (hline hraw) hmem
      · exact absurd (htail n _ hmem) (by decide)
    refine ⟨Text.lines_mapLines hnewline, Text.sameOutline_mapLines hf hnewline ?_⟩
    intro raw _ n
    exact (raw.relaid_reindent f).append (hblank n)
  · exact sameOutline_of_relaid strictMono_id t.relaid_withReturns
  · intro k
    exact Text.sameOutline_mapLines (fun _ _ hlt => Nat.add_lt_add_left hlt k)
      (fun raw hraw _ => Text.newline_not_mem_spaces_append k (hline hraw))
      fun raw _ _ => raw.relaid_spaces_append k
  · intro m hm htabs
    refine Text.sameOutline_mapLines (fun _ _ hlt => Nat.mul_lt_mul_of_pos_left hlt hm) ?_ ?_
    · intro raw hraw _
      exact Text.newline_not_mem_spaces_append _ fun hmem => hline hraw (List.mem_of_mem_drop hmem)
    · intro raw hraw _
      exact Text.relaid_expandTabs m (htabs raw hraw)

/-- A class with a method, indented by tabs. -/
def tabbedOutline : Text :=
  "class A:\n\tdef f(x):\n\t\treturn (x\n"

/-- A class with two methods that are not indented alike keeps its blocks when it is indented more
than three times as deep, with a space, a tab and a carriage return at the end of each line; and a
class that is indented by tabs keeps its blocks and its fault when it is indented by spaces. -/
theorem layout_keeps_outline_unevenOutline :
    blocks (unevenOutline.relayout (fun n => 3 * n + 1) fun _ => [32, 9, 13]) =
      [⟨.classBody, "A", 1, 7⟩, ⟨.function, "f", 2, 4⟩, ⟨.function, "g", 6, 7⟩,
        ⟨.function, "h", 9, 9⟩] ∧
    enclosing? unevenOutline.withReturns 3 4 = some ⟨.classBody, "A", 1, 7⟩ ∧
    blocks (tabbedOutline.expandTabs 4) =
      [⟨.classBody, "A", 1, 3⟩, ⟨.function, "f", 2, 3⟩] ∧
    dryRun (tabbedOutline.expandTabs 4) =
      ⟨false, "Syntax error: Unbalanced brackets/parentheses at line 3"⟩ := by
  have hmono : StrictMono fun n : Nat => 3 * n + 1 := by
    intro m n hlt
    show 3 * m + 1 < 3 * n + 1
    omega
  have htabs : tabbedOutline.IsTabIndented := by
    unfold Text.IsTabIndented
    decide
  obtain ⟨hrelaid, ⟨-, -, hreturns⟩, -, -⟩ := layout_keeps_outline unevenOutline
  obtain ⟨-, -, -, hexpand⟩ := layout_keeps_outline tabbedOutline
  obtain ⟨-, hblocks, -⟩ := hrelaid _ (fun _ => [32, 9, 13]) hmono (by simp)
  obtain ⟨htabbed, hfault, -⟩ := hexpand 4 (by decide) htabs
  exact ⟨hblocks.trans (by decide), (hreturns 3 4).trans (by decide), htabbed.trans (by decide),
    hfault.trans (by decide)⟩

end Enclosure
