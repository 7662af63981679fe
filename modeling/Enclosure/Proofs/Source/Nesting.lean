import Enclosure.Source.Block
import Mathlib.Data.Int.Order.Basic
import Mathlib.Data.Nat.Basic
import Mathlib.Order.Basic

/-!
# Blocks are nested

Indentation need not be consistent: a line may return to a level that was never opened, blank
lines stand anywhere, and a header may be followed by nothing. All the same the blocks of a text
are nested like parentheses. A block ends with the last line before the first one that is indented
no deeper than its header, so a block that opens inside another one stops where the other stops,
at the latest.

From this follows what an enclosing block is. Among the blocks around a range of lines the one that
opens first is the widest, so that the search for the widest block is the search for the first one;
and the block found is the same for all ranges within it.

## Main results

* `lastLine_cons`: the last line of a block as a recursion over the lines.
* `blocksOfLines_map`: the blocks of lines that are renumbered or indented anew.
* `blocks_pairwise_before`: of two blocks, the later one lies behind the earlier one or ends
  within it.
* `widest?_eq_find?`: **the widest block is the first one**, for any blocks so arranged.
* `laminar_and_first_enclosing`: the blocks of a text are a **laminar family**, and the enclosing
  block of a range is the first one that contains it, strictly wider than all others that do.
* `enclosing_outermost_and_stable`: an enclosing block lies in no other, and is the enclosing
  block of every range within it; two enclosing blocks are equal or have no line in common.
-/

namespace Enclosure

/-! ### The last line of a block -/

/-- Lines in the order of their numbers. -/
def Ascending (ls : List SourceLine) : Prop :=
  ls.Pairwise fun a b => a.number < b.number

/-- The lines of a text that are not blank come in the order of their numbers. -/
theorem sourceLines_ascending (t : Text) : Ascending (sourceLines t) := by
  rw [Ascending, sourceLines, List.pairwise_filterMap, List.pairwise_iff_getElem]
  intro i j hi hj hij a ha b hb
  simp only [List.getElem_zipIdx, SourceLine.ofRaw?, Option.ite_none_left_eq_some,
    Option.some.injEq] at ha hb
  obtain ⟨-, rfl⟩ := ha
  obtain ⟨-, rfl⟩ := hb
  exact Nat.add_lt_add_left hij 1

/-- A header without lines after it is its own last line. -/
@[simp] theorem lastLine_nil (h : SourceLine) : lastLine h [] = h.number := rfl

/-- The last line of a block, line by line: a line that is indented deeper than the header takes the
header's place, with the header's indentation, and any other line ends the block. -/
theorem lastLine_cons (h l : SourceLine) (rest : List SourceLine) :
    lastLine h (l :: rest) =
      if h.indent < l.indent then lastLine { h with number := l.number } rest else h.number := by
  by_cases hl : h.indent < l.indent
  · rw [if_pos hl]
    simp only [lastLine, List.takeWhile_cons, hl, decide_true, if_true, List.getLast?_cons]
    cases (rest.takeWhile fun l => decide (h.indent < l.indent)).getLast? <;> rfl
  · rw [if_neg hl]
    simp only [lastLine, List.takeWhile_cons, hl, decide_false, Bool.false_eq_true, if_false,
      List.getLast?_nil]

/-- The line that takes the header's place still stands before the lines that follow. -/
theorem Ascending.renumber {h l : SourceLine} {rest : List SourceLine}
    (hs : Ascending (h :: l :: rest)) : Ascending ({ h with number := l.number } :: rest) := by
  obtain ⟨-, hl, hrest⟩ := List.pairwise_cons.mp hs |>.imp_right List.pairwise_cons.mp
  exact List.pairwise_cons.mpr ⟨hl, hrest⟩

/-- A block does not end before its header. -/
theorem number_le_lastLine {h : SourceLine} {rest : List SourceLine} (hs : Ascending (h :: rest)) :
    h.number ≤ lastLine h rest := by
  induction rest generalizing h with
  | nil => exact le_rfl
  | cons l rest ih =>
      rw [lastLine_cons]
      split
      · have hlt : h.number < l.number := (List.pairwise_cons.mp hs).1 l List.mem_cons_self
        exact hlt.le.trans (ih hs.renumber)
      · exact le_rfl

/-- Of two headers on the same line the one that is indented deeper does not reach further. -/
theorem lastLine_anti {a b : SourceLine} {rest : List SourceLine} (hs : Ascending (a :: rest))
    (hnumber : a.number = b.number) (hindent : a.indent ≤ b.indent) :
    lastLine b rest ≤ lastLine a rest := by
  induction rest generalizing a b with
  | nil => exact hnumber.ge
  | cons l rest ih =>
      by_cases hb : b.indent < l.indent
      · rw [lastLine_cons a, lastLine_cons b, if_pos hb, if_pos (hindent.trans_lt hb)]
        exact ih hs.renumber rfl hindent
      · rw [lastLine_cons b, if_neg hb, ← hnumber]
        exact number_le_lastLine hs

/-! ### Renumbered and reindented lines -/

section Map

variable {change : SourceLine → SourceLine} {renumber : Nat → Nat}
  (hnumber : ∀ l, (change l).number = renumber l.number)
  (hindent : ∀ h l, (change h).indent < (change l).indent ↔ h.indent < l.indent)

include hnumber hindent

/-- The last line of a block does not depend on how lines are numbered, and of their indentation
only on which lines are indented deeper than which. -/
theorem lastLine_map (h : SourceLine) (rest : List SourceLine) :
    lastLine (change h) (rest.map change) = renumber (lastLine h rest) := by
  have hdeeper : (fun l : SourceLine => decide ((change h).indent < l.indent)) ∘ change =
      fun l => decide (h.indent < l.indent) :=
    funext fun l => decide_eq_decide.mpr (hindent h l)
  rw [lastLine, lastLine, List.takeWhile_map, List.getLast?_map, hdeeper]
  cases (rest.takeWhile fun l => decide (h.indent < l.indent)).getLast? with
  | none => exact hnumber h
  | some l => exact hnumber l

/-- Nor do the blocks themselves. -/
theorem blocksOfLines_map {changeBlock : Block → Block}
    (hcontent : ∀ l, (change l).content = l.content)
    (hblock : ∀ kind name (m n : Nat), changeBlock ⟨kind, name, m, n⟩ =
      ⟨kind, name, (renumber m : Nat), (renumber n : Nat)⟩) (ls : List SourceLine) :
    blocksOfLines (ls.map change) = (blocksOfLines ls).map changeBlock := by
  induction ls with
  | nil => rfl
  | cons l rest ih =>
      rw [List.map_cons, blocksOfLines, blocksOfLines, hcontent, ih]
      cases Header.parse? l.content with
      | none => rfl
      | some header =>
          simp only [List.map_cons, hblock, hnumber, lastLine_map hnumber hindent]

end Map

/-! ### The arrangement of blocks -/

/-- A block is opened by one of the lines, and does not end before it. -/
theorem exists_line_of_mem_blocksOfLines {ls : List SourceLine} (hs : Ascending ls) {b : Block}
    (hb : b ∈ blocksOfLines ls) : (∃ l ∈ ls, b.first = l.number) ∧ b.first ≤ b.last := by
  induction ls with
  | nil => simp [blocksOfLines] at hb
  | cons l rest ih =>
      have hrest : b ∈ blocksOfLines rest →
          (∃ m ∈ l :: rest, b.first = m.number) ∧ b.first ≤ b.last := by
        intro hb
        obtain ⟨⟨m, hm, hfirst⟩, hle⟩ := ih hs.of_cons hb
        exact ⟨⟨m, List.mem_cons_of_mem l hm, hfirst⟩, hle⟩
      rw [blocksOfLines] at hb
      cases hparse : Header.parse? l.content with
      | none => rw [hparse] at hb; exact hrest hb
      | some header =>
          rw [hparse] at hb
          obtain rfl | hb := List.mem_cons.mp hb
          · exact ⟨⟨l, List.mem_cons_self, rfl⟩, Int.ofNat_le.mpr (number_le_lastLine hs)⟩
          · exact hrest hb

/-- **Blocks do not cross.** A block that opens on the lines after a header lies behind the block of
that header or ends within it. -/
theorem lastLine_lt_first_or_last_le {h : SourceLine} {rest : List SourceLine}
    (hs : Ascending (h :: rest)) {b : Block} (hb : b ∈ blocksOfLines rest) :
    (lastLine h rest : Int) < b.first ∨ b.last ≤ lastLine h rest := by
  induction rest generalizing h with
  | nil => simp [blocksOfLines] at hb
  | cons l rest ih =>
      by_cases hl : h.indent < l.indent
      · rw [lastLine_cons, if_pos hl]
        rw [blocksOfLines] at hb
        cases hparse : Header.parse? l.content with
        | none => rw [hparse] at hb; exact ih hs.renumber hb
        | some header =>
            rw [hparse] at hb
            obtain rfl | hb := List.mem_cons.mp hb
            · exact .inr (Int.ofNat_le.mpr (lastLine_anti hs.renumber rfl hl.le))
            · exact ih hs.renumber hb
      · rw [lastLine_cons, if_neg hl]
        obtain ⟨⟨m, hm, hfirst⟩, -⟩ := exists_line_of_mem_blocksOfLines hs.of_cons hb
        rw [hfirst]
        exact .inl (Int.ofNat_lt.mpr ((List.pairwise_cons.mp hs).1 m hm))

namespace Block

/-- The arrangement of two blocks: `a` opens before `b`, and `b` lies behind `a` or ends within
it. -/
def Before (a b : Block) : Prop :=
  a.first < b.first ∧ (a.last < b.first ∨ b.last ≤ a.last)

/-- The lines that a block spans. -/
def Spans (b : Block) (n : Int) : Prop :=
  b.first ≤ n ∧ n ≤ b.last

/-- Two blocks that have no line in common. -/
def Apart (a b : Block) : Prop :=
  ∀ n, a.Spans n → ¬ b.Spans n

/-- A block lies **strictly within** another one if all its lines are lines of the other one,
which has more. -/
def StrictlyWithin (a b : Block) : Prop :=
  (∀ n, a.Spans n → b.Spans n) ∧ ∃ n, b.Spans n ∧ ¬ a.Spans n

/-- What it means for a block to contain a range. -/
theorem contains_iff {b : Block} {lo hi : Int} : b.contains lo hi ↔ b.first ≤ lo ∧ hi ≤ b.last := by
  simp [contains]

end Block

/-- The blocks that open on lines in order are arranged in the order in which they open. -/
theorem blocksOfLines_pairwise_before {ls : List SourceLine} (hs : Ascending ls) :
    (blocksOfLines ls).Pairwise Block.Before := by
  induction ls with
  | nil => exact List.Pairwise.nil
  | cons l rest ih =>
      rw [blocksOfLines]
      cases Header.parse? l.content with
      | none => exact ih hs.of_cons
      | some header =>
          refine List.pairwise_cons.mpr ⟨fun b hb => ⟨?_, ?_⟩, ih hs.of_cons⟩
          · obtain ⟨⟨m, hm, hfirst⟩, -⟩ := exists_line_of_mem_blocksOfLines hs.of_cons hb
            rw [hfirst]
            exact Int.ofNat_lt.mpr ((List.pairwise_cons.mp hs).1 m hm)
          · exact lastLine_lt_first_or_last_le hs hb

/-- Of two blocks of a text, the later one lies behind the earlier one or ends within it. -/
theorem blocks_pairwise_before (t : Text) : (blocks t).Pairwise Block.Before :=
  blocksOfLines_pairwise_before (sourceLines_ascending t)

/-- No block of a text ends before it opens. -/
theorem first_le_last_of_mem_blocks {t : Text} {b : Block} (hb : b ∈ blocks t) :
    b.first ≤ b.last :=
  (exists_line_of_mem_blocksOfLines (sourceLines_ascending t) hb).2

/-! ### The widest block is the first one -/

/-- Of two blocks around the same lines the later one is narrower. -/
theorem Block.Before.span_lt {a b : Block} (h : a.Before b) {lo hi : Int} (hle : lo ≤ hi)
    (ha : a.contains lo hi) (hb : b.contains lo hi) : b.span < a.span := by
  obtain ⟨hfirst, hlast⟩ := h
  rw [Block.contains_iff] at ha hb
  simp only [Block.span]
  omega

/-- A block is not displaced by blocks that are narrower. -/
theorem foldl_widerOf_some {a : Block} {bs : List Block} (h : ∀ b ∈ bs, b.span < a.span) :
    bs.foldl widerOf (some a) = some a := by
  induction bs with
  | nil => rfl
  | cons b bs ih =>
      have hb : ¬ a.span < b.span := (h b List.mem_cons_self).not_gt
      rw [List.foldl_cons, widerOf, if_neg hb]
      exact ih fun c hc => h c (List.mem_cons_of_mem b hc)

/-- **The widest block is the first one.** Among blocks in their arrangement, the widest one
around a range of lines is the first one around it. -/
theorem widest?_eq_find? {bs : List Block} (hbs : bs.Pairwise Block.Before) {lo hi : Int}
    (hle : lo ≤ hi) : widest? bs lo hi = bs.find? (·.contains lo hi) := by
  have hnarrower : (bs.filter (·.contains lo hi)).Pairwise fun a b => b.span < a.span := by
    rw [List.pairwise_filter]
    exact hbs.imp fun h ha hb => h.span_lt hle ha hb
  rw [widest?, ← List.head?_filter]
  cases hf : bs.filter (·.contains lo hi) with
  | nil => rfl
  | cons a rest =>
      rw [hf] at hnarrower
      exact foldl_widerOf_some (List.pairwise_cons.mp hnarrower).1

/-- The enclosing block of a range is the first block of the text around it. -/
theorem enclosing?_eq_find? (t : Text) {lo hi : Int} (hle : lo ≤ hi) :
    enclosing? t lo hi = (blocks t).find? (·.contains lo hi) :=
  widest?_eq_find? (blocks_pairwise_before t) hle

/-- The enclosing block of a range divides the blocks of the text: it comes after blocks that do not
contain the range, and before blocks in its arrangement. -/
theorem enclosing?_eq_some_iff {t : Text} {lo hi : Int} (hle : lo ≤ hi) {c : Block} :
    enclosing? t lo hi = some c ↔ c.contains lo hi ∧ ∃ earlier later,
      blocks t = earlier ++ c :: later ∧ ∀ b ∈ earlier, ¬ b.contains lo hi := by
  rw [enclosing?_eq_find? t hle, List.find?_eq_some_iff_append]
  simp

/-- Every other block around a range is narrower than its enclosing block. -/
theorem span_lt_of_enclosing? {t : Text} {lo hi : Int} (hle : lo ≤ hi) {b c : Block}
    (hc : enclosing? t lo hi = some c) (hb : b ∈ blocks t) (hcontains : b.contains lo hi)
    (hne : b ≠ c) : b.span < c.span := by
  obtain ⟨hcc, earlier, later, hsplit, hearlier⟩ := (enclosing?_eq_some_iff hle).mp hc
  have hpairs := blocks_pairwise_before t
  rw [hsplit, List.pairwise_append] at hpairs
  obtain ⟨-, hlater, -⟩ := hpairs
  rw [hsplit, List.mem_append, List.mem_cons] at hb
  obtain hb | rfl | hb := hb
  · exact absurd hcontains (hearlier b hb)
  · exact absurd rfl hne
  · exact ((List.pairwise_cons.mp hlater).1 b hb).span_lt hle hcc hcontains

/-! ### Laminar families -/

/-- A **laminar family** of blocks: no two open on the same line, and any two have no line in common
or one lies strictly within the other. -/
def Laminar (bs : List Block) : Prop :=
  bs.Pairwise fun a b => a.first ≠ b.first ∧
    (a.Apart b ∨ a.StrictlyWithin b ∨ b.StrictlyWithin a)

/-- Blocks in their arrangement have no line in common, or the later one lies strictly within the
earlier one. -/
theorem Block.Before.apart_or_strictlyWithin {a b : Block} (h : a.Before b)
    (hb : b.first ≤ b.last) : a.Apart b ∨ b.StrictlyWithin a := by
  obtain ⟨hfirst, hbehind | hwithin⟩ := h
  · left
    rintro n ⟨-, hna⟩ ⟨hnb, -⟩
    omega
  · right
    constructor
    · rintro n ⟨hn, hn'⟩
      exact ⟨hfirst.le.trans hn, hn'.trans hwithin⟩
    · refine ⟨a.first, ⟨le_rfl, by omega⟩, ?_⟩
      rintro ⟨hn, -⟩
      omega

/-- The blocks of a text form a laminar family. -/
theorem laminar_blocks (t : Text) : Laminar (blocks t) := by
  refine (blocks_pairwise_before t).imp_of_mem ?_
  intro a b _ hb hab
  refine ⟨hab.1.ne, ?_⟩
  rcases hab.apart_or_strictlyWithin (first_le_last_of_mem_blocks hb) with hapart | hwithin
  · exact .inl hapart
  · exact .inr (.inr hwithin)

/-- **The first block decides.** The blocks of a text form a laminar family. The enclosing block
of a range is therefore the first one that contains it, if there is one, and it is strictly wider
than any other block that does, so that it never matters which of two equally wide blocks is
preferred. -/
theorem laminar_and_first_enclosing (t : Text) :
    Laminar (blocks t) ∧ ∀ lo hi : Int, lo ≤ hi →
      enclosing? t lo hi = (blocks t).find? (·.contains lo hi) ∧
      ∀ c, enclosing? t lo hi = some c →
        ∀ b ∈ blocks t, b.contains lo hi → b ≠ c → b.span < c.span := by
  refine ⟨laminar_blocks t, fun lo hi hle => ⟨enclosing?_eq_find? t hle, ?_⟩⟩
  intro c hc b hb hcontains hne
  exact span_lt_of_enclosing? hle hc hb hcontains hne

/-- A class with two methods that are not indented alike, and a function without lines after it. -/
def unevenOutline : Text :=
  "class A:\n  def f(x):\n      x\n    y\n\n def g():\n  z\nw\ndef h():\n"

/-- The two lines of the first method lie in the method and in the class, and the class is wider. -/
theorem laminar_and_first_enclosing_unevenOutline :
    (3 : Int) ≤ 4 ∧
    enclosing? unevenOutline 3 4 = (blocks unevenOutline).find? (·.contains 3 4) ∧
    (⟨.function, "f", 2, 4⟩ : Block).span < (⟨.classBody, "A", 1, 7⟩ : Block).span := by
  obtain ⟨hfirst, hwider⟩ := (laminar_and_first_enclosing unevenOutline).2 3 4 (by decide)
  exact ⟨by decide, hfirst, hwider ⟨.classBody, "A", 1, 7⟩ (by decide) ⟨.function, "f", 2, 4⟩
    (by decide) (by decide) (by decide)⟩

/-! ### Enclosing blocks are outermost -/

/-- The enclosing block of a range is also that of every range within the block: a block around the
second range that came earlier would reach around the first range as well. -/
theorem enclosing?_eq_of_contains {t : Text} {lo hi lo' hi' : Int} (hle : lo ≤ hi)
    (hle' : lo' ≤ hi') {c : Block} (hc : enclosing? t lo hi = some c)
    (hwithin : c.contains lo' hi') : enclosing? t lo' hi' = some c := by
  obtain ⟨hcc, earlier, later, hsplit, hearlier⟩ := (enclosing?_eq_some_iff hle).mp hc
  refine (enclosing?_eq_some_iff hle').mpr ⟨hwithin, earlier, later, hsplit, ?_⟩
  intro b hb hb'
  have hpairs := blocks_pairwise_before t
  rw [hsplit, List.pairwise_append] at hpairs
  obtain ⟨-, -, hacross⟩ := hpairs
  obtain ⟨hfirst, hlast⟩ := hacross b hb c List.mem_cons_self
  have hbc : b.contains lo hi := by
    rw [Block.contains_iff] at hb' hwithin hcc ⊢
    omega
  exact hearlier b hb hbc

/-- An enclosing block lies strictly within no block of the text. -/
theorem not_strictlyWithin_of_enclosing? {t : Text} {lo hi : Int} (hle : lo ≤ hi) {b c : Block}
    (hc : enclosing? t lo hi = some c) (hb : b ∈ blocks t) : ¬ c.StrictlyWithin b := by
  rintro ⟨hwithin, n, hn, hnot⟩
  obtain ⟨hcc, -⟩ := (enclosing?_eq_some_iff hle).mp hc
  rw [Block.contains_iff] at hcc
  have hfirst : b.first ≤ c.first := (hwithin c.first ⟨le_rfl, by omega⟩).1
  have hlast : c.last ≤ b.last := (hwithin c.last ⟨by omega, le_rfl⟩).2
  have hne : b ≠ c := by
    rintro rfl
    exact hnot hn
  have hspan := span_lt_of_enclosing? hle hc hb (Block.contains_iff.mpr (by omega)) hne
  simp only [Block.span] at hspan
  omega

/-- Two blocks that enclose ranges and have a line in common are the same, since both enclose that
line. -/
theorem eq_or_apart_of_enclosing? {t : Text} {lo hi lo' hi' : Int} (hle : lo ≤ hi)
    (hle' : lo' ≤ hi') {c c' : Block} (hc : enclosing? t lo hi = some c)
    (hc' : enclosing? t lo' hi' = some c') : c = c' ∨ c.Apart c' := by
  by_cases heq : c = c'
  · exact .inl heq
  · right
    intro n hn hn'
    have h := enclosing?_eq_of_contains hle le_rfl hc (Block.contains_iff.mpr hn)
    have h' := enclosing?_eq_of_contains hle' le_rfl hc' (Block.contains_iff.mpr hn')
    rw [h] at h'
    exact heq (Option.some.inj h')

/-- **Enclosing blocks are outermost and stable.** The enclosing block of a range contains it, lies
strictly within no block, and is the enclosing block of every range within it. Two enclosing blocks
are therefore equal or have no line in common, and a range that has an enclosing block keeps it when
it is narrowed. -/
theorem enclosing_outermost_and_stable (t : Text) :
    (∀ lo hi c, lo ≤ hi → enclosing? t lo hi = some c →
      c ∈ blocks t ∧ c.contains lo hi ∧ (∀ b ∈ blocks t, ¬ c.StrictlyWithin b) ∧
      ∀ lo' hi', lo' ≤ hi' → c.first ≤ lo' → hi' ≤ c.last → enclosing? t lo' hi' = some c) ∧
    (∀ lo hi lo' hi' c c', lo ≤ hi → lo' ≤ hi' → enclosing? t lo hi = some c →
      enclosing? t lo' hi' = some c' → c = c' ∨ c.Apart c') ∧
    (∀ lo hi lo' hi' c, lo ≤ lo' → lo' ≤ hi' → hi' ≤ hi → enclosing? t lo hi = some c →
      enclosing? t lo' hi' = some c) := by
  refine ⟨?_, ?_, ?_⟩
  · intro lo hi c hle hc
    obtain ⟨hcc, earlier, later, hsplit, -⟩ := (enclosing?_eq_some_iff hle).mp hc
    refine ⟨?_, hcc, fun b hb => not_strictlyWithin_of_enclosing? hle hc hb, ?_⟩
    · rw [hsplit]
      exact List.mem_append_right earlier List.mem_cons_self
    · intro lo' hi' hle' hfirst hlast
      exact enclosing?_eq_of_contains hle hle' hc (Block.contains_iff.mpr ⟨hfirst, hlast⟩)
  · intro lo hi lo' hi' c c' hle hle' hc hc'
    exact eq_or_apart_of_enclosing? hle hle' hc hc'
  · intro lo hi lo' hi' c hlo hle' hhi hc
    have hle : lo ≤ hi := hlo.trans (hle'.trans hhi)
    obtain ⟨hcc, -⟩ := (enclosing?_eq_some_iff hle).mp hc
    rw [Block.contains_iff] at hcc
    exact enclosing?_eq_of_contains hle hle' hc (Block.contains_iff.mpr (by omega))

/-- The class found for the two lines of the first method is found for the blank line between the
methods too, and has no line in common with the function behind it. -/
theorem enclosing_outermost_and_stable_unevenOutline :
    enclosing? unevenOutline 3 4 = some ⟨.classBody, "A", 1, 7⟩ ∧
    enclosing? unevenOutline 5 5 = some ⟨.classBody, "A", 1, 7⟩ ∧
    enclosing? unevenOutline 3 3 = some ⟨.classBody, "A", 1, 7⟩ ∧
    (⟨.classBody, "A", 1, 7⟩ : Block).Apart ⟨.function, "h", 9, 9⟩ := by
  have hclass : enclosing? unevenOutline 3 4 = some ⟨.classBody, "A", 1, 7⟩ := by decide
  obtain ⟨hstable, hapart, hnarrow⟩ := enclosing_outermost_and_stable unevenOutline
  obtain ⟨-, -, -, hwithin⟩ := hstable 3 4 _ (by decide) hclass
  refine ⟨hclass, hwithin 5 5 (by decide) (by decide) (by decide),
    hnarrow 3 4 3 3 _ (by decide) (by decide) (by decide) hclass, ?_⟩
  have hfunction : enclosing? unevenOutline 9 9 = some ⟨.function, "h", 9, 9⟩ := by decide
  exact (hapart 3 4 9 9 _ _ (by decide) (by decide) hclass hfunction).resolve_left (by decide)

end Enclosure
