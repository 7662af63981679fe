import Enclosure.Proofs.Source.Origin
import Mathlib.Data.List.Sort
import Mathlib.Order.Bounds.Basic

/-!
# The extent of a block on the raw lines

The blocks of a text are computed on its lines that are not blank, which keep their numbers, by a
scan that stops early. What they are can be said of the raw lines as well, blank ones included. A
line with a header opens a block, and a later line continues it if it is not blank and if, of the
lines after the header up to it, all that are not blank are indented deeper than the header. The
block ends with the last line that continues it.

Line numbers count from 1, and the two descriptions meet in one fact: since the lines that are not
blank come in the order of their numbers, those behind a header are those with larger numbers.

## Main definitions

* `Text.line?`: the line of a text with a given number.
* `Text.Continues`: the lines that continue a block.
* `Text.opensBlock`: whether there is a header on a line.

## Main results

* `mem_sourceLines_iff`: the lines that are not blank, on the raw lines.
* `isGreatest_lastLine`: **the last line of a block is the greatest one that continues it**.
* `mem_blocks_iff`: the blocks of a text, on the raw lines.
* `blocks_match_raw_lines`: the blocks of a text are exactly those of its raw lines, one for each
  line with a header and in the order of these lines.
-/

namespace Enclosure

namespace Text

/-- Line `n` of a text, counted from 1. -/
def line? (t : Text) : Nat → Option Text
  | 0 => none
  | n + 1 => t.lines[n]?

/-- Line `m` **continues** the block that opens on line `n` with the raw line `header`: it is that
line itself, or a later line that is not blank, and no line between them that is not blank, nor line
`m` itself, falls back to the indentation of the header. -/
def Continues (t : Text) (n : Nat) (header : Text) (m : Nat) : Prop :=
  m = n ∨ n < m ∧ (∃ raw, t.line? m = some raw ∧ raw.isBlank = false) ∧
    ∀ k raw, n < k → k ≤ m → t.line? k = some raw → raw.isBlank = false →
      header.indent < raw.indent

/-- Whether there is a header on line `n`. -/
def opensBlock (t : Text) (n : Nat) : Bool :=
  (t.line? n).any fun raw => (Header.parse? raw.trim).isSome

/-- A text has the lines from 1 to the number of its lines. -/
theorem line?_eq_some_iff {t raw : Text} {n : Nat} :
    t.line? n = some raw ↔ 1 ≤ n ∧ t.lines[n - 1]? = some raw := by
  cases n with
  | zero => simp [line?]
  | succ n => simp [line?]

/-- The number of a line is at most the number of lines. -/
theorem le_length_of_line? {t raw : Text} {n : Nat} (h : t.line? n = some raw) :
    1 ≤ n ∧ n ≤ t.lines.length := by
  obtain ⟨hn, hraw⟩ := line?_eq_some_iff.mp h
  obtain ⟨hlt, -⟩ := List.getElem?_eq_some_iff.mp hraw
  omega

end Text

/-! ### The lines that are not blank -/

/-- The record of a raw line that is not blank. -/
theorem SourceLine.ofRaw?_eq_some_iff {raw : Text} {n : Nat} {l : SourceLine} :
    ofRaw? raw n = some l ↔ raw.isBlank = false ∧ l = ⟨n, raw.indent, raw.trim⟩ := by
  simp only [ofRaw?, Text.isBlank, Option.ite_none_left_eq_some, Option.some.injEq,
    Bool.not_eq_true, @eq_comm _ l]

/-- **The lines that are not blank, on the raw lines**: each is the record of the line with its
number. -/
theorem mem_sourceLines_iff {t : Text} {l : SourceLine} :
    l ∈ sourceLines t ↔ ∃ raw, t.line? l.number = some raw ∧ raw.isBlank = false ∧
      l = ⟨l.number, raw.indent, raw.trim⟩ := by
  rw [sourceLines, List.mem_filterMap]
  constructor
  · rintro ⟨⟨raw, n⟩, hmem, hraw⟩
    obtain ⟨hn, hline⟩ := List.mk_mem_zipIdx_iff_le_and_getElem?_sub.mp hmem
    obtain ⟨hsolid, rfl⟩ := SourceLine.ofRaw?_eq_some_iff.mp hraw
    exact ⟨raw, Text.line?_eq_some_iff.mpr ⟨hn, hline⟩, hsolid, rfl⟩
  · rintro ⟨raw, hline, hraw⟩
    obtain ⟨hn, hget⟩ := Text.line?_eq_some_iff.mp hline
    exact ⟨(raw, l.number), List.mk_mem_zipIdx_iff_le_and_getElem?_sub.mpr ⟨hn, hget⟩,
      SourceLine.ofRaw?_eq_some_iff.mpr hraw⟩

/-- A line that is not blank divides the lines that are not blank. -/
theorem exists_sourceLines_eq {t raw : Text} {n : Nat} (hline : t.line? n = some raw)
    (hsolid : raw.isBlank = false) :
    ∃ before rest, sourceLines t = before ++ ⟨n, raw.indent, raw.trim⟩ :: rest :=
  List.append_of_mem (mem_sourceLines_iff.mpr ⟨raw, hline, hsolid, rfl⟩)

/-- The lines behind a line are those with larger numbers. -/
theorem Ascending.mem_rest_iff {before rest : List SourceLine} {l k : SourceLine}
    (hs : Ascending (before ++ l :: rest)) :
    k ∈ rest ↔ k ∈ before ++ l :: rest ∧ l.number < k.number := by
  obtain ⟨-, hrest, hbefore⟩ := List.pairwise_append.mp hs
  constructor
  · intro hk
    exact ⟨by simp [hk], (List.pairwise_cons.mp hrest).1 k hk⟩
  · rintro ⟨hk, hlt⟩
    rw [List.mem_append, List.mem_cons] at hk
    rcases hk with hk | rfl | hk
    · have := hbefore k hk l List.mem_cons_self
      omega
    · omega
    · exact hk

/-! ### The last line -/

/-- The numbers of the lines that continue the block of a header, among the lines after it that are
not blank. -/
def SourceLine.reach (h : SourceLine) (rest : List SourceLine) : Set Nat :=
  {m | m = h.number ∨ ∃ l ∈ rest, l.number = m ∧ ∀ k ∈ rest, k.number ≤ m → h.indent < k.indent}

/-- **The last line of a block is the greatest one that continues it.** -/
theorem isGreatest_lastLine {h : SourceLine} {rest : List SourceLine}
    (hs : Ascending (h :: rest)) : IsGreatest (h.reach rest) (lastLine h rest) := by
  induction rest generalizing h with
  | nil =>
      refine ⟨.inl rfl, ?_⟩
      rintro m (rfl | ⟨l, hl, -⟩)
      · exact le_rfl
      · cases hl
  | cons l rest ih =>
      obtain ⟨hhl, hrest⟩ := List.pairwise_cons.mp hs
      obtain ⟨hlater, -⟩ := List.pairwise_cons.mp hrest
      have hlt : h.number < l.number := hhl l List.mem_cons_self
      rw [lastLine_cons]
      split
      · -- The line takes the place of the header, and what continues it continues the header.
        rename_i hdeep
        obtain ⟨hreach, hbound⟩ := ih hs.renumber
        constructor
        · right
          rcases hreach with heq | ⟨m, hm, heq, hall⟩
          · refine ⟨l, List.mem_cons_self, heq.symm, ?_⟩
            intro k hk hle
            rcases List.mem_cons.mp hk with rfl | hk
            · exact hdeep
            · have hle : k.number ≤ l.number := hle.trans_eq heq
              have := hlater k hk
              omega
          · refine ⟨m, List.mem_cons_of_mem l hm, heq, ?_⟩
            intro k hk hle
            rcases List.mem_cons.mp hk with rfl | hk
            · exact hdeep
            · exact hall k hk hle
        · rintro m (rfl | ⟨k, hk, rfl, hall⟩)
          · exact hlt.le.trans (number_le_lastLine hs.renumber)
          · rcases List.mem_cons.mp hk with rfl | hk
            · exact number_le_lastLine hs.renumber
            · exact hbound (.inr ⟨k, hk, rfl, fun j hj => hall j (List.mem_cons_of_mem l hj)⟩)
      · rename_i hshallow
        refine ⟨.inl rfl, ?_⟩
        rintro m (rfl | ⟨k, hk, rfl, hall⟩)
        · exact le_rfl
        · have hle : l.number ≤ k.number := by
            rcases List.mem_cons.mp hk with rfl | hk
            · exact le_rfl
            · exact (hlater k hk).le
          exact absurd (hall l List.mem_cons_self hle) hshallow

/-- What continues the block of a header, on the raw lines. -/
theorem mem_reach_iff {t raw : Text} {before rest : List SourceLine} {l : SourceLine}
    (hlines : sourceLines t = before ++ l :: rest) (hl : l.indent = raw.indent) (m : Nat) :
    m ∈ l.reach rest ↔ t.Continues l.number raw m := by
  have hs : Ascending (before ++ l :: rest) := hlines ▸ sourceLines_ascending t
  have hbehind (k : SourceLine) : k ∈ rest ↔ k ∈ sourceLines t ∧ l.number < k.number := by
    rw [hlines]
    exact hs.mem_rest_iff
  constructor
  · rintro (rfl | ⟨k, hk, rfl, hall⟩)
    · exact .inl rfl
    · obtain ⟨hmem, hlt⟩ := (hbehind k).mp hk
      obtain ⟨rawk, hline, hsolid, -⟩ := mem_sourceLines_iff.mp hmem
      refine .inr ⟨hlt, ⟨rawk, hline, hsolid⟩, ?_⟩
      intro j rawj hj hle hlinej hsolidj
      have hmemj : ⟨j, rawj.indent, rawj.trim⟩ ∈ sourceLines t :=
        mem_sourceLines_iff.mpr ⟨rawj, hlinej, hsolidj, rfl⟩
      rw [← hl]
      exact hall _ ((hbehind _).mpr ⟨hmemj, hj⟩) hle
  · rintro (rfl | ⟨hlt, ⟨rawm, hline, hsolid⟩, hall⟩)
    · exact .inl rfl
    · have hmem : ⟨m, rawm.indent, rawm.trim⟩ ∈ sourceLines t :=
        mem_sourceLines_iff.mpr ⟨rawm, hline, hsolid, rfl⟩
      refine .inr ⟨_, (hbehind _).mpr ⟨hmem, hlt⟩, rfl, ?_⟩
      intro k hk hle
      obtain ⟨hmemk, hltk⟩ := (hbehind k).mp hk
      obtain ⟨rawk, hlinek, hsolidk, hk'⟩ := mem_sourceLines_iff.mp hmemk
      rw [hl, hk']
      exact hall k.number rawk hltk hle hlinek hsolidk

/-- The last line of a block, on the raw lines. -/
theorem isGreatest_continues {t raw : Text} {before rest : List SourceLine} {l : SourceLine}
    (hlines : sourceLines t = before ++ l :: rest) (hl : l.indent = raw.indent) :
    IsGreatest {k | t.Continues l.number raw k} (lastLine l rest) := by
  have hs : Ascending (before ++ l :: rest) := hlines ▸ sourceLines_ascending t
  have hreach : l.reach rest = {k | t.Continues l.number raw k} := Set.ext (mem_reach_iff hlines hl)
  rw [← hreach]
  exact isGreatest_lastLine (List.pairwise_append.mp hs).2.1

/-! ### The blocks -/

/-- A block is opened by one of the lines, on which its header stands, and ends where the lines
after it say. -/
theorem mem_blocksOfLines_iff {ls : List SourceLine} {b : Block} :
    b ∈ blocksOfLines ls ↔ ∃ before l rest, ls = before ++ l :: rest ∧
      Header.parse? l.content = some ⟨b.kind, b.name⟩ ∧ b.first = l.number ∧
      b.last = lastLine l rest := by
  induction ls with
  | nil => simp [blocksOfLines]
  | cons l rest ih =>
      have hcons : (∃ before m after, l :: rest = before ++ m :: after ∧
          Header.parse? m.content = some ⟨b.kind, b.name⟩ ∧ b.first = m.number ∧
          b.last = lastLine m after) ↔
          (Header.parse? l.content = some ⟨b.kind, b.name⟩ ∧ b.first = l.number ∧
            b.last = lastLine l rest) ∨ b ∈ blocksOfLines rest := by
        rw [ih]
        constructor
        · rintro ⟨before, m, after, hsplit, hm⟩
          cases before with
          | nil =>
              obtain ⟨rfl, rfl⟩ := List.cons.inj hsplit
              exact .inl hm
          | cons l' before =>
              exact .inr ⟨before, m, after, (List.cons.inj hsplit).2, hm⟩
        · rintro (hl | ⟨before, m, after, rfl, hm⟩)
          · exact ⟨[], l, rest, rfl, hl⟩
          · exact ⟨l :: before, m, after, rfl, hm⟩
      rw [hcons, blocksOfLines]
      cases Header.parse? l.content with
      | none => simp
      | some header =>
          obtain ⟨kind, name, first, last⟩ := b
          obtain ⟨hkind, hname⟩ := header
          simp only [List.mem_cons, Block.mk.injEq, Option.some.injEq, Header.mk.injEq]
          constructor
          · rintro (⟨rfl, rfl, rfl, rfl⟩ | hb)
            · exact .inl ⟨⟨rfl, rfl⟩, rfl, rfl⟩
            · exact .inr hb
          · rintro (⟨⟨rfl, rfl⟩, rfl, rfl⟩ | hb)
            · exact .inl ⟨rfl, rfl, rfl, rfl⟩
            · exact .inr hb

/-- There is no header on a blank line. -/
theorem isBlank_of_parse? {raw : Text} {h : Header} (hparse : Header.parse? raw.trim = some h) :
    raw.isBlank = false := by
  obtain ⟨-, ⟨hne, -⟩, hinfix⟩ := Header.named_of_parse? hparse
  rw [Text.isBlank, List.isEmpty_eq_false_iff]
  rintro hnil
  rw [hnil, List.infix_nil] at hinfix
  exact hne hinfix

/-- **The blocks of a text, on the raw lines.** -/
theorem mem_blocks_iff {t : Text} {b : Block} :
    b ∈ blocks t ↔ ∃ (n m : Nat) (header : Text), b.first = n ∧ b.last = m ∧
      t.line? n = some header ∧ Header.parse? header.trim = some ⟨b.kind, b.name⟩ ∧
      IsGreatest {k | t.Continues n header k} m := by
  rw [blocks, mem_blocksOfLines_iff]
  constructor
  · rintro ⟨before, l, rest, hlines, hparse, hfirst, hlast⟩
    have hmem : l ∈ sourceLines t := by simp [hlines]
    obtain ⟨raw, hline, -, hl⟩ := mem_sourceLines_iff.mp hmem
    rw [hl] at hparse
    exact ⟨l.number, lastLine l rest, raw, hfirst, hlast, hline, hparse,
      isGreatest_continues hlines (by rw [hl])⟩
  · rintro ⟨n, m, raw, hfirst, hlast, hline, hparse, hgreatest⟩
    obtain ⟨before, rest, hlines⟩ := exists_sourceLines_eq hline (isBlank_of_parse? hparse)
    refine ⟨before, _, rest, hlines, hparse, hfirst, ?_⟩
    rw [hlast, hgreatest.unique (isGreatest_continues hlines rfl)]

/-- A block opens on exactly the lines with a header. -/
theorem exists_first_iff_opensBlock {t : Text} {n : Nat} :
    (∃ b ∈ blocks t, b.first = n) ↔ t.opensBlock n = true := by
  simp only [Text.opensBlock, Option.any_eq_true, Option.isSome_iff_exists]
  constructor
  · rintro ⟨b, hb, hfirst⟩
    obtain ⟨n', m, raw, hfirst', -, hline, hparse, -⟩ := mem_blocks_iff.mp hb
    obtain rfl : n = n' := by omega
    exact ⟨raw, hline, _, hparse⟩
  · rintro ⟨raw, hline, h, hparse⟩
    obtain ⟨before, rest, hlines⟩ := exists_sourceLines_eq hline (isBlank_of_parse? hparse)
    exact ⟨⟨h.kind, h.name, n, _⟩,
      mem_blocksOfLines_iff.mpr ⟨before, _, rest, hlines, hparse, rfl, rfl⟩, rfl⟩

/-- Blocks open in the order of their first lines. -/
theorem blocks_pairwise_first (t : Text) : (blocks t).Pairwise fun a b => a.first < b.first :=
  (blocks_pairwise_before t).imp fun h => h.1

/-- The first lines of the blocks are the lines with a header, in order. -/
theorem map_first_blocks (t : Text) : (blocks t).map Block.first =
    ((List.range' 1 t.lines.length).filter t.opensBlock).map Nat.cast := by
  refine List.Pairwise.eq_of_mem_iff (r := (· < ·)) ?_ ?_ ?_
  · exact List.pairwise_map.mpr (blocks_pairwise_first t)
  · have hrange : (List.range' 1 t.lines.length).Pairwise (· < ·) := List.pairwise_lt_range'
    exact List.pairwise_map.mpr ((hrange.filter _).imp fun hlt => Int.ofNat_lt.mpr hlt)
  · intro first
    simp only [List.mem_map, List.mem_filter, List.mem_range'_1, ← exists_first_iff_opensBlock]
    constructor
    · rintro ⟨b, hb, rfl⟩
      obtain ⟨n, m, raw, hfirst, -, hline, -⟩ := mem_blocks_iff.mp hb
      have := Text.le_length_of_line? hline
      exact ⟨n, ⟨⟨by omega, by omega⟩, b, hb, hfirst⟩, hfirst.symm⟩
    · rintro ⟨n, ⟨-, b, hb, hfirst⟩, rfl⟩
      exact ⟨b, hb, hfirst⟩

/-- A block lies within the text. -/
theorem bounds_of_mem_blocks {t : Text} {b : Block} (hb : b ∈ blocks t) :
    1 ≤ b.first ∧ b.first ≤ b.last ∧ b.last ≤ t.lines.length := by
  have hle := first_le_last_of_mem_blocks hb
  obtain ⟨n, m, raw, hfirst, hlast, hline, -, hreach, -⟩ := mem_blocks_iff.mp hb
  have hn := Text.le_length_of_line? hline
  rcases hreach with rfl | ⟨-, ⟨raw', hline', -⟩, -⟩
  · omega
  · have := Text.le_length_of_line? hline'
    omega

/-- **The blocks of a text are those of its raw lines.** A block opens on a line with a header of
its kind and name, and ends with the last line that continues it; and whatever is so described is a
block of the text. There is one block for each line with a header, in the order of these lines, and
no block leaves the text. -/
theorem blocks_match_raw_lines (t : Text) :
    (∀ kind name first last, (⟨kind, name, first, last⟩ : Block) ∈ blocks t ↔
      ∃ (n m : Nat) (header : Text), first = n ∧ last = m ∧ t.line? n = some header ∧
        Header.parse? header.trim = some ⟨kind, name⟩ ∧
        IsGreatest {k | t.Continues n header k} m) ∧
    (blocks t).map Block.first =
      ((List.range' 1 t.lines.length).filter t.opensBlock).map Nat.cast ∧
    ((blocks t).Pairwise fun a b => a.first < b.first) ∧
    ∀ b ∈ blocks t, 1 ≤ b.first ∧ b.first ≤ b.last ∧ b.last ≤ t.lines.length := by
  refine ⟨?_, map_first_blocks t, blocks_pairwise_first t, fun b hb => bounds_of_mem_blocks hb⟩
  intro kind name first last
  exact mem_blocks_iff

/-- The first method ends on its line 4: the blank line 5 is none of its lines, and line 6 falls back
to less than its indentation. -/
theorem blocks_match_raw_lines_unevenOutline :
    (⟨.function, "f", 2, 4⟩ : Block) ∈ blocks unevenOutline ∧
    (∃ (n m : Nat) (header : Text), (2 : Int) = n ∧ (4 : Int) = m ∧
      unevenOutline.line? n = some header ∧
      Header.parse? header.trim = some ⟨.function, "f"⟩ ∧
      IsGreatest {k | unevenOutline.Continues n header k} m) ∧
    (4 : Int) ≤ unevenOutline.lines.length := by
  obtain ⟨hmem, -, -, hbounds⟩ := blocks_match_raw_lines unevenOutline
  have hb : (⟨.function, "f", 2, 4⟩ : Block) ∈ blocks unevenOutline := by decide
  exact ⟨hb, (hmem _ _ _ _).mp hb, (hbounds _ hb).2.2⟩

end Enclosure
