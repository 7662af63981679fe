import Enclosure.Proofs.Source.Nesting
import Mathlib.Data.List.Basic
import Mathlib.Data.List.TakeWhile
import Mathlib.Data.Option.Basic

/-!
# Where blocks come from

Every block of a text goes back to two of its lines: the line on which its header stands, which is
its first one, and a line that is not blank, which is its last one. The header gives the block its
kind and its name, so a block is a function or a class and its name is a word that stands on its
first line.

## Main definitions

* `IsBlockName`: a text that can be the name of a block.

## Main results

* `Header.spelled_of_readNamed`: what a keyword with a name behind it looks like.
* `Header.named_of_parse?`: what a header announces stands on its line.
* `Text.trim_infix`: trimming only takes away from the ends.
* `origin_of_mem_blocks`: **the lines a block goes back to**.
-/

namespace Enclosure

/-- A text that can be the **name of a block**: an ASCII word that is not empty. -/
def IsBlockName (name : Text) : Prop :=
  name ≠ [] ∧ ∀ b ∈ name, Text.isWord b = true

/-! ### Headers -/

namespace Header

/-- What a keyword with a name behind it looks like: there is white space between them, and the
name is a word. -/
theorem spelled_of_readNamed {keyword t name rest : Text}
    (h : readNamed keyword t = some (name, rest)) :
    ∃ gap, gap ≠ [] ∧ (∀ b ∈ gap, isGap b = true) ∧ IsBlockName name ∧
      t = keyword ++ gap ++ name ++ rest := by
  simp only [readNamed, Option.bind_eq_bind, Option.bind_eq_some_iff, Option.guard_eq_some',
    Option.pure_def, Option.some.injEq, Prod.mk.injEq, Bool.not_eq_true', List.isEmpty_eq_false_iff]
    at h
  obtain ⟨after, hkeyword, -, hgap, -, hname, rfl, rfl⟩ := h
  have ht : keyword ++ after = t := List.append_eq_of_isPrefixOf?_eq_some hkeyword
  refine ⟨after.takeWhile isGap, hgap, fun b hb => List.mem_takeWhile_imp hb,
    ⟨hname, fun b hb => List.mem_takeWhile_imp hb⟩, ?_⟩
  rw [List.append_assoc, List.append_assoc, List.takeWhile_append_dropWhile,
    List.takeWhile_append_dropWhile, ht]

/-- The name behind a keyword stands where it was read. -/
theorem infix_of_readNamed {keyword t name rest : Text}
    (h : readNamed keyword t = some (name, rest)) : IsBlockName name ∧ name <:+: t := by
  obtain ⟨gap, -, -, hname, rfl⟩ := spelled_of_readNamed h
  exact ⟨hname, keyword ++ gap, rest, rfl⟩

/-- **What a header announces stands on its line**: it is a function or a class, and its name is a
word in the line. -/
theorem named_of_parse? {t : Text} {h : Header} (hparse : parse? t = some h) :
    (h.kind = .function ∨ h.kind = .classBody) ∧ IsBlockName h.name ∧ h.name <:+: t := by
  rw [parse?] at hparse
  split at hparse
  · rename_i name hname
    obtain rfl := Option.some.inj hparse
    simp only [functionName?, Option.bind_eq_bind, Option.bind_eq_some_iff, Option.guard_eq_some',
      Option.pure_def, Option.some.injEq, Prod.exists] at hname
    obtain ⟨name', rest, hread, -, -, rfl⟩ := hname
    exact ⟨.inl rfl, infix_of_readNamed hread⟩
  · split at hparse
    · rename_i name hname
      obtain rfl := Option.some.inj hparse
      simp only [className?, Option.bind_eq_bind, Option.bind_eq_some_iff, Option.guard_eq_some',
        Option.pure_def, Option.some.injEq, Prod.exists] at hname
      obtain ⟨name', rest, hread, -, -, rfl⟩ := hname
      exact ⟨.inr rfl, infix_of_readNamed hread⟩
    · cases hparse

end Header

/-! ### Lines -/

namespace Text

/-- What is left when characters are dropped from the front is the end of the text. -/
theorem dropUnits_suffix (width : Text → Nat) (skip : Nat) (t : Text) :
    dropUnits width skip t <:+ t := by
  induction t generalizing skip with
  | nil => exact List.nil_suffix
  | cons b t ih =>
      cases skip with
      | succ skip => exact (ih skip).trans (List.suffix_cons b t)
      | zero =>
          rw [dropUnits]
          split
          · exact List.suffix_rfl
          · exact (ih _).trans (List.suffix_cons b t)

/-- **Trimming only takes away from the ends.** -/
theorem trim_infix (t : Text) : t.trim <:+: t := by
  have hstart : t.trimStart <:+ t := dropUnits_suffix blankWidth 0 t
  have hend : t.trimStart.trimEnd <+: t.trimStart := by
    rw [← List.reverse_suffix, trimEnd, List.reverse_reverse]
    exact dropUnits_suffix blankWidthBack 0 t.trimStart.reverse
  exact hend.isInfix.trans hstart.isInfix

end Text

/-- A line that is not blank stands in the text at its number, and its content is what is left of
it when it is trimmed. -/
theorem exists_raw_of_mem_sourceLines {t : Text} {l : SourceLine} (hl : l ∈ sourceLines t) :
    1 ≤ l.number ∧ ∃ raw, t.lines[l.number - 1]? = some raw ∧ l.content = raw.trim ∧
      raw.trim ≠ [] := by
  obtain ⟨⟨raw, number⟩, hmem, hraw⟩ := List.mem_filterMap.mp hl
  obtain ⟨hnumber, hline⟩ := List.mk_mem_zipIdx_iff_le_and_getElem?_sub.mp hmem
  simp only [SourceLine.ofRaw?, Option.ite_none_left_eq_some, Option.some.injEq,
    List.isEmpty_iff] at hraw
  obtain ⟨hcontent, rfl⟩ := hraw
  exact ⟨hnumber, raw, hline, rfl, hcontent⟩

/-- A block ends with one of the lines it is looked for in. -/
theorem exists_mem_lastLine (h : SourceLine) (rest : List SourceLine) :
    ∃ l ∈ h :: rest, lastLine h rest = l.number := by
  rw [lastLine]
  split
  · rename_i l hlast
    have hmem : l ∈ rest.takeWhile fun l => decide (h.indent < l.indent) :=
      List.mem_of_getLast? hlast
    exact ⟨l, List.mem_cons_of_mem h ((List.takeWhile_prefix _).mem hmem), rfl⟩
  · exact ⟨h, List.mem_cons_self, rfl⟩

/-- A block has a line with its header and a last line. -/
theorem exists_lines_of_mem_blocksOfLines {ls : List SourceLine} {b : Block}
    (hb : b ∈ blocksOfLines ls) :
    (∃ l ∈ ls, b.first = l.number ∧ Header.parse? l.content = some ⟨b.kind, b.name⟩) ∧
      ∃ l ∈ ls, b.last = l.number := by
  induction ls with
  | nil => simp [blocksOfLines] at hb
  | cons l rest ih =>
      have hrest (hb : b ∈ blocksOfLines rest) :
          (∃ m ∈ l :: rest, b.first = m.number ∧
            Header.parse? m.content = some ⟨b.kind, b.name⟩) ∧
          ∃ m ∈ l :: rest, b.last = m.number := by
        obtain ⟨⟨m, hm, hfirst⟩, m', hm', hlast⟩ := ih hb
        exact ⟨⟨m, List.mem_cons_of_mem l hm, hfirst⟩, m', List.mem_cons_of_mem l hm', hlast⟩
      rw [blocksOfLines] at hb
      cases hparse : Header.parse? l.content with
      | none =>
          rw [hparse] at hb
          exact hrest hb
      | some header =>
          rw [hparse] at hb
          obtain rfl | hb := List.mem_cons.mp hb
          · obtain ⟨m, hm, hlast⟩ := exists_mem_lastLine l rest
            exact ⟨⟨l, List.mem_cons_self, rfl, hparse⟩, m, hm, congrArg Nat.cast hlast⟩
          · exact hrest hb

/-- **The lines a block goes back to.** Its first line has its name, which is a word, and its last
line is a line of the text that is not blank. -/
theorem origin_of_mem_blocks {t : Text} {b : Block} (hb : b ∈ blocks t) :
    (b.kind = .function ∨ b.kind = .classBody) ∧ IsBlockName b.name ∧
      (1 ≤ b.first ∧ ∃ raw, t.lines[(b.first - 1).toNat]? = some raw ∧ b.name <:+: raw) ∧
      ∃ raw, t.lines[(b.last - 1).toNat]? = some raw ∧ raw.trim ≠ [] := by
  obtain ⟨⟨l, hl, hfirst, hparse⟩, m, hm, hlast⟩ := exists_lines_of_mem_blocksOfLines hb
  obtain ⟨hnumber, raw, hraw, hcontent, -⟩ := exists_raw_of_mem_sourceLines hl
  obtain ⟨-, raw', hraw', -, hsolid⟩ := exists_raw_of_mem_sourceLines hm
  obtain ⟨hkind, hname, hinfix⟩ := Header.named_of_parse? hparse
  have hfirst' : (b.first - 1).toNat = l.number - 1 := by omega
  have hlast' : (b.last - 1).toNat = m.number - 1 := by omega
  rw [hfirst', hlast']
  refine ⟨hkind, hname, ⟨by omega, raw, hraw, ?_⟩, raw', hraw', hsolid⟩
  rw [hcontent] at hinfix
  exact hinfix.trans raw.trim_infix

end Enclosure
