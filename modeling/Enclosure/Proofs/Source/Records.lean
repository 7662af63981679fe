import Enclosure.Proofs.Source.Extent
import Enclosure.Proofs.Text.WhiteSpace

/-!
# The records of the lines

A line that is not blank is recorded with its number, its indentation and its content. Two scans of
the raw line make up the record: the indentation is counted on the runes from the front, and the
content is cut out on the bytes from both ends. Read as runes they fit together: the indentation
tells how many runes stand before the content, and all that is left out behind it is white space,
whatever the bytes of the line are. These properties leave no choice for the record.

## Main definitions

* `SourceLine.Records`: what a record says of its raw line.

## Main results

* `SourceLine.records_iff`: a raw line that is not blank has exactly one record.
* `sourceLines_record_raw_lines`: **the lines of a text that hold more than white space are
  recorded, in order and faithfully**.
-/

namespace Enclosure

/-- The record **records** a raw line: without as many runes as its indentation says and without the
white space at the end, the raw line is the content. Only white space is left out, and none is left
at either end. Runes keep the bytes they were read from, so the content is given byte by byte. -/
structure SourceLine.Records (l : SourceLine) (raw : Text) : Prop where
  leading : ∀ r ∈ raw.runes.take l.indent, r.isBlank = true
  content : l.content.runes = (raw.runes.drop l.indent).rdropWhile Rune.isBlank
  first : ∃ r ∈ l.content.runes.head?, r.isBlank = false
  last : ∃ r ∈ l.content.runes.getLast?, r.isBlank = false

namespace Text

/-- The runes from the indentation on. -/
theorem runes_drop_indent (t : Text) : t.runes.drop t.indent = t.runes.dropWhile Rune.isBlank := by
  have hsplit : t.runes.takeWhile Rune.isBlank ++ t.runes.dropWhile Rune.isBlank = t.runes :=
    List.takeWhile_append_dropWhile
  calc t.runes.drop t.indent
    _ = (t.runes.takeWhile Rune.isBlank ++ t.runes.dropWhile Rune.isBlank).drop t.indent := by
        rw [hsplit]
    _ = t.runes.dropWhile Rune.isBlank := List.drop_left

/-- The runes of the indentation. -/
theorem runes_take_indent (t : Text) : t.runes.take t.indent = t.runes.takeWhile Rune.isBlank :=
  (List.prefix_iff_eq_take.mp (List.takeWhile_prefix Rune.isBlank)).symm

/-- The indentation ends where white space is followed by anything else. -/
theorem indent_eq {t : Text} {k : Nat} {r : Rune}
    (hleading : ∀ r ∈ t.runes.take k, r.isBlank = true) (hr : (t.runes.drop k).head? = some r)
    (hsolid : r.isBlank = false) : t.indent = k := by
  have hstop : ∀ r' ∈ (t.runes.drop k).head?, r'.isBlank = false := by
    rw [hr]
    rintro _ ⟨rfl⟩
    exact hsolid
  have hk : k ≤ t.runes.length := by
    by_contra hk
    rw [List.drop_eq_nil_of_le (by omega)] at hr
    cases hr
  obtain ⟨hspan, -⟩ := span_append hleading hstop
  rw [List.take_append_drop] at hspan
  rw [indent, hspan, List.length_take, Nat.min_eq_left hk]

end Text

namespace SourceLine

/-- The indentation and the trimmed text record a raw line that is not blank. -/
theorem records_of_not_isBlank {raw : Text} (hraw : raw.isBlank = false) (n : Nat) :
    (⟨n, raw.indent, raw.trim⟩ : SourceLine).Records raw := by
  have hcontent : raw.trim.runes = (raw.runes.dropWhile Rune.isBlank).rdropWhile Rune.isBlank :=
    Text.runes_trim raw
  have hne : raw.trim.runes ≠ [] :=
    mt Text.runes_eq_nil_iff.mp (List.isEmpty_eq_false_iff.mp hraw)
  refine ⟨?_, ?_, ⟨_, List.head?_eq_some_head hne, ?_⟩, ⟨_, List.getLast?_eq_some_getLast hne, ?_⟩⟩
  · rw [Text.runes_take_indent]
    exact fun r hr => List.mem_takeWhile_imp hr
  · rw [hcontent, Text.runes_drop_indent]
  · -- What is cut off at the end does not touch the first rune, which ended the indentation.
    have hfront : raw.trim.runes <+: raw.runes.dropWhile Rune.isBlank := by
      rw [hcontent]
      exact List.rdropWhile_prefix _ _
    rw [hfront.head hne]
    exact List.head_dropWhile_not Rune.isBlank _
  · simp only [hcontent]
    exact Bool.eq_false_iff.mpr (List.rdropWhile_last_not _ _ (hcontent ▸ hne))

/-- The content of a record stands in the raw line behind the indentation. -/
theorem Records.exists_runes_eq {l : SourceLine} {raw : Text} (h : l.Records raw) :
    ∃ r rest, raw.runes.drop l.indent = r :: rest ∧ r.isBlank = false := by
  obtain ⟨r, hr, hsolid⟩ := h.first
  obtain ⟨rest, hrest⟩ := List.head?_eq_some_iff.mp hr
  obtain ⟨tail, htail⟩ := List.rdropWhile_prefix Rune.isBlank (raw.runes.drop l.indent)
  rw [← h.content, hrest] at htail
  exact ⟨r, rest ++ tail, htail.symm, hsolid⟩

/-- **A raw line that is not blank has exactly one record for each number, and a blank one has
none.** -/
theorem records_iff {l : SourceLine} {raw : Text} :
    l.Records raw ↔ raw.isBlank = false ∧ l = ⟨l.number, raw.indent, raw.trim⟩ := by
  constructor
  · intro h
    obtain ⟨r, rest, hdrop, hsolid⟩ := h.exists_runes_eq
    have hmem : r ∈ raw.runes := List.mem_of_mem_drop (hdrop ▸ List.mem_cons_self)
    have hindent : raw.indent = l.indent := Text.indent_eq h.leading (by rw [hdrop]; rfl) hsolid
    have hcontent : l.content = raw.trim := by
      apply Text.runes_injective
      rw [h.content, Text.runes_trim, ← Text.runes_drop_indent, hindent]
    refine ⟨Text.isBlank_eq_false_iff.mpr ⟨r, hmem, hsolid⟩, ?_⟩
    rw [hindent, ← hcontent]
  · rintro ⟨hraw, hl⟩
    rw [hl]
    exact records_of_not_isBlank hraw l.number

/-- The bytes of the content, from those of the raw line. -/
theorem Records.content_eq {l : SourceLine} {raw : Text} (h : l.Records raw) :
    l.content = Text.ofRunes ((raw.runes.drop l.indent).rdropWhile Rune.isBlank) := by
  rw [← h.content, Text.ofRunes_runes]

end SourceLine

/-- A record of a text is one that records the line with its number. -/
theorem mem_sourceLines_iff_records {t : Text} {l : SourceLine} :
    l ∈ sourceLines t ↔ ∃ raw, t.line? l.number = some raw ∧ l.Records raw := by
  simp only [mem_sourceLines_iff, SourceLine.records_iff]

/-- **The lines of a text that hold more than white space are recorded, in order and faithfully.**
The numbers of the records increase, a line has a record exactly if one of its runes is no white
space, and the records of the text are all those that record the line with their number; so the
content of a record is, byte by byte, what is left of that line behind its indentation and before
the white space at its end. -/
theorem sourceLines_record_raw_lines (t : Text) :
    ((sourceLines t).Pairwise fun k l => k.number < l.number) ∧
    (∀ n raw, t.line? n = some raw →
      ((∃ l ∈ sourceLines t, l.number = n) ↔ ∃ r ∈ raw.runes, r.isBlank = false)) ∧
    (∀ l, l ∈ sourceLines t ↔ ∃ raw, t.line? l.number = some raw ∧ l.Records raw) ∧
    ∀ l ∈ sourceLines t, ∀ raw, t.line? l.number = some raw →
      l.content = Text.ofRunes ((raw.runes.drop l.indent).rdropWhile Rune.isBlank) := by
  refine ⟨sourceLines_ascending t, ?_, fun l => mem_sourceLines_iff_records, ?_⟩
  · intro n raw hline
    rw [← Text.isBlank_eq_false_iff]
    constructor
    · rintro ⟨l, hl, rfl⟩
      obtain ⟨raw', hline', hsolid, -⟩ := mem_sourceLines_iff.mp hl
      obtain rfl : raw = raw' := Option.some.inj (hline.symm.trans hline')
      exact hsolid
    · intro hsolid
      exact ⟨⟨n, raw.indent, raw.trim⟩, mem_sourceLines_iff.mpr ⟨raw, hline, hsolid, rfl⟩, rfl⟩
  · intro l hl raw hline
    obtain ⟨raw', hline', hrecords⟩ := mem_sourceLines_iff_records.mp hl
    obtain rfl : raw = raw' := Option.some.inj (hline.symm.trans hline')
    exact hrecords.content_eq

/-- Three lines with white space of several bytes next to bytes that are cut off from a character:
a tab and an ideographic space before a cut-off character, then an em space behind another one; a
no-break space and a carriage return; a lone continuation byte and a space. -/
def cutOffBytes : Text :=
  [9, 0xE3, 0x80, 0x80, 0xE2, 0x80, 32, 120, 0xC2, 0xE2, 0x80, 0x83, 10, 0xC2, 0xA0, 13, 10,
    0xA0, 32]

/-- The two scans agree on what stands next to the bytes that are cut off, and the line of white
space only has no record. -/
theorem sourceLines_record_raw_lines_cutOffBytes :
    (⟨1, 2, [0xE2, 0x80, 32, 120, 0xC2]⟩ : SourceLine).Records
      [9, 0xE3, 0x80, 0x80, 0xE2, 0x80, 32, 120, 0xC2, 0xE2, 0x80, 0x83] ∧
    (¬ ∃ l ∈ sourceLines cutOffBytes, l.number = 2) ∧
    [0xA0] = Text.ofRunes ((Text.runes [0xA0, 32]).rdropWhile Rune.isBlank) := by
  obtain ⟨-, hrecorded, hmem, hcontent⟩ := sourceLines_record_raw_lines cutOffBytes
  refine ⟨?_, ?_, ?_⟩
  · have hfirst : cutOffBytes.line? 1 =
        some [9, 0xE3, 0x80, 0x80, 0xE2, 0x80, 32, 120, 0xC2, 0xE2, 0x80, 0x83] := by decide
    obtain ⟨raw, hline, hrecords⟩ := (hmem ⟨1, 2, [0xE2, 0x80, 32, 120, 0xC2]⟩).mp (by decide)
    obtain rfl := Option.some.inj (hfirst.symm.trans hline)
    exact hrecords
  · rw [hrecorded 2 [0xC2, 0xA0, 13] (by decide)]
    decide
  · exact hcontent ⟨3, 0, [0xA0]⟩ (by decide) [0xA0, 32] (by decide)

end Enclosure
