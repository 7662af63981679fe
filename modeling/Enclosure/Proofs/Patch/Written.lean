import Enclosure.Patch.Changes
import Enclosure.Proofs.Text.Pieces

/-!
# Diffs as they are written

A diff without context lines is written from a list of file changes. Each hunk has two **sides**,
the lines that it removes and the lines that it adds. Its header gives the range of either side,
where a count of one may be left out, and may have a heading. The lines of the old side come first,
each behind a minus sign, then those of the new side behind plus signs; it may be said that the last
line of a side is not terminated.

Where the sides meet, a removed line that starts with `--` must not be followed by an added one that
starts with `++`: the two would look like the names of another file.

## Main definitions

* `WrittenSide`, `WrittenHunk`, `WrittenFile`: the parts of a diff, with what holds of them.
* `WrittenFile.text`: the diff of some files.
* `WrittenHunk.hunk`, `WrittenFile.change?`: what there is to read from them.

## Main results

* `Hunk.parse_ranges`: the header of a hunk is read as it was written.
-/

namespace Enclosure

/-! ### Sides and hunks -/

/-- One side of a hunk. Its numbers fit a signed 32-bit word. -/
structure WrittenSide where
  /-- The line it starts at, or the line in front of it if it is empty. -/
  first : Nat
  lines : List Text
  /-- Whether a count of one is left out. -/
  bare : Bool
  /-- Whether it is said that the last line is not terminated. -/
  unended : Bool
  first_lt : first < 0x80000000 := by decide
  length_lt : lines.length < 0x80000000 := by decide
  no_newline : ∀ l ∈ lines, Text.newline ∉ l := by decide

namespace WrittenSide

/-- The range of a side, as it stands in a hunk header. -/
def range (s : WrittenSide) : Text :=
  if s.bare && s.lines.length == 1 then Text.ofNat s.first
  else Text.ofNat s.first ++ "," ++ Text.ofNat s.lines.length

/-- What is said of a line that is not terminated. -/
def unendedMark : Text := "\\ No newline at end of file"

/-- What is said of the last line of a side. -/
def closing (s : WrittenSide) : List Text :=
  if s.unended && !s.lines.isEmpty then [unendedMark] else []

/-- The lines of a side behind their sign. -/
def body (sign : UInt8) (s : WrittenSide) : List Text :=
  s.lines.map (sign :: ·) ++ s.closing

end WrittenSide

/-- A hunk. The line behind its new side has a number that fits a signed 32-bit word. -/
structure WrittenHunk where
  old : WrittenSide
  new : WrittenSide
  heading : Option Text
  end_lt : new.first + new.lines.length < 0x80000000 := by decide
  heading_no_newline : ∀ t ∈ heading, Text.newline ∉ t := by decide
  /-- Where the sides meet, with nothing said between them, they do not look like the names of
  another file. -/
  apart : old.unended = false → ∀ l ∈ old.lines.getLast?, ∀ l' ∈ new.lines.head?,
    ¬ (l.startsWith "--" = true ∧ l'.startsWith "++" = true) := by decide

namespace WrittenHunk

/-- The header less its heading. -/
def ranges (h : WrittenHunk) : Text :=
  "@@ -" ++ h.old.range ++ " +" ++ h.new.range ++ " @@"

/-- The header. -/
def header (h : WrittenHunk) : Text :=
  h.ranges ++ h.heading.elim [] fun t => (" " : Text) ++ t

/-- The lines of a hunk. -/
def lines (h : WrittenHunk) : List Text :=
  h.header :: h.old.body 45 ++ h.new.body 43

/-- The numbers in the header. -/
def hunk (h : WrittenHunk) : Hunk :=
  ⟨h.old.first, h.old.lines.length, h.new.first, h.new.lines.length⟩

/-- The lines that a hunk covers in the new version: from its first to the last that it adds. -/
def newRange (h : WrittenHunk) : LineRange :=
  ⟨h.new.first, h.new.first + h.new.lines.length - 1⟩

/-- What a hunk covers in the new version does not exceed 32 bits. -/
theorem newRange_hunk (h : WrittenHunk) : h.hunk.newRange = h.newRange := by
  have hlt := h.end_lt
  simp only [Hunk.newRange, hunk, newRange, wrap32, LineRange.mk.injEq, true_and]
  exact Int.bmod_eq_of_le (by omega) (by omega)

end WrittenHunk

/-! ### Files -/

/-- What becomes of a file. -/
inductive FileFate where
  | modified
  | added
  | deleted
deriving DecidableEq, Repr

/-- How the lines start that tell the modes of a file and the versions of its content. -/
def headerMarks : List Text :=
  ["old mode ", "new mode ", "new file mode ", "deleted file mode ", "index "]

/-- The change of one file. There is no white space in its path. -/
structure WrittenFile where
  fate : FileFate
  path : Text
  /-- The lines that tell the modes of the file and the versions of its content. -/
  headers : List Text
  hunks : List WrittenHunk
  path_ne : path ≠ [] := by decide
  path_solid : path.isSolid = true := by decide
  headers_marked : ∀ l ∈ headers, ∃ mark ∈ headerMarks, l.startsWith mark = true := by decide
  headers_no_newline : ∀ l ∈ headers, Text.newline ∉ l := by decide

namespace WrittenFile

/-- The name of the old version. -/
def oldName (f : WrittenFile) : Text :=
  if f.fate = .added then noFile else "a/" ++ f.path

/-- The name of the new version. -/
def newName (f : WrittenFile) : Text :=
  if f.fate = .deleted then noFile else "b/" ++ f.path

/-- The names in the first line. -/
def arguments (f : WrittenFile) : Text :=
  "a/" ++ f.path ++ " b/" ++ f.path

/-- The lines of the change. -/
def lines (f : WrittenFile) : List Text :=
  (gitMark ++ f.arguments) :: (f.headers ++
    ((Patch.oldMark ++ f.oldName) :: (Patch.newMark ++ f.newName) ::
      f.hunks.flatMap WrittenHunk.lines))

/-- The diff of some files: their lines, each terminated. -/
def text (files : List WrittenFile) : Text :=
  (files.flatMap lines).flatMap (· ++ [Text.newline])

/-- The change of a file, unless it was deleted: its path, and for each hunk the lines that it
covers in the new version. -/
def change? (f : WrittenFile) : Option ChangedFile :=
  if f.fate = .deleted then none else some ⟨f.path, f.hunks.map WrittenHunk.newRange⟩

/-- The name of the new version of a file and its hunks, as they are read. -/
def patch (f : WrittenFile) : FilePatch :=
  ⟨f.newName, f.hunks.map WrittenHunk.hunk⟩

/-- What is read of a file is its change. -/
theorem change?_patch (f : WrittenFile) : f.patch.change? = f.change? := by
  have hranges : (f.hunks.map WrittenHunk.hunk).map Hunk.newRange =
      f.hunks.map WrittenHunk.newRange := by
    rw [List.map_map]
    exact List.map_congr_left fun h _ => h.newRange_hunk
  rw [FilePatch.change?, change?, patch, newName]
  by_cases hdeleted : f.fate = .deleted
  · simp [hdeleted]
  · have hnone : ((("b/" : Text) ++ f.path) == noFile) = false := rfl
    have hletter : dropLetter ("b/" ++ f.path) = f.path := by
      cases hpath : f.path with
      | nil => exact absurd hpath f.path_ne
      | cons b t => rfl
    simp only [if_neg hdeleted, hnone, hletter, hranges, Bool.false_eq_true, if_false]

end WrittenFile

/-! ### Lines have no newlines -/

/-- There is nothing but digits and a comma in the range of a side. -/
theorem WrittenSide.not_mem_range {b : UInt8} (hdigit : Text.isDigit b = false) (hcomma : b ≠ 44)
    (s : WrittenSide) : b ∉ s.range := by
  have hdigits (n : Nat) : b ∉ Text.ofNat n := by
    intro hmem
    rw [Text.isDigit_of_mem_ofNat hmem] at hdigit
    cases hdigit
  have hcomma : b ∉ ("," : Text) := by
    rw [show ("," : Text) = [44] by decide]
    simpa using hcomma
  rw [range]
  split
  · exact hdigits _
  · simp only [List.mem_append, not_or]
    exact ⟨⟨hdigits _, hcomma⟩, hdigits _⟩

/-- None of the lines of a side has a newline in it. -/
theorem WrittenSide.body_no_newline {sign : UInt8} (hsign : sign ≠ Text.newline)
    (s : WrittenSide) : ∀ l ∈ s.body sign, Text.newline ∉ l := by
  intro l hl
  rw [body, closing, List.mem_append] at hl
  obtain hl | hl := hl
  · obtain ⟨l, hmem, rfl⟩ := List.mem_map.mp hl
    simp [hsign.symm, s.no_newline l hmem]
  · split at hl
    · rw [List.mem_singleton.mp hl]
      decide
    · simp at hl

/-- None of the lines of a hunk has a newline in it. -/
theorem WrittenHunk.lines_no_newline (h : WrittenHunk) : ∀ l ∈ h.lines, Text.newline ∉ l := by
  have hranges (s : WrittenSide) : Text.newline ∉ s.range :=
    s.not_mem_range (by decide) (by decide)
  have hmarks : Text.newline ∉ ("@@ -" : Text) ∧ Text.newline ∉ (" +" : Text) ∧
      Text.newline ∉ (" @@" : Text) := by
    decide
  have hheading : Text.newline ∉ (h.heading.elim [] fun t => (" " : Text) ++ t) := by
    cases hsome : h.heading with
    | none => simp
    | some t =>
        have ht := h.heading_no_newline t hsome
        have hblank : Text.newline ∉ (" " : Text) := by decide
        simp [ht, hblank]
  intro l hl
  simp only [lines, List.cons_append, List.mem_cons, List.mem_append] at hl
  obtain rfl | hl | hl := hl
  · simp [header, ranges, hranges, hmarks, hheading]
  · exact h.old.body_no_newline (by decide) l hl
  · exact h.new.body_no_newline (by decide) l hl

/-- None of the lines of a file has a newline in it. -/
theorem WrittenFile.lines_no_newline (f : WrittenFile) : ∀ l ∈ f.lines, Text.newline ∉ l := by
  have hpath : Text.newline ∉ f.path := Text.not_mem_of_isSolid f.path_solid (by decide)
  have hmarks : Text.newline ∉ gitMark ∧ Text.newline ∉ ("a/" : Text) ∧
      Text.newline ∉ (" b/" : Text) ∧ Text.newline ∉ ("b/" : Text) ∧ Text.newline ∉ noFile ∧
        Text.newline ∉ Patch.oldMark ∧ Text.newline ∉ Patch.newMark := by
    decide
  have hold : Text.newline ∉ f.oldName := by
    rw [oldName]
    split <;> simp [hmarks, hpath]
  have hnew : Text.newline ∉ f.newName := by
    rw [newName]
    split <;> simp [hmarks, hpath]
  intro l hl
  simp only [lines, List.mem_cons, List.mem_append, List.mem_flatMap] at hl
  obtain rfl | hl | rfl | rfl | ⟨h, -, hl⟩ := hl
  · simp [arguments, hmarks, hpath]
  · exact f.headers_no_newline l hl
  · simp [hmarks, hold]
  · simp [hmarks, hnew]
  · exact h.lines_no_newline l hl

/-! ### Reading a header -/

namespace Hunk

/-- A digit is neither white space nor a sign. -/
theorem not_sign_of_isDigit {b : UInt8} (hb : Text.isDigit b = true) :
    b < 0x80 ∧ Text.isBlankByte b = false ∧ (b == 43 || b == 45) = false := by
  have hall : ∀ i : Fin 256, Text.isDigit (UInt8.ofFin i) = true → UInt8.ofFin i < 0x80 ∧
      Text.isBlankByte (UInt8.ofFin i) = false ∧
        (UInt8.ofFin i == 43 || UInt8.ofFin i == 45) = false := by
    decide +kernel
  exact hall b.toFin hb

/-- **A number is read up to what follows its digits.** -/
theorem readNumber_ofNat {n : Nat} (hn : n < 0x80000000) {rest : Text}
    (hrest : ∀ b ∈ rest.head?, Text.isDigit b = false) :
    readNumber (Text.ofNat n ++ rest) = .ok ((n : Int), rest) := by
  have hdigits : ∀ b ∈ Text.ofNat n, Text.isDigit b = true := fun b => Text.isDigit_of_mem_ofNat
  have htake : (Text.ofNat n ++ rest).takeWhile Text.isDigit = Text.ofNat n := by
    rw [List.takeWhile_append_of_pos hdigits]
    cases rest with
    | nil => simp
    | cons b rest => simp [hrest b rfl]
  have hdrop : (Text.ofNat n ++ rest).dropWhile Text.isDigit = rest := by
    rw [List.dropWhile_append_of_pos hdigits]
    cases rest with
    | nil => simp
    | cons b rest => simp [hrest b rfl]
  have hfront : (Text.ofNat n ++ rest).trimStart = Text.ofNat n ++ rest ∧
      signOf (Text.ofNat n ++ rest) = [] := by
    cases hofNat : Text.ofNat n with
    | nil => exact absurd hofNat (Text.ofNat_ne_nil n)
    | cons b digits =>
        obtain ⟨hascii, hblank, hsign⟩ := not_sign_of_isDigit (hdigits b (by simp [hofNat]))
        refine ⟨Text.trimStart_of_ascii hascii hblank _, ?_⟩
        simp only [signOf, List.cons_append, List.take_succ_cons, List.take_zero]
        simp [List.filter, hsign]
  have h32 : wrap32 (n : Int) = n := Int.bmod_eq_of_le (by omega) (by omega)
  have h64 : wrap64 (n : Int) = n := Int.bmod_eq_of_le (by omega) (by omega)
  simp only [readNumber, hfront, List.length_nil, List.drop_zero, htake, hdrop, tokenValue,
    Text.digitsValue_ofNat]
  simp [h32, h64, Text.ofNat_ne_nil]

/-- A range is read with its count. -/
theorem readRange_eq (sign : UInt8) {first count : Nat} (hfirst : first < 0x80000000)
    (hcount : count < 0x80000000) {rest : Text} (hrest : ∀ b ∈ rest.head?, Text.isDigit b = false) :
    readRange sign (sign :: (Text.ofNat first ++ 44 :: (Text.ofNat count ++ rest))) =
      .ok (((first : Int), (count : Int)), rest) := by
  have hcomma : ∀ b ∈ (44 :: (Text.ofNat count ++ rest) : Text).head?, Text.isDigit b = false := by
    simp only [List.head?_cons, Option.mem_def, Option.some.injEq]
    rintro b rfl
    decide
  simp only [readRange, skipByte, beq_self_eq_true, if_true, bind, Except.bind,
    readNumber_ofNat hfirst hcomma, readNumber_ofNat hcount hrest]
  rfl

/-- A blank is skipped. -/
theorem skipBlank_eq {b : UInt8} (hb : b < 0x80) (hblank : Text.isBlankByte b = false)
    (rest : Text) : skipBlank (32 :: b :: rest) = .ok (b :: rest) := by
  have hwidth : Text.blankWidth (32 :: b :: rest) = 1 := by
    cases rest <;> rfl
  have htrim : Text.trimStart (32 :: b :: rest) = Text.trimStart (b :: rest) := by
    simp only [Text.trimStart, Text.dropUnits, hwidth]
  rw [skipBlank, htrim, Text.trimStart_of_ascii hb hblank]
  simp [hwidth]

/-- **The range of a side is read with its count**, whether this is written or not. -/
theorem withCount_range (sign : UInt8) (hsign : sign ≠ 44) (s : WrittenSide) :
    withCount (sign :: s.range) =
      sign :: (Text.ofNat s.first ++ 44 :: Text.ofNat s.lines.length) := by
  have hcomma : (",": Text) = [44] := by decide
  by_cases hbare : (s.bare && s.lines.length == 1) = true
  · have hone : s.lines.length = 1 := by simpa using (Bool.and_eq_true_iff.mp hbare).2
    have hdigits : (44 : UInt8) ∉ Text.ofNat s.first := by
      intro hmem
      exact absurd (Text.isDigit_of_mem_ofNat hmem) (by decide)
    have hnone : List.contains (sign :: Text.ofNat s.first) (44 : UInt8) = false := by
      simp [hsign.symm, hdigits]
    have hcount : (",1" : Text) = 44 :: Text.ofNat 1 := by decide
    rw [WrittenSide.range, if_pos hbare, withCount, hnone, hone, hcount]
    rfl
  · have hsome : List.contains (sign :: s.range) (44 : UInt8) = true := by
      rw [WrittenSide.range, if_neg hbare, hcomma]
      simp
    rw [withCount, if_pos hsome, WrittenSide.range, if_neg hbare, hcomma]
    simp

/-- The parts of a header, of which the last may be followed by a heading. -/
theorem splitAt_ranges (h : WrittenHunk) {tail : Text} (htail : tail = [] ∨ tail.head? = some 32) :
    ∃ heading, Text.splitAt 32 (h.ranges ++ tail) =
      [64, 64] :: (45 :: h.old.range) :: (43 :: h.new.range) :: [64, 64] :: heading := by
  have hline : h.ranges ++ tail = [64, 64] ++ 32 :: ((45 :: h.old.range) ++ 32 ::
      ((43 :: h.new.range) ++ 32 :: (64 :: 64 :: tail))) := by
    have hopening : ("@@ -" : Text) = [64, 64, 32, 45] := by decide
    have hmiddle : (" +" : Text) = [32, 43] := by decide
    have hclosing : (" @@" : Text) = [32, 64, 64] := by decide
    rw [WrittenHunk.ranges, hopening, hmiddle, hclosing]
    simp
  have hold : (32 : UInt8) ∉ 45 :: h.old.range := by
    simp [h.old.not_mem_range (b := 32) (by decide) (by decide)]
  have hnew : (32 : UInt8) ∉ 43 :: h.new.range := by
    simp [h.new.not_mem_range (b := 32) (by decide) (by decide)]
  rw [hline, Text.splitAt_append (by decide), Text.splitAt_append hold, Text.splitAt_append hnew]
  obtain rfl | htail := htail
  · exact ⟨[], rfl⟩
  · obtain ⟨t, rfl⟩ := List.head?_eq_some_iff.mp htail
    have hclosing : Text.splitAt 32 (64 :: 64 :: 32 :: t) = [64, 64] :: Text.splitAt 32 t :=
      Text.splitAt_append (t := [64, 64]) (by decide) t
    exact ⟨Text.splitAt 32 t, by rw [hclosing]⟩

/-- A header whose counts are written out is read as it was written. -/
theorem readNormalized_eq (h : WrittenHunk) (rest : Text) :
    readNormalized (64 :: 64 :: 32 :: 45 :: (Text.ofNat h.old.first ++ 44 ::
      (Text.ofNat h.old.lines.length ++ 32 :: 43 :: (Text.ofNat h.new.first ++ 44 ::
        (Text.ofNat h.new.lines.length ++ 32 :: 64 :: 64 :: rest))))) = .ok h.hunk := by
  have hblank (rest : Text) : ∀ b ∈ (32 :: rest : Text).head?, Text.isDigit b = false := by
    simp only [List.head?_cons, Option.mem_def, Option.some.injEq]
    rintro b rfl
    decide
  have hmark (rest : Text) : skipByte 64 (64 :: rest) = .ok rest := rfl
  simp only [readNormalized, bind, Except.bind, hmark,
    skipBlank_eq (b := 45) (by decide) (by decide), skipBlank_eq (b := 43) (by decide) (by decide),
    skipBlank_eq (b := 64) (by decide) (by decide),
    readRange_eq 45 h.old.first_lt h.old.length_lt (hblank _),
    readRange_eq 43 h.new.first_lt h.new.length_lt (hblank _)]
  rfl

/-- **The header of a hunk is read as it was written**, whatever its heading. -/
theorem parse_ranges (h : WrittenHunk) {tail : Text} (htail : tail = [] ∨ tail.head? = some 32) :
    Hunk.parse (h.ranges ++ tail) = .ok h.hunk := by
  obtain ⟨heading, hsplit⟩ := splitAt_ranges h htail
  obtain ⟨rest, hrest⟩ := Text.exists_join_cons [32] [64, 64] heading
  have hmark : Text.ofString "@@" = [64, 64] := by decide
  have hblank : Text.ofString " " = [32] := by decide
  have hnormal : normalized? (h.ranges ++ tail) = some (64 :: 64 :: 32 :: 45 ::
      (Text.ofNat h.old.first ++ 44 :: (Text.ofNat h.old.lines.length ++ 32 :: 43 ::
        (Text.ofNat h.new.first ++ 44 :: (Text.ofNat h.new.lines.length ++ 32 :: 64 :: 64 ::
          rest))))) := by
    rw [normalized?, hsplit]
    simp only [hmark, hblank, beq_self_eq_true, Bool.and_self, if_true,
      withCount_range 45 (by decide), withCount_range 43 (by decide), Text.join_cons_cons, hrest]
    simp
  rw [parse, hnormal]
  exact readNormalized_eq h rest

end Hunk

end Enclosure
