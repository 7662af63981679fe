import Enclosure.Proofs.Text.WhiteSpace
import Enclosure.Tool.Input

/-!
# The lines of an input

The lines of an input come through a buffer, and what is in the buffer at any time depends on the
portions in which the input is read. What comes of it does not. A step of the scanner hands out the
first line of what **remains**, that is of what it holds and has not read, or leaves what remains as
it is. It gives up only if the first line of what remains is too long, and finds the end only if
that line is the last one and is short. So a scan fails if and only if some line is too long, and
all that was kept before is then lost.

## Main definitions

* `Scanner.remaining`: what a scanner has not handed out.
* `nonBlank`: the lines that are not blank, without the white space around them.
* `LineEnd`, `writtenLines`: lines as they are written, with one of two ends.

## Main results

* `Scanner.lines_of_line`, `Scanner.remaining_of_more`: what a step leaves.
* `Scanner.linesFrom_eq`: **what comes of a scan**, from any state of the scanner on.
* `linesRead_fails_iff_line_too_long`: **when the input has no lines, and which they are else**.
-/

namespace Enclosure

/-! ### The lines that are kept -/

/-- The lines that are not blank, without the white space around them. -/
def nonBlank (ls : List Text) : List Text :=
  (ls.map Text.trim).filter (· ≠ [])

/-- The lines of two lists that are not blank. -/
theorem nonBlank_append (ls ls' : List Text) :
    nonBlank (ls ++ ls') = nonBlank ls ++ nonBlank ls' := by
  rw [nonBlank, List.map_append, List.filter_append]
  rfl

/-- A line is kept unless it is blank. -/
theorem reverse_keepLine (kept : List Text) (l : Text) :
    (keepLine kept l).reverse = kept.reverse ++ nonBlank [l] := by
  by_cases hl : l.trim = []
  · simp [keepLine, nonBlank, hl]
  · simp [keepLine, nonBlank, hl]

/-- Of a list of lines, those are kept that are not blank. -/
theorem reverse_foldl_keepLine (kept ls : List Text) :
    (ls.foldl keepLine kept).reverse = kept.reverse ++ nonBlank ls := by
  induction ls generalizing kept with
  | nil => simp [nonBlank]
  | cons l ls ih =>
      rw [List.foldl_cons, ih, reverse_keepLine, List.append_assoc, ← nonBlank_append,
        List.singleton_append]

/-- White space around lines makes no difference. -/
theorem nonBlank_congr {ls ls' : List Text} (h : ls.map Text.trim = ls'.map Text.trim) :
    nonBlank ls = nonBlank ls' := by
  rw [nonBlank, h, nonBlank]

/-- A carriage return at the end of a line is white space. -/
theorem isBlankByte_of_mem_return : ∀ b ∈ [carriageReturn], Text.isBlankByte b = true := by
  intro b hb
  rw [List.mem_singleton.mp hb]
  rfl

/-- Taking a carriage return from the end of a line makes no difference. -/
theorem trim_dropFinal_return (l : Text) : (l.dropFinal [carriageReturn]).trim = l.trim := by
  rcases Text.dropFinal_cases [carriageReturn] l with h | h
  · calc (l.dropFinal [carriageReturn]).trim
      _ = (l.dropFinal [carriageReturn] ++ [carriageReturn]).trim :=
        (Text.trim_append_blank isBlankByte_of_mem_return _).symm
      _ = l.trim := by rw [← h]
  · rw [← h]

/-! ### What a step leaves -/

namespace Scanner

variable {s next : Scanner} {l : Text}

/-- What a scanner has not handed out. -/
def remaining (s : Scanner) : Text :=
  s.buffer.held ++ s.rest

/-- A line that is handed out is the first one of what remains. It is short. -/
theorem lines_of_line (h : s.step = .line l next) :
    ∃ raw, s.remaining.lines = raw :: next.remaining.lines ∧ raw.length < lineLimit ∧
      l.trim = raw.trim := by
  obtain ⟨raw, rfl, hraw, hlength, hheld, hrest⟩ : s.Admits (.line l next) := h ▸ s.admits_step
  refine ⟨raw, ?_, hlength, trim_dropFinal_return raw⟩
  rw [remaining, hheld, List.append_assoc, List.cons_append, ← hrest]
  exact Text.splitAt_append hraw _

/-- What remains is the same after a read. -/
theorem remaining_of_more (h : s.step = .more next) : next.remaining = s.remaining := by
  obtain ⟨n, -, -, hheld, hrest⟩ : s.Admits (.more next) := h ▸ s.admits_step
  rw [remaining, hheld, hrest, List.append_assoc, List.take_append_drop, remaining]

/-- At the end of the input one line remains, which is short. It is handed out unless it is
empty. -/
theorem lines_of_done {last : Option Text} (h : s.step = .done last) :
    ∃ raw, s.remaining.lines = [raw] ∧ raw.length < lineLimit ∧
      nonBlank last.toList = nonBlank [raw] := by
  obtain ⟨rfl, hnewline, hlength, hrest⟩ : s.Admits (.done last) := h ▸ s.admits_step
  refine ⟨s.buffer.held, ?_, hlength, ?_⟩
  · rw [remaining, hrest, List.append_nil]
    exact Text.splitAt_of_not_mem hnewline
  · rw [LineBuffer.last?]
    split
    · rename_i hempty
      rw [List.isEmpty_iff.mp hempty]
      rfl
    · exact nonBlank_congr (congrArg ([·]) (trim_dropFinal_return _))

/-- A scanner gives up only if the first line of what remains is too long. -/
theorem exists_long_of_tooLong (h : s.step = .tooLong) :
    ∃ l ∈ s.remaining.lines, lineLimit ≤ l.length := by
  obtain ⟨hnewline, hlength⟩ : s.Admits .tooLong := h ▸ s.admits_step
  have hlong (more : Text) : lineLimit ≤ (s.buffer.held ++ more).length := by
    rw [List.length_append]
    exact Nat.le_add_right_of_le hlength
  by_cases hmem : Text.newline ∈ s.rest
  · obtain ⟨more, later, hrest, hmore⟩ := List.eq_append_cons_of_mem hmem
    have hfirst : Text.newline ∉ s.buffer.held ++ more := by
      rw [List.mem_append, not_or]
      exact ⟨hnewline, hmore⟩
    refine ⟨s.buffer.held ++ more, ?_, hlong more⟩
    rw [remaining, hrest, ← List.append_assoc, Text.lines, Text.splitAt_append hfirst]
    exact List.mem_cons_self
  · have hnone : Text.newline ∉ s.remaining := by
      rw [remaining, List.mem_append, not_or]
      exact ⟨hnewline, hmem⟩
    refine ⟨s.remaining, ?_, hlong s.rest⟩
    rw [Text.lines, Text.splitAt_of_not_mem hnone]
    exact List.mem_cons_self

/-! ### What comes of a scan -/

/-- **What comes of a scan.** If one of the lines that remain is too long, the scan fails, and what
was kept is lost. Else the lines that remain are added to what was kept. -/
theorem linesFrom_eq (s : Scanner) (kept : List Text) :
    s.linesFrom kept =
      if ∃ l ∈ s.remaining.lines, lineLimit ≤ l.length then .error tooLongMessage
      else .ok (kept.reverse ++ nonBlank s.remaining.lines) := by
  -- The induction follows the scan: each case is what one step does to the lines that remain.
  fun_induction linesFrom s kept with
  | case1 s kept l next h ih =>
      obtain ⟨raw, hlines, hshort, htrim⟩ := lines_of_line h
      have hfirst : nonBlank [l] = nonBlank [raw] := nonBlank_congr (congrArg ([·]) htrim)
      have hkept : (keepLine kept l).reverse ++ nonBlank next.remaining.lines =
          kept.reverse ++ nonBlank (raw :: next.remaining.lines) := by
        rw [reverse_keepLine, hfirst, List.append_assoc, ← nonBlank_append, List.singleton_append]
      simp only [ih, hlines, hkept, List.exists_mem_cons_iff, Nat.not_le.mpr hshort, false_or]
  | case2 s kept next h ih => rw [ih, remaining_of_more h]
  | case3 s kept last h =>
      obtain ⟨raw, hlines, hshort, hlast⟩ := lines_of_done h
      have hnone : ¬ ∃ l ∈ [raw], lineLimit ≤ l.length := by
        simpa using hshort
      rw [hlines, if_neg hnone, reverse_foldl_keepLine, hlast]
  | case4 s kept h => rw [if_pos (exists_long_of_tooLong h)]

end Scanner

/-- What comes of an input, whatever portions the reads bring. -/
theorem linesRead_eq (portion : Nat → Nat) (input : Text) :
    linesRead portion input =
      if ∃ l ∈ input.lines, lineLimit ≤ l.length then .error tooLongMessage
      else .ok (nonBlank input.lines) :=
  Scanner.linesFrom_eq (.start portion input) []

/-- An input fails if and only if one of its lines is too long. -/
theorem linesRead_eq_error_iff {portion : Nat → Nat} {input : Text} :
    linesRead portion input = .error tooLongMessage ↔
      ∃ l ∈ input.lines, lineLimit ≤ l.length := by
  rw [linesRead_eq]
  split
  · rename_i hlong
    exact ⟨fun _ => hlong, fun _ => rfl⟩
  · rename_i hnone
    constructor
    · intro h
      cases h
    · exact fun h => absurd h hnone

/-- An input with short lines gives all of them that are not blank. -/
theorem linesRead_of_short (portion : Nat → Nat) {input : Text}
    (h : ∀ l ∈ input.lines, l.length < lineLimit) :
    linesRead portion input = .ok (nonBlank input.lines) := by
  rw [linesRead_eq, if_neg]
  rintro ⟨l, hl, hlong⟩
  exact Nat.not_lt.mpr hlong (h l hl)

/-! ### Lines as they are written -/

/-- What stands at the end of a line. -/
inductive LineEnd where
  /-- A newline. -/
  | newline
  /-- A carriage return and a newline. -/
  | returnNewline
deriving DecidableEq, Repr

/-- What stands in front of the newline at the end of a line. -/
def LineEnd.mark : LineEnd → Text
  | newline => []
  | returnNewline => [carriageReturn]

/-- Lines with their ends, and a last line without one. If that is empty, all lines have ends. -/
def writtenLines (ls : List (Text × LineEnd)) (last : Text) : Text :=
  ls.flatMap (fun (l, e) => l ++ e.mark ++ [Text.newline]) ++ last

/-- The lines of a text of written lines. -/
theorem lines_writtenLines {ls : List (Text × LineEnd)} {last : Text}
    (hls : ∀ p ∈ ls, Text.newline ∉ p.1) (hlast : Text.newline ∉ last) :
    (writtenLines ls last).lines = ls.map (fun (l, e) => l ++ e.mark) ++ [last] := by
  induction ls with
  | nil => exact Text.splitAt_of_not_mem hlast
  | cons p ls ih =>
      obtain ⟨hp, hls⟩ := List.forall_mem_cons.mp hls
      have hmark : Text.newline ∉ p.2.mark := by
        cases p.2 <;> decide
      have hline : Text.newline ∉ p.1 ++ p.2.mark := by
        rw [List.mem_append, not_or]
        exact ⟨hp, hmark⟩
      have hcons : writtenLines (p :: ls) last =
          (p.1 ++ p.2.mark) ++ Text.newline :: writtenLines ls last := by
        simp [writtenLines]
      rw [hcons, Text.lines, Text.splitAt_append hline, ← Text.lines, ih hls]
      rfl

/-- The end of a line makes no difference. -/
theorem nonBlank_map_mark (ls : List (Text × LineEnd)) (last : Text) :
    nonBlank (ls.map (fun (l, e) => l ++ e.mark) ++ [last]) =
      nonBlank (ls.map Prod.fst ++ [last]) := by
  apply nonBlank_congr
  rw [List.map_append, List.map_append, List.map_map, List.map_map]
  congr 1
  refine List.map_congr_left fun p _ => ?_
  have hmark : ∀ b ∈ p.2.mark, Text.isBlankByte b = true := by
    cases p.2 with
    | newline => exact List.forall_mem_nil _
    | returnNewline => exact isBlankByte_of_mem_return
  exact Text.trim_append_blank hmark p.1

/-! ### When a scan fails -/

/-- **An input has no lines if and only if one of them is too long**, that is, if there are 65536
bytes or more between two newlines or behind the last one; it does not matter which lines come
before. Else its lines are all that are not blank, in order, without the white space around them.
All of this holds whatever portions the reads bring, and whichever of its ends a line has. -/
theorem linesRead_fails_iff_line_too_long (portion : Nat → Nat) :
    (∀ input : Text,
      Text.join [Text.newline] input.lines = input ∧ (∀ l ∈ input.lines, Text.newline ∉ l) ∧
      linesRead portion input = inputLines input ∧
      (linesRead portion input = .error tooLongMessage ↔ ∃ l ∈ input.lines, 65536 ≤ l.length) ∧
      ((∀ l ∈ input.lines, l.length < 65536) →
        linesRead portion input = .ok (nonBlank input.lines))) ∧
    ∀ (ls : List (Text × LineEnd)) (last : Text),
      (∀ p ∈ ls, Text.newline ∉ p.1 ∧ (p.1 ++ p.2.mark).length < 65536) →
      Text.newline ∉ last → last.length < 65536 →
      linesRead portion (writtenLines ls last) = .ok (nonBlank (ls.map Prod.fst ++ [last])) := by
  constructor
  · intro input
    refine ⟨Text.join_splitAt Text.newline input, fun l hl => Text.not_mem_of_mem_splitAt hl, ?_,
      linesRead_eq_error_iff, linesRead_of_short portion⟩
    rw [inputLines, linesRead_eq, linesRead_eq]
  · intro ls last hls hlast hlength
    have hlines := lines_writtenLines (fun p hp => (hls p hp).1) hlast
    have hshort : ∀ l ∈ (writtenLines ls last).lines, l.length < lineLimit := by
      intro l hl
      rw [hlines, List.mem_append, List.mem_map, List.mem_singleton] at hl
      obtain ⟨p, hp, rfl⟩ | rfl := hl
      · exact (hls p hp).2
      · exact hlength
    rw [linesRead_of_short portion hshort, hlines, nonBlank_map_mark]

/-- The longest lines that are not too long, with both ends, and one more byte. A line that is too
long spoils the good one in front of it. A blank line is left out. -/
theorem linesRead_fails_iff_line_too_long_border :
    linesRead (· % 3) ("a.py" ++ Text.newline :: List.replicate 65536 97) = .error tooLongMessage ∧
    linesRead (· % 3) (writtenLines
        [(List.replicate 65534 97, .returnNewline), (List.replicate 65535 98, .newline)] "c.py") =
      .ok (nonBlank [List.replicate 65534 97, List.replicate 65535 98, "c.py"]) ∧
    linesRead (· % 3) "  a.py \r\n\n\tb.py" = .ok ["a.py", "b.py"] := by
  obtain ⟨hinput, hwritten⟩ := linesRead_fails_iff_line_too_long (· % 3)
  have hletters {n : Nat} {b : UInt8} (hb : Text.newline ≠ b) : Text.newline ∉ List.replicate n b :=
    fun hmem => hb (List.eq_of_mem_replicate hmem)
  -- The lengths are variables here, as the lines themselves are too long to be computed.
  have hends {m n : Nat} (hm : m + 1 < 65536) (hn : n < 65536) :
      linesRead (· % 3) (writtenLines
          [(List.replicate m 97, .returnNewline), (List.replicate n 98, .newline)] "c.py") =
        .ok (nonBlank [List.replicate m 97, List.replicate n 98, "c.py"]) := by
    refine hwritten _ "c.py" ?_ (by decide) (by decide)
    rw [List.forall_mem_cons, List.forall_mem_singleton]
    refine ⟨⟨hletters (by decide), ?_⟩, hletters (by decide), ?_⟩
    · simpa [LineEnd.mark] using hm
    · simpa [LineEnd.mark] using hn
  refine ⟨?_, ?_, ?_⟩
  · obtain ⟨-, -, -, hfails, -⟩ := hinput ("a.py" ++ Text.newline :: List.replicate 65536 97)
    refine hfails.mpr ⟨List.replicate 65536 97, ?_, Nat.le_of_eq List.length_replicate.symm⟩
    rw [Text.lines, Text.splitAt_append (by decide), Text.splitAt_of_not_mem (hletters (by decide))]
    exact List.mem_cons_of_mem _ List.mem_cons_self
  · exact hends (by decide) (by decide)
  · obtain ⟨-, -, -, -, hshort⟩ := hinput "  a.py \r\n\n\tb.py"
    exact (hshort (by decide)).trans (congrArg Except.ok (by decide))

end Enclosure
