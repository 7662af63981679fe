import Enclosure.Text.Basic

/-!
# Lines through a buffer

A scanner reads an input in portions into a buffer and hands out its lines one at a time, without
their ends. The buffer starts small and is doubled when it is full, up to a limit; a line that does
not fit into the largest buffer ends the scan. How much a single read brings is not up to the
scanner.

## Main definitions

* `LineBuffer`: the buffer, with the bytes that are read and not handed out yet.
* `LineBuffer.line?`: the first line in the buffer.
* `LineBuffer.makeRoom?`: the buffer with room for more.
* `Scanner`, `Scanner.step`: the scanner, and what it does next.

The main statement is `Scanner.admits_step`, which says all that a step can do.
-/

namespace Enclosure

/-- The number of bytes that the buffer may have at most. -/
def lineLimit : Nat := 65536

/-- The number of bytes that the buffer has at first. -/
def firstSize : Nat := 4096

/-- The byte that may stand in front of the newline at the end of a line. -/
def carriageReturn : UInt8 := 13

/-- A buffer. The bytes that are read and not handed out yet stand behind `start` bytes that are no
longer needed. -/
structure LineBuffer where
  size : Nat
  start : Nat
  held : Text
  fits : start + held.length ≤ size
  size_le : size ≤ lineLimit

namespace LineBuffer

/-- The buffer before the first read. -/
def empty : LineBuffer where
  size := 0
  start := 0
  held := []
  fits := Nat.le_refl 0
  size_le := Nat.zero_le lineLimit

/-- The number of bytes that can be read behind those that are held. -/
def room (b : LineBuffer) : Nat :=
  b.size - (b.start + b.held.length)

/-- The first line that is held up to its newline, without it, and the buffer behind it. -/
def line? (b : LineBuffer) : Option (Text × LineBuffer) :=
  let i := b.held.idxOf Text.newline
  if h : i < b.held.length then
    some (b.held.take i,
      { b with
        start := b.start + (i + 1)
        held := b.held.drop (i + 1)
        fits := by
          have hfits := b.fits
          rw [List.length_drop]
          omega })
  else none

/-- What is left once the input is at its end: a line without a newline, unless nothing is held. -/
def last? (b : LineBuffer) : Option Text :=
  if b.held.isEmpty then none else some (b.held.dropFinal [carriageReturn])

/-- The bytes that are held, at the front of a buffer that is at least as large. -/
def moved (b : LineBuffer) (size : Nat) (hle : b.size ≤ size) (hlimit : size ≤ lineLimit) :
    LineBuffer where
  size := size
  start := 0
  held := b.held
  fits := by
    have hfits := b.fits
    omega
  size_le := hlimit

/-- The bytes that are held are moved to the front if there is no room behind them, or if more than
half of the buffer is no longer needed. -/
def shifted (b : LineBuffer) : LineBuffer :=
  if 0 < b.start ∧ (b.room = 0 ∨ b.size / 2 < b.start) then
    b.moved b.size (Nat.le_refl b.size) b.size_le
  else b

/-- Twice the size, or the first size if there is none, up to the limit. -/
def nextSize (size : Nat) : Nat :=
  min (if size = 0 then firstSize else 2 * size) lineLimit

/-- A buffer that may grow does so. -/
theorem lt_nextSize {size : Nat} (h : size < lineLimit) : size < nextSize size := by
  simp only [nextSize, firstSize, lineLimit] at h ⊢
  split <;> omega

/-- No buffer grows beyond the limit. -/
theorem nextSize_le (size : Nat) : nextSize size ≤ lineLimit :=
  Nat.min_le_right _ _

/-- The buffer with room for more bytes, unless it is full and may not grow. -/
def makeRoom? (b : LineBuffer) : Option LineBuffer :=
  if b.shifted.room = 0 then
    if h : b.shifted.size < lineLimit then
      some (b.shifted.moved (nextSize b.shifted.size) (Nat.le_of_lt (lt_nextSize h))
        (nextSize_le b.shifted.size))
    else none
  else some b.shifted

/-- The line that a buffer holds stands in front of the first newline. It is not too long, as the
newline has fit in behind it. -/
theorem held_of_line? {b c : LineBuffer} {l : Text} (h : b.line? = some (l, c)) :
    b.held = l ++ Text.newline :: c.held ∧ Text.newline ∉ l ∧ l.length < lineLimit := by
  rw [line?] at h
  split at h
  · rename_i hi
    obtain ⟨rfl, rfl⟩ := Prod.mk.inj (Option.some.inj h)
    have hrest : b.held.drop (b.held.idxOf Text.newline) =
        Text.newline :: b.held.drop (b.held.idxOf Text.newline + 1) := by
      rw [List.drop_eq_getElem_cons hi, List.getElem_idxOf hi]
    have hfits := b.fits
    have hlimit := b.size_le
    refine ⟨?_, ?_, ?_⟩
    · exact (List.take_append_drop _ b.held).symm.trans (congrArg (_ ++ ·) hrest)
    · intro hmem
      obtain ⟨j, hj, hnewline⟩ := List.mem_take_iff_getElem.mp hmem
      have hother := List.not_of_lt_findIdx (Nat.lt_of_lt_of_le hj (Nat.min_le_left _ _))
      rw [hnewline] at hother
      cases hother
    · rw [List.length_take]
      omega
  · cases h

/-- A buffer that holds no line holds no newline. -/
theorem newline_not_mem_of_line? {b : LineBuffer} (h : b.line? = none) :
    Text.newline ∉ b.held := by
  rw [line?] at h
  split at h
  · cases h
  · rename_i hi
    exact fun hmem => hi (List.idxOf_lt_length_iff.mpr hmem)

/-- Moving the bytes that are held does not change them. -/
@[simp] theorem held_shifted (b : LineBuffer) : b.shifted.held = b.held := by
  rw [shifted]
  split <;> rfl

/-- Making room does not change the bytes that are held. -/
theorem held_of_makeRoom? {b c : LineBuffer} (h : b.makeRoom? = some c) : c.held = b.held := by
  rw [makeRoom?] at h
  split at h
  · split at h
    · obtain rfl := Option.some.inj h
      exact held_shifted b
    · cases h
  · obtain rfl := Option.some.inj h
    exact held_shifted b

/-- Making room leaves room for one byte at least. -/
theorem room_of_makeRoom? {b c : LineBuffer} (h : b.makeRoom? = some c) : 0 < c.room := by
  rw [makeRoom?] at h
  split at h
  · split at h
    · rename_i hsize
      obtain rfl := Option.some.inj h
      have hgrown := lt_nextSize hsize
      have hfits := b.shifted.fits
      simp only [room, moved]
      omega
    · cases h
  · rename_i hroom
    obtain rfl := Option.some.inj h
    exact Nat.pos_of_ne_zero hroom

/-- The bytes that are held start at the front, if there is no room behind them even so. -/
theorem start_shifted {b : LineBuffer} (h : b.shifted.room = 0) : b.shifted.start = 0 := by
  rw [shifted] at h ⊢
  split
  · rfl
  · rename_i hkept
    rw [if_neg hkept] at h
    exact Nat.eq_zero_of_not_pos fun hstart => hkept ⟨hstart, .inl h⟩

/-- A buffer in which no room can be made is full, and as large as a buffer may be. -/
theorem le_length_of_makeRoom? {b : LineBuffer} (h : b.makeRoom? = none) :
    lineLimit ≤ b.held.length := by
  rw [makeRoom?] at h
  split at h
  · rename_i hroom
    split at h
    · cases h
    · have hstart := start_shifted hroom
      rw [room, hstart, held_shifted] at hroom
      omega
  · cases h

/-- The bytes in a buffer with room for more are less than the limit. -/
theorem length_lt (b : LineBuffer) (h : 0 < b.room) : b.held.length < lineLimit := by
  have hlimit := b.size_le
  rw [room] at h
  omega

end LineBuffer

/-- A scanner. The next read brings one byte more than `portion 0`, the one after it one byte more
than `portion 1`, and so on, unless there is less room or less of the input left. -/
structure Scanner where
  buffer : LineBuffer
  rest : Text
  portion : Nat → Nat

/-- What a scanner does next. -/
inductive ScanStep where
  /-- It hands out a line. -/
  | line (l : Text) (next : Scanner)
  /-- It reads a portion of the input. -/
  | more (next : Scanner)
  /-- The input is at its end; there may be a line without a newline left. -/
  | done (last : Option Text)
  /-- There is a line that does not fit into the buffer. -/
  | tooLong

namespace Scanner

/-- The scanner before it has read anything. -/
def start (portion : Nat → Nat) (input : Text) : Scanner :=
  ⟨.empty, input, portion⟩

/-- The number of bytes that the next read brings into a buffer at most. -/
def wanted (s : Scanner) (buffer : LineBuffer) : Nat :=
  min (s.portion 0 + 1) buffer.room

/-- The next portion of the input is read into a buffer. -/
def refill (s : Scanner) (buffer : LineBuffer) : Scanner where
  buffer :=
    { buffer with
      held := buffer.held ++ s.rest.take (s.wanted buffer)
      fits := by
        have hfits := buffer.fits
        rw [List.length_append, List.length_take, wanted, LineBuffer.room]
        omega }
  rest := s.rest.drop (s.wanted buffer)
  portion := fun k => s.portion (k + 1)

/-- What the scanner does next. It reads only if it holds no newline, and finds the end of the input
only if there is room to read. -/
def step (s : Scanner) : ScanStep :=
  match s.buffer.line? with
  | some (l, buffer) => .line (l.dropFinal [carriageReturn]) { s with buffer }
  | none =>
    match s.buffer.makeRoom? with
    | none => .tooLong
    | some buffer =>
      if s.rest.isEmpty then .done buffer.last? else .more (s.refill buffer)

/-- What a scanner may do, given what it holds and what it has not read. A line that it hands out is
short and stands in front of a newline. If it holds no newline, it gives up because too much is held,
or is at the end of the input, where what is held is short, or reads one byte at least. -/
def Admits (s : Scanner) : ScanStep → Prop
  | .line l next =>
    ∃ raw, l = raw.dropFinal [carriageReturn] ∧ Text.newline ∉ raw ∧ raw.length < lineLimit ∧
      s.buffer.held = raw ++ Text.newline :: next.buffer.held ∧ next.rest = s.rest
  | .more next =>
    ∃ n, 0 < n ∧ s.rest ≠ [] ∧ next.buffer.held = s.buffer.held ++ s.rest.take n ∧
      next.rest = s.rest.drop n
  | .done last =>
    last = s.buffer.last? ∧ Text.newline ∉ s.buffer.held ∧ s.buffer.held.length < lineLimit ∧
      s.rest = []
  | .tooLong => Text.newline ∉ s.buffer.held ∧ lineLimit ≤ s.buffer.held.length

/-- **All that a step can do.** -/
theorem admits_step (s : Scanner) : s.Admits s.step := by
  rw [step]
  split
  · rename_i raw buffer hline
    obtain ⟨hheld, hraw, hlength⟩ := LineBuffer.held_of_line? hline
    exact ⟨raw, rfl, hraw, hlength, hheld, rfl⟩
  · rename_i hline
    have hnewline := LineBuffer.newline_not_mem_of_line? hline
    split
    · rename_i hroom
      exact ⟨hnewline, LineBuffer.le_length_of_makeRoom? hroom⟩
    · rename_i buffer hroom
      have hheld := LineBuffer.held_of_makeRoom? hroom
      have hpos := LineBuffer.room_of_makeRoom? hroom
      split
      · rename_i hrest
        refine ⟨?_, hnewline, hheld ▸ buffer.length_lt hpos, List.isEmpty_iff.mp hrest⟩
        rw [LineBuffer.last?, LineBuffer.last?, hheld]
      · rename_i hrest
        have hwanted : 0 < s.wanted buffer := Nat.lt_min.mpr ⟨Nat.succ_pos _, hpos⟩
        exact ⟨s.wanted buffer, hwanted, mt List.isEmpty_iff.mpr hrest, congrArg (· ++ _) hheld, rfl⟩

/-- How much a scanner has to do at most: it reads each byte and hands it out. -/
def weight (s : Scanner) : Nat :=
  2 * s.rest.length + s.buffer.held.length

/-- Handing out a line uses up some weight. -/
theorem weight_lt_of_line {s next : Scanner} {l : Text} (h : s.step = .line l next) :
    next.weight < s.weight := by
  obtain ⟨raw, -, -, -, hheld, hrest⟩ : s.Admits (.line l next) := h ▸ s.admits_step
  rw [weight, weight, hheld, hrest, List.length_append, List.length_cons]
  omega

/-- Reading a portion uses up some weight. -/
theorem weight_lt_of_more {s next : Scanner} (h : s.step = .more next) :
    next.weight < s.weight := by
  obtain ⟨n, hn, hne, hheld, hrest⟩ : s.Admits (.more next) := h ▸ s.admits_step
  have hlength : 0 < s.rest.length := List.length_pos_iff.mpr hne
  rw [weight, weight, hheld, hrest, List.length_append, List.length_take, List.length_drop]
  omega

end Scanner

end Enclosure
