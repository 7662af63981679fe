import Enclosure.Proofs.Source.Extent
import Enclosure.Proofs.Text.Pieces

/-!
# Texts one after the other

When one text is put behind another, with a newline between them, the blocks of the first one might
go on into the second. They do not if the second text **closes** them: its first line that is not
blank is indented no deeper than any header of the first text. Then the blocks of the whole are
those of the two parts, and a range of lines is enclosed as it is in the part where it lies; a range
across the border has no enclosing block.

Blank lines at the border belong to no block, so that it does not matter where they stand. Even the
empty text has one line, and what follows it is numbered accordingly.

## Main definitions

* `Text.joined`: a text behind another.
* `Text.Closes`: the texts that close all blocks of a text in front of them.
* `SourceLine.lower`, `Block.lower`: lines and blocks some lines further down.

## Main results

* `lastLine_append`: a block ends before a line that closes it, whatever follows.
* `blocksOfLines_append`: the blocks of lines behind which others close all blocks.
* `sourceLines_joined`, `blocks_joined`: the lines and the blocks of two texts.
* `blocks_of_joined_texts`: **the blocks of a text are those of its parts**.
-/

namespace Enclosure

/-- The text `b` behind the text `a`, on a line of its own. -/
def Text.joined (a b : Text) : Text :=
  a ++ Text.newline :: b

/-- Whether the line is the header of a block. -/
def SourceLine.isHeader (l : SourceLine) : Bool :=
  (Header.parse? l.content).isSome

/-- A text **closes** the blocks of a text in front of it: its first line that is not blank, if it
has one, is indented no deeper than any header of the other text. -/
def Text.Closes (b a : Text) : Prop :=
  ∀ l ∈ (sourceLines b).head?, ∀ h ∈ sourceLines a, h.isHeader = true → l.indent ≤ h.indent

/-- The line some lines further down. -/
def SourceLine.lower (n : Nat) (l : SourceLine) : SourceLine :=
  { l with number := l.number + n }

/-- The block some lines further down. -/
def Block.lower (n : Nat) (b : Block) : Block :=
  { b with first := b.first + n, last := b.last + n }

/-! ### Lines behind lines -/

/-- **A block ends before a line that closes it**, whatever follows. The lines in front of that line
may have ended the block before. -/
theorem lastLine_append {h : SourceLine} {more : List SourceLine}
    (hmore : ∀ l ∈ more.head?, l.indent ≤ h.indent) (rest : List SourceLine) :
    lastLine h (rest ++ more) = lastLine h rest := by
  -- The header moves down with the lines of its block, and only its indentation stays.
  induction rest generalizing h with
  | nil =>
      cases more with
      | nil => rfl
      | cons l more =>
          have hclosed : ¬ h.indent < l.indent := (hmore l rfl).not_gt
          rw [List.nil_append, lastLine_cons, if_neg hclosed, lastLine_nil]
  | cons l rest ih =>
      rw [List.cons_append, lastLine_cons, lastLine_cons]
      split
      · exact ih hmore
      · rfl

/-- **The blocks of lines behind which others close all blocks** are those of both. -/
theorem blocksOfLines_append {ls more : List SourceLine}
    (hmore : ∀ l ∈ more.head?, ∀ h ∈ ls, h.isHeader = true → l.indent ≤ h.indent) :
    blocksOfLines (ls ++ more) = blocksOfLines ls ++ blocksOfLines more := by
  induction ls with
  | nil => rfl
  | cons h rest ih =>
      have hrest := ih fun l hl k hk => hmore l hl k (List.mem_cons_of_mem h hk)
      rw [List.cons_append, blocksOfLines, blocksOfLines, hrest]
      cases hparse : Header.parse? h.content with
      | none => rfl
      | some header =>
          have hheader : h.isHeader = true := by rw [SourceLine.isHeader, hparse]; rfl
          have hlast : lastLine h (rest ++ more) = lastLine h rest :=
            lastLine_append (fun l hl => hmore l hl h List.mem_cons_self hheader) rest
          simp only [hlast, List.cons_append]

/-- Blocks move with their lines. -/
theorem blocksOfLines_lower (n : Nat) (ls : List SourceLine) :
    blocksOfLines (ls.map (SourceLine.lower n)) = (blocksOfLines ls).map (Block.lower n) := by
  refine @blocksOfLines_map (SourceLine.lower n) (· + n) (fun _ => rfl) (fun _ _ => Iff.rfl)
    (Block.lower n) (fun _ => rfl) ?_ ls
  intro kind name first last
  simp only [Block.lower, Int.natCast_add]

/-! ### Texts behind texts -/

/-- The lines of two texts are those of both. -/
theorem lines_joined (a b : Text) : (a.joined b).lines = a.lines ++ b.lines :=
  Text.splitAt_append_sep Text.newline a b

/-- **The numbered lines of two texts**: those of the second one have their numbers raised by the
number of lines of the first one. -/
theorem numbered_joined (a b : Text) :
    (a.joined b).lines.zipIdx 1 =
      a.lines.zipIdx 1 ++ (b.lines.zipIdx 1).map (Prod.map id (· + a.lines.length)) := by
  rw [lines_joined, List.zipIdx_append, List.map_snd_add_zipIdx_eq_zipIdx, Nat.add_comm]

/-- The lines of two texts that are not blank. -/
theorem sourceLines_joined (a b : Text) :
    sourceLines (a.joined b) =
      sourceLines a ++ (sourceLines b).map (SourceLine.lower a.lines.length) := by
  have hlower (raw : Text) (n : Nat) : SourceLine.ofRaw? raw (n + a.lines.length) =
      (SourceLine.ofRaw? raw n).map (SourceLine.lower a.lines.length) := by
    simp only [SourceLine.ofRaw?]
    split <;> rfl
  rw [sourceLines, numbered_joined, List.filterMap_append, List.filterMap_map, sourceLines,
    sourceLines, List.map_filterMap]
  exact congrArg (_ ++ List.filterMap · _) (funext fun line => hlower line.1 line.2)

/-- **The blocks of two texts** are those of both, if the second one closes the blocks of the
first. -/
theorem blocks_joined {a b : Text} (hcloses : b.Closes a) :
    blocks (a.joined b) = blocks a ++ (blocks b).map (Block.lower a.lines.length) := by
  rw [blocks, sourceLines_joined, blocksOfLines_append, blocksOfLines_lower]
  · rfl
  · intro l hl h hh hheader
    rw [List.head?_map, Option.mem_def, Option.map_eq_some_iff] at hl
    obtain ⟨k, hk, rfl⟩ := hl
    exact hcloses k hk h hh hheader

/-! ### Enclosing blocks -/

/-- A block of the second text contains no line of the first. -/
theorem Block.contains_lower_of_le {a b : Text} {c : Block} (hc : c ∈ blocks b) {lo : Int}
    (hlo : lo ≤ a.lines.length) (hi : Int) : (c.lower a.lines.length).contains lo hi = false := by
  have hone : 1 ≤ c.first := (bounds_of_mem_blocks hc).1
  rw [Bool.eq_false_iff, ne_eq, Block.contains_iff]
  rintro ⟨hfirst, -⟩
  simp only [Block.lower] at hfirst
  omega

/-- A block of the first text contains no line of the second. -/
theorem Block.contains_of_lt {a : Text} {c : Block} (hc : c ∈ blocks a) (lo : Int) {hi : Int}
    (hhi : a.lines.length < hi) : c.contains lo hi = false := by
  have hend : c.last ≤ a.lines.length := (bounds_of_mem_blocks hc).2.2
  rw [Bool.eq_false_iff, ne_eq, Block.contains_iff]
  rintro ⟨-, hlast⟩
  omega

/-- The enclosing block of a range in the joined text is looked for in the first text and then in
the second. -/
theorem enclosing?_joined {a b : Text} (hcloses : b.Closes a) {lo hi : Int} (hle : lo ≤ hi) :
    enclosing? (a.joined b) lo hi = (enclosing? a lo hi).or
      (((blocks b).map (Block.lower a.lines.length)).find? (·.contains lo hi)) := by
  rw [enclosing?_eq_find? _ hle, enclosing?_eq_find? a hle, blocks_joined hcloses,
    List.find?_append]

/-- A range that starts in the first text is enclosed by no block of the second. -/
theorem find?_lower_eq_none (a b : Text) {lo : Int} (hlo : lo ≤ a.lines.length) (hi : Int) :
    ((blocks b).map (Block.lower a.lines.length)).find? (·.contains lo hi) = none := by
  rw [List.find?_eq_none]
  intro c hc
  obtain ⟨d, hd, rfl⟩ := List.mem_map.mp hc
  simp [Block.contains_lower_of_le hd hlo hi]

/-- A range that ends behind a text has no enclosing block in it. -/
theorem enclosing?_eq_none_of_lt (a : Text) {lo hi : Int} (hle : lo ≤ hi)
    (hhi : a.lines.length < hi) : enclosing? a lo hi = none := by
  rw [enclosing?_eq_find? a hle, List.find?_eq_none]
  intro c hc
  simp [Block.contains_of_lt hc lo hhi]

/-- The blocks of the second text enclose the ranges that they enclosed before. -/
theorem find?_lower (n : Nat) (b : Text) {lo hi : Int} (hle : lo ≤ hi) :
    ((blocks b).map (Block.lower n)).find? (·.contains (lo + n) (hi + n)) =
      (enclosing? b lo hi).map (Block.lower n) := by
  have hcontains : (fun c : Block => c.contains (lo + n) (hi + n)) ∘ Block.lower n =
      fun c => c.contains lo hi := by
    funext c
    simp only [Function.comp_apply, Block.contains, Block.lower, Int.add_le_add_iff_right]
  rw [enclosing?_eq_find? b hle, List.find?_map, hcontains]

/-- **The blocks of a text are those of its parts**, if the second part closes the blocks of the
first. A range within the first part is then enclosed as if there were no second part, and a range
within the second part as if there were no first one, some lines further down. A range that starts
in the first part and reaches the first line of the second that is not blank, or even any line of
the second, has no enclosing block. -/
theorem blocks_of_joined_texts (a b : Text) (hcloses : b.Closes a) :
    blocks (a.joined b) = blocks a ++ (blocks b).map (Block.lower a.lines.length) ∧
    (∀ lo hi : Int, lo ≤ hi → hi ≤ a.lines.length →
      enclosing? (a.joined b) lo hi = enclosing? a lo hi) ∧
    (∀ lo hi : Int, 1 ≤ lo → lo ≤ hi →
      enclosing? (a.joined b) (lo + a.lines.length) (hi + a.lines.length) =
        (enclosing? b lo hi).map (Block.lower a.lines.length)) ∧
    ∀ lo hi : Int, lo ≤ a.lines.length → a.lines.length < hi →
      enclosing? (a.joined b) lo hi = none := by
  refine ⟨blocks_joined hcloses, ?_, ?_, ?_⟩
  · intro lo hi hle hhi
    rw [enclosing?_joined hcloses hle, find?_lower_eq_none a b (by omega) hi, Option.or_none]
  · intro lo hi hlo hle
    have hbelow : lo + a.lines.length ≤ hi + a.lines.length := by omega
    have hbehind : (a.lines.length : Int) < hi + a.lines.length := by omega
    rw [enclosing?_joined hcloses hbelow, enclosing?_eq_none_of_lt a hbelow hbehind, Option.none_or,
      find?_lower _ b hle]
  · intro lo hi hlo hhi
    have hle : lo ≤ hi := by omega
    rw [enclosing?_joined hcloses hle, enclosing?_eq_none_of_lt a hle hhi,
      find?_lower_eq_none a b hlo hi, Option.none_or]

/-- A class with a method, both still open at the end of the text, and a blank line. -/
def openOutline : Text := "class A:\n  def f(x):\n    x\n"

/-- Two blank lines and a function. -/
def closingOutline : Text := "\n\t\ndef g():\n  y"

/-- Both blocks end on line 3, before the blank lines of either text, and no block encloses the
lines from there to the header on line 7. -/
theorem blocks_of_joined_texts_openOutline :
    closingOutline.Closes openOutline ∧
    blocks (openOutline.joined closingOutline) =
      [⟨.classBody, "A", 1, 3⟩, ⟨.function, "f", 2, 3⟩, ⟨.function, "g", 7, 8⟩] ∧
    enclosing? (openOutline.joined closingOutline) 3 3 = some ⟨.classBody, "A", 1, 3⟩ ∧
    enclosing? (openOutline.joined closingOutline) 8 8 = some ⟨.function, "g", 7, 8⟩ ∧
    enclosing? (openOutline.joined closingOutline) 3 7 = none := by
  have hcloses : closingOutline.Closes openOutline := by
    have hhead : (sourceLines closingOutline).head? = some ⟨3, 0, "def g():"⟩ := by decide
    intro l hl h _ _
    obtain rfl : ⟨3, 0, "def g():"⟩ = l := Option.some.inj (hhead.symm.trans hl)
    exact Nat.zero_le h.indent
  obtain ⟨hblocks, hfirst, hsecond, hacross⟩ :=
    blocks_of_joined_texts openOutline closingOutline hcloses
  exact ⟨hcloses, hblocks.trans (by decide), (hfirst 3 3 (by decide) (by decide)).trans (by decide),
    (hsecond 4 4 (by decide) (by decide)).trans (by decide), hacross 3 7 (by decide) (by decide)⟩

end Enclosure
