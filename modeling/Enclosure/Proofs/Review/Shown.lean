import Enclosure.Proofs.Review.UpToDate
import Enclosure.Proofs.Review.Verdict
import Enclosure.Proofs.Text.Pieces

/-!
# The comment shows what it is meant to show

The comment for an analysis shows the hunks that have an enclosing block, each with its file, and
the skipped files. Whatever it shows can be read back from it: names stand between backticks, so
that they end at the second one; ranges end at the first byte that is neither a digit nor a minus
sign, although a minus sign also stands between the two ends of a range; rows start with a bar, and
what follows the table does not. Two analyses have the same comment only if they show the same, so
that a comment that is found to be up to date hides no change.

## Main definitions

* `EnclosedHunk`, `Analysis.enclosed`: the hunks with an enclosing block, in order.
* `Analysis.shown`: what the comment shows.
* `Analysis.Legible`: no name and no reason breaks the layout of the comment.

## Main results

* `showLines_append_inj`, `BlockKind.shown_append_inj`, `EnclosedHunk.row_append_inj`,
  `SkippedFile.entry_append_inj`: the parts of a comment end by themselves.
* `Analysis.table_append_inj`, `Analysis.skippedList_inj`: the sections can be read back.
* `comment_eq_iff_shown_eq`: **the comments of two analyses are equal if and only if they show the
  same**.
-/

namespace Enclosure

/-! ### What is shown -/

/-- The byte on both sides of a name. -/
def Text.backtick : UInt8 := 96

/-- A hunk with its file and the block that encloses it. -/
structure EnclosedHunk where
  file : Text
  range : LineRange
  block : Block
deriving DecidableEq, Repr

/-- The row of a hunk with an enclosing block. -/
def EnclosedHunk.row (e : EnclosedHunk) : Text :=
  HunkReport.row e.file ⟨e.range, some e.block⟩

/-- The hunks of a file that have an enclosing block. -/
def FileReport.enclosed (f : FileReport) : List EnclosedHunk :=
  f.hunks.items.filterMap fun h => h.block.map (EnclosedHunk.mk f.name h.range)

namespace Analysis

/-- The hunks of all files that have an enclosing block. -/
def enclosed (a : Analysis) : List EnclosedHunk :=
  a.files.items.flatMap FileReport.enclosed

/-- What the comment for an analysis shows: the hunks that have an enclosing block, and the skipped
files. -/
def shown (a : Analysis) : List EnclosedHunk × List SkippedFile :=
  (a.enclosed, a.skipped.items)

/-- An analysis is **legible** if no name that is shown has a backtick in it, and no reason has a
newline. -/
structure Legible (a : Analysis) : Prop where
  enclosed : ∀ e ∈ a.enclosed, Text.backtick ∉ e.file ∧ Text.backtick ∉ e.block.name
  skipped : ∀ s ∈ a.skipped.items, Text.backtick ∉ s.name ∧ Text.newline ∉ s.reason

end Analysis

/-- The rows of a file are those of its hunks with an enclosing block. -/
theorem FileReport.rows_eq (f : FileReport) : f.rows = f.enclosed.flatMap EnclosedHunk.row := by
  rw [rows, enclosed]
  induction f.hunks.items with
  | nil => rfl
  | cons h hunks ih =>
      obtain ⟨range, block⟩ := h
      cases block with
      | none => exact ih
      | some b => exact congrArg (_ ++ ·) ih

namespace Analysis

/-- What is counted is what is shown. -/
theorem length_enclosed (a : Analysis) : a.enclosed.length = a.contextCount := by
  have hfile (f : FileReport) : f.enclosed.length = f.contextCount := by
    rw [FileReport.enclosed, List.length_filterMap_eq_countP, FileReport.contextCount]
    simp only [Option.isSome_map]
  rw [contextCount_eq, enclosed, List.length_flatMap, List.countP_flatMap]
  simp only [hfile]
  rfl

/-- The table is made from the hunks with an enclosing block. -/
theorem table_eq (a : Analysis) :
    a.table =
      if a.enclosed = [] then ("No changed hunk is enclosed by a function or class.\n" : Text)
      else "| File | Changed lines | Enclosing block |\n| --- | --- | --- |\n"
        ++ a.enclosed.flatMap EnclosedHunk.row := by
  have hrows : a.files.items.flatMap FileReport.rows = a.enclosed.flatMap EnclosedHunk.row := by
    rw [enclosed, List.flatMap_assoc]
    exact List.flatMap_congr fun f _ => f.rows_eq
  rw [table, ← length_enclosed, hrows]
  simp only [List.length_eq_zero_iff]

end Analysis

/-! ### What ends by itself -/

/-- **A range ends where neither a digit nor a minus sign follows.** -/
theorem showLines_append_inj {first last first' last' : Int} {r s : Text}
    (hr : ∀ b ∈ r.head?, Text.isDigit b = false ∧ b ≠ 45)
    (hs : ∀ b ∈ s.head?, Text.isDigit b = false ∧ b ≠ 45)
    (h : showLines first last ++ r = showLines first' last' ++ s) :
    (first = first' ∧ last = last') ∧ r = s := by
  have hminus (n : Int) (t : Text) :
      ∀ b ∈ (("-" : Text) ++ (Text.ofInt n ++ t)).head?, Text.isDigit b = false := by
    rintro b ⟨⟩
    rfl
  have hr' := fun b hb => (hr b hb).1
  have hs' := fun b hb => (hs b hb).1
  simp only [showLines] at h
  -- Behind the first end, a minus sign tells a range with two ends from a single line.
  split at h <;> split at h
  · rename_i heq heq'
    obtain ⟨rfl, hrest⟩ := Text.ofInt_append_inj hr' hs' h
    exact ⟨⟨rfl, heq.symm.trans heq'⟩, hrest⟩
  · simp only [List.append_assoc] at h
    obtain ⟨-, rfl⟩ := Text.ofInt_append_inj hr' (hminus last' s) h
    exact absurd rfl (hr 45 rfl).2
  · simp only [List.append_assoc] at h
    obtain ⟨-, rfl⟩ := Text.ofInt_append_inj (hminus last r) hs' h
    exact absurd rfl (hs 45 rfl).2
  · simp only [List.append_assoc] at h
    obtain ⟨rfl, hlast⟩ := Text.ofInt_append_inj (hminus last r) (hminus last' s) h
    obtain ⟨rfl, hrest⟩ := Text.ofInt_append_inj hr' hs' (List.append_cancel_left hlast)
    exact ⟨⟨rfl, rfl⟩, hrest⟩

/-- **A kind ends by itself.** -/
theorem BlockKind.shown_append_inj {k k' : BlockKind} {r s : Text}
    (h : k.shown ++ r = k'.shown ++ s) : k = k' ∧ r = s := by
  have hclose (t : Text) : ∀ b ∈ ((")" : Text) ++ t).head?, Text.isDigit b = false := by
    rintro b ⟨⟩
    rfl
  match k, k' with
  | .function, .function => exact ⟨rfl, List.append_cancel_left h⟩
  | .classBody, .classBody => exact ⟨rfl, List.append_cancel_left h⟩
  | .unknown m, .unknown n =>
      simp only [shown, List.append_assoc] at h
      obtain ⟨rfl, hrest⟩ :=
        Text.ofInt_append_inj (hclose r) (hclose s) (List.append_cancel_left h)
      exact ⟨rfl, List.append_cancel_left hrest⟩
  | .function, .classBody => cases h
  | .function, .unknown n => cases h
  | .classBody, .function => cases h
  | .classBody, .unknown n => cases h
  | .unknown m, .function => cases h
  | .unknown m, .classBody => cases h

namespace EnclosedHunk

/-- A row and what follows it, from one part to the next. -/
theorem row_append (e : EnclosedHunk) (r : Text) :
    e.row ++ r = "| `" ++ (e.file ++ Text.backtick :: (" | " ++ (e.range.shown ++ (" | "
      ++ (e.block.kind.shown ++ (" `" ++ (e.block.name ++ Text.backtick :: (" (lines "
        ++ (showLines e.block.first e.block.last ++ (") |\n" ++ r)))))))))) := by
  simp only [row, HunkReport.row, List.append_assoc]
  rfl

/-- Rows start with a bar. -/
theorem head?_row (e : EnclosedHunk) : e.row.head? = some 124 := rfl

/-- **A row ends by itself.** -/
theorem row_append_inj {e e' : EnclosedHunk} {r s : Text}
    (he : Text.backtick ∉ e.file ∧ Text.backtick ∉ e.block.name)
    (he' : Text.backtick ∉ e'.file ∧ Text.backtick ∉ e'.block.name)
    (h : e.row ++ r = e'.row ++ s) : e = e' ∧ r = s := by
  have hbar (t : Text) :
      ∀ b ∈ ((" | " : Text) ++ t).head?, Text.isDigit b = false ∧ b ≠ 45 := by
    rintro b ⟨⟩
    decide
  have hclose (t : Text) :
      ∀ b ∈ ((") |\n" : Text) ++ t).head?, Text.isDigit b = false ∧ b ≠ 45 := by
    rintro b ⟨⟩
    decide
  obtain ⟨file, ⟨first, last⟩, kind, name, blockFirst, blockLast⟩ := e
  obtain ⟨file', ⟨first', last'⟩, kind', name', blockFirst', blockLast'⟩ := e'
  rw [row_append, row_append] at h
  obtain ⟨rfl, h₁⟩ := Text.append_sep_inj he.1 he'.1 (List.append_cancel_left h)
  obtain ⟨⟨rfl, rfl⟩, h₂⟩ := showLines_append_inj (hbar _) (hbar _) (List.append_cancel_left h₁)
  obtain ⟨rfl, h₃⟩ := BlockKind.shown_append_inj (List.append_cancel_left h₂)
  obtain ⟨rfl, h₄⟩ := Text.append_sep_inj he.2 he'.2 (List.append_cancel_left h₃)
  obtain ⟨⟨rfl, rfl⟩, h₅⟩ :=
    showLines_append_inj (hclose r) (hclose s) (List.append_cancel_left h₄)
  exact ⟨rfl, List.append_cancel_left h₅⟩

end EnclosedHunk

namespace SkippedFile

/-- Entries start with a dash. -/
theorem head?_entry (s : SkippedFile) : s.entry.head? = some 45 := rfl

/-- **An entry ends by itself.** -/
theorem entry_append_inj {f f' : SkippedFile} {r s : Text}
    (hf : Text.backtick ∉ f.name ∧ Text.newline ∉ f.reason)
    (hf' : Text.backtick ∉ f'.name ∧ Text.newline ∉ f'.reason)
    (h : f.entry ++ r = f'.entry ++ s) : f = f' ∧ r = s := by
  have happend (f : SkippedFile) (r : Text) : f.entry ++ r = "- `" ++ (f.name ++
      Text.backtick :: (": " ++ (f.reason ++ Text.newline :: r))) := by
    simp only [entry, List.append_assoc]
    rfl
  obtain ⟨name, reason⟩ := f
  obtain ⟨name', reason'⟩ := f'
  rw [happend, happend] at h
  obtain ⟨rfl, hreason⟩ := Text.append_sep_inj hf.1 hf'.1 (List.append_cancel_left h)
  obtain ⟨rfl, hrest⟩ := Text.append_sep_inj hf.2 hf'.2 (List.append_cancel_left hreason)
  exact ⟨rfl, hrest⟩

end SkippedFile

/-! ### The sections of a comment -/

namespace Analysis

variable {x y : Analysis}

/-- **The table ends where no bar follows.** -/
theorem table_append_inj (hx : x.Legible) (hy : y.Legible) {r s : Text}
    (hr : r.head? ≠ some 124) (hs : s.head? ≠ some 124) (h : x.table ++ r = y.table ++ s) :
    x.enclosed = y.enclosed ∧ r = s := by
  rw [table_eq, table_eq] at h
  -- The sentence and the table start with different bytes.
  split at h <;> split at h
  · rename_i hnone hnone'
    exact ⟨hnone.trans hnone'.symm, List.append_cancel_left h⟩
  · cases h
  · cases h
  · simp only [List.append_assoc] at h
    exact Text.flatMap_append_inj EnclosedHunk.head?_row EnclosedHunk.row_append_inj hx.enclosed
      hy.enclosed hr hs (List.append_cancel_left h)

/-- **The skipped files can be read from their list.** -/
theorem skippedList_inj (hx : x.Legible) (hy : y.Legible) (h : x.skippedList = y.skippedList) :
    x.skipped.items = y.skipped.items := by
  simp only [skippedList, List.isEmpty_iff] at h
  split at h <;> split at h
  · rename_i hnone hnone'
    exact hnone.trans hnone'.symm
  · cases h
  · cases h
  · have hentries := congrArg (· ++ []) (List.append_cancel_left h)
    exact (Text.flatMap_append_inj SkippedFile.head?_entry SkippedFile.entry_append_inj hx.skipped
      hy.skipped (by simp) (by simp) hentries).1

/-- No bar follows the table. -/
theorem head?_skippedList (a : Analysis) : a.skippedList.head? ≠ some 124 := by
  rw [skippedList]
  split
  · exact nofun
  · intro h
    cases h

/-- What is shown can be read from the comment. -/
theorem shown_eq_of_comment_eq (hx : x.Legible) (hy : y.Legible) {header : Text}
    (h : x.comment header = y.comment header) : x.shown = y.shown := by
  simp only [comment, List.append_assoc] at h
  have hsections := List.append_cancel_left (List.append_cancel_left h)
  obtain ⟨henclosed, hlist⟩ :=
    table_append_inj hx hy x.head?_skippedList y.head?_skippedList hsections
  exact Prod.ext henclosed (skippedList_inj hx hy hlist)

/-- The comment is made from what is shown. -/
theorem comment_eq_of_shown_eq (header : Text) (h : x.shown = y.shown) :
    x.comment header = y.comment header := by
  obtain ⟨henclosed, hskipped⟩ := Prod.mk.inj h
  simp only [comment, table_eq, skippedList, henclosed, hskipped]

end Analysis

/-- A review that knows its pull request finds its comment up to date if it is among those that the
session remembers or then lists. -/
theorem isUpToDate_eq_any {σ : Type} {server : Server σ} {s : Session σ} {pull : PullRequest}
    (hpull : s.pull = some pull) (body : Text) :
    (isUpToDate server body s).1 =
      ((s.ensureComments server).comments.getD []).any (·.body == body) := by
  simp only [isUpToDate, Session.hasComment, hpull]
  rfl

/-- **The comments of two analyses are equal if and only if they show the same**: the same hunks
with an enclosing block, each with its file, and the same skipped files. If the comments with the
header are the one for `y`, then the one for `x` is found to be up to date if and only if `x` shows
the same as `y`. Names may contain anything but backticks, and reasons anything but newlines; kinds
and line numbers are arbitrary. -/
theorem comment_eq_iff_shown_eq (header : Text) {x y : Analysis} (hx : x.Legible)
    (hy : y.Legible) :
    (x.comment header = y.comment header ↔ x.shown = y.shown) ∧
    ∀ {σ : Type} (server : Server σ) (s : Session σ) (pull : PullRequest), s.pull = some pull →
      let comments := (s.ensureComments server).comments.getD []
      (∃ c ∈ comments, c.body = y.comment header) →
      (∀ c ∈ comments, c.body.startsWith header → c.body = y.comment header) →
      ((isUpToDate server (x.comment header) s).1 = true ↔ x.shown = y.shown) := by
  refine ⟨⟨Analysis.shown_eq_of_comment_eq hx hy, Analysis.comment_eq_of_shown_eq header⟩, ?_⟩
  intro σ server s pull hpull comments hthere honly
  rw [isUpToDate_eq_any hpull, List.any_eq_true]
  constructor
  · rintro ⟨c, hc, hbody⟩
    have hbody : c.body = x.comment header := eq_of_beq hbody
    have hy' : c.body = y.comment header :=
      honly c hc (hbody ▸ x.comment_startsWith header)
    exact Analysis.shown_eq_of_comment_eq hx hy (hbody.symm.trans hy')
  · intro hshown
    obtain ⟨c, hc, hbody⟩ := hthere
    rw [Analysis.comment_eq_of_shown_eq header hshown, ← hbody]
    exact ⟨c, hc, beq_self_eq_true c.body⟩

/-- A hunk from line -5 to the given line in a block of one line, a hunk outside of all blocks, and
a skipped file. -/
def hunkUpTo (last : Int) : Analysis :=
  ⟨some [⟨"a.py", some [⟨⟨-5, last⟩, some ⟨.function, "f", -8, -8⟩⟩, ⟨⟨9, 9⟩, none⟩]⟩],
    some [⟨"b.py", "too large: `b.py`"⟩]⟩

/-- A session that remembers a comment with the given body behind another comment. -/
def rememberingSession (body : Text) : Session Board :=
  { Session.start staleBoard with
    pull := some pagingHost.pull
    comments := some [⟨3, "hello", .zero⟩, ⟨5, body, .zero⟩] }

/-- One more minus sign is another comment, and the check notices it. -/
theorem comment_eq_iff_shown_eq_hunkUpTo :
    (hunkUpTo 3).comment standardHeader ≠ (hunkUpTo (-3)).comment standardHeader ∧
    (isUpToDate pagingHost.server ((hunkUpTo 3).comment standardHeader)
      (rememberingSession ((hunkUpTo (-3)).comment standardHeader))).1 = false := by
  have hlegible : (hunkUpTo 3).Legible ∧ (hunkUpTo (-3)).Legible :=
    ⟨⟨by decide, by decide⟩, ⟨by decide, by decide⟩⟩
  have hshown : (hunkUpTo 3).shown ≠ (hunkUpTo (-3)).shown := by decide
  obtain ⟨hcomment, hcheck⟩ := comment_eq_iff_shown_eq standardHeader hlegible.1 hlegible.2
  refine ⟨mt hcomment.mp hshown, ?_⟩
  have hnotice := hcheck pagingHost.server
    (rememberingSession ((hunkUpTo (-3)).comment standardHeader)) pagingHost.pull rfl
    ⟨_, List.mem_cons_of_mem _ List.mem_cons_self, rfl⟩
    (List.forall_mem_cons.mpr ⟨nofun, List.forall_mem_singleton.mpr fun _ => rfl⟩)
  rw [Bool.eq_false_iff]
  exact mt hnotice.mp hshown

end Enclosure
