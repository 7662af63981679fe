import Enclosure.Proofs.Patch.Written
import Enclosure.Proofs.Text.WhiteSpace
import Mathlib.Data.List.TakeWhile

/-!
# Reading a diff as it was written

The machine that reads diffs takes a written diff apart again: whatever the lines of its hunks are,
they are neither lost nor taken for anything else. Lines are passed one by one, so that each part of
a file leads from one kind of state to the next: from between two files through its headers and
names to its hunks, and there over each side of each hunk. Only where the sides of a hunk meet does
it matter what the next line is.

## Main definitions

* `Patch.Reads`: the states in which a file has been named and some of its hunks have been read.
* `Patch.Between`: the states between two files, with the files read so far.

## Main results

* `Patch.linesOf_terminated`: terminated lines are read one by one, less carriage returns.
* `Patch.run_removed`, `Patch.run_hunk`, `Patch.run_hunks`, `Patch.run_file`: what the parts of a
  diff do to the state.
* `changedFiles_text`: **a written diff is read as the changes it was written from**.
-/

namespace Enclosure

namespace Patch

/-! ### Lines -/

/-- Only the end of a line matters for the carriage return at its end. -/
theorem dropReturn_append {front : Text} (hfront : front.getLast? ≠ some 13) (rest : Text) :
    dropReturn (front ++ rest) = front ++ dropReturn rest := by
  cases hrest : rest.getLast? with
  | none =>
      obtain rfl := List.getLast?_eq_none_iff.mp hrest
      simp [dropReturn, hfront]
  | some b =>
      have hne : rest ≠ [] := by
        rintro rfl
        cases hrest
      have hlast : (front ++ rest).getLast? = some b := by
        rw [List.getLast?_append, hrest]
        rfl
      rw [dropReturn, dropReturn, hlast, hrest]
      split
      · exact List.dropLast_append_of_ne_nil hne
      · rfl

/-- A line without its carriage return starts as the line does. -/
theorem dropReturn_prefix_self (l : Text) : dropReturn l <+: l := by
  rw [dropReturn]
  split
  · exact List.dropLast_prefix l
  · exact List.prefix_rfl

/-- **Terminated lines are read one by one**, less carriage returns. -/
theorem linesOf_terminated {ls : List Text} (hls : ∀ l ∈ ls, Text.newline ∉ l) :
    linesOf (ls.flatMap (· ++ [Text.newline])) = ls.map dropReturn := by
  induction ls with
  | nil => rfl
  | cons l ls ih =>
      obtain ⟨hl, hls⟩ := List.forall_mem_cons.mp hls
      have hsplit : Text.lines ((l :: ls).flatMap (· ++ [Text.newline])) =
          l :: Text.lines (ls.flatMap (· ++ [Text.newline])) := by
        rw [List.flatMap_cons, List.append_assoc, List.singleton_append]
        exact Text.splitAt_append hl _
      rw [linesOf, hsplit, List.map_cons, ← ih hls, linesOf]
      cases hrest : Text.lines (ls.flatMap (· ++ [Text.newline])) with
      | nil => exact absurd hrest (Text.splitAt_ne_nil _ _)
      | cons p ps => rfl

/-! ### Inside a hunk -/

/-- The states in which a file has been named and some of its hunks, listed last one first, have
been read. -/
def Reads (s : State) (name : Text) (hunks : List Hunk) : Prop :=
  s.stage = .named name ∧ hunks = [] ∨ ∃ headersEnd, s.stage = .hunks headersEnd name hunks

variable {s : State} {name : Text} {hunks : List Hunk} {headersEnd : Position} {rest : List Text}

/-- A run goes on behind its first line. -/
theorem run_cons {s' : State} {l : Text} (hstep : step s l rest = .ok s') :
    run s (l :: rest) = run s' rest := by
  simp only [run, hstep]

/-- Two lines that do not both look like file names start no file. -/
theorem startsFile_eq_false {l : Text} (h : ∀ next ∈ rest.head?,
    ¬ (l.startsWith "---" = true ∧ next.startsWith "+++" = true)) : startsFile l rest = false := by
  match rest with
  | [] => simp [startsFile]
  | [next] => simp [startsFile]
  | next :: hunk :: rest =>
      have hnext := h next rfl
      simp only [startsFile, Bool.and_eq_false_iff]
      by_cases hl : l.startsWith "---" = true
      · exact .inr (.inl (Bool.eq_false_iff.mpr fun hn => hnext ⟨hl, hn⟩))
      · exact .inl (Bool.eq_false_iff.mpr hl)

/-- A hunk holds a line of its own that does not start another file. -/
theorem run_hunkLine (hs : s.stage = .hunks headersEnd name hunks) {l : Text}
    (hline : isHunkLine l = true) (hmark : l.startsWith Hunk.mark = false)
    (hstart : startsFile l rest = false) :
    run s (l :: rest) = run { s with here := s.here.after l } rest := by
  refine run_cons ?_
  simp only [step, hs, hstart, hmark, hline, Bool.false_eq_true, if_false, if_true]

/-- Lines that are added are passed. -/
theorem run_added (hs : s.stage = .hunks headersEnd name hunks) (ls : List Text) :
    ∃ here, run s (ls.map (43 :: ·) ++ rest) = run { s with here := here } rest := by
  induction ls generalizing s with
  | nil => exact ⟨s.here, rfl⟩
  | cons l ls ih =>
      rw [List.map_cons, List.cons_append, run_hunkLine hs rfl rfl rfl]
      exact ih hs

/-- **Lines that are removed are passed**, as long as the last of them and the line behind it do not
look like the names of another file. -/
theorem run_removed (hs : s.stage = .hunks headersEnd name hunks) (ls : List Text)
    (hmeet : ∀ l ∈ ls.getLast?, ∀ next ∈ rest.head?,
      ¬ (l.startsWith "--" = true ∧ next.startsWith "+++" = true)) :
    ∃ here, run s (ls.map (45 :: ·) ++ rest) = run { s with here := here } rest := by
  induction ls generalizing s with
  | nil => exact ⟨s.here, rfl⟩
  | cons l ls ih =>
      have hstart : startsFile (45 :: l) (ls.map (45 :: ·) ++ rest) = false := by
        -- Only the last of the lines is followed by something else than a removed line.
        refine startsFile_eq_false ?_
        cases ls with
        | nil => exact hmeet l rfl
        | cons l' ls =>
            rintro next hnext ⟨-, hplus⟩
            obtain rfl : 45 :: l' = next := Option.some.inj hnext
            cases hplus
      rw [List.map_cons, List.cons_append, run_hunkLine hs rfl rfl hstart]
      refine ih hs fun l' hl' => hmeet l' ?_
      rw [Option.mem_def] at hl' ⊢
      rw [List.getLast?_cons, hl', Option.getD_some]

/-- What is said of the last line of a side is passed. -/
theorem run_closing (hs : s.stage = .hunks headersEnd name hunks) (side : WrittenSide) :
    ∃ here, run s (side.closing ++ rest) = run { s with here := here } rest := by
  rw [WrittenSide.closing]
  split
  · exact ⟨_, run_hunkLine hs rfl rfl rfl⟩
  · exact ⟨s.here, rfl⟩

/-! ### Hunks -/

/-- What a line starts with, less its carriage return, it starts with. -/
theorem startsWith_of_dropReturn {l pat : Text} (h : (dropReturn l).startsWith pat = true) :
    l.startsWith pat = true := by
  have hpat := Text.startsWith_iff.mp h
  exact Text.startsWith_iff.mpr (hpat.trans (dropReturn_prefix_self l))

/-- The lines of a side lose their carriage returns behind their sign. -/
theorem map_dropReturn_body (sign : UInt8) (hsign : sign ≠ 13) (side : WrittenSide) :
    (side.body sign).map dropReturn =
      (side.lines.map dropReturn).map (sign :: ·) ++ side.closing := by
  have hline (l : Text) : dropReturn (sign :: l) = sign :: dropReturn l :=
    @dropReturn_append [sign] (by simpa using hsign) l
  have hclosing : side.closing.map dropReturn = side.closing := by
    rw [WrittenSide.closing]
    split
    · rfl
    · rfl
  rw [WrittenSide.body, List.map_append, hclosing, List.map_map, List.map_map]
  simp only [Function.comp_def, hline]

/-- Where the sides of a hunk meet, its lines do not look like the names of another file. -/
theorem apart_dropReturn (h : WrittenHunk) (hrest : ∀ l ∈ rest.head?, l.startsWith "+++" = false) :
    ∀ l ∈ (h.old.lines.map dropReturn).getLast?,
      ∀ next ∈ (h.old.closing ++ ((h.new.body 43).map dropReturn ++ rest)).head?,
        ¬ (l.startsWith "--" = true ∧ next.startsWith "+++" = true) := by
  rintro l hl next hnext ⟨hminus, hplus⟩
  rw [List.getLast?_map, Option.mem_def, Option.map_eq_some_iff] at hl
  obtain ⟨l, hl, rfl⟩ := hl
  have hne : h.old.lines.isEmpty = false := by
    rw [List.isEmpty_eq_false_iff]
    exact fun hnil => by simp [hnil] at hl
  cases hunended : h.old.unended with
  | true =>
      -- What is said of the last removed line stands between the sides.
      rw [WrittenSide.closing, hunended, hne] at hnext
      obtain rfl : WrittenSide.unendedMark = next := Option.some.inj hnext
      cases hplus
  | false =>
      rw [WrittenSide.closing, hunended, map_dropReturn_body 43 (by decide)] at hnext
      cases hnew : h.new.lines with
      | nil =>
          -- Nothing is added, so that the next line is the one behind the hunk.
          rw [WrittenSide.closing, hnew] at hnext
          simp only [Bool.false_and, List.isEmpty_nil, Bool.not_true, Bool.and_false,
            Bool.false_eq_true, if_false, List.map_nil, List.nil_append] at hnext
          rw [hrest next hnext] at hplus
          cases hplus
      | cons l' ls =>
          rw [hnew] at hnext
          obtain rfl : 43 :: dropReturn l' = next := Option.some.inj hnext
          have hplus : (dropReturn l').startsWith "++" = true := hplus
          exact h.apart hunended l hl l' (by rw [hnew]; rfl)
            ⟨startsWith_of_dropReturn hminus, startsWith_of_dropReturn hplus⟩

/-- **The lines of a hunk are passed.** -/
theorem run_body (hs : s.stage = .hunks headersEnd name hunks) (h : WrittenHunk)
    (hrest : ∀ l ∈ rest.head?, l.startsWith "+++" = false) :
    ∃ here, run s ((h.old.body 45).map dropReturn ++ ((h.new.body 43).map dropReturn ++ rest)) =
      run { s with here := here } rest := by
  have hapart := apart_dropReturn h hrest
  rw [map_dropReturn_body 45 (by decide), List.append_assoc]
  obtain ⟨here₁, hremoved⟩ := run_removed hs _ hapart
  obtain ⟨here₂, hclosing⟩ := run_closing (s := { s with here := here₁ }) hs h.old
  rw [hremoved, hclosing, map_dropReturn_body 43 (by decide), List.append_assoc]
  obtain ⟨here₃, hadded⟩ := run_added (s := { s with here := here₂ }) hs
    (h.new.lines.map dropReturn)
  obtain ⟨here₄, hclosing⟩ := run_closing (s := { s with here := here₃ }) hs h.new
  exact ⟨here₄, hadded.trans hclosing⟩

/-- A header is read as it was written, also without a carriage return behind its heading. -/
theorem parse_dropReturn_header (h : WrittenHunk) :
    Hunk.parse (dropReturn h.header) = .ok h.hunk ∧
      ∃ rest, dropReturn h.header = 64 :: 64 :: 32 :: rest := by
  have hlast : h.ranges.getLast? ≠ some 13 := by
    have hclosing : (" @@" : Text) = [32, 64, 64] := by decide
    simp [WrittenHunk.ranges, hclosing]
  have htail (heading : Option Text) :
      dropReturn (heading.elim [] fun t => (" " : Text) ++ t) = [] ∨
        (dropReturn (heading.elim [] fun t => (" " : Text) ++ t)).head? = some 32 := by
    cases heading with
    | none => exact .inl rfl
    | some t =>
        right
        rw [Option.elim_some, dropReturn_append (by decide)]
        rfl
  rw [WrittenHunk.header, dropReturn_append hlast]
  exact ⟨Hunk.parse_ranges h (htail h.heading), _, rfl⟩

/-- A header starts a hunk. -/
theorem step_header (hs : Reads s name hunks) (h : WrittenHunk) (rest : List Text) :
    ∃ headersEnd, step s (dropReturn h.header) rest =
      .ok { s with
        here := s.here.after (dropReturn h.header)
        stage := .hunks headersEnd name (h.hunk :: hunks) } := by
  obtain ⟨hparse, tail, hheader⟩ := parse_dropReturn_header h
  have hmark : (dropReturn h.header).startsWith Hunk.mark = true := by
    rw [hheader]
    rfl
  have hstart : startsFile (dropReturn h.header) rest = false := by
    rw [hheader]
    rfl
  obtain ⟨hs, rfl⟩ | ⟨headersEnd, hs⟩ := hs
  · exact ⟨s.here, by simp only [step, hs, hmark, if_true, hunkStep, hparse]⟩
  · exact ⟨headersEnd, by simp only [step, hs, hstart, hmark, Bool.false_eq_true, if_false, if_true,
      hunkStep, hparse]⟩

/-- **A hunk is read.** -/
theorem run_hunk (hs : Reads s name hunks) (h : WrittenHunk)
    (hrest : ∀ l ∈ rest.head?, l.startsWith "+++" = false) :
    ∃ s', run s (h.lines.map dropReturn ++ rest) = run s' rest ∧ s'.files = s.files ∧
      Reads s' name (h.hunk :: hunks) := by
  have hlines : h.lines.map dropReturn ++ rest = dropReturn h.header ::
      ((h.old.body 45).map dropReturn ++ ((h.new.body 43).map dropReturn ++ rest)) := by
    simp [WrittenHunk.lines]
  obtain ⟨headersEnd, hstep⟩ := step_header hs h
    ((h.old.body 45).map dropReturn ++ ((h.new.body 43).map dropReturn ++ rest))
  obtain ⟨here, hbody⟩ := run_body (s := { s with
    here := s.here.after (dropReturn h.header)
    stage := .hunks headersEnd name (h.hunk :: hunks) }) rfl h hrest
  have hrun := (run_cons hstep).trans hbody
  rw [← hlines] at hrun
  exact ⟨_, hrun, rfl, .inr ⟨headersEnd, rfl⟩⟩

/-- The lines of a hunk do not start with the name of a new file. -/
theorem head?_hunks (written : List WrittenHunk)
    (hrest : ∀ l ∈ rest.head?, l.startsWith "+++" = false) :
    ∀ l ∈ ((written.flatMap WrittenHunk.lines).map dropReturn ++ rest).head?,
      l.startsWith "+++" = false := by
  cases written with
  | nil => exact hrest
  | cons h written =>
      obtain ⟨-, tail, hheader⟩ := parse_dropReturn_header h
      intro l hl
      obtain rfl : dropReturn h.header = l := Option.some.inj hl
      rw [hheader]
      rfl

/-- **The hunks of a file are read.** -/
theorem run_hunks (hs : Reads s name hunks) (written : List WrittenHunk)
    (hrest : ∀ l ∈ rest.head?, l.startsWith "+++" = false) :
    ∃ s', run s ((written.flatMap WrittenHunk.lines).map dropReturn ++ rest) = run s' rest ∧
      s'.files = s.files ∧ Reads s' name ((written.map WrittenHunk.hunk).reverse ++ hunks) := by
  induction written generalizing s hunks with
  | nil => exact ⟨s, rfl, rfl, hs⟩
  | cons h written ih =>
      obtain ⟨s₁, hrun₁, hfiles₁, hs₁⟩ := run_hunk hs h (head?_hunks written hrest)
      obtain ⟨s₂, hrun₂, hfiles₂, hs₂⟩ := ih hs₁
      refine ⟨s₂, ?_, hfiles₂.trans hfiles₁, by simpa using hs₂⟩
      rw [List.flatMap_cons, List.map_append, List.append_assoc, hrun₁, hrun₂]

/-! ### Files -/

/-- The states between two files, with the files read so far: before the first file, or behind the
hunks of one. -/
inductive Between (s : State) : List FilePatch → Prop
  | first (hstage : s.stage = .headers []) : Between s s.files.reverse
  | behind {name : Text} {hunks : List Hunk} (hs : Reads s name hunks) :
      Between s (s.files.reverse ++ [⟨name, hunks.reverse⟩])

/-- What has been read between two files is the result there. -/
theorem Between.result {files : List FilePatch} (hs : Between s files) : s.result = files := by
  cases hs with
  | first hstage => simp [State.result, hstage, EmptyDiff.ofHeaders]
  | behind hs =>
      obtain ⟨hs, rfl⟩ | ⟨headersEnd, hs⟩ := hs
      · simp [State.result, hs]
      · simp [State.result, hs]

/-- A line that is neither the first of a file's headers nor its old name is a header line. -/
theorem headerStep_of_plain {headers : List Text} {l : Text}
    (hgit : (l.startsWith gitMark && sawGit headers) = false)
    (hold : oldMark.isPrefixOf? l = none) (honly : isOnlyIn l = false) :
    headerStep s headers l =
      .ok { s with here := s.here.after l, stage := .headers (l :: headers) } := by
  simp only [headerStep, hgit, hold, honly, Bool.false_eq_true, if_false]

/-- The first header line of a file ends the file before it. -/
theorem Between.step_git {files : List FilePatch} (hs : Between s files) (t : Text)
    (rest : List Text) :
    ∃ s', step s (gitMark ++ t) rest = .ok s' ∧ s'.files.reverse = files ∧
      s'.stage = .headers [gitMark ++ t] := by
  obtain ⟨s₀, hstep, hfiles⟩ : ∃ s₀, step s (gitMark ++ t) rest = headerStep s₀ [] (gitMark ++ t) ∧
      s₀.files.reverse = files := by
    have hmark : Text.startsWith (gitMark ++ t) Hunk.mark = false := rfl
    have hstart : startsFile (gitMark ++ t) rest = false := rfl
    have hline : isHunkLine (gitMark ++ t) = false := rfl
    cases hs with
    | first hstage => exact ⟨s, by simp only [step, hstage], rfl⟩
    | @behind name hunks hs =>
        obtain ⟨hs, rfl⟩ | ⟨headersEnd, hs⟩ := hs
        · refine ⟨s.finish ⟨name, []⟩ s.start, ?_, by simp [State.finish]⟩
          simp only [step, hs, hmark, Bool.false_eq_true, if_false]
        · refine ⟨s.finish ⟨name, hunks.reverse⟩ headersEnd, ?_, by simp [State.finish]⟩
          simp only [step, hs, hstart, hmark, hline, Bool.false_eq_true, if_false]
  refine ⟨_, hstep.trans (headerStep_of_plain (Bool.and_false _) rfl rfl), hfiles, rfl⟩

/-- A line that tells a mode or versions is a header line. -/
theorem headerStep_of_mark {l : Text} (hl : ∃ mark ∈ headerMarks, l.startsWith mark = true)
    (headers : List Text) :
    headerStep s headers (dropReturn l) =
      .ok { s with
        here := s.here.after (dropReturn l)
        stage := .headers (dropReturn l :: headers) } := by
  obtain ⟨mark, hmark, hl⟩ := hl
  obtain ⟨rest, rfl⟩ := Text.startsWith_iff.mp hl
  simp only [headerMarks, List.mem_cons, List.not_mem_nil, or_false] at hmark
  obtain rfl | rfl | rfl | rfl | rfl := hmark
  all_goals
    rw [dropReturn_append (by decide)]
    exact headerStep_of_plain rfl rfl rfl

/-- The header lines of a file are passed. -/
theorem run_headers {headers : List Text} (hs : s.stage = .headers headers) {ls : List Text}
    (hls : ∀ l ∈ ls, ∃ mark ∈ headerMarks, l.startsWith mark = true) :
    ∃ s' headers', run s (ls.map dropReturn ++ rest) = run s' rest ∧ s'.files = s.files ∧
      s'.stage = .headers headers' := by
  induction ls generalizing s headers with
  | nil => exact ⟨s, headers, rfl, rfl, hs⟩
  | cons l ls ih =>
      obtain ⟨hl, hls⟩ := List.forall_mem_cons.mp hls
      have hstep : step s (dropReturn l) (ls.map dropReturn ++ rest) = .ok { s with
          here := s.here.after (dropReturn l)
          stage := .headers (dropReturn l :: headers) } := by
        simp only [step, hs, headerStep_of_mark hl]
      obtain ⟨s', headers', hrun, hfiles, hs'⟩ := ih (s := { s with
          here := s.here.after (dropReturn l)
          stage := .headers (dropReturn l :: headers) }) rfl hls
      exact ⟨s', headers', (run_cons hstep).trans hrun, hfiles, hs'⟩

/-! ### Names -/

/-- A name that is read as it is. -/
structure IsPlainName (name : Text) : Prop where
  dropReturn_eq : dropReturn name = name
  fileName_eq : fileName name = .ok name
  isEmpty_eq : name.isEmpty = false

/-- **A name without white space is read as it is**, as long as it does not start with a quote. -/
theorem isPlainName_of_isSolid {b : UInt8} {t : Text} (hb : b ∈ [47, 97, 98])
    (ht : Text.isSolid (b :: t) = true) : IsPlainName (b :: t) := by
  have htrim : Text.trim (b :: t) = b :: t := Text.trim_of_isSolid ht
  have hplain : Text.unquoted? (b :: t) = none := by
    simp only [List.mem_cons, List.not_mem_nil, or_false] at hb
    obtain rfl | rfl | rfl := hb
    all_goals rfl
  have htab : ∀ c ∈ b :: t, (c != 9) = true := by
    intro c hc
    rw [bne_iff_ne]
    rintro rfl
    exact Text.not_mem_of_isSolid ht (by decide) hc
  have htake : (b :: t).takeWhile (· != 9) = b :: t := List.takeWhile_eq_self_iff.mpr htab
  have hdrop : (b :: t).dropWhile (· != 9) = [] := List.dropWhile_eq_nil_iff.mpr htab
  have hlast : (b :: t).getLast? ≠ some 13 := fun hlast =>
    Text.not_mem_of_isSolid ht (by decide) (List.mem_of_getLast? hlast)
  refine ⟨?_, ?_, rfl⟩
  · simp only [dropReturn, beq_eq_false_iff_ne.mpr hlast, Bool.false_eq_true, if_false]
  · simp only [fileName, htrim, htake, hdrop, hplain, Option.getD_none]

/-- The name of no file is read as it is. -/
theorem isPlainName_noFile : IsPlainName noFile :=
  isPlainName_of_isSolid (b := 47) (by decide) (by decide)

/-- A path behind a letter is read as it is. -/
theorem isPlainName_lettered {b : UInt8} (hb : b ∈ [97, 98]) {path : Text}
    (hpath : path.isSolid = true) : IsPlainName (b :: 47 :: path) := by
  simp only [List.mem_cons, List.not_mem_nil, or_false] at hb
  obtain rfl | rfl := hb
  all_goals
    refine isPlainName_of_isSolid (by decide) ?_
    rwa [Text.isSolid_cons_ascii (by decide) (by decide),
      Text.isSolid_cons_ascii (by decide) (by decide)]

/-- The name of the old version of a file is read as it is. -/
theorem isPlainName_oldName (f : WrittenFile) : IsPlainName f.oldName := by
  rw [WrittenFile.oldName]
  split
  · exact isPlainName_noFile
  · exact isPlainName_lettered (b := 97) (by decide) f.path_solid

/-- The name of the new version of a file is read as it is. -/
theorem isPlainName_newName (f : WrittenFile) : IsPlainName f.newName := by
  rw [WrittenFile.newName]
  split
  · exact isPlainName_noFile
  · exact isPlainName_lettered (b := 98) (by decide) f.path_solid

/-- The lines that name the versions of a file are read. -/
theorem run_names {headers : List Text} (hs : s.stage = .headers headers) {old new : Text}
    (hold : IsPlainName old) (hnew : IsPlainName new) :
    ∃ s', run s (dropReturn (oldMark ++ old) :: dropReturn (newMark ++ new) :: rest) =
      run s' rest ∧ s'.files = s.files ∧ s'.stage = .named new := by
  have holdMark (t : Text) : oldMark.isPrefixOf? (oldMark ++ t) = some t := rfl
  have hnewMark (t : Text) : newMark.isPrefixOf? (newMark ++ t) = some t := rfl
  have hgit (t : Text) : Text.startsWith (oldMark ++ t) gitMark = false := rfl
  rw [dropReturn_append (by decide), dropReturn_append (by decide), hold.dropReturn_eq,
    hnew.dropReturn_eq]
  have hstep : step s (oldMark ++ old) ((newMark ++ new) :: rest) =
      .ok { s with here := s.here.after (oldMark ++ old), stage := .oldNamed } := by
    simp only [step, hs, headerStep, hgit, Bool.false_and, Bool.false_eq_true, if_false, holdMark,
      hold.fileName_eq]
  have hstep' : step { s with here := s.here.after (oldMark ++ old), stage := .oldNamed }
      (newMark ++ new) rest = .ok { s with
        here := (s.here.after (oldMark ++ old)).after (newMark ++ new)
        stage := .named new } := by
    simp only [step, newNameStep, hnewMark, hnew.fileName_eq, hnew.isEmpty_eq, Bool.false_eq_true,
      if_false]
  exact ⟨_, (run_cons hstep).trans (run_cons hstep'), rfl, rfl⟩

/-- **A file is read**, and the file before it has ended. -/
theorem run_file {files : List FilePatch} (hs : Between s files) (f : WrittenFile)
    (hrest : ∀ l ∈ rest.head?, l.startsWith "+++" = false) :
    ∃ s', run s (f.lines.map dropReturn ++ rest) = run s' rest ∧
      Between s' (files ++ [f.patch]) := by
  have hlines : f.lines.map dropReturn ++ rest = (gitMark ++ dropReturn f.arguments) ::
      (f.headers.map dropReturn ++ (dropReturn (oldMark ++ f.oldName) ::
        dropReturn (newMark ++ f.newName) ::
          ((f.hunks.flatMap WrittenHunk.lines).map dropReturn ++ rest))) := by
    rw [← dropReturn_append (by decide)]
    simp [WrittenFile.lines]
  obtain ⟨s₁, hstep, hfiles₁, hs₁⟩ := hs.step_git (dropReturn f.arguments) _
  obtain ⟨s₂, headers, hrun₂, hfiles₂, hs₂⟩ := run_headers hs₁ f.headers_marked
  obtain ⟨s₃, hrun₃, hfiles₃, hs₃⟩ := run_names hs₂ (isPlainName_oldName f) (isPlainName_newName f)
  obtain ⟨s₄, hrun₄, hfiles₄, hs₄⟩ := run_hunks (.inl ⟨hs₃, rfl⟩) f.hunks hrest
  refine ⟨s₄, ?_, ?_⟩
  · rw [hlines, run_cons hstep, hrun₂, hrun₃, hrun₄]
  · have hbehind := Between.behind hs₄
    rwa [List.append_nil, List.reverse_reverse, hfiles₄, hfiles₃, hfiles₂, hfiles₁] at hbehind

/-- **All files are read.** -/
theorem run_files {files : List FilePatch} (hs : Between s files) (written : List WrittenFile) :
    ∃ s', run s ((written.flatMap WrittenFile.lines).map dropReturn) = .ok s' ∧
      Between s' (files ++ written.map WrittenFile.patch) := by
  induction written generalizing s files with
  | nil => exact ⟨s, rfl, by simpa using hs⟩
  | cons f written ih =>
      have hrest : ∀ l ∈ ((written.flatMap WrittenFile.lines).map dropReturn).head?,
          l.startsWith "+++" = false := by
        cases written with
        | nil => simp
        | cons f' written =>
            intro l hl
            obtain rfl : dropReturn (gitMark ++ f'.arguments) = l := Option.some.inj hl
            rw [dropReturn_append (by decide)]
            rfl
      obtain ⟨s₁, hrun₁, hs₁⟩ := run_file hs f hrest
      obtain ⟨s₂, hrun₂, hs₂⟩ := ih hs₁
      refine ⟨s₂, ?_, by simpa using hs₂⟩
      rw [List.flatMap_cons, List.map_append, hrun₁, hrun₂]

end Patch

/-! ### Whole diffs -/

/-- **A written diff is read as the changes it was written from**: reading succeeds and gives the
files that were not deleted, in order, each with its path and with one range for each of its hunks,
from the first line that the hunk adds to the last. -/
theorem changedFiles_text (files : List WrittenFile) :
    changedFiles (WrittenFile.text files) = .ok (files.filterMap WrittenFile.change?) := by
  have hlines : ∀ l ∈ files.flatMap WrittenFile.lines, Text.newline ∉ l := by
    intro l hl
    obtain ⟨f, -, hl⟩ := List.mem_flatMap.mp hl
    exact f.lines_no_newline l hl
  obtain ⟨s, hrun, hs⟩ := Patch.run_files (s := {}) (.first rfl) files
  have hparse : Patch.parse (WrittenFile.text files) = .ok (files.map WrittenFile.patch) := by
    rw [Patch.parse, WrittenFile.text, Patch.linesOf_terminated hlines, hrun]
    exact congrArg Except.ok hs.result
  simp only [changedFiles, hparse, List.filterMap_map, Function.comp_def,
    WrittenFile.change?_patch]

/-- The changes of three files: one is modified in two places, at the second of which it was not
terminated before and is not after, one is deleted and one is added. -/
def threeFiles : List WrittenFile :=
  [ { fate := .modified
      path := "lib/m.py"
      headers := ["index 11..22 100644"]
      hunks := [
        { old := { first := 11, lines := ["x = 1"], bare := true, unended := false }
          new := { first := 11, lines := ["x = 2"], bare := true, unended := false }
          heading := some "def f(x):" },
        { old := { first := 31, lines := ["-- a"], bare := false, unended := true }
          new := { first := 31, lines := ["++ b", "@@ c @@"], bare := false, unended := true }
          heading := none }] },
    { fate := .deleted
      path := "old.py"
      headers := ["deleted file mode 100644", "index 33..00"]
      hunks := [
        { old := { first := 1, lines := ["diff --git a/x b/x"], bare := true, unended := false }
          new := { first := 0, lines := [], bare := false, unended := false }
          heading := none }] },
    { fate := .added
      path := "new.py"
      headers := ["new file mode 100644", "index 00..44"]
      hunks := [
        { old := { first := 0, lines := [], bare := false, unended := false }
          new := { first := 1, lines := ["y", "z"], bare := false, unended := false }
          heading := none }] }]

/-- Lines that look like names, headers or hunks are not taken for these. -/
theorem changedFiles_text_threeFiles :
    threeFiles.flatMap WrittenFile.lines =
      (["diff --git a/lib/m.py b/lib/m.py", "index 11..22 100644", "--- a/lib/m.py",
        "+++ b/lib/m.py", "@@ -11 +11 @@ def f(x):", "-x = 1", "+x = 2", "@@ -31,1 +31,2 @@",
        "--- a", "\\ No newline at end of file", "+++ b", "+@@ c @@",
        "\\ No newline at end of file",
        "diff --git a/old.py b/old.py", "deleted file mode 100644", "index 33..00", "--- a/old.py",
        "+++ /dev/null", "@@ -1 +0,0 @@", "-diff --git a/x b/x",
        "diff --git a/new.py b/new.py", "new file mode 100644", "index 00..44", "--- /dev/null",
        "+++ b/new.py", "@@ -0,0 +1,2 @@", "+y", "+z"] : List Text) ∧
    changedFiles (WrittenFile.text threeFiles) =
      .ok [⟨"lib/m.py", [⟨11, 11⟩, ⟨31, 32⟩]⟩, ⟨"new.py", [⟨1, 2⟩]⟩] := by
  refine ⟨by decide +kernel, ?_⟩
  rw [changedFiles_text]
  exact congrArg Except.ok (by decide)

end Enclosure
