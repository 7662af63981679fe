import Enclosure.Proofs.Analysis.Prefilter
import Enclosure.Proofs.Analysis.WellFormed

/-!
# The ranges of hunks

A hunk header tells where the new side of a hunk starts and how many lines it has, and what is kept
of the hunk is the range of these lines. A range is taken for one that adds nothing if it ends
before it starts, and such ranges are left out of an analysis.

The last line of the range is computed in 32 bits, and so are the two numbers it is computed from.
Their sum may exceed 32 bits all the same, and then the last line has a negative number: the hunk
adds lines, but its range ends before it starts, and the hunk is lost. This is the only way to lose
one. All other hunks are left out if and only if they add no line.

## Main definitions

* `Hunk.Fits`: the hunks whose numbers fit 32 bits.
* `Hunk.InReach`: the hunks whose last new line has a number that fits 32 bits.
* `Patch.State.hunks`: the hunks that were read so far.

## Main results

* `Hunk.fits_of_parse`: the numbers of a header fit 32 bits.
* `Patch.hunks_step`, `Patch.hunks_run`: what a line and what all lines add to the hunks read so
  far.
* `Patch.exists_headers_of_parse`: each hunk is read from a header of its own, in order.
* `Hunk.last_newRange_of_inReach`, `Hunk.last_newRange_of_not_inReach`: the end of a range.
* `Hunk.isDeletion_newRange_iff`: which ranges are taken for ones that add nothing.
* `hunks_kept_iff_added_in_reach`: **a hunk is kept if and only if it adds lines in reach**.
* `hunk_lost_beyond_reach`: a hunk that adds two lines and is lost.
-/

namespace Enclosure

/-! ### Numbers in a header -/

/-- What a computation and another one after it have come to. -/
theorem exists_of_bind_eq_ok {ε α β : Type} {x : Except ε α} {f : α → Except ε β} {b : β}
    (h : x >>= f = .ok b) : ∃ a, x = .ok a ∧ f a = .ok b := by
  cases x with
  | error e => cases h
  | ok a => exact ⟨a, rfl, h⟩

/-- A number that a signed 32-bit word can hold. -/
def IsInt32 (n : Int) : Prop :=
  -0x80000000 ≤ n ∧ n < 0x80000000

/-- A word can hold what it gives back. -/
theorem isInt32_of_wrap32_eq {n : Int} (h : wrap32 n = n) : IsInt32 n := by
  rw [← h]
  exact ⟨Int.le_bmod (by decide), Int.bmod_lt (by decide)⟩

namespace Hunk

/-- A hunk whose numbers **fit** 32 bits. -/
structure Fits (h : Hunk) : Prop where
  oldFirst : IsInt32 h.oldFirst
  oldCount : IsInt32 h.oldCount
  newFirst : IsInt32 h.newFirst
  newCount : IsInt32 h.newCount

/-- A number that is read fits 32 bits. -/
theorem isInt32_of_readNumber {t rest : Text} {n : Int} (h : readNumber t = .ok (n, rest)) :
    IsInt32 n := by
  simp only [readNumber] at h
  split at h
  · cases h
  · split at h
    · cases h
    · split at h
      · cases h
      · rename_i hfits
        obtain ⟨rfl, -⟩ := Prod.mk.inj (Except.ok.inj h)
        exact isInt32_of_wrap32_eq (by simpa using hfits)

/-- The numbers of a range fit 32 bits. -/
theorem isInt32_of_readRange {sign : UInt8} {t rest : Text} {first count : Int}
    (h : readRange sign t = .ok ((first, count), rest)) : IsInt32 first ∧ IsInt32 count := by
  obtain ⟨t₁, -, h⟩ := exists_of_bind_eq_ok h
  obtain ⟨⟨n, t₂⟩, hfirst, h⟩ := exists_of_bind_eq_ok h
  obtain ⟨t₃, -, h⟩ := exists_of_bind_eq_ok h
  obtain ⟨⟨m, t₄⟩, hcount, h⟩ := exists_of_bind_eq_ok h
  obtain ⟨hnumbers, -⟩ := Prod.mk.inj (Except.ok.inj h)
  obtain ⟨rfl, rfl⟩ := Prod.mk.inj hnumbers
  exact ⟨isInt32_of_readNumber hfirst, isInt32_of_readNumber hcount⟩

/-- **The numbers of a header fit 32 bits.** -/
theorem fits_of_parse {l : Text} {h : Hunk} (hparse : Hunk.parse l = .ok h) : h.Fits := by
  rw [parse] at hparse
  split at hparse
  · cases hparse
  · obtain ⟨t₁, -, hparse⟩ := exists_of_bind_eq_ok hparse
    obtain ⟨t₂, -, hparse⟩ := exists_of_bind_eq_ok hparse
    obtain ⟨t₃, -, hparse⟩ := exists_of_bind_eq_ok hparse
    obtain ⟨⟨⟨a, b⟩, t₄⟩, hold, hparse⟩ := exists_of_bind_eq_ok hparse
    obtain ⟨t₅, -, hparse⟩ := exists_of_bind_eq_ok hparse
    obtain ⟨⟨⟨c, d⟩, t₆⟩, hnew, hparse⟩ := exists_of_bind_eq_ok hparse
    obtain ⟨t₇, -, hparse⟩ := exists_of_bind_eq_ok hparse
    obtain ⟨t₈, -, hparse⟩ := exists_of_bind_eq_ok hparse
    obtain ⟨t₉, -, hparse⟩ := exists_of_bind_eq_ok hparse
    obtain rfl := Except.ok.inj hparse
    obtain ⟨ha, hb⟩ := isInt32_of_readRange hold
    obtain ⟨hc, hd⟩ := isInt32_of_readRange hnew
    exact ⟨ha, hb, hc, hd⟩

end Hunk

/-! ### Headers of hunks -/

namespace Patch

/-- The hunks of the current file, in order. -/
def Stage.current : Stage → List Hunk
  | .hunks _ _ found => found.reverse
  | _ => []

/-- The hunks of the files that were read so far, in order. -/
def State.closed (s : State) : List Hunk :=
  s.files.reverse.flatMap FilePatch.hunks

/-- The hunks that were read so far, in order. -/
def State.hunks (s : State) : List Hunk :=
  s.closed ++ s.stage.current

variable {s s' : State} {l : Text}

/-- The hunks after a file has ended. -/
@[simp] theorem closed_finish (s : State) (file : FilePatch) (start : Position) :
    (s.finish file start).closed = s.closed ++ file.hunks := by
  simp [State.closed, State.finish]

/-- As long as no hunk of the current file was read, the hunks are those of the files before it. -/
theorem hunks_eq_closed (h : s.stage.current = []) : s.hunks = s.closed := by
  rw [State.hunks, h, List.append_nil]

/-- There are no hunks among the header lines of a file. -/
theorem hunks_headerStep {headers : List Text} (h : headerStep s headers l = .ok s') :
    s'.hunks = s.closed := by
  have hfinish (name : Text) : (s.finish ⟨name, []⟩ s.start).closed = s.closed := by
    rw [closed_finish, List.append_nil]
  rw [headerStep] at h
  split at h
  · obtain rfl := Except.ok.inj h
    exact (hunks_eq_closed rfl).trans (hfinish _)
  · split at h
    · split at h
      · obtain rfl := Except.ok.inj h
        exact hunks_eq_closed rfl
      · cases h
    · split at h
      · obtain rfl := Except.ok.inj h
        exact (hunks_eq_closed rfl).trans (hfinish _)
      · obtain rfl := Except.ok.inj h
        exact hunks_eq_closed rfl

/-- There are no hunks in the line that names the new file. -/
theorem hunks_newNameStep (h : newNameStep s l = .ok s') : s'.hunks = s.closed := by
  rw [newNameStep] at h
  split at h
  · cases h
  · split at h
    · cases h
    · split at h
      · obtain rfl := Except.ok.inj h
        rw [hunks_eq_closed rfl, closed_finish, List.append_nil]
      · obtain rfl := Except.ok.inj h
        exact hunks_eq_closed rfl

/-- A hunk header adds the hunk that is read from it. -/
theorem hunks_hunkStep {headersEnd : Position} {name : Text} {hunks : List Hunk}
    (h : hunkStep s headersEnd name hunks l = .ok s') :
    ∃ found, Hunk.parse l = .ok found ∧ s'.hunks = s.closed ++ hunks.reverse ++ [found] := by
  rw [hunkStep] at h
  split at h
  · rename_i found hparse
    obtain rfl := Except.ok.inj h
    refine ⟨found, hparse, ?_⟩
    rw [List.append_assoc, ← List.reverse_cons]
    rfl
  · cases h
  · cases h

/-- **What a line adds to the hunks read so far**: nothing, or the hunk of which it is the
header. -/
theorem hunks_step {rest : List Text} (h : step s l rest = .ok s') :
    s'.hunks = s.hunks ∨ ∃ found, Hunk.parse l = .ok found ∧ s'.hunks = s.hunks ++ [found] := by
  have hhunks : s.hunks = s.closed ++ s.stage.current := rfl
  rw [step] at h
  split at h
  · rename_i headers hstage
    rw [hhunks, hstage]
    exact .inl ((hunks_headerStep h).trans (List.append_nil _).symm)
  · rename_i hstage
    rw [hhunks, hstage]
    exact .inl ((hunks_newNameStep h).trans (List.append_nil _).symm)
  · rename_i name hstage
    rw [hhunks, hstage]
    split at h
    · exact .inr (hunks_hunkStep h)
    · exact .inl ((hunks_headerStep h).trans (closed_finish ..))
  · rename_i headersEnd name hunks hstage
    rw [hhunks, hstage]
    split at h
    · exact .inl ((hunks_headerStep h).trans (closed_finish ..))
    · split at h
      · exact .inr (hunks_hunkStep h)
      · split at h
        · obtain rfl := Except.ok.inj h
          exact .inl (hstage ▸ hhunks)
        · exact .inl ((hunks_headerStep h).trans (closed_finish ..))

/-- **What all lines add to the hunks read so far**: hunks that are read from some of the lines, in
order. -/
theorem hunks_run {ls : List Text} (h : run s ls = .ok s') :
    ∃ (headers : List Text) (found : List Hunk), headers.Sublist ls ∧
      headers.map Hunk.parse = found.map .ok ∧ s'.hunks = s.hunks ++ found := by
  induction ls generalizing s with
  | nil =>
      obtain rfl := Except.ok.inj h
      exact ⟨[], [], List.Sublist.slnil, rfl, (List.append_nil _).symm⟩
  | cons l ls ih =>
      rw [run] at h
      split at h
      · rename_i next hstep
        obtain ⟨headers, found, hsub, hread, hhunks⟩ := ih h
        obtain hsame | ⟨first, hparse, hmore⟩ := hunks_step hstep
        · exact ⟨headers, found, hsub.cons l, hread, by rw [hhunks, hsame]⟩
        · refine ⟨l :: headers, first :: found, hsub.cons_cons l, ?_, ?_⟩
          · rw [List.map_cons, List.map_cons, hparse, hread]
          · rw [hhunks, hmore, List.append_assoc, List.singleton_append]
      · cases h

/-- The hunks of all files are those that were read. -/
theorem hunks_result (s : State) : s.result.flatMap FilePatch.hunks = s.hunks := by
  rw [State.result, List.flatMap_append, State.hunks, State.closed]
  congr 1
  cases s.stage with
  | headers headers =>
      simp only [Stage.current]
      split <;> rfl
  | oldNamed => rfl
  | named name => rfl
  | hunks headersEnd name hunks => exact List.append_nil _

/-- **Each hunk is read from a header of its own**, and the headers come in the order of the
hunks. -/
theorem exists_headers_of_parse {t : Text} {ps : List FilePatch} (h : parse t = .ok ps) :
    ∃ headers : List Text, headers.Sublist (linesOf t) ∧
      headers.map Hunk.parse = (ps.flatMap FilePatch.hunks).map .ok := by
  rw [parse] at h
  split at h
  · rename_i s hrun
    obtain rfl := Except.ok.inj h
    obtain ⟨headers, found, hsub, hread, hhunks⟩ := hunks_run hrun
    refine ⟨headers, hsub, ?_⟩
    rw [hunks_result, hhunks]
    exact hread
  · cases h

end Patch

/-- The numbers of all hunks of a diff fit 32 bits. -/
theorem Hunk.fits_of_mem {t : Text} {ps : List FilePatch} (hparse : Patch.parse t = .ok ps)
    {p : FilePatch} (hp : p ∈ ps) {h : Hunk} (hh : h ∈ p.hunks) : h.Fits := by
  obtain ⟨headers, -, hread⟩ := Patch.exists_headers_of_parse hparse
  have hmem : .ok h ∈ headers.map Hunk.parse := by
    rw [hread]
    exact List.mem_map_of_mem (List.mem_flatMap.mpr ⟨p, hp, hh⟩)
  obtain ⟨l, -, hl⟩ := List.mem_map.mp hmem
  exact Hunk.fits_of_parse hl

/-! ### Ranges -/

namespace Hunk

/-- The hunk is **in reach** if the last line it adds has a number that fits 32 bits. -/
def InReach (h : Hunk) : Prop :=
  h.newFirst + h.newCount ≤ 0x80000000

instance (h : Hunk) : Decidable h.InReach :=
  inferInstanceAs (Decidable (_ ≤ _))

variable {h : Hunk}

/-- **The range of a hunk in reach** ends with the last line that the hunk adds. -/
theorem last_newRange_of_inReach (hfirst : 0 ≤ h.newFirst) (hcount : 0 ≤ h.newCount)
    (hreach : h.InReach) : h.newRange.last = h.newFirst + h.newCount - 1 := by
  rw [InReach] at hreach
  exact Int.bmod_eq_of_le (by omega) (by omega)

/-- **The range of a hunk beyond reach** ends before it starts: its last line is computed as a
negative number. -/
theorem last_newRange_of_not_inReach (hfits : h.Fits) (hreach : ¬ h.InReach) :
    h.newRange.last = h.newFirst + h.newCount - 1 - 0x100000000 := by
  obtain ⟨-, hfirst⟩ := hfits.newFirst
  obtain ⟨-, hcount⟩ := hfits.newCount
  rw [InReach] at hreach
  rw [newRange, wrap32, ← Int.sub_bmod_right]
  exact Int.bmod_eq_of_le (by omega) (by omega)

/-- **Whether a range is taken for one that adds nothing**: this is right for all hunks in reach,
and wrong for all others. -/
theorem isDeletion_newRange_iff (hfits : h.Fits) (hfirst : 0 ≤ h.newFirst)
    (hcount : 0 ≤ h.newCount) :
    h.newRange.isDeletion = true ↔ h.newCount = 0 ∨ ¬ h.InReach := by
  have hstart : h.newRange.first = h.newFirst := rfl
  rw [LineRange.isDeletion, decide_eq_true_iff, hstart]
  by_cases hreach : h.InReach
  · rw [last_newRange_of_inReach hfirst hcount hreach]
    constructor
    · intro hlt
      exact .inl (by omega)
    · rintro (hzero | hbeyond)
      · omega
      · exact absurd hreach hbeyond
  · obtain ⟨-, hlarge⟩ := hfits.newCount
    rw [last_newRange_of_not_inReach hfits hreach]
    exact ⟨fun _ => .inr hreach, fun _ => by omega⟩

end Hunk

/-! ### What an analysis keeps -/

/-- Each file that is analysed is skipped or has a report, of which nothing is lost. -/
theorem skipped_or_reported {s : Settings} {reader : FileReader} {files : List ChangedFile}
    {a : Analysis} (ha : (analyse s reader false files).result = some a) {f : ChangedFile}
    (hf : f ∈ files) (heligible : s.eligibility f.name = .eligible) :
    (∃ k ∈ a.skipped.items, k.name = f.name) ∨
      ∃ report ∈ a.files.items, report.Reports reader f := by
  rw [analyse_result] at ha
  obtain rfl := Option.some.inj ha
  have hmem : analyseFile s reader f ∈ files.filterMap (s.outcome? reader) :=
    List.mem_filterMap.mpr ⟨f, hf, if_pos heligible⟩
  cases houtcome : analyseFile s reader f with
  | skipped k warning =>
      refine .inl ⟨k, List.mem_filterMap.mpr ⟨_, hmem, by rw [houtcome]; rfl⟩, ?_⟩
      rw [analyseFile] at houtcome
      split at houtcome
      · rw [← (FileOutcome.skipped.inj houtcome).1]
      · simp only at houtcome
        split at houtcome
        · cases houtcome
        · split at houtcome
          · rw [← (FileOutcome.skipped.inj houtcome).1]
          · cases houtcome
  | reported report warning =>
      have hreport : (analyseFile s reader f).report? = some report := by rw [houtcome]; rfl
      exact .inr ⟨report, List.mem_filterMap.mpr ⟨_, hmem, hreport⟩,
        FileReport.reports_of_report? hreport⟩

/-- The changes of some files are those of the files that were not deleted. -/
theorem filterMap_change? (ps : List FilePatch) :
    ps.filterMap FilePatch.change? = (ps.filter (·.newName != noFile)).map
      (fun p => ⟨dropLetter p.newName, p.hunks.map Hunk.newRange⟩) := by
  induction ps with
  | nil => rfl
  | cons p ps ih =>
      rw [List.filterMap_cons, List.filter_cons, ih, FilePatch.change?, bne]
      cases p.newName == noFile <;> rfl

/-- The hunks of a file that are **kept**: those whose ranges do not end before they start. -/
def FilePatch.kept (p : FilePatch) : List Hunk :=
  p.hunks.filter fun h => !h.newRange.isDeletion

/-- The ranges that are left of a file are those of the hunks that are kept. -/
theorem filter_newRange_eq (p : FilePatch) :
    (p.hunks.map Hunk.newRange).filter (fun r => r.first ≤ r.last) = p.kept.map Hunk.newRange := by
  rw [List.filter_map, FilePatch.kept]
  refine congrArg (List.map Hunk.newRange) (List.filter_congr fun h _ => ?_)
  rw [Function.comp_apply, LineRange.isDeletion, ← decide_not, decide_eq_decide, not_lt]

/-- The hunks that are kept are those that add lines in reach. -/
theorem mem_kept_iff {p : FilePatch} {h : Hunk} (hh : h ∈ p.hunks) (hfits : h.Fits)
    (hfirst : 0 ≤ h.newFirst) (hcount : 0 ≤ h.newCount) :
    h ∈ p.kept ↔ 0 < h.newCount ∧ h.InReach := by
  rw [FilePatch.kept, List.mem_filter, and_iff_right hh, Bool.not_eq_true', ← Bool.not_eq_true,
    Hunk.isDeletion_newRange_iff hfits hfirst hcount, not_or, not_not]
  exact and_congr_left fun _ => ⟨fun hne => by omega, fun hpos => by omega⟩

/-- **A hunk is kept if and only if it adds lines in reach.** In every diff that can be read, each
hunk is read from a header of its own. Its range starts where the header says, and if the last line
it adds has a number that fits 32 bits, the range ends with that line, and it is taken for one that
adds nothing if and only if the header says so. All other ranges are taken for such, too, and they
are the only ones for which this is wrong. So a file that is analysed is skipped, which is recorded,
or reported with exactly the hunks that are kept. -/
theorem hunks_kept_iff_added_in_reach (t : Text) {ps : List FilePatch}
    (hparse : Patch.parse t = .ok ps) :
    (∃ headers : List Text, headers.Sublist (Patch.linesOf t) ∧
      headers.map Hunk.parse = (ps.flatMap FilePatch.hunks).map .ok) ∧
    (∀ p ∈ ps, ∀ h ∈ p.hunks, 0 ≤ h.newFirst → 0 ≤ h.newCount →
      h.newRange.first = h.newFirst ∧
      (h.InReach → (h.newRange.isDeletion = true ↔ h.newCount = 0) ∧
        (0 < h.newCount → h.newRange.last = h.newFirst + h.newCount - 1)) ∧
      (¬ h.InReach → h.newRange.isDeletion = true ∧ 0 < h.newCount) ∧
      (h ∈ p.kept ↔ 0 < h.newCount ∧ h.InReach)) ∧
    ∃ files, changedFiles t = .ok files ∧
      files = (ps.filter (·.newName != noFile)).map
        (fun p => ⟨dropLetter p.newName, p.hunks.map Hunk.newRange⟩) ∧
      ∀ (s : Settings) (reader : FileReader), ∃ a,
        (analyse s reader false files).result = some a ∧ ∀ p ∈ ps, p.newName ≠ noFile →
          s.eligibility (dropLetter p.newName) = .eligible →
          (∃ k ∈ a.skipped.items, k.name = dropLetter p.newName) ∨
            ∃ f ∈ a.files.items, f.name = dropLetter p.newName ∧
              f.hunks.items.map HunkReport.range = p.kept.map Hunk.newRange := by
  refine ⟨Patch.exists_headers_of_parse hparse, ?_, _, changedFiles_eq_ok hparse,
    filterMap_change? ps, ?_⟩
  · intro p hp h hh hfirst hcount
    have hfits : h.Fits := Hunk.fits_of_mem hparse hp hh
    have hdeletion := Hunk.isDeletion_newRange_iff hfits hfirst hcount
    refine ⟨rfl, fun hreach => ⟨?_, fun _ => ?_⟩, fun hreach => ⟨?_, ?_⟩,
      mem_kept_iff hh hfits hfirst hcount⟩
    · rw [hdeletion, or_iff_left (not_not.mpr hreach)]
    · exact Hunk.last_newRange_of_inReach hfirst hcount hreach
    · exact hdeletion.mpr (.inr hreach)
    · obtain ⟨-, hlarge⟩ := hfits.newFirst
      rw [Hunk.InReach] at hreach
      omega
  · intro s reader
    refine ⟨_, analyse_result .., fun p hp hname heligible => ?_⟩
    have hmem : (⟨dropLetter p.newName, p.hunks.map Hunk.newRange⟩ : ChangedFile) ∈
        ps.filterMap FilePatch.change? := by
      rw [filterMap_change?]
      exact List.mem_map_of_mem (List.mem_filter.mpr ⟨hp, by simpa using hname⟩)
    obtain hskipped | ⟨f, hf, hfname, hranges, -⟩ :=
      skipped_or_reported (analyse_result ..) hmem heligible
    · exact .inl hskipped
    · exact .inr ⟨f, hf, hfname, hranges.trans (filter_newRange_eq p)⟩

/-- A diff of one file with these hunks in it. -/
def diffOf (hunks : Text) : Text :=
  "--- a/a.py\n+++ b/a.py\n" ++ hunks

/-- A hunk that only removes lines is left out, and two others are kept, one of which adds the last
line with a number that fits 32 bits. -/
theorem hunks_kept_iff_added_in_reach_border :
    ∃ files a, changedFiles (diffOf
        "@@ -1 +0,0 @@\n-a\n@@ -2,0 +2,2 @@\n+b\n+c\n@@ -9,0 +2147483647 @@\n+d\n") = .ok files ∧
      (analyse .standard oneFileReader false files).result = some a ∧
      ∃ f ∈ a.files.items, f.name = "a.py" ∧
        f.hunks.items.map HunkReport.range = [⟨2, 3⟩, ⟨2147483647, 2147483647⟩] := by
  have hparse : Patch.parse (diffOf
      "@@ -1 +0,0 @@\n-a\n@@ -2,0 +2,2 @@\n+b\n+c\n@@ -9,0 +2147483647 @@\n+d\n") =
      .ok [⟨"b/a.py", [⟨1, 1, 0, 0⟩, ⟨2, 0, 2, 2⟩, ⟨9, 0, 2147483647, 1⟩]⟩] := by decide +kernel
  obtain ⟨-, -, files, hfiles, rfl, hanalysis⟩ := hunks_kept_iff_added_in_reach _ hparse
  obtain ⟨a, ha, hall⟩ := hanalysis .standard oneFileReader
  have hnone : some a.skipped.items = some [] := by
    change (some a).map (·.skipped.items) = _
    rw [← ha]
    decide +kernel
  refine ⟨_, a, hfiles, ha, ?_⟩
  obtain ⟨k, hk, -⟩ | hreported := hall _ List.mem_cons_self (by decide) (by decide)
  · rw [Option.some.inj hnone] at hk
    cases hk
  · exact hreported

/-- **A hunk is lost beyond reach**: its header says that it adds two lines, but its range ends with
a negative number, and so it is taken for one that adds nothing and left out of the analysis. -/
theorem hunk_lost_beyond_reach :
    Hunk.parse "@@ -1,0 +2147483647,2 @@" = .ok ⟨1, 0, 2147483647, 2⟩ ∧
    changedFiles (diffOf "@@ -1,0 +2147483647,2 @@\n+x\n+y\n") =
      .ok [⟨"a.py", [⟨2147483647, -2147483648⟩]⟩] ∧
    LineRange.isDeletion ⟨2147483647, -2147483648⟩ = true ∧
    (analyse .standard oneFileReader false [⟨"a.py", [⟨2147483647, -2147483648⟩]⟩]).result =
      some ⟨some [⟨"a.py", some []⟩], some []⟩ := by
  exact ⟨by decide +kernel, by decide +kernel, by decide, by decide +kernel⟩

end Enclosure
