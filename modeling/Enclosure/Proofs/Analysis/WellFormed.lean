import Enclosure.Proofs.Analysis.Data
import Enclosure.Proofs.Analysis.Schedule
import Enclosure.Proofs.Source.Origin
import Enclosure.Report.Output

/-!
# Every analysis is well formed

Whatever changed files, contents and settings an analysis is given, its result makes sense as a
statement about the files: a range is not empty, a block stands for lines that the file has, with
the range between them, and the name of the block is on its first line. A range has no block only
where the file has no block around it.

An analysis can also come from outside, and then its blocks may have kinds without names, which
cannot be written. The result of an analysis is never refused for that.

## Main definitions

* `Block.Surrounds`: a block of a text with a range between its first and its last line.
* `HunkReport.WellFormed`, `FileReport.Reports`: a hunk and a file that make sense.

## Main results

* `HunkReport.wellFormed_of_mem`: every hunk that is reported about a text is well formed.
* `FileReport.reports_of_analyse`: every file of a result reports a changed file.
* `Analysis.named_of_analyse`: all the kinds in a result have names.
* `analyse_result_wellFormed`: **every analysis is well formed**, and it can be written.
-/

namespace Enclosure

/-! ### Hunks -/

/-- A block of a text that **surrounds** a range of lines. Its last line is a line of the text that
is not blank, and its first line has its name. -/
structure Block.Surrounds (b : Block) (content : Text) (r : LineRange) : Prop where
  mem_blocks : b ∈ blocks content
  one_le_first : 1 ≤ b.first
  first_le_first : b.first ≤ r.first
  last_le_last : r.last ≤ b.last
  last_le_length : b.last ≤ content.lines.length
  last_line : ∃ raw, content.lines[(b.last - 1).toNat]? = some raw ∧ raw.trim ≠ []
  kind : b.kind = .function ∨ b.kind = .classBody
  isBlockName : IsBlockName b.name
  first_line : ∃ raw, content.lines[(b.first - 1).toNat]? = some raw ∧ b.name <:+: raw

/-- A hunk that is **well formed** as a statement about a text: its range is not empty, it has no
block only if the text has none around the range, and its block surrounds the range. -/
structure HunkReport.WellFormed (content : Text) (h : HunkReport) : Prop where
  first_le_last : h.range.first ≤ h.range.last
  block_eq_none_iff : h.block = none ↔
    ∀ b ∈ blocks content, ¬ (b.first ≤ h.range.first ∧ h.range.last ≤ b.last)
  surrounds : ∀ b ∈ h.block, b.Surrounds content h.range

/-- A block of a text around a range that is not empty surrounds it. -/
theorem Block.surrounds_of_contains {content : Text} {b : Block} (hb : b ∈ blocks content)
    {r : LineRange} (hr : r.first ≤ r.last) (hcontains : b.contains r.first r.last) :
    b.Surrounds content r := by
  obtain ⟨hfirst, hlast⟩ := Block.contains_iff.mp hcontains
  obtain ⟨hkind, hname, ⟨hone, raw, hraw, hinfix⟩, raw', hraw', hsolid⟩ := origin_of_mem_blocks hb
  have hlength : (b.last - 1).toNat < content.lines.length :=
    (List.getElem?_eq_some_iff.mp hraw').1
  exact {
    mem_blocks := hb
    one_le_first := hone
    first_le_first := hfirst
    last_le_last := hlast
    last_le_length := by omega
    last_line := ⟨raw', hraw', hsolid⟩
    kind := hkind
    isBlockName := hname
    first_line := ⟨raw, hraw, hinfix⟩ }

/-- **Every hunk that is reported about a text is well formed.** -/
theorem HunkReport.wellFormed_of_mem {content : Text} {ranges : List LineRange} {h : HunkReport}
    (hh : h ∈ hunkReports content ranges) : h.WellFormed content := by
  obtain ⟨r, hr, rfl⟩ := List.mem_map.mp hh
  have hle : r.first ≤ r.last := by
    simpa [LineRange.isDeletion] using (List.mem_filter.mp hr).2
  refine ⟨hle, ?_, ?_⟩
  · simp only [enclosing?_eq_find? content hle, List.find?_eq_none, Block.contains_iff]
  · intro b hb
    have hfind : (blocks content).find? (·.contains r.first r.last) = some b :=
      enclosing?_eq_find? content hle ▸ hb
    have hcontains : b.contains r.first r.last = true := by simpa using List.find?_some hfind
    exact Block.surrounds_of_contains (List.mem_of_find?_eq_some hfind) hle hcontains

/-- The kind of a block that surrounds something has a name. -/
theorem Block.Surrounds.name?_ne_none {b : Block} {content : Text} {r : LineRange}
    (hb : b.Surrounds content r) : b.kind.name? ≠ none := by
  obtain hkind | hkind := hb.kind <;> rw [hkind] <;> decide

/-! ### Files -/

/-- A file that **reports** a changed file: its hunks are the ranges of the changed file that are
not empty, in order, and each of them is well formed as a statement about what the reader finds
under the name of the file. -/
def FileReport.Reports (reader : FileReader) (changed : ChangedFile) (f : FileReport) : Prop :=
  f.name = changed.name ∧
    f.hunks.items.map HunkReport.range = changed.ranges.filter (fun r => r.first ≤ r.last) ∧
    ∃ content, reader.read f.name = .ok content ∧ ∀ h ∈ f.hunks.items, h.WellFormed content

/-- A hunk is reported for each range that is not empty. -/
theorem map_range_hunkReports (content : Text) (ranges : List LineRange) :
    (hunkReports content ranges).map HunkReport.range =
      ranges.filter (fun r => r.first ≤ r.last) := by
  have hkept (r : LineRange) : (!r.isDeletion) = decide (r.first ≤ r.last) := by
    rw [LineRange.isDeletion, ← decide_not, decide_eq_decide, not_lt]
  simp only [hunkReports, List.map_map, Function.comp_def, List.map_id', hkept]

/-- A file that is analysed was read, and its hunks are reported. -/
theorem eq_hunkReports_of_report? {s : Settings} {reader : FileReader} {changed : ChangedFile}
    {f : FileReport} (hf : (analyseFile s reader changed).report? = some f) :
    ∃ content, reader.read changed.name = .ok content ∧
      f = ⟨changed.name, some (hunkReports content changed.ranges)⟩ := by
  rw [analyseFile] at hf
  cases hread : reader.read changed.name with
  | error reason =>
      rw [hread] at hf
      cases hf
  | ok content =>
      refine ⟨content, rfl, ?_⟩
      simp only [hread] at hf
      split at hf
      · exact (Option.some.inj hf).symm
      · split at hf
        · cases hf
        · exact (Option.some.inj hf).symm

/-- A file that is analysed reports the changed file. -/
theorem FileReport.reports_of_report? {s : Settings} {reader : FileReader} {changed : ChangedFile}
    {f : FileReport} (hf : (analyseFile s reader changed).report? = some f) :
    f.Reports reader changed := by
  obtain ⟨content, hread, rfl⟩ := eq_hunkReports_of_report? hf
  exact ⟨rfl, map_range_hunkReports content changed.ranges, content, hread,
    fun h hh => HunkReport.wellFormed_of_mem hh⟩

section Analyse

variable {s : Settings} {reader : FileReader} {calledOff : Bool} {files : List ChangedFile}
  {a : Analysis}

/-- **Every file of a result reports a changed file.** -/
theorem FileReport.reports_of_analyse (ha : (analyse s reader calledOff files).result = some a)
    {f : FileReport} (hf : f ∈ a.files.items) : ∃ changed ∈ files, f.Reports reader changed := by
  rw [analyse] at ha
  split at ha
  · cases ha
  · obtain rfl := Option.some.inj ha
    obtain ⟨outcome, houtcome, hreport⟩ := List.mem_filterMap.mp hf
    obtain ⟨changed, hchanged, rfl⟩ := List.mem_map.mp houtcome
    exact ⟨changed, (List.mem_filter.mp hchanged).1, FileReport.reports_of_report? hreport⟩

/-- **All the kinds in a result have names.** -/
theorem Analysis.named_of_analyse (ha : (analyse s reader calledOff files).result = some a) :
    a.Named := by
  intro f hf h hh b hb
  obtain ⟨changed, -, -, -, content, -, hhunks⟩ := FileReport.reports_of_analyse ha hf
  exact ((hhunks h hh).surrounds b hb).name?_ne_none

end Analyse

/-! ### What is written -/

/-- An analysis whose kinds have names is printed in every format. -/
theorem Analysis.Named.exists_printAnalysis {a : Analysis} (ha : a.Named) (format : OutputFormat) :
    ∃ text, printAnalysis a format = .ok text := by
  cases format with
  | json =>
      obtain ⟨v, hjson, -⟩ := Analysis.isData ha
      exact ⟨v.render ++ "\n", by rw [printAnalysis, hjson]; rfl⟩
  | standard => exact ⟨_, rfl⟩
  | oneLine => exact ⟨_, rfl⟩
  | other => exact ⟨_, rfl⟩

/-- A block that can be written is appended to the file. -/
theorem ReviewResult.publish_of_block {r : ReviewResult} {text : Text} (hr : r.block = .ok text)
    {path : Text} (hpath : path ≠ []) (tree : FileTree) :
    r.publish path tree = (tree.append path text).mapError (.file path) := by
  rw [ReviewResult.publish, hr, List.isEmpty_eq_false_iff.mpr hpath]
  rfl

/-- A result whose kinds have names is not refused for a kind. -/
theorem ReviewResult.publish_ne_nameless {r : ReviewResult} (hr : r.analysis.Named)
    (path : Text) (tree : FileTree) (kind : BlockKind) :
    r.publish path tree ≠ .error (.nameless kind) := by
  obtain ⟨payload, hblock, -⟩ := ReviewResult.exists_payload hr
  obtain rfl | hpath := eq_or_ne path []
  · simp [ReviewResult.publish]
  · rw [ReviewResult.publish_of_block hblock hpath]
    generalize tree.append path _ = appended
    cases appended <;> simp [Except.mapError]

/-- **Every analysis is well formed.** Whatever the settings, the reader and the changed files, each
file of the result reports one of the changed files. Hence the analysis can be printed in every
format, and a review never fails to hand it over because of a kind. -/
theorem analyse_result_wellFormed (s : Settings) (reader : FileReader) (calledOff : Bool)
    (files : List ChangedFile) {a : Analysis}
    (ha : (analyse s reader calledOff files).result = some a) :
    (∀ f ∈ a.files.items, ∃ changed ∈ files, f.Reports reader changed) ∧
      (∀ format, ∃ text, printAnalysis a format = .ok text) ∧
      ∀ success message path tree kind,
        ReviewResult.publish ⟨a, success, message⟩ path tree ≠ .error (.nameless kind) := by
  have hnamed : a.Named := Analysis.named_of_analyse ha
  refine ⟨fun f hf => FileReport.reports_of_analyse ha hf, hnamed.exists_printAnalysis, ?_⟩
  intro success message path tree kind
  exact ReviewResult.publish_ne_nameless (r := ⟨a, success, message⟩) hnamed path tree kind

/-- The hunk inside the function of a file is between the two lines of the function. -/
theorem analyse_result_wellFormed_mixedFiles :
    ∃ a, (analyse Settings.standard oneFileReader false mixedFiles).result = some a ∧
      (⟨"a.py", some [⟨⟨2, 2⟩, some ⟨.function, "f", 1, 2⟩⟩]⟩ : FileReport) ∈ a.files.items ∧
      (⟨.function, "f", 1, 2⟩ : Block).Surrounds "def f(x):\n  x\n" ⟨2, 2⟩ ∧
      ∃ text, printAnalysis a .json = .ok text := by
  obtain ⟨a, ha, hmem⟩ : ∃ a,
      (analyse Settings.standard oneFileReader false mixedFiles).result = some a ∧
      (⟨"a.py", some [⟨⟨2, 2⟩, some ⟨.function, "f", 1, 2⟩⟩]⟩ : FileReport) ∈ a.files.items :=
    ⟨_, rfl, by decide⟩
  obtain ⟨hfiles, hprint, -⟩ := analyse_result_wellFormed _ _ _ _ ha
  obtain ⟨changed, -, -, -, content, hread, hhunks⟩ := hfiles _ hmem
  obtain rfl : Text.ofString "def f(x):\n  x\n" = content := Except.ok.inj hread
  exact ⟨a, ha, hmem, (hhunks _ List.mem_cons_self).surrounds _ rfl, hprint .json⟩

end Enclosure
