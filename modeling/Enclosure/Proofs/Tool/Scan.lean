import Enclosure.Tool.Tasks
import Enclosure.Proofs.Analysis.Schedule
import Enclosure.Proofs.Files.Clean
import Mathlib.Data.List.Nodup

/-!
# Scans

A scan takes the files in the order in which a walk delivers them, but that order does not show: the
files are put in bytewise order before anything is read. Different files keep different names when
the root is taken away, so no name is scanned twice.

The names are meant to be paths from the root. They are if the root is spelled plainly; then the
tests are about the path from the root, and reading a name gives the file that was walked. Below any
other root the names still have the root in front, and the root is put in front of them once more
when they are read. The outcome of a scan depends on the spelling of the root in no other way.

## Main results

* `Text.sort_eq_of_perm`, `Text.pairwise_lt_sort`: bytewise order.
* `mem_supportedFiles_iff`: which files a scan is about.
* `isSome_error_scanFiles_iff`: when a scan fails.
* `scan_ignores_delivery_order`: **the outcome of a scan does not depend on the order of the walk.**
* `scanTask_eq_of_clean_eq`: the outcome of a scan and the spelling of its root.
* `scan_names_iff_plain_root`: **the names of a scan are paths from the root if and only if the root
  is spelled plainly.**
-/

namespace Enclosure

/-! ### Texts in bytewise order -/

namespace Text

/-- The bytewise order is the order of sequences of bytes. -/
theorem le_iff (s t : Text) : le s t = true ↔ s ≤ t := by
  induction s generalizing t with
  | nil => simp [le]
  | cons a s ih =>
      cases t with
      | nil => simp [le]
      | cons b t => simp [le, ih, List.cons_le_cons_iff]

/-- Sorted texts are in order. -/
theorem pairwise_sort (ts : List Text) : (sort ts).Pairwise (· ≤ ·) := by
  have hsorted : (sort ts).Pairwise fun s t => le s t = true := by
    apply List.pairwise_mergeSort
    · intro s t u hst htu
      rw [le_iff] at hst htu ⊢
      exact List.le_trans hst htu
    · intro s t
      rw [Bool.or_eq_true, le_iff, le_iff]
      exact List.le_total s t
  exact hsorted.imp fun {s t} h => (le_iff s t).mp h

/-- Nothing is lost by sorting. -/
theorem sort_perm (ts : List Text) : (sort ts).Perm ts :=
  List.mergeSort_perm ts le

/-- **Sorting forgets the order in which texts are given.** -/
theorem sort_eq_of_perm {ts us : List Text} (h : ts.Perm us) : sort ts = sort us := by
  have hperm : (sort ts).Perm (sort us) := ((sort_perm ts).trans h).trans (sort_perm us).symm
  exact hperm.eq_of_pairwise (fun _ _ _ _ => List.le_antisymm) (pairwise_sort ts) (pairwise_sort us)

/-- What is left of sorted texts is in order. -/
theorem sort_filter (p : Text → Bool) (ts : List Text) : sort (ts.filter p) = (sort ts).filter p := by
  have hperm : (sort (ts.filter p)).Perm ((sort ts).filter p) :=
    (sort_perm _).trans ((sort_perm ts).filter p).symm
  exact hperm.eq_of_pairwise (fun _ _ _ _ => List.le_antisymm) (pairwise_sort _)
    ((pairwise_sort ts).filter p)

/-- Different texts are sorted strictly. -/
theorem pairwise_lt_sort {ts : List Text} (h : ts.Nodup) : (sort ts).Pairwise (· < ·) := by
  have hnodup : (sort ts).Nodup := (sort_perm ts).nodup_iff.mpr h
  refine (pairwise_sort ts).imp₂ ?_ hnodup
  intro s t hle hne
  by_contra hlt
  exact hne (List.le_antisymm hle hlt)

end Text

/-! ### The files of a scan -/

section Files

variable {s : Settings} {root target : Text} {walked walked' : List Text}

/-- **Which files a scan is about**: those that were walked, without the root, if they are below the
target, not ignored and of a supported kind. -/
theorem mem_supportedFiles_iff (file : Text) :
    file ∈ supportedFiles s root target walked ↔
      ∃ p ∈ walked, Path.relative root p = file ∧ (target = [] ∨ target <+: file) ∧
        s.isIgnored file = false ∧ isSupported s.extensions file = true := by
  rw [supportedFiles, (Text.sort_perm _).mem_iff, List.mem_filter, List.mem_map, Bool.and_eq_true,
    Bool.or_eq_true, List.isEmpty_iff, Text.startsWith_iff, decide_eq_true_iff,
    Settings.eligibility_eq_eligible_iff]
  constructor
  · rintro ⟨⟨p, hp, hfile⟩, htests⟩
    exact ⟨p, hp, hfile, htests⟩
  · rintro ⟨p, hp, hfile, htests⟩
    exact ⟨⟨p, hp, hfile⟩, htests⟩

/-- The files of a scan do not depend on the order of the walk. -/
theorem supportedFiles_eq_of_perm (h : walked.Perm walked') :
    supportedFiles s root target walked = supportedFiles s root target walked' :=
  Text.sort_eq_of_perm ((h.map _).filter _)

/-- **No file is scanned twice**: the files of a scan are in strict bytewise order. -/
theorem pairwise_lt_supportedFiles (hroot : root ≠ []) (hnodup : walked.Nodup)
    (hwalked : ∀ p ∈ walked, ∃ r, Path.IsInner r ∧ p = Path.join root r) :
    (supportedFiles s root target walked).Pairwise (· < ·) := by
  apply Text.pairwise_lt_sort
  apply List.Nodup.filter
  apply hnodup.map_on
  intro p hp p' hp' heq
  obtain ⟨r, hr, rfl⟩ := hwalked p hp
  obtain ⟨r', hr', rfl⟩ := hwalked p' hp'
  rw [Path.eq_of_relative_join_eq hroot hr hr' heq]

/-- **Below a root that is spelled plainly the tests are about the paths from the root.** -/
theorem supportedFiles_map_join (hroot : root ≠ []) (hplain : Path.spelledPlainly root = true)
    {rs : List Text} (hrs : ∀ r ∈ rs, Path.IsInner r) :
    supportedFiles s root target (rs.map (Path.join root)) =
      Text.sort (rs.filter fun r =>
        (target.isEmpty || r.startsWith target) && s.eligibility r = .eligible) := by
  have hnames : (rs.map (Path.join root)).map (Path.relative root) = rs := by
    rw [List.map_map]
    conv_rhs => rw [← List.map_id rs]
    apply List.map_congr_left
    intro r hr
    exact (Path.relative_join_eq_iff hroot (hrs r hr)).mpr hplain
  rw [supportedFiles, hnames]

/-- The files of a scan below two spellings of a root, both of them plain or neither. -/
theorem supportedFiles_eq_of_clean_eq {root' : Text} (hroot : root ≠ []) (hroot' : root' ≠ [])
    (hclean : Path.clean root = Path.clean root')
    (hplain : Path.spelledPlainly root = Path.spelledPlainly root')
    (hwalked : ∀ p ∈ walked, ∃ q, p = Path.clean q) :
    supportedFiles s root target walked = supportedFiles s root' target walked := by
  have hnames : walked.map (Path.relative root) = walked.map (Path.relative root') := by
    apply List.map_congr_left
    intro p hp
    obtain ⟨q, rfl⟩ := hwalked p hp
    exact Path.relative_eq_of_clean_eq hroot hroot' hclean hplain q
  rw [supportedFiles, supportedFiles, hnames]

end Files

/-! ### The outcome of a scan -/

/-- The verdicts of a scan are about the files that can be read. -/
theorem mem_scanVerdicts_iff {reader : FileReader} {files : List Text} (v : FileVerdict) :
    v ∈ (scanVerdicts reader files).1 ↔
      ∃ file ∈ files, ∃ content, reader.read file = .ok content ∧ v = ⟨file, dryRun content⟩ := by
  simp only [scanVerdicts, List.mem_filterMap, List.mem_map]
  constructor
  · rintro ⟨-, ⟨file, hfile, rfl⟩, hv⟩
    cases hread : reader.read file with
    | error message =>
        rw [hread] at hv
        cases hv
    | ok content =>
        rw [hread] at hv
        exact ⟨file, hfile, content, hread, (Option.some.inj hv).symm⟩
  · rintro ⟨file, hfile, content, hread, rfl⟩
    refine ⟨_, ⟨file, hfile, rfl⟩, ?_⟩
    simp only [hread]

/-- **When a scan fails**: some file that it is about can be read and fails the dry run. -/
theorem isSome_error_scanFiles_iff (tree : FileTree) (root target : Text) (walked : List Text)
    (format : OutputFormat) :
    (scanFiles tree root target walked format).error.isSome = true ↔
      ∃ file ∈ supportedFiles (Settings.read root tree.plainReader).settings root target walked,
        ∃ content, (tree.reader root).read file = .ok content ∧ (dryRun content).valid = false := by
  -- There is an error if and only if some verdict is a failure.
  have herror : (scanFiles tree root target walked format).error.isSome = true ↔
      ∃ v ∈ (scanVerdicts (tree.reader root) (supportedFiles
        (Settings.read root tree.plainReader).settings root target walked)).1,
        v.verdict.valid = false := by
    simp only [scanFiles]
    split
    · rename_i hnone
      simpa using hnone
    · rename_i hsome
      simpa using hsome
  rw [herror]
  constructor
  · rintro ⟨v, hv, hvalid⟩
    obtain ⟨file, hfile, content, hread, rfl⟩ := (mem_scanVerdicts_iff v).mp hv
    exact ⟨file, hfile, content, hread, hvalid⟩
  · rintro ⟨file, hfile, content, hread, hvalid⟩
    exact ⟨_, (mem_scanVerdicts_iff _).mpr ⟨file, hfile, content, hread, rfl⟩, hvalid⟩

/-- A scan sees its files only as the files that it is about. -/
theorem scanFiles_eq_of_perm {tree : FileTree} {root target : Text} {walked walked' : List Text}
    (h : walked.Perm walked') (format : OutputFormat) :
    scanFiles tree root target walked format = scanFiles tree root target walked' format := by
  rw [scanFiles, scanFiles, supportedFiles_eq_of_perm h]

/-- A scan of a directory is about the files of a walk of it. -/
theorem scanTask_of_isDirectory {tree : FileTree} {root : Text} (hroot : tree.isDirectory root = true)
    (target : Text) (format : OutputFormat) :
    scanTask tree root target format = scanFiles tree root target (tree.walk root) format := by
  rw [scanTask, hroot]
  rfl

/-- **The outcome of a scan does not depend on the order of the walk.** Whatever files are walked,
in whatever order, the files that the scan is about are the same, in strict bytewise order, and so is
all that is written. The scan fails if and only if one of these files can be read and fails the dry
run. If the root is a directory, this is what becomes of a walk of it, in any order. -/
theorem scan_ignores_delivery_order (tree : FileTree) (root target : Text) (format : OutputFormat)
    (hroot : root ≠ []) (walked walked' : List Text) (hnodup : walked.Nodup)
    (hwalked : ∀ p ∈ walked, ∃ r, Path.IsInner r ∧ p = Path.join root r)
    (hperm : walked.Perm walked') :
    (∀ s : Settings,
      supportedFiles s root target walked = supportedFiles s root target walked' ∧
      (supportedFiles s root target walked).Pairwise (· < ·) ∧
      ∀ file, file ∈ supportedFiles s root target walked ↔
        ∃ p ∈ walked, Path.relative root p = file ∧ (target = [] ∨ target <+: file) ∧
          s.isIgnored file = false ∧ isSupported s.extensions file = true) ∧
    scanFiles tree root target walked format = scanFiles tree root target walked' format ∧
    ((scanFiles tree root target walked format).error.isSome = true ↔
      ∃ file ∈ supportedFiles (Settings.read root tree.plainReader).settings root target walked,
        ∃ content, (tree.reader root).read file = .ok content ∧ (dryRun content).valid = false) ∧
    (tree.isDirectory root = true → (tree.walk root).Perm walked →
      scanTask tree root target format = scanFiles tree root target walked format) := by
  refine ⟨?_, ?_, ?_, ?_⟩
  · intro s
    refine ⟨supportedFiles_eq_of_perm hperm, ?_, mem_supportedFiles_iff⟩
    exact pairwise_lt_supportedFiles hroot hnodup hwalked
  · exact scanFiles_eq_of_perm hperm format
  · exact isSome_error_scanFiles_iff tree root target walked format
  · intro hdirectory hwalk
    rw [scanTask_of_isDirectory hdirectory]
    exact scanFiles_eq_of_perm hwalk format

/-- A directory with a file that fails the dry run, one that passes it, and one of another kind. -/
def mixedTree : FileTree :=
  .seenFrom "/work" [("sub/bad.py", "foo(bar\n"), ("sub/app/good.py", "x = 1\n"),
    ("sub/notes.txt", "x\n")]

/-- One of the files fails, in whatever order they come. -/
theorem scan_ignores_delivery_order_mixedTree :
    let walked : List Text := ["sub/notes.txt", "sub/bad.py", "sub/app/good.py"]
    let walked' : List Text := ["sub/app/good.py", "sub/notes.txt", "sub/bad.py"]
    mixedTree.isDirectory "sub" = true ∧ walked.Nodup ∧ walked.Perm walked' ∧
      (∀ p ∈ walked, ∃ r, Path.IsInner r ∧ p = Path.join "sub" r) ∧
      scanTask mixedTree "sub" [] .standard = scanFiles mixedTree "sub" [] walked' .standard ∧
      (scanFiles mixedTree "sub" [] walked' .standard).error.isSome = true := by
  intro walked walked'
  have hroot : mixedTree.isDirectory "sub" = true := by decide
  have hnodup : walked.Nodup := by decide
  have hperm : walked.Perm walked' := by decide
  have hwalk : (mixedTree.walk "sub").Perm walked := by decide
  have hwalked : ∀ p ∈ walked, ∃ r, Path.IsInner r ∧ p = Path.join "sub" r := by
    intro p hp
    simp only [walked, List.mem_cons, List.not_mem_nil, or_false] at hp
    rcases hp with rfl | rfl | rfl
    · exact ⟨"notes.txt", by decide⟩
    · exact ⟨"bad.py", by decide⟩
    · exact ⟨"app/good.py", by decide⟩
  obtain ⟨hfiles, hsame, herror, htask⟩ := scan_ignores_delivery_order mixedTree "sub" []
    .standard (by decide) walked walked' hnodup hwalked hperm
  refine ⟨hroot, hnodup, hperm, hwalked, (htask hroot hwalk).trans hsame, ?_⟩
  rw [← hsame, herror]
  obtain ⟨-, -, hmem⟩ := hfiles (Settings.read "sub" mixedTree.plainReader).settings
  refine ⟨"bad.py", (hmem _).mpr ⟨"sub/bad.py", ?_⟩, "foo(bar\n", rfl, by decide⟩
  decide

/-! ### The spelling of the root -/

section Spelling

variable {tree : FileTree} {root root' : Text}

/-- **Reading a path from the root gives the file below the root.** -/
theorem read_reader_eq_ok_iff {r : Text} (hr : Path.IsInner r) (content : Text) :
    (tree.reader root).read r = .ok content ↔ tree.read (Path.join root r) = .ok content := by
  have hfull : r.dropFirst "/" = r := Text.dropFirst_of_not_prefix hr.not_slash_first
  simp only [FileTree.reader, hfull]
  cases tree.read (Path.join root r) <;> simp [Except.mapError]

/-- A walk delivers clean paths. -/
theorem exists_clean_of_mem_walk (hroot : root ≠ []) {p : Text} (hp : p ∈ tree.walk root) :
    ∃ q, p = Path.clean q := by
  rw [FileTree.walk] at hp
  split at hp
  · cases hp
  · obtain ⟨entry, -, hentry⟩ := List.mem_filterMap.mp hp
    simp only [Option.bind_eq_bind, Option.bind_eq_some_iff] at hentry
    obtain ⟨content, -, rest, -, hfound⟩ := hentry
    split at hfound
    · obtain ⟨q, hq⟩ := Path.exists_join_eq_clean hroot (Text.join "/" rest)
      exact ⟨q, (Option.some.inj hfound).symm.trans hq⟩
    · cases hfound

/-- **A walk does not depend on the spelling of its root.** -/
theorem walk_eq_of_clean_eq (hroot : tree.isDirectory root = true)
    (hroot' : tree.isDirectory root' = true) (hclean : Path.clean root = Path.clean root') :
    tree.walk root = tree.walk root' := by
  have hne := (FileTree.place_of_isDirectory hroot).1
  have hne' := (FileTree.place_of_isDirectory hroot').1
  rw [FileTree.walk, FileTree.walk, FileTree.place_eq_of_clean_eq hroot hroot' hclean]
  simp only [Path.join_eq_of_clean_eq hne hne' hclean]

/-- **The outcome of a scan depends on the spelling of the root** only through whether it is plain. -/
theorem scanTask_eq_of_clean_eq (hroot : tree.isDirectory root = true)
    (hroot' : tree.isDirectory root' = true) (hclean : Path.clean root = Path.clean root')
    (hplain : Path.spelledPlainly root = Path.spelledPlainly root') (target : Text)
    (format : OutputFormat) : scanTask tree root target format = scanTask tree root' target format := by
  have hne := (FileTree.place_of_isDirectory hroot).1
  have hne' := (FileTree.place_of_isDirectory hroot').1
  have hjoin := Path.join_eq_of_clean_eq hne hne' hclean
  have hsettings : Settings.read root tree.plainReader = Settings.read root' tree.plainReader := by
    rw [Settings.read, Settings.read, Settings.readWith, Settings.readWith, hjoin]
  have hreader : tree.reader root = tree.reader root' := by
    simp only [FileTree.reader, hjoin]
  have hfiles (s : Settings) : supportedFiles s root target (tree.walk root) =
      supportedFiles s root' target (tree.walk root) :=
    supportedFiles_eq_of_clean_eq hne hne' hclean hplain fun p => exists_clean_of_mem_walk hne
  rw [scanTask_of_isDirectory hroot, scanTask_of_isDirectory hroot', scanFiles, scanFiles, hsettings,
    hreader, hfiles, walk_eq_of_clean_eq hroot hroot' hclean]

end Spelling

/-- **The names of a scan are paths from the root if and only if the root is spelled plainly**: with
a plain root, what is left of a path below the root is the path from there. Then the tests of a scan
are about that path, and reading it gives the file that was walked. Two spellings of a directory have
the same outcome if both of them are plain, or neither is. -/
theorem scan_names_iff_plain_root (tree : FileTree) (root : Text) (hroot : root ≠ []) :
    (∀ r, Path.IsInner r →
      (Path.relative root (Path.join root r) = r ↔ Path.spelledPlainly root = true)) ∧
    (Path.spelledPlainly root = true →
      (∀ (s : Settings) (target : Text) (rs : List Text), (∀ r ∈ rs, Path.IsInner r) →
        supportedFiles s root target (rs.map (Path.join root)) =
          Text.sort (rs.filter fun r =>
            (target.isEmpty || r.startsWith target) && s.eligibility r = .eligible)) ∧
      ∀ r, Path.IsInner r → ∀ content,
        (tree.reader root).read (Path.relative root (Path.join root r)) = .ok content ↔
          tree.read (Path.join root r) = .ok content) ∧
    ∀ root', tree.isDirectory root = true → tree.isDirectory root' = true →
      Path.clean root = Path.clean root' →
      Path.spelledPlainly root = Path.spelledPlainly root' →
      ∀ target format, scanTask tree root target format = scanTask tree root' target format := by
  refine ⟨?_, ?_, ?_⟩
  · intro r hr
    exact Path.relative_join_eq_iff hroot hr
  · intro hplain
    constructor
    · intro s target rs hrs
      exact supportedFiles_map_join hroot hplain hrs
    · intro r hr content
      rw [(Path.relative_join_eq_iff hroot hr).mpr hplain]
      exact read_reader_eq_ok_iff hr content
  · intro root' hdirectory hdirectory' hclean hplain
    exact scanTask_eq_of_clean_eq hdirectory hdirectory' hclean hplain

/-- A slash at the end of the root does not matter, whether the root is relative or absolute. -/
theorem scan_names_iff_plain_root_mixedTree :
    mixedTree.isDirectory "sub/" = true ∧
      Path.relative "sub/" (Path.join "sub/" "app/good.py") = "app/good.py" ∧
      scanTask mixedTree "sub/" [] .standard = scanTask mixedTree "sub" [] .standard ∧
      mixedTree.isDirectory "/work/sub/" = true ∧
      scanTask mixedTree "/work/sub/" [] .standard =
        scanTask mixedTree "/work/sub" [] .standard := by
  have hroot : mixedTree.isDirectory "sub/" = true := by decide
  have habsolute : mixedTree.isDirectory "/work/sub/" = true := by decide
  obtain ⟨hnames, -, hspelling⟩ := scan_names_iff_plain_root mixedTree "sub/" (by decide)
  obtain ⟨-, -, hspelling'⟩ := scan_names_iff_plain_root mixedTree "/work/sub/" (by decide)
  refine ⟨hroot, ?_, ?_, habsolute, ?_⟩
  · exact (hnames "app/good.py" (by decide)).mpr (by decide)
  · exact hspelling "sub" hroot (by decide) (by decide) (by decide) [] .standard
  · exact hspelling' "/work/sub" habsolute (by decide) (by decide) (by decide) [] .standard

/-- **A root that is not spelled plainly hides all failures**: a scan of `./sub` finds the file that
fails in `sub`, does not find it again below the root, and ends well. -/
theorem scan_hides_failures_of_dotted_root :
    mixedTree.isDirectory "sub" = true ∧ mixedTree.isDirectory "./sub" = true ∧
      Path.clean "./sub" = Path.clean "sub" ∧
      Path.relative "./sub" (Path.join "./sub" "bad.py") ≠ "bad.py" ∧
      (scanTask mixedTree "sub" [] .standard).error.isSome = true ∧
      (scanTask mixedTree "./sub" [] .standard).error.isSome = false := by
  have hroot : mixedTree.isDirectory "sub" = true := by decide
  have hdotted : mixedTree.isDirectory "./sub" = true := by decide
  refine ⟨hroot, hdotted, by decide, by decide, ?_, ?_⟩
  · rw [scanTask_of_isDirectory hroot, isSome_error_scanFiles_iff]
    refine ⟨"bad.py", ?_, "foo(bar\n", rfl, by decide⟩
    rw [mem_supportedFiles_iff]
    exact ⟨"sub/bad.py", by decide⟩
  · rw [scanTask_of_isDirectory hdotted, Bool.eq_false_iff, ne_eq, isSome_error_scanFiles_iff]
    rintro ⟨file, hfile, content, hread, -⟩
    obtain ⟨p, hp, rfl, -⟩ := (mem_supportedFiles_iff file).mp hfile
    have hunread : ∀ p ∈ mixedTree.walk "./sub",
        ((mixedTree.reader "./sub").read (Path.relative "./sub" p)).isOk = false := by
      decide
    have hread' := hunread p hp
    rw [hread] at hread'
    cases hread'

end Enclosure
