import Enclosure.Analysis.Run
import Enclosure.Git.Command
import Enclosure.Proofs.Glob.Letters
import Enclosure.Proofs.Text.Runes
import Enclosure.Settings.Read

/-!
# Leaving out ignored directories early

Changes between two commits are filtered before they are analysed: a file whose name starts with an
ignored directory is left out of the diff. The analysis ignores files by another rule, matching the
name against a pattern. What the first rule leaves out the second ignores if the directory is
**literal**, and only then: written without backslashes, since in a pattern a backslash takes the
next character literally, and without a slash in front, since a slash in front of the file's name is
dropped before it is matched.

## Main definitions

* `Settings.isLiteral`: whether a directory is literal.

## Main results

* `Settings.accepts_below_iff`: the pattern of a plain directory matches all names that start with
  it if and only if the directory is literal.
* `analyse_congr_eligible`: an analysis depends on the files that are analysed only.
* `early_filter_keeps_analysis`: **filtering by literal directories changes no analysis**.
* `early_filter_drops_escaped_directory`: with a backslash in a directory it does.
-/

namespace Enclosure

namespace Glob

/-! ### Patterns of texts -/

/-- A text with a slash in it is read in two parts. -/
theorem ofText_append_slash (t rest : Text) :
    ofText (t ++ Text.slash :: rest) = ofText t ++ separator :: ofText rest := by
  have hslash : Text.slash < 0x80 := by decide
  simp only [ofText, Text.runes_append_ascii t hslash rest, List.map_append, List.map_cons]
  rfl

/-- An ASCII character of a pattern is one of the bytes that the pattern is written with. -/
theorem mem_of_mem_ofText {c : Char} {t : Text} (hc : c ∈ ofText t) (hpos : 0 < c.toNat)
    (hlt : c.toNat < 128) : UInt8.ofNat c.toNat ∈ t := by
  obtain ⟨r, hr, rfl⟩ := List.mem_map.mp hc
  obtain ⟨b, hb, hbyte⟩ := Text.exists_byte_of_mem_runes hr hpos hlt
  rwa [← hbyte, UInt8.ofNat_toNat]

/-- An ASCII byte is a character of the pattern that is written with it. -/
theorem mem_ofText_of_mem {b : UInt8} {t : Text} (hb : b < 0x80) (hmem : b ∈ t) :
    Char.ofNat b.toNat ∈ ofText t :=
  List.mem_map_of_mem (f := Rune.toChar) (Text.scalar_mem_runes hb hmem)

end Glob

namespace Settings

open Glob

variable {dir : Text}

/-- Whether a directory is written without backslashes and without a slash in front. -/
def isLiteral (dir : Text) : Bool :=
  !dir.contains 92 && !dir.startsWith "/"

/-! ### Plain directories as patterns -/

/-- A plain directory ends in a slash. -/
theorem exists_of_isPlainDirectory (hdir : isPlainDirectory dir = true) :
    ∃ t, dir = t ++ [Text.slash] := by
  simp only [isPlainDirectory, Text.endsWith, Bool.and_eq_true, List.isSuffixOf_iff_suffix] at hdir
  obtain ⟨t, ht⟩ := hdir.1
  exact ⟨t, ht.symm⟩

/-- As a pattern, a plain directory ends in a slash. -/
theorem getLast?_ofText (hdir : isPlainDirectory dir = true) :
    (ofText dir).getLast? = some separator := by
  obtain ⟨t, rfl⟩ := exists_of_isPlainDirectory hdir
  rw [ofText_append_slash]
  simp [ofText, Text.runes, Text.runesFrom]

/-- What follows a plain directory is read on its own. -/
theorem ofText_append (hdir : isPlainDirectory dir = true) (rest : Text) :
    ofText (dir ++ rest) = ofText dir ++ ofText rest := by
  obtain ⟨t, rfl⟩ := exists_of_isPlainDirectory hdir
  rw [List.append_assoc, List.singleton_append, ofText_append_slash, ofText_append_slash]
  simp [ofText, Text.runes, Text.runesFrom]

/-- A plain directory stands for all files below. -/
theorem ofText_fullPattern (hdir : isPlainDirectory dir = true) :
    ofText (fullPattern dir) = ofText dir ++ belowAll := by
  have hends : dir.endsWith "/" = true := (Bool.and_eq_true_iff.mp hdir).1
  rw [fullPattern, if_pos hends, ofText_append hdir]
  rfl

/-- As a pattern, a plain directory has no wildcards. -/
theorem not_wildcard_of_mem_ofText (hdir : isPlainDirectory dir = true) :
    ∀ c ∈ ofText dir, c ∉ ['*', '?', '[', '\x7b'] := by
  simp only [isPlainDirectory, Bool.and_eq_true, Bool.not_eq_true', List.any_eq_false] at hdir
  intro c hc hwild
  simp only [List.mem_cons, List.not_mem_nil, or_false] at hwild
  obtain rfl | rfl | rfl | rfl := hwild
  all_goals exact hdir.2 _ (mem_of_mem_ofText hc (by decide) (by decide)) (by decide)

/-- A plain directory is spelled out by proper letters. -/
theorem isProper_toLetters_ofText (hdir : isPlainDirectory dir = true) :
    ∀ l ∈ toLetters (ofText dir), l.isProper = true := by
  refine isProper_toLetters (not_wildcard_of_mem_ofText hdir) ?_
  rw [getLast?_ofText hdir]
  decide

/-- The matcher's view of a plain directory: letters and then all that is below. -/
theorem accepts_fullPattern (hdir : isPlainDirectory dir = true) (path : Text) :
    accepts (fullPattern dir) path = true ↔
      run (spelled (toLetters (ofText dir)) ++ belowAll) (ofText path) = .accepted := by
  rw [accepts, ofText_fullPattern hdir, spelled_toLetters, beq_iff_eq]

/-! ### Literal directories -/

/-- Without a slash in front there is nothing to drop. -/
theorem dropFirst_append (hdir : isPlainDirectory dir = true)
    (hslash : dir.startsWith "/" = false) (rest : Text) :
    (dir ++ rest).dropFirst "/" = dir ++ rest := by
  obtain ⟨t, ht⟩ := exists_of_isPlainDirectory hdir
  cases dir with
  | nil => simp at ht
  | cons b dir =>
      have hb : ("/" : Text) = [Text.slash] := by decide
      rw [hb] at hslash ⊢
      have hne : (Text.slash == b) = false := by
        simpa [Text.startsWith, List.isPrefixOf] using hslash
      simp [Text.dropFirst, List.isPrefixOf?, hne]

/-- **The pattern of a literal directory matches all names that start with it.** -/
theorem accepts_of_startsWith (hdir : isPlainDirectory dir = true) (hlit : isLiteral dir = true)
    {file : Text} (hfile : file.startsWith dir = true) :
    accepts (fullPattern dir) (file.dropFirst "/") = true := by
  obtain ⟨rest, rfl⟩ := List.isPrefixOf_iff_prefix.mp hfile
  simp only [isLiteral, Bool.and_eq_true, Bool.not_eq_true', List.contains_eq_mem,
    decide_eq_false_iff_not] at hlit
  have hbackslash : '\\' ∉ ofText dir := fun hmem =>
    hlit.1 (mem_of_mem_ofText hmem (by decide) (by decide))
  have hletters : letters (toLetters (ofText dir)) = ofText dir := by
    rw [toLetters_of_no_backslash hbackslash, letters, List.map_map]
    exact List.map_id _
  have hlast := (getLast?_letters_toLetters (ofText dir)).trans (getLast?_ofText hdir)
  have hrun := run_directory (isProper_toLetters_ofText hdir) hlast (ofText rest)
  rw [dropFirst_append hdir hlit.2, accepts_fullPattern hdir, ofText_append hdir]
  rwa [hletters] at hrun

/-! ### Other directories -/

/-- What a pattern stands for is no longer than the pattern. -/
theorem length_letters_le (p : Glob) : (letters (toLetters p)).length ≤ p.length := by
  have hle := length_le_length_spelled (toLetters p)
  rwa [spelled_toLetters, ← List.length_map Letter.char] at hle

/-- A directory with a backslash does not match the names below it: it takes the backslash for an
escape. -/
theorem not_run_of_backslash (hdir : isPlainDirectory dir = true) (hmem : '\\' ∈ ofText dir)
    (behind : List Char) :
    run (spelled (toLetters (ofText dir)) ++ belowAll) (ofText dir ++ behind) ≠ .accepted := by
  intro hrun
  have hproper := isProper_toLetters_ofText hdir
  obtain hprefix | hself := prefix_of_run_directory hproper hrun
  · have hslash : ∀ l ∈ (toLetters (ofText dir)).getLast?, l.char = separator := by
      intro l hl
      have hlast := (getLast?_letters_toLetters (ofText dir)).trans (getLast?_ofText hdir)
      rw [letters, List.getLast?_map, Option.mem_def.mp hl] at hlast
      exact Option.some.inj hlast
    -- Where a directory starts with what it stands for, each of its letters stands for itself.
    have hspelled := spelled_toLetters (ofText dir)
    generalize toLetters (ofText dir) = ls at *
    rw [← hspelled] at hprefix hmem
    obtain ⟨l, hl, hchar⟩ := List.mem_flatMap.mp hmem
    obtain ⟨c, rfl⟩ := eq_plain_of_prefix hproper hslash behind hprefix l hl
    obtain rfl : '\\' = c := List.mem_singleton.mp hchar
    exact absurd (hproper _ hl) (by decide)
  · have hlength := congrArg List.length hself
    have hle := length_letters_le (ofText dir)
    simp only [List.length_append, List.length_singleton] at hlength
    omega

/-- A directory with a slash in front does not match the names below it: their slash in front is
dropped. -/
theorem not_run_of_slash {p : Glob}
    (hproper : ∀ l ∈ toLetters (separator :: p), l.isProper = true) {c : Char}
    (hc : c ≠ separator) (behind : List Char) :
    run (spelled (toLetters (separator :: p)) ++ belowAll) (p ++ c :: behind) ≠ .accepted := by
  intro hrun
  have hcons : toLetters (separator :: p) = .plain separator :: toLetters p := by
    rw [toLetters]
    simp [separator]
  obtain hprefix | hself := prefix_of_run_directory hproper hrun
  · rw [hcons] at hproper hprefix
    have hprefix : separator :: letters (toLetters p) <+: spelled (toLetters p) ++ c :: behind := by
      rw [spelled_toLetters]
      exact hprefix
    refine not_prefix_of_slash (List.forall_mem_cons.mp hproper).2 ?_ hprefix
    simpa using hc
  · have hlength := congrArg List.length hself
    have hle := length_letters_le (separator :: p)
    simp only [List.length_append, List.length_cons] at hlength hle
    omega

/-- A directory that is not literal has a backslash in it or a slash in front. -/
theorem backslash_or_slash (hlit : isLiteral dir = false) :
    92 ∈ dir ∧ dir.startsWith "/" = false ∨ ∃ t, dir = Text.slash :: t := by
  have hb : ("/" : Text) = [Text.slash] := by decide
  simp only [isLiteral, Bool.and_eq_false_iff, Bool.not_eq_false', List.contains_eq_mem,
    decide_eq_true_eq, hb, Text.startsWith, List.isPrefixOf_iff_prefix] at hlit ⊢
  by_cases hslash : [Text.slash] <+: dir
  · obtain ⟨t, rfl⟩ := hslash
    exact .inr ⟨t, rfl⟩
  · refine .inl ⟨hlit.resolve_right hslash, ?_⟩
    simpa [Bool.eq_false_iff] using hslash

/-- **The pattern of any other plain directory does not match all names that start with it.** -/
theorem not_accepts_of_not_isLiteral (hdir : isPlainDirectory dir = true)
    (hlit : isLiteral dir = false) :
    accepts (fullPattern dir) ((dir ++ ("m.py" : Text)).dropFirst "/") = false := by
  rw [Bool.eq_false_iff, Ne, accepts_fullPattern hdir]
  obtain ⟨hmem, hslash⟩ | ⟨t, rfl⟩ := backslash_or_slash hlit
  · rw [dropFirst_append hdir hslash, ofText_append hdir]
    exact not_run_of_backslash hdir (mem_ofText_of_mem (by decide) hmem) _
  · have hcons (rest : Text) : ofText (Text.slash :: rest) = separator :: ofText rest :=
      ofText_append_slash [] rest
    have happend := ofText_append hdir "m.py"
    rw [List.cons_append, hcons, hcons, List.cons_append, List.cons.injEq] at happend
    have hdrop : Text.dropFirst (Text.slash :: t ++ ("m.py" : Text)) "/" = t ++ ("m.py" : Text) :=
      rfl
    have hproper := isProper_toLetters_ofText hdir
    rw [hdrop, happend.2, hcons]
    rw [hcons] at hproper
    exact not_run_of_slash hproper (by decide) _

/-- **Whether the pattern of a plain directory matches all names that start with it.** -/
theorem accepts_below_iff (hdir : isPlainDirectory dir = true) :
    (∀ file : Text, file.startsWith dir = true →
      accepts (fullPattern dir) (file.dropFirst "/") = true) ↔ isLiteral dir = true := by
  refine ⟨fun hall => ?_, fun hlit file => accepts_of_startsWith hdir hlit⟩
  by_contra hlit
  have hfile : (dir ++ ("m.py" : Text)).startsWith dir = true := by
    simp [Text.startsWith]
  have hnot := not_accepts_of_not_isLiteral hdir (Bool.eq_false_iff.mpr hlit)
  exact absurd (hall _ hfile) (by rw [hnot]; decide)

/-! ### Files left out -/

/-- A file below a literal ignored directory is ignored. -/
theorem isIgnored_of_isBelow {s : Settings}
    (hlit : ∀ dir ∈ s.ignoredDirectories, isLiteral dir = true) {p : FilePatch}
    (hp : p.isBelow s.ignoredDirectories = true) : s.isIgnored (dropLetter p.newName) = true := by
  obtain ⟨dir, hmem, hstarts⟩ := List.any_eq_true.mp hp
  obtain ⟨hignore, hdir⟩ := List.mem_filter.mp hmem
  exact List.any_eq_true.mpr ⟨dir, hignore, (accepts_below_iff hdir).mpr (hlit dir hmem) _ hstarts⟩

end Settings

/-- The changes between two commits, where the differences can be read. -/
theorem Git.changes_eq_ok {git : Git} {base head output : Text} {ps : List FilePatch}
    (hdiff : git (.diff base head) = .ok output) (hparse : Patch.parse output = .ok ps)
    (dirs : List Text) :
    git.changes base head dirs =
      .ok ((ps.filter fun p => !p.isBelow dirs).filterMap FilePatch.change?) := by
  simp only [changes, hdiff, hparse]

/-- The changed files of a diff that can be read. -/
theorem changedFiles_eq_ok {output : Text} {ps : List FilePatch}
    (hparse : Patch.parse output = .ok ps) :
    changedFiles output = .ok (ps.filterMap FilePatch.change?) := by
  simp only [changedFiles, hparse]

/-- A changed file is named as in the diff, less the letter in front. -/
theorem name_of_change? {p : FilePatch} {f : ChangedFile} (hf : p.change? = some f) :
    f.name = dropLetter p.newName := by
  simp only [FilePatch.change?] at hf
  split at hf
  · cases hf
  · rw [← Option.some.inj hf]

/-- Leaving out files of a diff that are not analysed anyway changes nothing about the others. -/
theorem filter_eligible_filterMap {s : Settings} {keep : FilePatch → Bool} {ps : List FilePatch}
    (hkeep : ∀ p ∈ ps, keep p = false →
      ∀ f, p.change? = some f → s.eligibility f.name ≠ .eligible) :
    ((ps.filter keep).filterMap FilePatch.change?).filter
        (fun f => s.eligibility f.name = .eligible) =
      (ps.filterMap FilePatch.change?).filter (fun f => s.eligibility f.name = .eligible) := by
  induction ps with
  | nil => rfl
  | cons p ps ih =>
      obtain ⟨hp, hps⟩ := List.forall_mem_cons.mp hkeep
      have ih := ih hps
      cases hk : keep p with
      | true =>
          rw [List.filter_cons_of_pos hk]
          cases hchange : p.change? with
          | none => simpa only [List.filterMap_cons_none hchange] using ih
          | some f => simp only [List.filterMap_cons_some hchange, List.filter_cons, ih]
      | false =>
          rw [List.filter_cons_of_neg (by simp [hk]), ih]
          cases hchange : p.change? with
          | none => rw [List.filterMap_cons_none hchange]
          | some f =>
              rw [List.filterMap_cons_some hchange,
                List.filter_cons_of_neg (by simp [hp hk f hchange])]

/-- The result of an analysis and its warnings depend on the files that are analysed. -/
theorem analyse_congr_eligible {s : Settings} (reader : FileReader) (calledOff : Bool)
    {files files' : List ChangedFile}
    (hfiles : files.filter (fun f => s.eligibility f.name = .eligible) =
      files'.filter (fun f => s.eligibility f.name = .eligible)) :
    let outcome := analyse s reader calledOff
    (outcome files).result = (outcome files').result ∧
      (outcome files).warnings = (outcome files').warnings := by
  simp only [analyse, hfiles]
  split
  · exact ⟨rfl, rfl⟩
  · exact ⟨rfl, rfl⟩

/-- **Filtering by literal directories changes no analysis.** The changes between two commits, less
the files below ignored directories, have the same analysis as all files of the diff, with the same
warnings, as long as the ignored directories are literal: each file that is left out is ignored. And
only as long as they are: a plain directory matches all names that start with it if and only if it
is literal. -/
theorem early_filter_keeps_analysis (s : Settings) (git : Git) (base head : Text) {output : Text}
    {ps : List FilePatch} (hdiff : git (.diff base head) = .ok output)
    (hparse : Patch.parse output = .ok ps) (reader : FileReader) (calledOff : Bool) :
    ((∀ dir ∈ s.ignoredDirectories, Settings.isLiteral dir = true) →
      (∀ p ∈ ps, p.isBelow s.ignoredDirectories = true →
        s.isIgnored (dropLetter p.newName) = true) ∧
      ∃ kept files, git.changes base head s.ignoredDirectories = .ok kept ∧
        changedFiles output = .ok files ∧
        (analyse s reader calledOff kept).result = (analyse s reader calledOff files).result ∧
        (analyse s reader calledOff kept).warnings = (analyse s reader calledOff files).warnings) ∧
    ∀ dir ∈ s.ignoredDirectories,
      (∀ file : Text, file.startsWith dir = true →
        Glob.accepts (Settings.fullPattern dir) (file.dropFirst "/") = true) ↔
      Settings.isLiteral dir = true := by
  refine ⟨fun hlit => ?_, fun dir hmem => Settings.accepts_below_iff (List.mem_filter.mp hmem).2⟩
  have hignored (p : FilePatch) (hp : p.isBelow s.ignoredDirectories = true) :=
    Settings.isIgnored_of_isBelow hlit hp
  refine ⟨fun p _ hp => hignored p hp, _, _, Git.changes_eq_ok hdiff hparse _,
    changedFiles_eq_ok hparse, ?_⟩
  refine analyse_congr_eligible reader calledOff (filter_eligible_filterMap ?_)
  intro p _ hp f hf
  rw [name_of_change? hf, Settings.eligibility, if_pos (hignored p (by simpa using hp))]
  decide

/-- The diff of a file, shown under the given names, and of a file at the root. -/
def ignoringDiff (oldName newName : Text) : Text :=
  "--- " ++ oldName ++ "\n+++ " ++ newName ++
    "\n@@ -2 +2 @@ def f():\n-    return 1\n+    return 2\n" ++
    "--- a/m.py\n+++ b/m.py\n@@ -2 +2 @@ def f():\n-    return 1\n+    return 2\n"

/-- A repository whose settings ignore one directory. -/
def ignoringGit (dir oldName newName : Text) : Git
  | .presence _ _ => .ok []
  | .content _ path =>
    if path = Settings.fileName then .ok ("ignore = ['" ++ dir ++ "']\n")
    else .ok "def f():\n    return 2\n"
  | .diff _ _ => .ok (ignoringDiff oldName newName)

/-- A file below a literal directory is left out, and the analysis is the same as with it. -/
theorem early_filter_keeps_analysis_literal :
    let git := ignoringGit "gen/" "a/gen/m.py" "b/gen/m.py"
    let s := (Settings.read [] (git.reader "h")).settings
    s.ignoredDirectories = ["gen/"] ∧
    ∃ output kept files, git (.diff "b" "h") = .ok output ∧
      git.changes "b" "h" s.ignoredDirectories = .ok kept ∧ changedFiles output = .ok files ∧
      kept.length + 1 = files.length ∧
      (analyse s (git.reader "h") false kept).result =
        (analyse s (git.reader "h") false files).result := by
  intro git s
  have hdirs : s.ignoredDirectories = ["gen/"] := by decide +kernel
  have hparse : Patch.parse (ignoringDiff "a/gen/m.py" "b/gen/m.py") =
      .ok [⟨"b/gen/m.py", [⟨2, 1, 2, 1⟩]⟩, ⟨"b/m.py", [⟨2, 1, 2, 1⟩]⟩] := by decide +kernel
  have hlit : ∀ dir ∈ s.ignoredDirectories, Settings.isLiteral dir = true := by
    rw [hdirs]
    decide
  obtain ⟨-, kept, files, hkept, hfiles, hresult, -⟩ :=
    (early_filter_keeps_analysis s git "b" "h" rfl hparse (git.reader "h") false).1 hlit
  refine ⟨hdirs, _, kept, files, rfl, hkept, hfiles, ?_, hresult⟩
  rw [Git.changes_eq_ok rfl hparse, hdirs] at hkept
  rw [changedFiles_eq_ok hparse] at hfiles
  rw [← Except.ok.inj hkept, ← Except.ok.inj hfiles]
  decide

/-- **With a backslash in an ignored directory the filter changes the analysis.** The settings
ignore `gen\out/`, which as a pattern stands for `genout/`; the file `gen\out/m.py` is not ignored,
but it is left out of the diff. -/
theorem early_filter_drops_escaped_directory :
    let git := ignoringGit "gen\\out/" "\"a/gen\\\\out/m.py\"" "\"b/gen\\\\out/m.py\""
    let s := (Settings.read [] (git.reader "h")).settings
    s.isIgnored "gen\\out/m.py" = false ∧
    ∃ output kept files, git (.diff "b" "h") = .ok output ∧
      git.changes "b" "h" s.ignoredDirectories = .ok kept ∧ changedFiles output = .ok files ∧
      (analyse s (git.reader "h") false kept).result ≠
        (analyse s (git.reader "h") false files).result := by
  intro git s
  have hdirs : s.ignoredDirectories = ["gen\\out/"] := by decide +kernel
  have hparse : Patch.parse (ignoringDiff "\"a/gen\\\\out/m.py\"" "\"b/gen\\\\out/m.py\"") =
      .ok [⟨"b/gen\\out/m.py", [⟨2, 1, 2, 1⟩]⟩, ⟨"b/m.py", [⟨2, 1, 2, 1⟩]⟩] := by decide +kernel
  refine ⟨by decide +kernel, _, _, _, rfl, Git.changes_eq_ok rfl hparse _,
    changedFiles_eq_ok hparse, ?_⟩
  rw [hdirs]
  decide +kernel

end Enclosure
