import Enclosure.Proofs.Tool.Scan

/-!
# Scans of a part of a repository

A scan can be given a target, which is meant to be a directory: only the files below it are then of
interest. What decides is whether the name of a file **starts with** the target as a text. That is
not yet below the target: a sibling whose name goes on where the target ends starts with it, too.

So a scan of a target is about too many files exactly if there is such a sibling, and about no file
too few. With a slash at its end the target is always meant as a whole.

## Main definitions

* `Path.liesBelow`: whether a path lies below a directory.

## Main results

* `Path.liesBelow_iff`: lying below a directory, in terms of path elements.
* `supportedFiles_eq_filter`: the files of a scan of a target among all files of a scan.
* `scan_target_exact_iff_no_sibling`: **a scan of a target is about the files below it if and only if
  no other file starts with it.**
* `scan_target_takes_sibling`: with a sibling it is about other files, and fails for them.
-/

namespace Enclosure

/-- Whether a path lies below a directory, by its spelling. -/
def Path.liesBelow (dir p : Text) : Bool :=
  p.startsWith (dir ++ "/")

/-- **A path lies below a directory** if and only if its elements are those of the directory and
then at least one more. -/
theorem Path.liesBelow_iff (dir p : Text) :
    liesBelow dir p = true ↔ ∃ rest, rest ≠ [] ∧
      Text.splitAt Text.slash p = Text.splitAt Text.slash dir ++ rest := by
  rw [liesBelow, Text.startsWith_iff]
  constructor
  · rintro ⟨inner, rfl⟩
    refine ⟨Text.splitAt Text.slash inner, Text.splitAt_ne_nil Text.slash inner, ?_⟩
    rw [List.append_assoc]
    exact Text.splitAt_append_sep Text.slash dir inner
  · rintro ⟨rest, hrest, hsplit⟩
    refine ⟨Text.join [Text.slash] rest, ?_⟩
    calc dir ++ ("/" : Text) ++ Text.join [Text.slash] rest
      _ = (Text.splitAt Text.slash dir).flatMap (· ++ [Text.slash]) ++ Text.join [Text.slash] rest :=
          congrArg (· ++ _) (Text.append_sep_eq_flatMap Text.slash dir)
      _ = Text.join [Text.slash] (Text.splitAt Text.slash dir ++ rest) :=
          (Text.join_append [Text.slash] _ hrest).symm
      _ = p := by rw [← hsplit, Text.join_splitAt]

/-- **The files of a scan of a target** are those files of a scan that start with it. -/
theorem supportedFiles_eq_filter (s : Settings) (root target : Text) (walked : List Text) :
    supportedFiles s root target walked =
      (supportedFiles s root [] walked).filter (·.startsWith target) := by
  have hstarts (file : Text) : (target.isEmpty || file.startsWith target) =
      file.startsWith target := by
    cases target with
    | nil => rfl
    | cons b target => rfl
  rw [supportedFiles, supportedFiles, ← Text.sort_filter, List.filter_filter]
  simp only [hstarts, List.isEmpty_nil, Bool.true_or, Bool.true_and]

/-- **A scan of a target is about the files below it if and only if no other file starts with it.**
In any case it is about the files of a scan of everything that start with the target, in the same
order. With a slash behind the target these are the files below it, that is, those whose elements
start with the elements of the target. -/
theorem scan_target_exact_iff_no_sibling (s : Settings) (root target : Text) (walked : List Text) :
    let all := supportedFiles s root [] walked
    supportedFiles s root target walked = all.filter (·.startsWith target) ∧
    supportedFiles s root (target ++ "/") walked = all.filter (Path.liesBelow target) ∧
    (∀ file, Path.liesBelow target file = true ↔ ∃ rest, rest ≠ [] ∧
      Text.splitAt Text.slash file = Text.splitAt Text.slash target ++ rest) ∧
    (supportedFiles s root target walked = all.filter (Path.liesBelow target) ↔
      ∀ file ∈ all, target <+: file → Path.liesBelow target file = true) := by
  intro all
  have hbelow {file : Text} (h : Path.liesBelow target file = true) :
      file.startsWith target = true := by
    rw [Path.liesBelow, Text.startsWith_iff] at h
    exact Text.startsWith_iff.mpr ((List.prefix_append target "/").trans h)
  refine ⟨supportedFiles_eq_filter s root target walked, supportedFiles_eq_filter s root _ walked,
    Path.liesBelow_iff target, ?_⟩
  rw [supportedFiles_eq_filter]
  constructor
  · intro hexact file hfile hstarts
    have hmem : file ∈ all.filter (·.startsWith target) :=
      List.mem_filter.mpr ⟨hfile, Text.startsWith_iff.mpr hstarts⟩
    rw [hexact] at hmem
    exact (List.mem_filter.mp hmem).2
  · intro hsiblings
    refine List.filter_congr fun file hfile => ?_
    rw [Bool.eq_iff_iff]
    exact ⟨fun hstarts => hsiblings file hfile (Text.startsWith_iff.mp hstarts), hbelow⟩

/-- Two directories of which the name of one starts with the name of the other. Only the longer one
has a file that fails the dry run. -/
def siblingTree : FileTree :=
  .ofPaths [("app/good.py", "x = 1\n"), ("apple/bad.py", "foo(bar\n")]

/-- **A scan of a directory can fail for a file elsewhere**: a scan of `app` takes the file in
`apple`, which does not lie below `app`, and fails for it. -/
theorem scan_target_takes_sibling :
    let files := supportedFiles .standard "." "app" (siblingTree.walk ".")
    let all := supportedFiles .standard "." [] (siblingTree.walk ".")
    siblingTree.isDirectory (Path.join "." "app") = true ∧
    files ≠ all.filter (Path.liesBelow "app") ∧
    (∀ file ∈ all, Path.liesBelow "app" file = true → ∃ content,
      (siblingTree.reader ".").read file = .ok content ∧ (dryRun content).valid = true) ∧
    (scanTask siblingTree "." "app" .standard).error.isSome = true := by
  intro files all
  have hroot : siblingTree.isDirectory "." = true := by decide
  have hwalked : siblingTree.walk "." = ["app/good.py", "apple/bad.py"] := by decide
  have hsibling : ∃ p ∈ siblingTree.walk ".", Path.relative "." p = "apple/bad.py" ∧
      (("app" : Text) = [] ∨ ("app" : Text) <+: "apple/bad.py") ∧
      Settings.standard.isIgnored "apple/bad.py" = false ∧
      isSupported Settings.standard.extensions "apple/bad.py" = true :=
    ⟨"apple/bad.py", by decide⟩
  refine ⟨by decide, ?_, ?_, ?_⟩
  · intro hexact
    have hmem : ("apple/bad.py" : Text) ∈ files := (mem_supportedFiles_iff _).mpr hsibling
    rw [hexact] at hmem
    exact absurd (List.mem_filter.mp hmem).2 (by decide)
  · intro file hfile hbelow
    obtain ⟨p, hp, rfl, -⟩ := (mem_supportedFiles_iff file).mp hfile
    rw [hwalked] at hp
    rcases List.mem_cons.mp hp with rfl | hp
    · exact ⟨"x = 1\n", rfl, by decide⟩
    · obtain rfl := List.mem_singleton.mp hp
      exact absurd hbelow (by decide)
  · rw [scanTask_of_isDirectory hroot, isSome_error_scanFiles_iff]
    refine ⟨"apple/bad.py", ?_, "foo(bar\n", rfl, by decide⟩
    rw [mem_supportedFiles_iff]
    exact hsibling

end Enclosure
