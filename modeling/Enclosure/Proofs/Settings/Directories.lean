import Enclosure.Proofs.Analysis.Prefilter
import Enclosure.Proofs.Text.WhiteSpace

/-!
# Ignored directories

An ignore entry that ends in a slash and has neither wildcards nor backslashes names a directory. It
is matched as a pattern, with `**` behind it, against the path of a file without a slash in front;
but what comes of it is a comparison of texts. The entry ignores exactly what lies below the
directory, and the path of the directory itself.

A pattern is matched character by character, and so the comparison is one of characters first. For
texts in UTF-8 that is a comparison of bytes. Stray bytes would all look alike.

## Main definitions

* `Settings.NamesDirectory`: an ignore entry that names a directory.

## Main results

* `Text.ofChars_ofText`: a text in UTF-8 is the encoding of its characters.
* `Settings.accepts_directory_iff`: the paths that the pattern of a directory matches.
* `isIgnored_iff_in_directory`: **a directory entry ignores exactly that directory**.
-/

namespace Enclosure

open Glob

/-! ### Texts in UTF-8 -/

namespace Text

/-- **A text in UTF-8 is the encoding of its characters.** -/
theorem ofChars_ofText {t : Text} (ht : t.isUtf8 = true) : ofChars (ofText t) = t := by
  have hbytes : ∀ r ∈ t.runes, String.utf8EncodeChar r.toChar = r.bytes := by
    intro r hr
    cases r with
    | scalar c => rfl
    | stray b => exact absurd (List.all_eq_true.mp ht _ hr) (by simp)
  calc ofChars (ofText t)
    _ = t.runes.flatMap fun r => String.utf8EncodeChar r.toChar := List.flatMap_map ..
    _ = ofRunes t.runes := List.flatMap_congr hbytes
    _ = t := ofRunes_runes t

/-- Texts in UTF-8 with the same characters are the same. -/
theorem eq_of_ofText_eq {s t : Text} (hs : s.isUtf8 = true) (ht : t.isUtf8 = true)
    (h : ofText s = ofText t) : s = t := by
  rw [← ofChars_ofText hs, h, ofChars_ofText ht]

/-- A text in UTF-8 starts with another one if its characters do. -/
theorem prefix_of_ofText_prefix {s t : Text} (hs : s.isUtf8 = true) (ht : t.isUtf8 = true)
    (h : ofText s <+: ofText t) : s <+: t := by
  obtain ⟨cs, hcs⟩ := h
  refine ⟨ofChars cs, ?_⟩
  calc s ++ ofChars cs
    _ = ofChars (ofText s) ++ ofChars cs := by rw [ofChars_ofText hs]
    _ = ofChars (ofText s ++ cs) := List.flatMap_append.symm
    _ = t := by rw [hcs, ofChars_ofText ht]

/-- A text with a slash in it is in UTF-8 if and only if both its parts are. -/
theorem isUtf8_append_slash (t rest : Text) :
    isUtf8 (t ++ slash :: rest) = (isUtf8 t && isUtf8 rest) := by
  have hslash : slash < 0x80 := by decide
  rw [isUtf8, runes_append_ascii t hslash, List.all_append, List.all_cons, Bool.true_and]
  rfl

/-- Without a slash in front a text in UTF-8 is still in UTF-8. -/
theorem isUtf8_dropFirst_slash {t : Text} (ht : t.isUtf8 = true) :
    (t.dropFirst "/").isUtf8 = true := by
  by_cases hslash : ("/" : Text) <+: t
  · obtain ⟨rest, rfl⟩ := hslash
    rw [dropFirst_append_self]
    have hparts := isUtf8_append_slash [] rest
    exact (Bool.and_eq_true_iff.mp (hparts.symm.trans ht)).2
  · rwa [ dropFirst_of_not_prefix hslash]

end Text

/-! ### Directories as patterns -/

namespace Settings

/-- An ignore entry that **names a directory**: it ends in a slash, and no character of it has a
meaning of its own. Brackets and braces that only close have none. -/
structure NamesDirectory (entry : Text) : Prop where
  plain : isPlainDirectory entry = true
  no_backslash : 92 ∉ entry
  utf8 : entry.isUtf8 = true

/-- **The paths that the pattern of a directory matches**: all that start with it, and that of the
directory itself. -/
theorem accepts_directory_iff {entry path : Text} (hentry : NamesDirectory entry)
    (hpath : path.isUtf8 = true) :
    accepts (fullPattern entry) path = true ↔ entry <+: path ∨ path = entry.dropFinal "/" := by
  obtain ⟨dir, rfl⟩ := exists_of_isPlainDirectory hentry.plain
  have hdrop : (dir ++ [Text.slash]).dropFinal "/" = dir := Text.dropFinal_append_self dir "/"
  have hchars : ofText (dir ++ [Text.slash]) = ofText dir ++ [separator] :=
    ofText_append_slash dir []
  have hutf8 : dir.isUtf8 = true :=
    (Bool.and_eq_true_iff.mp ((Text.isUtf8_append_slash dir []).symm.trans hentry.utf8)).1
  -- Every character stands for itself.
  have hbackslash : '\\' ∉ ofText (dir ++ [Text.slash]) := fun hmem =>
    hentry.no_backslash (mem_of_mem_ofText hmem (by decide) (by decide))
  have hproper := isProper_toLetters_ofText hentry.plain
  rw [accepts_fullPattern hentry.plain]
  rw [toLetters_of_no_backslash hbackslash, hchars, List.map_append] at hproper ⊢
  have hletters : letters ((ofText dir).map .plain) = ofText dir := by
    rw [letters, List.map_map]
    exact List.map_id _
  rw [List.map_singleton, run_directory_iff (fun l hl => hproper l (List.mem_append_left _ hl)),
    hletters, hdrop]
  refine or_congr ⟨fun hprefix => ?_, fun hprefix => ?_⟩ ⟨Text.eq_of_ofText_eq hpath hutf8, ?_⟩
  · rw [← hchars] at hprefix
    exact Text.prefix_of_ofText_prefix hentry.utf8 hpath hprefix
  · obtain ⟨rest, rfl⟩ := hprefix
    rw [ofText_append hentry.plain, hchars]
    exact List.prefix_append _ _
  · rintro rfl
    rfl

end Settings

/-- **A directory entry ignores exactly that directory.** Where all ignore entries name directories,
a file is ignored if and only if its path, less a slash in front, starts with one of the entries or
is one of them less its final slash. -/
theorem isIgnored_iff_in_directory (s : Settings)
    (hs : ∀ entry ∈ s.ignore, Settings.NamesDirectory entry) (file : Text)
    (hfile : file.isUtf8 = true) :
    s.isIgnored file = true ↔ ∃ entry ∈ s.ignore,
      entry <+: file.dropFirst "/" ∨ file.dropFirst "/" = entry.dropFinal "/" := by
  have hpath := Text.isUtf8_dropFirst_slash hfile
  rw [Settings.isIgnored, List.any_eq_true]
  exact exists_congr fun entry => and_congr_right fun hentry =>
    Settings.accepts_directory_iff (hs entry hentry) hpath

/-- The standard settings with two ignored directories, of which one has names beyond ASCII. -/
def directoriesOnly : Settings :=
  { Settings.standard with ignore := ["vendor/", "données/été/"] }

/-- What is below a directory is ignored and so is the directory itself, with or without a slash in
front of the path. A sibling with a longer name is not ignored. -/
theorem isIgnored_iff_in_directory_directoriesOnly :
    directoriesOnly.isIgnored "/données/été/a.py" = true ∧
    directoriesOnly.isIgnored "vendor" = true ∧
    directoriesOnly.isIgnored "vendored/a.py" = false := by
  have hentries : ∀ entry ∈ directoriesOnly.ignore, Settings.NamesDirectory entry := by
    intro entry hentry
    rcases List.mem_cons.mp hentry with rfl | hentry
    · exact ⟨by decide, by decide, by decide⟩
    · obtain rfl := List.mem_singleton.mp hentry
      exact ⟨by decide +kernel, by decide +kernel, by decide +kernel⟩
  have hiff := isIgnored_iff_in_directory directoriesOnly hentries
  refine ⟨?_, ?_, ?_⟩
  · exact (hiff _ (by decide +kernel)).mpr ⟨"données/été/", by decide, .inl (by decide +kernel)⟩
  · exact (hiff _ (by decide)).mpr ⟨"vendor/", by decide, .inr (by decide)⟩
  · rw [Bool.eq_false_iff, ne_eq, hiff _ (by decide)]
    decide +kernel

end Enclosure
