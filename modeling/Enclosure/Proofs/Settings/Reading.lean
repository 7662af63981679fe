import Enclosure.Settings.Read

/-!
# What reading settings yields

The settings of a repository are used without further checks, also if something was wrong with
them. So they have to be **usable** on every way out: without a file, with a file that cannot be
read or decoded, with values that make no sense and with a pattern that is not well formed. Nothing
is assumed about the notation here: what is decoded may be any configuration.

## Main definitions

* `Settings.Usable`: the settings with which an analysis and a comment can be made.
* `Settings.given`: the configuration that gives all settings as they are.
* `Settings.FirstBad`: the first pattern that is not well formed.

## Main results

* `Settings.usable_iff`: usable settings are those that a configuration can give as they are.
* `Settings.readWith_cases`: all ways in which reading can end.
* `Settings.usable_readWith`: **the settings that are read are usable**.
* `Settings.decode_eq_none_of_step`: one statement that is not understood spoils the configuration,
  whatever was understood before it.
-/

namespace Enclosure

/-! ### Usable settings -/

namespace Settings

/-- Settings are **usable** if one file at least may be analysed at a time, and if comments have a
header by which they are found again. -/
structure Usable (s : Settings) : Prop where
  workers : 1 ≤ s.maxWorkers
  header : s.comment.header.isBlank = false

/-- The configuration that gives all settings as they are. -/
def given (s : Settings) : GivenSettings :=
  ⟨some s.ignore, some s.extensions, s.maxWorkers, some s.skipInvalid, some s.comment⟩

theorem usable_standard : standard.Usable :=
  ⟨by decide, by decide⟩

end Settings

/-- A comment never has a blank header. -/
theorem CommentSettings.isBlank_header_normalized (c : CommentSettings) :
    c.normalized.header.isBlank = false := by
  rw [normalized]
  split
  · exact Settings.usable_standard.header
  · rename_i hheader
    exact Bool.eq_false_iff.mpr hheader

/-- A header is left as it is if and only if it is not blank. -/
theorem CommentSettings.normalized_eq_self_iff (c : CommentSettings) :
    c.normalized = c ↔ c.header.isBlank = false := by
  constructor
  · intro hsame
    rw [← hsame]
    exact c.isBlank_header_normalized
  · intro hheader
    rw [normalized, hheader]
    rfl

/-- **Every configuration gives usable settings.** -/
theorem GivenSettings.usable_settings (g : GivenSettings) : g.settings.Usable where
  workers := by
    simp only [settings]
    split
    · exact Settings.usable_standard.workers
    · omega
  header := CommentSettings.isBlank_header_normalized _

namespace Settings

/-- **Usable settings** are those that a configuration can give as they are. -/
theorem usable_iff (s : Settings) : s.Usable ↔ s.given.settings = s := by
  constructor
  · intro hs
    have hworkers : s.given.settings.maxWorkers = s.maxWorkers :=
      if_neg (Int.not_lt.mpr hs.workers)
    have hcomment : s.given.settings.comment = s.comment :=
      s.comment.normalized_eq_self_iff.mpr hs.header
    show (⟨s.ignore, s.extensions, s.given.settings.maxWorkers, s.skipInvalid,
      s.given.settings.comment⟩ : Settings) = s
    rw [hworkers, hcomment]
  · intro hsame
    rw [← hsame]
    exact s.given.usable_settings

/-! ### Patterns -/

/-- The pattern is the **first bad** one: it is not well formed, and all patterns before it are. -/
def FirstBad (s : Settings) (pattern : Text) : Prop :=
  (Glob.ofText pattern).wellFormed = false ∧ ∃ before after,
    s.ignore = before ++ pattern :: after ∧ ∀ p ∈ before, (Glob.ofText p).wellFormed = true

theorem badPattern?_eq_some_iff {s : Settings} {pattern : Text} :
    s.badPattern? = some pattern ↔ s.FirstBad pattern := by
  simp only [badPattern?, FirstBad, List.find?_eq_some_iff_append, Bool.not_not,
    Bool.not_eq_true']

theorem badPattern?_eq_none_iff {s : Settings} :
    s.badPattern? = none ↔ ∀ p ∈ s.ignore, (Glob.ofText p).wellFormed = true := by
  simp only [badPattern?, List.find?_eq_none, Bool.not_eq_true', Bool.not_eq_false]

/-! ### Ways in which reading can end -/

/-- All ways in which reading can end: there is no file, it cannot be read or decoded, or there is a
configuration. -/
theorem readWith_cases (decode : Text → Option GivenSettings) (dir : Text) (reader : FileReader) :
    (reader.has (Path.join dir fileName) = false ∧
      readWith decode dir reader = ⟨standard, none⟩) ∨
    (reader.has (Path.join dir fileName) = true ∧
      ∃ reason, reader.read (Path.join dir fileName) = .error reason ∧
        readWith decode dir reader = ⟨standard, some (.unreadable reason)⟩) ∨
    (reader.has (Path.join dir fileName) = true ∧
      ∃ content, reader.read (Path.join dir fileName) = .ok content ∧ decode content = none ∧
        readWith decode dir reader = ⟨standard, some (.malformed (Path.join dir fileName))⟩) ∨
    (reader.has (Path.join dir fileName) = true ∧
      ∃ content g, reader.read (Path.join dir fileName) = .ok content ∧ decode content = some g ∧
        readWith decode dir reader = report g) := by
  simp only [readWith]
  cases reader.has (Path.join dir fileName) with
  | false => exact .inl ⟨rfl, rfl⟩
  | true =>
      cases hread : reader.read (Path.join dir fileName) with
      | error reason => exact .inr (.inl ⟨rfl, reason, rfl, rfl⟩)
      | ok content =>
          cases hdecode : decode content with
          | none => exact .inr (.inr (.inl ⟨rfl, content, rfl, hdecode, by simp [hdecode]⟩))
          | some g => exact .inr (.inr (.inr ⟨rfl, content, g, rfl, hdecode, by simp [hdecode]⟩))

/-- **The settings that are read are usable**, whatever is read and whatever is decoded. -/
theorem usable_readWith (decode : Text → Option GivenSettings) (dir : Text) (reader : FileReader) :
    (readWith decode dir reader).settings.Usable := by
  obtain ⟨-, h⟩ | ⟨-, _, -, h⟩ | ⟨-, _, -, -, h⟩ | ⟨-, _, g, -, -, h⟩ :=
    readWith_cases decode dir reader
  · exact h ▸ usable_standard
  · exact h ▸ usable_standard
  · exact h ▸ usable_standard
  · exact h ▸ g.usable_settings

/-! ### What is reported -/

section

variable {decode : Text → Option GivenSettings} {dir : Text} {reader : FileReader}

/-- Nothing is reported about a configuration only if all its patterns are well formed. -/
theorem report_error_eq_none_iff {g : GivenSettings} :
    (report g).error = none ↔ ∀ p ∈ g.settings.ignore, (Glob.ofText p).wellFormed = true := by
  rw [← badPattern?_eq_none_iff]
  exact Option.map_eq_none_iff

/-- All that is reported about a configuration is its first bad pattern. -/
theorem report_error_eq_some_iff {g : GivenSettings} {e : SettingsError} :
    (report g).error = some e ↔
      ∃ pattern, e = .badPattern pattern ∧ g.settings.FirstBad pattern := by
  simp only [← badPattern?_eq_some_iff]
  constructor
  · intro h
    obtain ⟨pattern, hbad, rfl⟩ := Option.map_eq_some_iff.mp h
    exact ⟨pattern, rfl, hbad⟩
  · rintro ⟨pattern, rfl, hbad⟩
    exact Option.map_eq_some_iff.mpr ⟨pattern, hbad, rfl⟩

/-- A file is reported as unreadable if it is there but cannot be read. -/
theorem readWith_error_unreadable_iff {reason : Text} :
    (readWith decode dir reader).error = some (.unreadable reason) ↔
      reader.has (Path.join dir fileName) = true ∧
        reader.read (Path.join dir fileName) = .error reason := by
  obtain ⟨hnone, h⟩ | ⟨hhas, other, hread, h⟩ | ⟨-, content, hread, -, h⟩ |
    ⟨-, content, g, hread, -, h⟩ := readWith_cases decode dir reader
  · simp [h, hnone]
  · simp [h, hhas, hread]
  · simp [h, hread]
  · rw [h, report_error_eq_some_iff, hread]
    simp

/-- A file is reported as malformed if it is there and can be read, but not decoded. -/
theorem readWith_error_malformed_iff {file : Text} :
    (readWith decode dir reader).error = some (.malformed file) ↔
      file = Path.join dir fileName ∧ reader.has (Path.join dir fileName) = true ∧
        ∃ content, reader.read (Path.join dir fileName) = .ok content ∧ decode content = none := by
  obtain ⟨hnone, h⟩ | ⟨-, reason, hread, h⟩ | ⟨hhas, content, hread, hdecode, h⟩ |
    ⟨-, content, g, hread, hdecode, h⟩ := readWith_cases decode dir reader
  · simp [h, hnone]
  · simp [h, hread]
  · simp [h, hhas, hread, hdecode, eq_comm]
  · rw [h, report_error_eq_some_iff, hread]
    simp [hdecode]

/-- If the file cannot be read or decoded, the settings are the standard ones. -/
theorem readWith_settings_of_error {e : SettingsError}
    (he : (readWith decode dir reader).error = some e) (hpattern : ∀ p, e ≠ .badPattern p) :
    (readWith decode dir reader).settings = standard := by
  obtain ⟨-, h⟩ | ⟨-, _, -, h⟩ | ⟨-, _, -, -, h⟩ | ⟨-, _, g, -, -, h⟩ :=
    readWith_cases decode dir reader
  · rw [h]
  · rw [h]
  · rw [h]
  · rw [h] at he
    obtain ⟨pattern, rfl, -⟩ := report_error_eq_some_iff.mp he
    exact absurd rfl (hpattern pattern)

/-- If nothing is reported, all patterns are well formed. -/
theorem wellFormed_of_readWith (he : (readWith decode dir reader).error = none) :
    ∀ p ∈ (readWith decode dir reader).settings.ignore, (Glob.ofText p).wellFormed = true := by
  have hnone : ∀ p ∈ standard.ignore, (Glob.ofText p).wellFormed = true := List.forall_mem_nil _
  obtain ⟨-, h⟩ | ⟨-, _, -, h⟩ | ⟨-, _, -, -, h⟩ | ⟨-, _, g, -, -, h⟩ :=
    readWith_cases decode dir reader
  · exact h ▸ hnone
  · exact h ▸ hnone
  · exact h ▸ hnone
  · rw [h] at he ⊢
    exact report_error_eq_none_iff.mp he

/-- If a pattern is reported, it is the first bad one, and the settings are those of the
configuration. -/
theorem firstBad_of_readWith {pattern : Text}
    (he : (readWith decode dir reader).error = some (.badPattern pattern)) :
    (readWith decode dir reader).settings.FirstBad pattern ∧
      ∃ content g, reader.read (Path.join dir fileName) = .ok content ∧ decode content = some g ∧
        (readWith decode dir reader).settings = g.settings := by
  obtain ⟨-, h⟩ | ⟨-, _, -, h⟩ | ⟨-, _, -, -, h⟩ | ⟨-, content, g, hread, hdecode, h⟩ :=
    readWith_cases decode dir reader
  · simp [h] at he
  · simp [h] at he
  · simp [h] at he
  · rw [h] at he ⊢
    obtain ⟨_, hsame, hbad⟩ := report_error_eq_some_iff.mp he
    obtain rfl := SettingsError.badPattern.inj hsame
    exact ⟨hbad, content, g, hread, hdecode, rfl⟩

end

/-! ### Decoding -/

/-- **One statement that is not understood spoils the configuration**, whatever the statements
before it gave. -/
theorem decode_eq_none_of_step {content : Text} {before after : List Toml.Statement}
    {bad : Toml.Statement} {d : Decoding}
    (hparse : Toml.parse? content = some (before ++ bad :: after))
    (hbefore : before.foldlM Decoding.step .start = some d) (hbad : d.step bad = none) :
    Settings.decode content = none := by
  have hall : (before ++ bad :: after).foldlM Decoding.step .start = none := by
    rw [List.foldlM_append, hbefore]
    show (bad :: after).foldlM Decoding.step d = none
    rw [List.foldlM_cons, hbad]
    rfl
  rw [Settings.decode, hparse]
  show ((before ++ bad :: after).foldlM Decoding.step .start).bind _ = none
  rw [hall]
  rfl

/-- What was understood of a configuration that is spoilt has no effect on the settings. -/
theorem read_eq_of_step {dir content : Text} {reader : FileReader}
    {before after : List Toml.Statement} {bad : Toml.Statement} {d : Decoding}
    (hhas : reader.has (Path.join dir fileName) = true)
    (hread : reader.read (Path.join dir fileName) = .ok content)
    (hparse : Toml.parse? content = some (before ++ bad :: after))
    (hbefore : before.foldlM Decoding.step .start = some d) (hbad : d.step bad = none) :
    read dir reader = ⟨standard, some (.malformed (Path.join dir fileName))⟩ := by
  simp [read, readWith, hhas, hread, decode_eq_none_of_step hparse hbefore hbad]

end Settings

end Enclosure
