import Enclosure.Proofs.Analysis.Data
import Enclosure.Proofs.Compaction
import Enclosure.Proofs.Text.Encoding
import Enclosure.Tool.CommandLine

/-!
# Dry runs of files

A dry run of some files is all or nothing. The files are judged one after the other, and the first
one that cannot be judged ends the dry run with its error, although others may have been judged
before; nothing is printed then. If all of them can be judged, there is a verdict on each, in the
order in which they were given, and the error counts those that failed. For people each verdict is
put as an entry, and for programs the verdicts are written as data on one line, from which they can
be read back.

The command gives each file once, where its name occurs first.

## Main definitions

* `FileTree.Judges`, `FileTree.Refuses`: the verdict on a file, and the error of one that cannot be
  judged.
* `FileVerdict.Entry`: how a verdict is put for people.
* `FileVerdict.ofJson?`: the verdict that a value stands for.
* `OutputFormat.Shows`: what is printed about some verdicts.
* `TaskOutcome.AllOrNothing`: what a dry run of some files comes to.

## Main results

* `targetVerdicts_of_judged`, `targetVerdicts_of_refused`: the verdicts on files, and the error that
  stands in for them.
* `shows_printVerdicts`: **each verdict is printed as its entry**, and for programs the verdicts can
  be read back.
* `dryRun_all_or_nothing`: **a dry run of files is all or nothing**, and the command dry-runs each
  file once.
-/

namespace Enclosure

/-- A tree of files **judges** a file that has a name and can be read. -/
inductive FileTree.Judges (tree : FileTree) : Text → FileVerdict → Prop
  | file {target content : Text} (hname : target ≠ []) (hread : tree.read target = .ok content) :
      Judges tree target ⟨target, dryRun content⟩

/-- A tree of files **refuses** a file without a name and one that cannot be read, each with its
error. A directory can be opened, but not read. -/
inductive FileTree.Refuses (tree : FileTree) : Text → Text → Prop
  | nameless : Refuses tree [] "empty target file path is not allowed"
  | directory {target : Text} (hname : target ≠ [])
      (hread : tree.read target = .error .isDirectory) :
      Refuses tree target ("error reading " ++ target ++ ": read " ++ target ++ ": is a directory")
  | unreadable {target : Text} {fault : FileFault} (hname : target ≠ [])
      (hread : tree.read target = .error fault) (hfault : fault ≠ .isDirectory) :
      Refuses tree target ("error reading " ++ target ++ ": open " ++ target ++ ": " ++ fault.reason)

/-- The **entry** of a verdict for people: the name of the file, and behind it either `OK` or what is
wrong. -/
inductive FileVerdict.Entry : FileVerdict → Text → Prop
  | passed {file error : Text} : Entry ⟨file, ⟨true, error⟩⟩ (file ++ ": OK")
  | failed {file error : Text} : Entry ⟨file, ⟨false, error⟩⟩ (file ++ ": " ++ error)

/-- The verdict that a value stands for. -/
def FileVerdict.ofJson? (v : Json) : Option FileVerdict := do
  return ⟨← (← v.member? "file").text?, ← (← v.member? "valid").truth?,
    ← (← v.member? "error").text?⟩

/-- The verdict with U+FFFD in place of each stray byte of the name. -/
def FileVerdict.repaired (v : FileVerdict) : FileVerdict :=
  { v with file := v.file.repaired }

/-- What is printed about some verdicts. For programs it is a line from which they can be read back.
For people there is an entry for each of them, in order, and the entries stand on one line with
commas between them, or on a line of their own each. -/
def OutputFormat.Shows (format : OutputFormat) (verdicts : List FileVerdict) (output : Text) :
    Prop :=
  match format with
  | .json => ∃ line, output = line ++ "\n" ∧ Text.newline ∉ line ∧
      ∃ v, Json.parse line = .ok v ∧
        v.items? FileVerdict.ofJson? = some (verdicts.map FileVerdict.repaired)
  | .oneLine => ∃ entries, List.Forall₂ FileVerdict.Entry verdicts entries ∧
      output = List.intercalate ", " entries ++ "\n"
  | .standard | .other => ∃ entries, List.Forall₂ FileVerdict.Entry verdicts entries ∧
      output = List.intercalate "\n" entries ++ "\n"

/-- The number of files that failed. -/
def failureCount (verdicts : List FileVerdict) : Nat :=
  verdicts.countP fun v => !v.verdict.valid

/-- The outcome of a dry run of some files is **all or nothing**. If one of them has no name or
cannot be read, it is the error of the first such file and nothing else. Otherwise all verdicts are
printed, in order, and there is an error exactly if a file failed. -/
structure TaskOutcome.AllOrNothing (o : TaskOutcome) (tree : FileTree) (targets : List Text)
    (format : OutputFormat) : Prop where
  nothing : (∃ target ∈ targets, target = [] ∨ ∃ fault, tree.read target = .error fault) →
    ∃ front target back message, targets = front ++ target :: back ∧
      (∀ t ∈ front, ∃ v, tree.Judges t v) ∧ tree.Refuses target message ∧
      o.output = [] ∧ o.info = [] ∧ o.warnings = [] ∧ o.error = some message
  all : (∀ target ∈ targets, target ≠ [] ∧ ∃ content, tree.read target = .ok content) →
    ∃ verdicts, List.Forall₂ tree.Judges targets verdicts ∧ format.Shows verdicts o.output ∧
      o.info = [] ∧ o.warnings = [] ∧
      ∀ message, o.error = some message ↔
        1 ≤ failureCount verdicts ∧ message = Text.ofNat (failureCount verdicts) ++ " of " ++
          Text.ofNat targets.length ++ " file(s) failed the dry run"

/-! ### Judging -/

section Judging

variable {tree : FileTree}

/-- The files that are refused. -/
theorem FileTree.exists_refuses_iff {target : Text} : (∃ message, tree.Refuses target message) ↔
    target = [] ∨ ∃ fault, tree.read target = .error fault := by
  constructor
  · rintro ⟨message, hrefuses⟩
    cases hrefuses with
    | nameless => exact .inl rfl
    | directory hname hread => exact .inr ⟨_, hread⟩
    | unreadable hname hread hfault => exact .inr ⟨_, hread⟩
  · intro h
    by_cases hname : target = []
    · rw [hname]
      exact ⟨_, .nameless⟩
    · obtain ⟨fault, hread⟩ := h.resolve_left hname
      by_cases hfault : fault = .isDirectory
      · exact ⟨_, .directory hname (hfault ▸ hread)⟩
      · exact ⟨_, .unreadable hname hread hfault⟩

/-- The files that are judged. -/
theorem FileTree.exists_judges_iff {target : Text} : (∃ v, tree.Judges target v) ↔
    target ≠ [] ∧ ∃ content, tree.read target = .ok content := by
  constructor
  · rintro ⟨v, hname, hread⟩
    exact ⟨hname, _, hread⟩
  · rintro ⟨hname, content, hread⟩
    exact ⟨_, .file hname hread⟩

/-- A file is either judged or refused. -/
theorem FileTree.exists_judges_iff_not {target : Text} :
    (∃ v, tree.Judges target v) ↔ ¬ ∃ message, tree.Refuses target message := by
  rw [exists_judges_iff, exists_refuses_iff, not_or]
  refine and_congr_right fun _ => ?_
  cases tree.read target with
  | error fault => simp
  | ok content => simp

/-- Files that can all be judged have verdicts. -/
theorem exists_verdicts {targets : List Text} (h : ∀ t ∈ targets, ∃ v, tree.Judges t v) :
    ∃ verdicts, List.Forall₂ tree.Judges targets verdicts := by
  induction targets with
  | nil => exact ⟨[], .nil⟩
  | cons target targets ih =>
      obtain ⟨⟨v, hv⟩, hrest⟩ := List.forall_mem_cons.mp h
      obtain ⟨verdicts, hverdicts⟩ := ih hrest
      exact ⟨v :: verdicts, .cons hv hverdicts⟩

/-- If a file is refused, one of them is the first. -/
theorem exists_first_refused {targets : List Text}
    (h : ∃ t ∈ targets, ∃ message, tree.Refuses t message) :
    ∃ front target back message, targets = front ++ target :: back ∧
      (∀ t ∈ front, ∃ v, tree.Judges t v) ∧ tree.Refuses target message := by
  induction targets with
  | nil =>
      obtain ⟨t, ht, -⟩ := h
      cases ht
  | cons first targets ih =>
      by_cases hfirst : ∃ message, tree.Refuses first message
      · obtain ⟨message, hmessage⟩ := hfirst
        exact ⟨[], first, targets, message, rfl, by simp, hmessage⟩
      · obtain ⟨front, target, back, message, rfl, hfront, hmessage⟩ :=
          ih ((List.exists_mem_cons_iff _ _ _).mp h |>.resolve_left hfirst)
        exact ⟨first :: front, target, back, message, rfl,
          List.forall_mem_cons.mpr ⟨FileTree.exists_judges_iff_not.mpr hfirst, hfront⟩, hmessage⟩

/-- A file that is judged adds its verdict, and the others are judged as before. -/
theorem targetVerdicts_cons {target : Text} {v : FileVerdict} (hv : tree.Judges target v)
    (hinput : target ≠ inputName) (input : Text) (rest : List Text) :
    targetVerdicts tree input (target :: rest) =
      (targetVerdicts tree input rest).map (v :: ·) := by
  obtain ⟨hname, hread⟩ := hv
  rw [targetVerdicts, if_neg (by simpa using hname), readTarget, if_neg (by simpa using hinput),
    hread]
  simp only
  cases targetVerdicts tree input rest with
  | error message => rfl
  | ok verdicts => rfl

/-- **Files that are all judged have their verdicts.** -/
theorem targetVerdicts_of_judged {targets : List Text} {verdicts : List FileVerdict}
    (h : List.Forall₂ tree.Judges targets verdicts) (hinput : inputName ∉ targets) (input : Text) :
    targetVerdicts tree input targets = .ok verdicts := by
  induction h with
  | nil => rfl
  | cons hv _ ih =>
      rw [targetVerdicts_cons hv (List.ne_of_not_mem_cons hinput).symm,
        ih (List.not_mem_of_not_mem_cons hinput)]
      rfl

/-- What is said about a directory. -/
theorem readMessage_isDirectory (target : Text) :
    "error reading " ++ target ++ ": " ++ FileFault.isDirectory.readMessage target =
      "error reading " ++ target ++ ": read " ++ target ++ ": is a directory" := by
  simp only [FileFault.readMessage, FileFault.message, if_true, List.append_assoc]
  rfl

/-- What is said about anything else that cannot be read. -/
theorem readMessage_of_ne {fault : FileFault} (hfault : fault ≠ .isDirectory) (target : Text) :
    "error reading " ++ target ++ ": " ++ fault.readMessage target =
      "error reading " ++ target ++ ": open " ++ target ++ ": " ++ fault.reason := by
  simp only [FileFault.readMessage, FileFault.message, if_neg hfault, List.append_assoc]
  rfl

/-- A file that is refused has its error, and no other file is read. -/
theorem targetVerdicts_cons_of_refused {target message : Text} (h : tree.Refuses target message)
    (hinput : target ≠ inputName) (input : Text) (rest : List Text) :
    targetVerdicts tree input (target :: rest) = .error message := by
  cases h with
  | nameless => rfl
  | directory hname hread =>
      rw [targetVerdicts, if_neg (by simpa using hname), readTarget, if_neg (by simpa using hinput),
        hread, ← readMessage_isDirectory]
  | unreadable hname hread hfault =>
      rw [targetVerdicts, if_neg (by simpa using hname), readTarget, if_neg (by simpa using hinput),
        hread, ← readMessage_of_ne hfault]

/-- **The first file that is refused decides.** -/
theorem targetVerdicts_of_refused {front back : List Text} {target message : Text}
    (hfront : ∀ t ∈ front, ∃ v, tree.Judges t v) (h : tree.Refuses target message)
    (hinput : inputName ∉ front ++ target :: back) (input : Text) :
    targetVerdicts tree input (front ++ target :: back) = .error message := by
  induction front with
  | nil =>
      exact targetVerdicts_cons_of_refused h (List.ne_of_not_mem_cons hinput).symm input back
  | cons first front ih =>
      obtain ⟨⟨v, hv⟩, hfront⟩ := List.forall_mem_cons.mp hfront
      rw [List.cons_append, targetVerdicts_cons hv (List.ne_of_not_mem_cons hinput).symm,
        ih hfront (List.not_mem_of_not_mem_cons hinput)]
      rfl

end Judging

/-! ### Printing -/

/-- The error of a dry run is ASCII. -/
theorem ascii_of_mem_error {t : Text} {b : UInt8} (hb : b ∈ (dryRun t).error) : b < 0x80 := by
  have hdigit {n : Nat} (hn : b ∈ Text.ofNat n) : b < 0x80 := by
    have hb := Text.isDigit_of_mem_ofNat hn
    simp only [Text.isDigit, Bool.and_eq_true, decide_eq_true_eq] at hb
    exact UInt8.lt_of_le_of_lt hb.2 (by decide)
  have hwords {words : Text} (hall : words.all (· < 0x80) = true) {n : Nat}
      (hn : b ∈ words ++ Text.ofNat n) : b < 0x80 := by
    obtain hmem | hmem := List.mem_append.mp hn
    · exact of_decide_eq_true (List.all_eq_true.mp hall b hmem)
    · exact hdigit hmem
  rw [dryRun] at hb
  cases hfault : firstFault? t with
  | none => simp [hfault] at hb
  | some f =>
      obtain ⟨cause, line⟩ := f
      rw [hfault] at hb
      cases cause with
      | unbalanced => exact hwords (by decide) hb
      | dangling => exact hwords (by decide) hb

/-- There are no stray bytes in the errors of verdicts. -/
theorem repaired_error_of_judged {tree : FileTree} {targets : List Text}
    {verdicts : List FileVerdict} (h : List.Forall₂ tree.Judges targets verdicts) :
    ∀ v ∈ verdicts, v.verdict.error.repaired = v.verdict.error := by
  induction h with
  | nil => simp
  | cons hv _ ih =>
      refine List.forall_mem_cons.mpr ⟨?_, ih⟩
      cases hv with
      | file hname hread => exact Text.repaired_of_ascii fun b => ascii_of_mem_error

/-- A verdict whose error has no stray bytes is data. -/
theorem FileVerdict.isData (nesting : Nat) {v : FileVerdict}
    (hv : v.verdict.error.repaired = v.verdict.error) :
    IsData (nesting + 1) (.ok v.json) FileVerdict.ofJson? v.repaired := by
  refine ⟨v.json, rfl, .object nesting _ ?_, ?_⟩
  · simp [Json.Nests.string, Json.Nests.bool]
  · have hfile : v.json.repaired.member? "file" = some (.string v.file.repaired) := rfl
    have hvalid : v.json.repaired.member? "valid" = some (.bool v.verdict.valid) := rfl
    have herror : v.json.repaired.member? "error" = some (.string v.verdict.error.repaired) := rfl
    simp [FileVerdict.ofJson?, hfile, hvalid, herror, hv, Json.text?, Json.truth?,
      FileVerdict.repaired]

/-- A verdict is shown as its entry. -/
theorem FileVerdict.entry_shown (v : FileVerdict) : v.Entry v.shown := by
  obtain ⟨file, valid, error⟩ := v
  cases valid with
  | true =>
      have hpassed : shown ⟨file, ⟨true, error⟩⟩ = file ++ ": OK" := List.append_assoc file _ _
      exact hpassed ▸ .passed
  | false => exact .failed

/-- Verdicts are shown as their entries. -/
theorem forall₂_entry_shown (verdicts : List FileVerdict) :
    List.Forall₂ FileVerdict.Entry verdicts (verdicts.map FileVerdict.shown) :=
  List.forall₂_map_right_iff.mpr (List.forall₂_same.mpr fun v _ => v.entry_shown)

/-- **Each verdict is printed as its entry**, and the verdicts can be read back from what is printed
for programs. -/
theorem shows_printVerdicts {verdicts : List FileVerdict}
    (h : ∀ v ∈ verdicts, v.verdict.error.repaired = v.verdict.error) (format : OutputFormat) :
    format.Shows verdicts (printVerdicts verdicts format) := by
  cases format with
  | standard => exact ⟨_, forall₂_entry_shown verdicts, rfl⟩
  | oneLine => exact ⟨_, forall₂_entry_shown verdicts, rfl⟩
  | other => exact ⟨_, forall₂_entry_shown verdicts, rfl⟩
  | json =>
      obtain ⟨vs, hvs, hnests, hread⟩ :=
        exists_mapM_of_isData fun v hv => FileVerdict.isData 0 (h v hv)
      obtain rfl : verdicts.map FileVerdict.json = vs :=
        Except.ok.inj (List.mapM_pure.symm.trans hvs)
      have hnests : (Json.array (verdicts.map FileVerdict.json)).Nests 2 := .array _ _ hnests
      exact ⟨_, rfl, Json.newline_not_mem_render hnests, _,
        Json.parse_render hnests (by decide), hread⟩

/-! ### The dry run -/

/-- **A dry run of files is all or nothing.** -/
theorem allOrNothing_dryRunTask (tree : FileTree) (input : Text) {targets : List Text}
    (hinput : inputName ∉ targets) (format : OutputFormat) :
    (dryRunTask tree input targets format).AllOrNothing tree targets format := by
  constructor
  · intro hbad
    simp only [← FileTree.exists_refuses_iff] at hbad
    obtain ⟨front, target, back, message, rfl, hfront, hrefuses⟩ := exists_first_refused hbad
    refine ⟨front, target, back, message, rfl, hfront, hrefuses, ?_⟩
    rw [dryRunTask, targetVerdicts_of_refused hfront hrefuses hinput]
    exact ⟨rfl, rfl, rfl, rfl⟩
  · intro hgood
    simp only [← FileTree.exists_judges_iff] at hgood
    obtain ⟨verdicts, hverdicts⟩ := exists_verdicts hgood
    rw [dryRunTask, targetVerdicts_of_judged hverdicts hinput]
    refine ⟨verdicts, hverdicts, shows_printVerdicts (repaired_error_of_judged hverdicts) format,
      rfl, rfl, ?_⟩
    intro message
    show (if failureCount verdicts = 0 then none
      else some (failedMessage (failureCount verdicts) targets.length)) = some message ↔ _
    rw [Option.ite_none_left_eq_some, Option.some.injEq, Nat.one_le_iff_ne_zero, failedMessage,
      @eq_comm _ message]

/-- The command dry-runs each of its files once. -/
theorem perform_dryRun {w : Workspace} {a : Arguments} {targets : List Text} {input : Text}
    {format : OutputFormat} (htargets : Task.targets w a = .ok (targets, input))
    (hne : targets ≠ []) (hformat : Task.format a = .ok format) :
    Task.perform .dryRun w a = dryRunTask w.tree input (distinct targets) format := by
  have hrun : Task.runDryRun w a = .ok (dryRunTask w.tree input (distinct targets) format) := by
    have hsome : targets.isEmpty = false := List.isEmpty_eq_false_iff.mpr hne
    simp only [Task.runDryRun, htargets, hformat, bind, Except.bind, hsome,
      withoutRepeats_eq_distinct]
    rfl
  rw [Task.perform, hrun]

/-- **A dry run of files is all or nothing**, for all files but the input, which is called `-`. The
command dry-runs each of the files that it is given once, in the order in which their names first
occur. -/
theorem dryRun_all_or_nothing :
    (∀ (tree : FileTree) (input : Text) (targets : List Text) (format : OutputFormat),
      ("-" : Text) ∉ targets →
      (dryRunTask tree input targets format).AllOrNothing tree targets format) ∧
    ∀ (w : Workspace) (a : Arguments) (targets : List Text) (input : Text) (format : OutputFormat),
      Task.targets w a = .ok (targets, input) → targets ≠ [] → Task.format a = .ok format →
      Task.perform .dryRun w a = dryRunTask w.tree input (distinct targets) format ∧
      (∀ target, target ∈ distinct targets ↔ target ∈ targets) ∧ (distinct targets).Nodup ∧
      (distinct targets).Pairwise fun s t => targets.idxOf s < targets.idxOf t := by
  constructor
  · intro tree input targets format hinput
    exact allOrNothing_dryRunTask tree input hinput format
  · intro w a targets input format htargets hne hformat
    exact ⟨perform_dryRun htargets hne hformat, fun target => mem_distinct_iff,
      nodup_distinct targets, pairwise_idxOf_distinct targets⟩

/-- A file that passes the dry run, and one that fails it and has a stray byte in its name. -/
def strayTree : FileTree :=
  .ofPaths [("good.py", "x = 1\n"), (255 :: ".py", "foo(bar\n")]

/-- What a dry run of the two files is about. -/
theorem forall₂_judges_strayTree {verdicts : List FileVerdict}
    (h : List.Forall₂ strayTree.Judges ["good.py", 255 :: ".py"] verdicts) :
    verdicts = [⟨"good.py", ⟨true, []⟩⟩,
      ⟨255 :: ".py", ⟨false, "Syntax error: Unbalanced brackets/parentheses at line 1"⟩⟩] := by
  obtain _ | ⟨⟨-, hgood⟩, _ | ⟨⟨-, hstray⟩, _ | _⟩⟩ := h
  have hgood' : strayTree.read "good.py" = .ok "x = 1\n" := by decide
  have hstray' : strayTree.read (255 :: ".py") = .ok "foo(bar\n" := by decide
  obtain rfl := Except.ok.inj (hgood.symm.trans hgood')
  obtain rfl := Except.ok.inj (hstray.symm.trans hstray')
  decide +kernel

/-- The file that is missing stands behind one that is judged and before one without a name. If both
files are there, they are printed although one of them fails. A file that is given twice is dry-run
once. -/
theorem dryRun_all_or_nothing_strayTree :
    let refused := dryRunTask strayTree [] ["good.py", "absent.py", ""] .json
    let judged := dryRunTask strayTree [] ["good.py", 255 :: ".py"] .standard
    (refused.output = [] ∧
      refused.error = some "error reading absent.py: open absent.py: no such file or directory") ∧
    (judged.output = ("good.py: OK\n" : Text) ++
        (255 :: (".py: Syntax error: Unbalanced brackets/parentheses at line 1\n" : Text)) ∧
      judged.error = some "1 of 2 file(s) failed the dry run") ∧
    (∃ verdicts, List.Forall₂ strayTree.Judges ["good.py", 255 :: ".py"] verdicts ∧
      OutputFormat.Shows .json verdicts
        (dryRunTask strayTree [] ["good.py", 255 :: ".py"] .json).output) ∧
    Task.perform .dryRun ⟨strayTree, none, fun _ => .ok []⟩
        ⟨[], ["good.py", 255 :: ".py", "good.py"]⟩ =
      judged := by
  intro refused judged
  obtain ⟨htask, hcommand⟩ := dryRun_all_or_nothing
  have hgood : ∀ target ∈ (["good.py", 255 :: ".py"] : List Text),
      target ≠ [] ∧ ∃ content, strayTree.read target = .ok content := by
    intro target htarget
    simp only [List.mem_cons, List.not_mem_nil, or_false] at htarget
    obtain rfl | rfl := htarget
    · exact ⟨by decide, "x = 1\n", by decide⟩
    · exact ⟨by decide, "foo(bar\n", by decide⟩
  refine ⟨?_, ?_, ?_, ?_⟩
  · have hinput : inputName ∉ (["good.py", "absent.py", ""] : List Text) := by decide
    obtain ⟨front, target, back, message, hsplit, hfront, hrefuses, houtput, -, -, herror⟩ :=
      (htask strayTree [] ["good.py", "absent.py", ""] .json hinput).nothing
        ⟨"", by decide, .inl (by decide)⟩
    -- The message is the one that the verdicts fail with.
    have hfails : targetVerdicts strayTree [] ["good.py", "absent.py", ""] = .error message :=
      hsplit ▸ targetVerdicts_of_refused hfront hrefuses (hsplit ▸ hinput) []
    have hmissing : targetVerdicts strayTree [] ["good.py", "absent.py", ""] =
        .error "error reading absent.py: open absent.py: no such file or directory" := by
      decide +kernel
    exact ⟨houtput, herror.trans (congrArg some (Except.error.inj (hfails.symm.trans hmissing)))⟩
  · obtain ⟨verdicts, hverdicts, ⟨entries, hentries, houtput⟩, -, -, herror⟩ :=
      (htask strayTree [] ["good.py", 255 :: ".py"] .standard (by decide)).all hgood
    obtain rfl := forall₂_judges_strayTree hverdicts
    obtain _ | ⟨hfirst, _ | ⟨hsecond, _ | _⟩⟩ := hentries
    cases hfirst
    cases hsecond
    exact ⟨houtput.trans (by decide +kernel), (herror _).mpr ⟨by decide, by decide +kernel⟩⟩
  · obtain ⟨verdicts, hverdicts, hshows, -⟩ :=
      (htask strayTree [] ["good.py", 255 :: ".py"] .json (by decide)).all hgood
    exact ⟨verdicts, hverdicts, hshows⟩
  · obtain ⟨hperform, -⟩ := hcommand ⟨strayTree, none, fun _ => .ok []⟩
      ⟨[], ["good.py", 255 :: ".py", "good.py"]⟩ ["good.py", 255 :: ".py", "good.py"] [] .standard
      rfl (by decide) rfl
    exact hperform

end Enclosure
