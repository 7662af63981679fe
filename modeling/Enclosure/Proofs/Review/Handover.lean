import Enclosure.Proofs.Analysis.WellFormed
import Enclosure.Proofs.Files.Append
import Enclosure.Proofs.Review.Calls
import Enclosure.Review.Command
import Mathlib.Data.List.Forall2

/-!
# Results are handed over intact

The steps that follow a review read its result from a file, to which every review that succeeds
appends one block. A reader of the file takes each block for the lines between the one that opens it
and the next one that closes it. Texts from outside go into the result: names of files, and what git
says about a file that cannot be read. None of them can end the block or start another one, because
the result is on a single line, whatever the texts hold.

Commands may be run one after the other on the same file, with anything else changing between two
runs. A run that fails leaves the file alone.

## Main definitions

* `ReviewRun`, `ReviewRun.outcome`, `ReviewRun.result?`: one run of the command.
* `Follows`, `fileAfter`: runs one after the other, and the file after them.
* `Heredoc.blocks`: what a reader finds in the file.
* `Carries`: a line that stands for a result.

## Main results

* `exists_result_of_review`: the result of a review that succeeds.
* `ReviewRun.outcome_cases`: what a run does to the file.
* `exists_fileAfter_eq`: what the file holds after some runs.
* `Heredoc.blocks_frames`: a reader finds one line for each block.
* `runs_hand_over_results`: **a reader finds the results of all runs that succeeded**.
-/

namespace Enclosure

/-! ### The result of a review -/

/-- **The result of a review that succeeds** holds the analysis of what the pull request changes,
and says so. -/
theorem exists_result_of_review {σ : Type} {server : Server σ} {git : Git} {calledOff : Bool}
    {r : ReviewRequest} {s : Session σ} (h : (review server git calledOff r s).error = none) :
    ∃ pull settings a, Analysed git calledOff pull settings a ∧
      (review server git calledOff r s).result = ⟨a, true, a.summary⟩ := by
  obtain ⟨e, state, hreview⟩ | ⟨pull, settings, state, s', -, ⟨e, hreview⟩ | ⟨a, ha, hreview⟩⟩ :=
    review_cases server git calledOff r s
  · rw [hreview] at h
    cases h
  · rw [hreview] at h
    cases h
  · refine ⟨pull, settings, a, ha, ?_⟩
    rw [hreview, conclude] at h ⊢
    generalize postComment server r settings.comment a (r.notes a.notes s') = posted at h ⊢
    obtain ⟨_ | _, s''⟩ := posted
    · cases h
    · rfl

/-- A line **carries** a result if it has no newline and, read as JSON, stands for the result, up to
stray bytes. -/
def Carries (payload : Text) (result : ReviewResult) : Prop :=
  Text.newline ∉ payload ∧
    ∃ v, Json.parse payload = .ok v ∧ ReviewResult.ofJson? v = some result.repaired

/-- The block of a result: what opens it, a line, and what closes it. -/
def frame (payload : Text) : Text :=
  ReviewResult.opening ++ payload ++ ReviewResult.closing

/-- The result of a review that succeeds is written as a block with a line that carries it. -/
theorem exists_carries_of_analysed {git : Git} {calledOff : Bool} {pull : PullRequest}
    {settings : Settings} {a : Analysis} (ha : Analysed git calledOff pull settings a)
    (success : Bool) (message : Text) :
    ∃ payload, ReviewResult.block ⟨a, success, message⟩ = .ok (frame payload) ∧
      Carries payload ⟨a, success, message⟩ := by
  obtain ⟨files, -, hresult⟩ := ha.result_eq
  obtain ⟨payload, hblock, hline, hread⟩ := ReviewResult.exists_payload
    (r := ⟨a, success, message⟩) (Analysis.named_of_analyse hresult)
  exact ⟨payload, hblock, hline, hread⟩

/-! ### One run -/

/-- A **run** of the review command: its environment and arguments, the files it finds, what git
knows and what the server answers. -/
structure ReviewRun where
  env : Environment
  arguments : List Text
  tree : FileTree
  git : Git
  script : Script

namespace ReviewRun

/-- How the run ends. -/
def outcome (r : ReviewRun) : ReviewCommandOutcome :=
  reviewCommand r.env r.arguments r.tree r.git r.script

/-- The review that the run makes, given its flags. -/
def review (r : ReviewRun) (flags : ReviewFlags) (repository : Repository) : ReviewOutcome Script :=
  Enclosure.review (repository.server flags.token) (r.git.within r.tree flags.dir) false
    ⟨flags.pull, flags.verbose, flags.quiet⟩ (.start r.script)

/-- The result of the run if it succeeds: the flags say all that is needed, the name of the
repository is one, and the review does not fail. -/
def result? (r : ReviewRun) : Option ReviewResult :=
  match ReviewFlags.parse r.env r.arguments with
  | .error _ => none
  | .ok flags =>
    if flags.missing.isEmpty then
      match Repository.ofFullName? flags.repository with
      | none => none
      | some repository =>
        if (r.review flags repository).error.isNone then some (r.review flags repository).result
        else none
    else none

/-- A run is **told the file** if its environment names it and its arguments can be read. -/
def IsTold (path : Text) (r : ReviewRun) : Prop :=
  r.env "GITHUB_OUTPUT" = some path ∧ ∃ flags, ReviewFlags.parse r.env r.arguments = .ok flags

variable {r : ReviewRun} {flags : ReviewFlags} {repository : Repository} {path old : Text}

/-- A run that is told all it needs ends as its review does. -/
theorem outcome_eq_finish (hflags : ReviewFlags.parse r.env r.arguments = .ok flags)
    (henv : r.env "GITHUB_OUTPUT" = some path) (hmissing : flags.missing.isEmpty = true)
    (hname : Repository.ofFullName? flags.repository = some repository) :
    r.outcome = (r.review flags repository).finish flags.verbose path r.tree := by
  simp only [outcome, reviewCommand, review, hflags, hmissing, hname, henv, Bool.not_true,
    Bool.false_eq_true, if_false, Option.getD_some]

/-- The result of a review that succeeds is appended to the file. -/
theorem exists_finish_eq (hread : r.tree.read path = .ok old)
    (herror : (r.review flags repository).error = none) :
    ∃ a payload, (r.review flags repository).result = ⟨a, true, a.summary⟩ ∧
      ((r.review flags repository).finish flags.verbose path r.tree).exit = 0 ∧
      ((r.review flags repository).finish flags.verbose path r.tree).tree.read path =
        .ok (old ++ frame payload) ∧ Carries payload ⟨a, true, a.summary⟩ := by
  obtain ⟨pull, settings, a, ha, hresult⟩ : ∃ pull settings a, Analysed _ false pull settings a ∧
      (r.review flags repository).result = ⟨a, true, a.summary⟩ := exists_result_of_review herror
  obtain ⟨payload, hblock, hcarries⟩ := exists_carries_of_analysed ha true a.summary
  obtain ⟨tree, happend, hread'⟩ := FileTree.exists_append_eq hread (frame payload)
  have hpath : path ≠ [] := by
    rintro rfl
    cases hread
  have hpublish : (r.review flags repository).result.publish path r.tree = .ok tree := by
    rw [hresult, ReviewResult.publish_of_block hblock hpath, happend]
    rfl
  refine ⟨a, payload, hresult, ?_, ?_, hcarries⟩
  · simp only [ReviewOutcome.finish, herror, hpublish]
  · simp only [ReviewOutcome.finish, herror, hpublish, hread']

/-- **What a run does to the file.** It fails and leaves all files alone, or it succeeds and appends
one block, with a line that carries its result. -/
theorem outcome_cases (htold : r.IsTold path) (hread : r.tree.read path = .ok old) :
    (r.result? = none ∧ r.outcome.exit = 1 ∧ r.outcome.tree = r.tree) ∨
      ∃ a payload, r.result? = some ⟨a, true, a.summary⟩ ∧ r.outcome.exit = 0 ∧
        r.outcome.tree.read path = .ok (old ++ frame payload) ∧
        Carries payload ⟨a, true, a.summary⟩ := by
  obtain ⟨henv, flags, hflags⟩ := htold
  cases hmissing : flags.missing.isEmpty with
  | false =>
      left
      simp [result?, outcome, reviewCommand, hflags, hmissing]
  | true =>
      cases hname : Repository.ofFullName? flags.repository with
      | none =>
          left
          simp [result?, outcome, reviewCommand, hflags, hmissing, hname]
      | some repository =>
          rw [outcome_eq_finish hflags henv hmissing hname]
          cases herror : (r.review flags repository).error with
          | some e =>
              left
              simp [result?, hflags, hmissing, hname, herror, ReviewOutcome.finish]
          | none =>
              right
              obtain ⟨a, payload, hresult, hfinish⟩ := exists_finish_eq hread herror
              refine ⟨a, payload, ?_, hfinish⟩
              simp [result?, hflags, hmissing, hname, herror, hresult]

end ReviewRun

/-! ### Runs one after the other -/

/-- Runs **follow** each other on a file: the first one finds it in the given state, and each of the
others finds it as the run before has left it. Nothing is said about other files. -/
def Follows (path : Text) : Except FileFault Text → List ReviewRun → Prop
  | _, [] => True
  | found, r :: runs => r.tree.read path = found ∧ Follows path (r.outcome.tree.read path) runs

/-- The file after some runs, which was in the given state before them. -/
def fileAfter (path : Text) : Except FileFault Text → List ReviewRun → Except FileFault Text
  | found, [] => found
  | _, r :: runs => fileAfter path (r.outcome.tree.read path) runs

/-- **The file after some runs** is as it was before them, with a block behind it for each run that
succeeded, in order. Each of the runs finds the file. -/
theorem exists_fileAfter_eq {path old : Text} {runs : List ReviewRun}
    (htold : ∀ r ∈ runs, r.IsTold path) (hfollows : Follows path (.ok old) runs) :
    (∀ r ∈ runs, ∃ found, r.tree.read path = .ok found) ∧
      ∃ payloads, fileAfter path (.ok old) runs = .ok (old ++ payloads.flatMap frame) ∧
        List.Forall₂ Carries payloads (runs.filterMap ReviewRun.result?) := by
  -- What a run finds in the file is what the runs before it have left, so it has to be general.
  induction runs generalizing old with
  | nil => exact ⟨by simp, [], by simp [fileAfter], .nil⟩
  | cons r runs ih =>
      obtain ⟨hr, htold⟩ := List.forall_mem_cons.mp htold
      obtain ⟨hread, hfollows⟩ := hfollows
      rw [List.forall_mem_cons]
      obtain ⟨hresult, -, htree⟩ | ⟨a, payload, hresult, -, hread', hcarries⟩ :=
        ReviewRun.outcome_cases hr hread
      · rw [htree, hread] at hfollows
        obtain ⟨hfound, payloads, hfile, hcarries⟩ := ih htold hfollows
        refine ⟨⟨⟨old, hread⟩, hfound⟩, payloads, ?_, ?_⟩
        · rw [fileAfter, htree, hread, hfile]
        · rwa [List.filterMap_cons_none hresult]
      · rw [hread'] at hfollows
        obtain ⟨hfound, payloads, hfile, hcarries'⟩ := ih htold hfollows
        refine ⟨⟨⟨old, hread⟩, hfound⟩, payload :: payloads, ?_, ?_⟩
        · rw [fileAfter, hread', hfile, List.flatMap_cons, List.append_assoc]
        · rw [List.filterMap_cons_some hresult]
          exact .cons hcarries hcarries'

/-! ### Reading the file -/

namespace Heredoc

/-- The line that opens a block. -/
def opening : Text := "data<<EOF"

/-- The line that closes a block. -/
def closing : Text := "EOF"

/-- Reads lines, where the first argument holds the lines of the current block in reverse, if there
is one. Outside of blocks there may be empty lines and nothing else, and every block is closed. -/
def scan : Option (List Text) → List Text → Option (List (List Text))
  | none, [] => some []
  | some _, [] => none
  | none, line :: lines =>
    if line = opening then scan (some []) lines
    else if line.isEmpty then scan none lines
    else none
  | some block, line :: lines =>
    if line = closing then (scan none lines).map (block.reverse :: ·)
    else scan (some (line :: block)) lines

/-- The blocks of a text, each of them a list of lines. -/
def blocks (t : Text) : Option (List (List Text)) :=
  scan none t.lines

/-- The lines of a block, and of what follows it. -/
theorem lines_frame_append {payload : Text} (hpayload : Text.newline ∉ payload) (rest : Text) :
    (frame payload ++ rest).lines = opening :: payload :: closing :: rest.lines := by
  have hframe : frame payload ++ rest = opening ++ Text.newline ::
      (payload ++ Text.newline :: (closing ++ Text.newline :: rest)) := by
    simp only [frame, List.append_assoc]
    rfl
  rw [hframe, Text.lines, Text.splitAt_append (by decide), Text.splitAt_append hpayload,
    Text.splitAt_append (by decide)]
  rfl

/-- **A reader finds one line for each block**, whatever it says. -/
theorem blocks_frames {payloads : List Text}
    (hpayloads : ∀ p ∈ payloads, Text.newline ∉ p ∧ p ≠ closing) :
    blocks (payloads.flatMap frame) = some (payloads.map fun p => [p]) := by
  induction payloads with
  | nil => rfl
  | cons payload payloads ih =>
      obtain ⟨⟨hline, hclosing⟩, hpayloads⟩ := List.forall_mem_cons.mp hpayloads
      have hrest : scan none (Text.lines (payloads.flatMap frame)) =
          some (payloads.map fun p => [p]) := ih hpayloads
      rw [blocks, List.flatMap_cons, lines_frame_append hline, scan, if_pos rfl, scan,
        if_neg hclosing, scan, if_pos rfl, hrest]
      rfl

end Heredoc

/-- A line that carries a result does not close a block. -/
theorem Carries.ne_closing {payload : Text} {result : ReviewResult} (h : Carries payload result) :
    payload ≠ Heredoc.closing := by
  rintro rfl
  obtain ⟨-, v, hparse, -⟩ := h
  cases hparse

/-- **A reader finds the results of all runs that succeeded.** Any runs may follow each other on a
file that is empty at first. A run that fails exits with 1 and leaves all files alone. A run that
succeeds exits with 0 and appends one block to the file, which says that it succeeded. In the end a
reader finds in the file one line for each run that succeeded, in order, and the line stands for
the result of the run. -/
theorem runs_hand_over_results (path : Text) (runs : List ReviewRun)
    (htold : ∀ r ∈ runs, r.IsTold path) (hfollows : Follows path (.ok []) runs) :
    (∀ r ∈ runs, r.result? = none → r.outcome.exit = 1 ∧ r.outcome.tree = r.tree) ∧
      (∀ r ∈ runs, ∀ result, r.result? = some result → r.outcome.exit = 0 ∧
        (∃ a, result = ⟨a, true, a.summary⟩) ∧
        ∃ old payload, r.tree.read path = .ok old ∧
          r.outcome.tree.read path = .ok (old ++ frame payload) ∧ Carries payload result) ∧
      ∃ file payloads, fileAfter path (.ok []) runs = .ok file ∧
        Heredoc.blocks file = some (payloads.map fun p => [p]) ∧
        List.Forall₂ Carries payloads (runs.filterMap ReviewRun.result?) := by
  obtain ⟨hfound, payloads, hfile, hcarries⟩ := exists_fileAfter_eq htold hfollows
  refine ⟨?_, ?_, ?_⟩
  · intro r hr hresult
    obtain ⟨old, hread⟩ := hfound r hr
    obtain ⟨-, hend⟩ | ⟨a, payload, hsome, -⟩ := ReviewRun.outcome_cases (htold r hr) hread
    · exact hend
    · rw [hresult] at hsome
      cases hsome
  · intro r hr result hresult
    obtain ⟨old, hread⟩ := hfound r hr
    obtain ⟨hnone, -⟩ | ⟨a, payload, hsome, hexit, hread', hcarries⟩ :=
      ReviewRun.outcome_cases (htold r hr) hread
    · rw [hresult] at hnone
      cases hnone
    · obtain rfl : result = ⟨a, true, a.summary⟩ := Option.some.inj (hresult.symm.trans hsome)
      exact ⟨hexit, ⟨a, rfl⟩, old, payload, hread, hread', hcarries⟩
  · have hlines : ∀ p ∈ payloads, Text.newline ∉ p ∧ p ≠ Heredoc.closing :=
      ((List.forall₂_and_left _ _).mp
        (hcarries.imp fun p result h => ⟨⟨h.1, h.ne_closing⟩, h⟩)).1
    exact ⟨_, payloads, hfile, Heredoc.blocks_frames hlines, hcarries⟩

/-- A pull request that changes a file which git cannot show, for a reason that looks like the end
of a block and the start of another one. -/
def hostileGit : Git
  | .diff base head => oneHunkGit (.diff base head)
  | .content _ _ => .error ⟨"gone\nEOF\ndata<<EOF\n", []⟩
  | .presence _ _ => .error ⟨[], []⟩

/-- The file for the results, which does not lie below the working directory. -/
def hostileFile : Text := "/tmp/out"

/-- A run that hands its result over in that file. -/
def hostileRun (tree : FileTree) (arguments : List Text) : ReviewRun where
  env name := if name = "GITHUB_OUTPUT" then some hostileFile else none
  arguments := arguments
  tree := tree
  git := hostileGit
  script := ⟨interruptedScript, []⟩

/-- A run that succeeds, one that is told too little, and another one that succeeds. -/
def hostileRuns : List ReviewRun :=
  let told : List Text := ["-token", "t", "-pr", "7", "-repo", "o/r", "-quiet"]
  let first := hostileRun (.ofPaths [(hostileFile, [])]) told
  let second := hostileRun first.outcome.tree []
  [first, second, hostileRun second.outcome.tree told]

/-- The result of a run that succeeds: the file is skipped, with what git says as the reason. -/
def hostileResult : ReviewResult where
  analysis := ⟨some [],
    some [⟨"m.py", "failed to read file m.py from ref h: gone\nEOF\ndata<<EOF\n"⟩]⟩
  success := true
  message := "Resolved enclosing context for 0 hunk(s) in 0 file(s), skipped 1 file(s)"

/-- Although what git says would end a block and start another one, a reader finds two lines in two
blocks. -/
theorem runs_hand_over_results_hostile :
    (∀ r ∈ hostileRuns, r.IsTold hostileFile) ∧ Follows hostileFile (.ok []) hostileRuns ∧
      ∃ file first second, fileAfter hostileFile (.ok []) hostileRuns = .ok file ∧
        Heredoc.blocks file = some [[first], [second]] ∧
        Carries first hostileResult ∧ Carries second hostileResult := by
  have htold : ∀ r ∈ hostileRuns, r.IsTold hostileFile := by
    have hrun (tree : FileTree) {arguments : List Text} {given : Arguments}
        (h : Arguments.parse ReviewFlags.all arguments = .ok given) :
        (hostileRun tree arguments).IsTold hostileFile :=
      ⟨rfl, _, by rw [ReviewFlags.parse, hostileRun, h]; rfl⟩
    simp only [hostileRuns, List.forall_mem_cons]
    exact ⟨hrun _ rfl, hrun _ rfl, hrun _ rfl, by simp⟩
  have hfollows : Follows hostileFile (.ok []) hostileRuns := by
    have htree (tree : FileTree) (arguments : List Text) :
        (hostileRun tree arguments).tree = tree := rfl
    simp only [hostileRuns, Follows, htree, and_true]
    decide +kernel
  have hresults : hostileRuns.filterMap ReviewRun.result? = [hostileResult, hostileResult] := by
    decide +kernel
  obtain ⟨-, -, file, payloads, hfile, hblocks, hcarries⟩ :=
    runs_hand_over_results hostileFile hostileRuns htold hfollows
  rw [hresults] at hcarries
  obtain _ | ⟨hfirst, _ | ⟨hsecond, _ | _⟩⟩ := hcarries
  exact ⟨htold, hfollows, file, _, _, hfile, hblocks, hfirst, hsecond⟩

end Enclosure
