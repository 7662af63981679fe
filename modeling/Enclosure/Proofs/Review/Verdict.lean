import Enclosure.Proofs.Analysis.Schedule
import Enclosure.Proofs.PullRequest.Memory
import Enclosure.Proofs.Review.Calls

/-!
# The verdict of a review

A review can fail in many places, and some failures are only warned about. What it hands over tells
them apart. It **fails early** if the pull request or the differences cannot be had; then its result
is empty, and nothing was asked about comments. In all other cases there is an analysis, whatever
git says about the settings and about single files, and the verdict is that of the last call: the
review fails if and only if this call fails, and then the analysis is handed over without a verdict.

## Main definitions

* `EndsWell`: calls of which the last one succeeded.
* `ReviewOutcome.FailsEarly`: a review that failed before there was an analysis.
* `ReviewEnd`: all ways in which a review can end.

## Main results

* `Session.exists_putComment_verdict`, `exists_postComment_verdict`: a comment is brought up to date
  if and only if the last call succeeds.
* `review_end`: how a review ends.
* `Analysis.contextCount_eq`: what is counted for the summary.
* `review_succeeds_iff_result_success`: **a review succeeds if and only if its result says so**.
-/

namespace Enclosure

variable {σ : Type}

/-! ### The last call -/

/-- Calls that **end well**: the last one succeeded, if there are any. -/
def EndsWell (calls : List ApiEvent) : Prop :=
  ∀ e ∈ calls.getLast?, e.succeeded = true

theorem endsWell_nil : EndsWell [] := by
  simp [EndsWell]

theorem endsWell_singleton {e : ApiEvent} : EndsWell [e] ↔ e.succeeded = true := by
  simp [EndsWell]

/-- How calls end is decided by those at the end. -/
theorem endsWell_append (calls : List ApiEvent) {more : List ApiEvent} (hmore : more ≠ []) :
    EndsWell (calls ++ more) ↔ EndsWell more := by
  rw [EndsWell, List.getLast?_append_of_ne_nil _ hmore, EndsWell]

/-- A call that succeeded does not change how the calls after it end. -/
theorem endsWell_cons {e : ApiEvent} (he : e.succeeded = true) (calls : List ApiEvent) :
    EndsWell (e :: calls) ↔ EndsWell calls := by
  cases calls with
  | nil => exact iff_of_true (endsWell_singleton.mpr he) endsWell_nil
  | cons c calls => exact endsWell_append [e] (List.cons_ne_nil c calls)

/-- The last call decides how calls end. -/
theorem endsWell_iff_of_map {calls : List ApiEvent} {last : Bool}
    (hlast : (calls.map ApiEvent.succeeded).getLast? = some last) :
    EndsWell calls ↔ last = true := by
  rw [List.getLast?_map] at hlast
  obtain ⟨e, he, rfl⟩ := Option.map_eq_some_iff.mp hlast
  simp [EndsWell, he]

/-- A listing that came to its end ends well. -/
theorem Listed.endsWell {pull page : Int} {calls : List ApiEvent} {comments : List Comment}
    (h : Listed pull page calls comments) : EndsWell calls := by
  induction h with
  | last page reply hnext => exact endsWell_singleton.mpr rfl
  | more page reply calls comments hnext hlisted ih => exact (endsWell_cons rfl calls).mpr ih

/-- A listing that breaks off does not end well. -/
theorem BrokenOff.not_endsWell {pull page : Int} {calls : List ApiEvent}
    (h : BrokenOff pull page calls) : ¬ EndsWell calls := by
  induction h with
  | failed page error => simp [endsWell_singleton, ApiEvent.succeeded, Except.isOk, Except.toBool]
  | more page reply calls hnext hbroken ih => rwa [endsWell_cons rfl calls]

/-- The calls of a listing that breaks off are calls for pages. -/
theorem BrokenOff.pageCalls {pull page : Int} {calls : List ApiEvent}
    (h : BrokenOff pull page calls) : PageCalls pull calls := by
  induction h with
  | failed page error => exact .cons rfl .nil
  | more page reply calls hnext hbroken ih => exact .cons rfl ih

/-- Calls for pages are about comments. -/
theorem PageCalls.isAboutComments {pull : Int} {calls : List ApiEvent} (h : PageCalls pull calls) :
    ∀ e ∈ calls, e.isAboutComments = true := by
  intro e he
  obtain ⟨page, hcall⟩ := h e he
  simp only [ApiEvent.isAboutComments, hcall]

namespace Session

/-- **A comment is put if and only if the last call succeeds**, which is one about comments. -/
theorem exists_putComment_verdict (repository : Repository) (token : Text) {s : Session Script}
    {pull : PullRequest} (hpull : s.pull = some pull) (start body : Text) :
    ∃ calls result s', s.putComment (repository.server token) start body = (result, s') ∧
      s'.events = s.events ++ calls ∧ calls ≠ [] ∧ (∀ e ∈ calls, e.isAboutComments = true) ∧
      (result = .ok () ↔ EndsWell calls) := by
  obtain ⟨script, calls, ⟨comments, hlisted, hload⟩ | ⟨e, hbroken, hload⟩⟩ :=
    loadComments_script_cases repository token hpull
  · -- the listing came to its end, so that the call that writes decides
    obtain ⟨line, hput⟩ :=
      exists_putComment_eq_write (repository.server token) hload hpull start body
    obtain ⟨reply, result, state, hwrite, hverdict⟩ := exists_write_eq (repository.server token)
      (writeCall pull.number start body comments)
      (((s.afterCalls script calls).remember comments).inform line)
    refine ⟨calls ++ [⟨_, reply⟩], result, _, hput.trans hwrite, ?_, by simp, ?_, ?_⟩
    · simp only [afterCalls, remember, inform, List.append_assoc]
    · refine List.forall_mem_append.mpr ⟨hlisted.pageCalls.isAboutComments, ?_⟩
      exact List.forall_mem_singleton.mpr (ApiEvent.isAboutComments_of_isWrite
        (isWrite_writeCall pull.number start body comments reply))
    · rw [endsWell_append calls (List.cons_ne_nil _ _), endsWell_singleton, hverdict]
  · -- the listing broke off, so that nothing is written
    have hput : s.putComment (repository.server token) start body =
        (.error (.finding e), s.afterCalls script calls) := by
      simp only [putComment, findComment, hload]
    refine ⟨calls, _, _, hput, rfl, ?_, hbroken.pageCalls.isAboutComments,
      iff_of_false (by simp) hbroken.not_endsWell⟩
    rintro rfl
    exact hbroken.not_endsWell endsWell_nil

end Session

/-- **A comment is brought up to date if and only if the last call succeeds.** All calls are about
comments. -/
theorem exists_postComment_verdict (repository : Repository) (token : Text) (r : ReviewRequest)
    (settings : CommentSettings) (a : Analysis) {s : Session Script} {pull : PullRequest}
    (hpull : s.pull = some pull) (hcomments : s.comments = none) :
    ∃ calls result s', postComment (repository.server token) r settings a s = (result, s') ∧
      s'.events = s.events ++ calls ∧ (∀ e ∈ calls, e.isAboutComments = true) ∧
      (result = .ok () ↔ EndsWell calls) := by
  by_cases hidle : r.quiet = true ∨ settings.enabled = false ∨ a.isWorthComment = false
  · obtain ⟨s', hpost, hevents⟩ := postComment_of_idle (repository.server token) s hidle
    refine ⟨[], _, s', hpost, ?_, by simp, iff_of_true rfl endsWell_nil⟩
    rw [hevents, List.append_nil]
  · simp only [not_or, Bool.not_eq_true, Bool.not_eq_false] at hidle
    obtain ⟨hquiet, henabled, hworth⟩ := hidle
    obtain ⟨first, found, s', hhas, hpull', hevents, hpages, hfound⟩ :=
      Session.hasComment_cases (repository.server token) hpull hcomments
        (a.comment settings.header)
    simp only [postComment, hquiet, henabled, hworth, isUpToDate, hhas, Bool.not_true,
      Bool.or_self, Bool.false_eq_true, if_false]
    cases found with
    | true =>
        obtain ⟨comments, hlisted, -⟩ := hfound rfl
        obtain ⟨info, warnings, hnote⟩ :=
          Session.ReportsOnly.note r "Comment already up to date\n" s'
        refine ⟨first, _, _, rfl, ?_, hpages.isAboutComments, iff_of_true rfl hlisted.endsWell⟩
        rw [hnote]
        exact hevents
    | false =>
        obtain ⟨more, result, s'', hput, hevents', hmore, habout, hverdict⟩ :=
          Session.exists_putComment_verdict repository token hpull' settings.header
            (a.comment settings.header)
        refine ⟨first ++ more, result, s'', hput, ?_, ?_, ?_⟩
        · rw [hevents', hevents, List.append_assoc]
        · exact List.forall_mem_append.mpr ⟨hpages.isAboutComments, habout⟩
        · rw [hverdict, endsWell_append first hmore]

/-! ### How a review ends -/

/-- All ways in which a review that is not called off can **end**. -/
inductive ReviewEnd (git : Git) (r : ReviewRequest) (outcome : ReviewOutcome σ) : Prop
  /-- The pull request cannot be had. -/
  | withoutPull (e : ApiError) :
      outcome.session.events = [⟨.pull r.pull, .error e⟩] →
      outcome.error = some (.pull (.call e)) → outcome.result = .empty → ReviewEnd git r outcome
  /-- The differences cannot be had. -/
  | withoutChanges (pull : PullRequest) (dirs : List Text) (e : DiffError) :
      outcome.session.events = [⟨.pull r.pull, .ok pull⟩] →
      git.changes pull.base pull.head dirs = .error e →
      outcome.error = some (.diff e) → outcome.result = .empty → ReviewEnd git r outcome
  /-- There is an analysis, and it is left to the last call whether the review succeeds. -/
  | concluded (pull : PullRequest) (settings : Settings) (calls : List ApiEvent) (a : Analysis) :
      outcome.session.events = ⟨.pull r.pull, .ok pull⟩ :: calls →
      (∀ e ∈ calls, e.isAboutComments = true) → Analysed git false pull settings a →
      (outcome.error = none ∧ outcome.result = ⟨a, true, a.summary⟩ ∧ EndsWell calls ∨
        (∃ e, outcome.error = some (.comment e)) ∧ outcome.result = ⟨a, false, []⟩ ∧
          ¬ EndsWell calls) →
      ReviewEnd git r outcome

/-- Brought to its conclusion, a review ends as its last call does. -/
theorem conclude_verdict {server : Server σ} {r : ReviewRequest} {settings : Settings}
    {a : Analysis} {s s' : Session σ} {result : Except SessionError Unit} {calls : List ApiEvent}
    (hpost : postComment server r settings.comment a (r.notes a.notes s) = (result, s'))
    (hverdict : result = .ok () ↔ EndsWell calls) :
    (conclude server r settings a s).error = none ∧
        (conclude server r settings a s).result = ⟨a, true, a.summary⟩ ∧ EndsWell calls ∨
      (∃ e, (conclude server r settings a s).error = some (.comment e)) ∧
        (conclude server r settings a s).result = ⟨a, false, []⟩ ∧ ¬ EndsWell calls := by
  rw [conclude, hpost]
  cases result with
  | ok _ => exact .inl ⟨rfl, rfl, hverdict.mp rfl⟩
  | error e => exact .inr ⟨⟨e, rfl⟩, rfl, fun hwell => by cases hverdict.mpr hwell⟩

/-- **How a review ends.** -/
theorem review_end (repository : Repository) (token : Text) (git : Git) (r : ReviewRequest)
    (script : Script) :
    ReviewEnd git r (review (repository.server token) git false r (.start script)) := by
  obtain ⟨state, ⟨e, hload⟩ | ⟨pull, hload⟩⟩ :=
    Session.loadPull_cases (repository.server token) r.pull (.start script)
  · have hreview : review (repository.server token) git false r (.start script) =
        ⟨.empty, some (.pull (.call e)), none,
          (Session.start script).afterCalls state [⟨.pull r.pull, .error e⟩]⟩ := by
      simp only [review, hload]
    rw [hreview]
    exact .withoutPull e rfl rfl rfl
  · obtain ⟨s, hreports, hreview⟩ := exists_review_eq_reviewChanges git false hload rfl
    rw [hreview]
    cases hfiles : git.changes pull.base pull.head
        (Settings.read [] (git.reader pull.base)).settings.ignoredDirectories with
    | error e =>
        obtain ⟨info, warnings, hs⟩ := hreports.trans (Session.ReportsOnly.note r
          ("Getting diff for " ++ pull.base ++ "..." ++ pull.head ++ "\n") s)
        simp only [reviewChanges, hfiles, hs]
        exact .withoutChanges pull _ e rfl hfiles rfl rfl
    | ok files =>
        obtain ⟨a, hresult⟩ : ∃ a, (analyse (Settings.read [] (git.reader pull.base)).settings
            (git.reader pull.head) false files).result = some a := ⟨_, analyse_result files⟩
        obtain ⟨s', hreports', hconclude⟩ : ∃ s', s.ReportsOnly s' ∧ reviewChanges
            (repository.server token) git false r _ pull s =
              conclude (repository.server token) r _ a s' :=
          exists_reviewChanges_eq_conclude hfiles hresult s
        obtain ⟨info, warnings, hs⟩ :=
          (hreports.trans hreports').trans (Session.ReportsOnly.notes r a.notes s')
        obtain ⟨calls, result, s'', hpost, hevents, habout, hverdict⟩ :=
          exists_postComment_verdict repository token r
            (Settings.read [] (git.reader pull.base)).settings.comment a
            (s := r.notes a.notes s') (by rw [hs]; rfl) (by rw [hs]; rfl)
        rw [hconclude]
        refine .concluded pull _ calls a ?_ habout ⟨rfl, files, hfiles, hresult⟩
          (conclude_verdict hpost hverdict)
        rw [(conclude_eq _ r _ a hpost).1, hevents, hs]
        rfl

/-- A review that **fails early**: its result is empty, and nothing was asked about comments. -/
def ReviewOutcome.FailsEarly (outcome : ReviewOutcome σ) (e : ReviewError) : Prop :=
  outcome.error = some e ∧ outcome.result = .empty ∧
    ∀ c ∈ outcome.session.events, c.isAboutComments = false

namespace ReviewEnd

variable {git : Git} {r : ReviewRequest} {outcome : ReviewOutcome σ}

/-- A review succeeds if and only if its result says so. -/
theorem error_eq_none_iff (h : ReviewEnd git r outcome) :
    outcome.error = none ↔ outcome.result.success = true := by
  cases h with
  | withoutPull e _ herror hresult => simp [herror, hresult, ReviewResult.empty]
  | withoutChanges pull dirs e _ _ herror hresult => simp [herror, hresult, ReviewResult.empty]
  | concluded pull settings calls a _ _ _ hverdict =>
      obtain ⟨herror, hresult, -⟩ | ⟨⟨e, herror⟩, hresult, -⟩ := hverdict
      · simp [herror, hresult]
      · simp [herror, hresult]

/-- A review asks for the pull request first. -/
theorem exists_head (h : ReviewEnd git r outcome) :
    ∃ reply, outcome.session.events.head? = some ⟨.pull r.pull, reply⟩ := by
  cases h with
  | withoutPull e hevents _ _ => exact ⟨_, by rw [hevents]; rfl⟩
  | withoutChanges pull dirs e hevents _ _ _ => exact ⟨_, by rw [hevents]; rfl⟩
  | concluded pull settings calls a hevents _ _ _ => exact ⟨_, by rw [hevents]; rfl⟩

/-- Without the pull request a review fails early. -/
theorem failsEarly_of_pull (h : ReviewEnd git r outcome) {e : ApiError}
    (hhead : outcome.session.events.head? = some ⟨.pull r.pull, .error e⟩) :
    outcome.FailsEarly (.pull (.call e)) := by
  cases h with
  | withoutPull e' hevents herror hresult =>
      rw [hevents] at hhead
      cases hhead
      exact ⟨herror, hresult, by simp [hevents, ApiEvent.isAboutComments]⟩
  | withoutChanges pull dirs e' hevents _ _ _ =>
      rw [hevents] at hhead
      cases hhead
  | concluded pull settings calls a hevents _ _ _ =>
      rw [hevents] at hhead
      cases hhead

/-- Without the differences a review fails early. -/
theorem failsEarly_of_changes (h : ReviewEnd git r outcome) {pull : PullRequest} {e : DiffError}
    (hhead : outcome.session.events.head? = some ⟨.pull r.pull, .ok pull⟩)
    (hchanges : ∀ dirs, git.changes pull.base pull.head dirs = .error e) :
    outcome.FailsEarly (.diff e) := by
  cases h with
  | withoutPull e' hevents _ _ =>
      rw [hevents] at hhead
      cases hhead
  | withoutChanges pull' dirs e' hevents hchanges' herror hresult =>
      rw [hevents] at hhead
      cases hhead
      obtain rfl : e = e' := Except.error.inj ((hchanges dirs).symm.trans hchanges')
      exact ⟨herror, hresult, by simp [hevents, ApiEvent.isAboutComments]⟩
  | concluded pull' settings calls a hevents _ ha _ =>
      rw [hevents] at hhead
      cases hhead
      obtain ⟨files, hfiles, -⟩ := ha.result_eq
      rw [hchanges] at hfiles
      cases hfiles

/-- With the differences there is an analysis, and the verdict is that of the last call. -/
theorem verdict_of_changes (h : ReviewEnd git r outcome) {pull : PullRequest}
    (hhead : outcome.session.events.head? = some ⟨.pull r.pull, .ok pull⟩)
    (hchanges : ∀ dirs, ∃ files, git.changes pull.base pull.head dirs = .ok files) :
    (∃ settings, Analysed git false pull settings outcome.result.analysis) ∧
    (outcome.error = none ↔ EndsWell outcome.session.events) ∧
    (outcome.error = none → outcome.result.message = outcome.result.analysis.summary) ∧
    (outcome.error ≠ none → (∃ e, outcome.error = some (.comment e)) ∧
      outcome.result = .pending outcome.result.analysis ∧
      ∃ c ∈ outcome.session.events.getLast?, c.isAboutComments = true) := by
  cases h with
  | withoutPull e hevents _ _ =>
      rw [hevents] at hhead
      cases hhead
  | withoutChanges pull' dirs e hevents hchanges' _ _ =>
      rw [hevents] at hhead
      cases hhead
      obtain ⟨files, hfiles⟩ := hchanges dirs
      rw [hchanges'] at hfiles
      cases hfiles
  | concluded pull' settings calls a hevents habout ha hverdict =>
      rw [hevents] at hhead
      cases hhead
      rw [hevents, endsWell_cons rfl calls]
      obtain ⟨herror, hresult, hwell⟩ | ⟨herror, hresult, hbad⟩ := hverdict
      · rw [hresult, herror]
        exact ⟨⟨settings, ha⟩, iff_of_true rfl hwell, fun _ => rfl, fun hne => absurd rfl hne⟩
      · obtain ⟨e, herror⟩ := herror
        rw [hresult, herror]
        refine ⟨⟨settings, ha⟩, iff_of_false (by simp) hbad, by simp, fun _ => ⟨⟨e, rfl⟩, rfl, ?_⟩⟩
        have hcalls : calls ≠ [] := by
          rintro rfl
          exact hbad endsWell_nil
        refine ⟨calls.getLast hcalls, ?_, habout _ (List.getLast_mem hcalls)⟩
        rw [List.getLast?_cons_of_ne_nil hcalls, List.getLast?_eq_some_getLast hcalls]
        rfl

end ReviewEnd

/-! ### What is counted -/

/-- **What is counted for the summary**: the hunks of all files that have an enclosing block. -/
theorem Analysis.contextCount_eq (a : Analysis) :
    a.contextCount =
      (a.files.items.flatMap fun f => f.hunks.items).countP fun h => h.block.isSome := by
  have hsum (files : List FileReport) (n : Nat) :
      files.foldl (fun n f => n + f.contextCount) n =
        n + (files.flatMap fun f => f.hunks.items).countP fun h => h.block.isSome := by
    induction files generalizing n with
    | nil => rfl
    | cons f files ih =>
        rw [List.foldl_cons, ih, List.flatMap_cons, List.countP_append, Nat.add_assoc]
        rfl
  rw [contextCount, hsum, Nat.zero_add]

/-- The sentence about a review that succeeded, with the given numbers in it. -/
def summaryOf (hunks files skipped : Nat) : Text :=
  let addition : Text :=
    if skipped = 0 then [] else ", skipped " ++ Text.ofNat skipped ++ " file(s)"
  "Resolved enclosing context for " ++ Text.ofNat hunks ++ " hunk(s) in " ++ Text.ofNat files
    ++ " file(s)" ++ addition

/-- The numbers in the summary. -/
theorem Analysis.summary_eq (a : Analysis) :
    a.summary = summaryOf
      ((a.files.items.flatMap fun f => f.hunks.items).countP fun h => h.block.isSome)
      a.files.items.length a.skipped.items.length := by
  rw [summary, contextCount_eq, skippedSummary, summaryOf]
  simp only [List.isEmpty_iff, List.length_eq_zero_iff]

/-- **A review succeeds if and only if its result says so.** The pull request is asked for first. If
it or the differences cannot be had, the review fails early. Otherwise there is an analysis,
whatever git says about the settings and about single files, and the review fails if and only if its
last call does, which is then one about the comment; the result still has the analysis in it, and
neither says that the review succeeded nor has a message. A review that succeeds says how many hunks
have an enclosing block, and how many files were reported and skipped. -/
theorem review_succeeds_iff_result_success (repository : Repository) (token : Text) (git : Git)
    (r : ReviewRequest) (responses : List Response) :
    let outcome := review (repository.server token) git false r (.start ⟨responses, []⟩)
    let events := outcome.session.events
    let a := outcome.result.analysis
    (outcome.error = none ↔ outcome.result.success = true) ∧
    (∃ reply, events.head? = some ⟨.pull r.pull, reply⟩) ∧
    (∀ e, events.head? = some ⟨.pull r.pull, .error e⟩ →
      outcome.FailsEarly (.pull (.call e))) ∧
    ∀ pull : PullRequest, events.head? = some ⟨.pull r.pull, .ok pull⟩ →
      (∀ failure, git (.diff pull.base pull.head) = .error failure →
        outcome.FailsEarly (.diff (.command failure))) ∧
      (∀ output e, git (.diff pull.base pull.head) = .ok output → Patch.parse output = .error e →
        outcome.FailsEarly (.diff (.patch e))) ∧
      ∀ output ps, git (.diff pull.base pull.head) = .ok output → Patch.parse output = .ok ps →
        (∃ settings, Analysed git false pull settings a) ∧
        (outcome.error = none ↔ EndsWell events) ∧
        (outcome.error ≠ none → (∃ e, outcome.error = some (.comment e)) ∧
          outcome.result = ⟨a, false, []⟩ ∧ ∃ c ∈ events.getLast?, c.isAboutComments = true) ∧
        (outcome.error = none → outcome.result.message = summaryOf
          ((a.files.items.flatMap fun f => f.hunks.items).countP fun h => h.block.isSome)
          a.files.items.length a.skipped.items.length) := by
  intro outcome events a
  have hend : ReviewEnd git r outcome := review_end repository token git r ⟨responses, []⟩
  refine ⟨hend.error_eq_none_iff, hend.exists_head, fun e hhead => hend.failsEarly_of_pull hhead,
    fun pull hhead => ⟨fun failure hdiff => ?_, fun output e hdiff hparse => ?_,
      fun output ps hdiff hparse => ?_⟩⟩
  · exact hend.failsEarly_of_changes hhead fun dirs => by simp only [Git.changes, hdiff]
  · exact hend.failsEarly_of_changes hhead fun dirs => by simp only [Git.changes, hdiff, hparse]
  · have hchanges (dirs : List Text) :
        ∃ files, git.changes pull.base pull.head dirs = .ok files := by
      simp only [Git.changes, hdiff, hparse]
      exact ⟨_, rfl⟩
    obtain ⟨hanalysed, hverdict, hmessage, hpending⟩ := hend.verdict_of_changes hhead hchanges
    exact ⟨hanalysed, hverdict, hpending, fun herror => (hmessage herror).trans a.summary_eq⟩

/-- The differences in two files. -/
def brokenDiff : Text :=
  "--- a/m.py\n+++ b/m.py\n@@ -2 +2 @@\n-  x\n+  y\n" ++
    "--- a/n.py\n+++ b/n.py\n@@ -1 +1 @@\n-x\n+y\n"

/-- A commit that changes two files, of which one cannot be read. The settings before it are not
well formed. -/
def brokenGit : Git
  | .diff _ _ => .ok brokenDiff
  | .content ref path =>
    if ref = "b" then .ok "ignore = ["
    else if path = "m.py" then .ok "def f():\n  y\n" else .error ⟨"gone", []⟩
  | .presence _ _ => .ok []

/-- The review of that commit, where only the first call is answered. -/
def brokenReview (quiet : Bool) : ReviewOutcome Script :=
  review (Repository.server ⟨"o", "r"⟩ "t") brokenGit false ⟨7, false, quiet⟩
    (.start ⟨interruptedScript.take 1, []⟩)

/-- What is found: a hunk in a function, and a file that cannot be read. -/
def brokenAnalysis : Analysis :=
  ⟨some [⟨"m.py", some [⟨⟨2, 2⟩, some ⟨.function, "f", 1, 2⟩⟩]⟩],
    some [⟨"n.py", "failed to read file n.py from ref h: gone"⟩]⟩

/-- The review succeeds if it is kept from commenting, and if not, all that is lost is the
verdict. -/
theorem review_succeeds_iff_result_success_broken :
    (brokenReview true).result = ⟨brokenAnalysis, true, summaryOf 1 1 1⟩ ∧
    (brokenReview false).result = ⟨brokenAnalysis, false, []⟩ := by
  have hparse : Patch.parse brokenDiff =
      .ok [⟨"b/m.py", [⟨2, 1, 2, 1⟩]⟩, ⟨"b/n.py", [⟨1, 1, 1, 1⟩]⟩] := by decide +kernel
  have hrun (quiet : Bool) (verdicts : List Bool) (last : Bool)
      (hlast : (true :: verdicts).getLast? = some last)
      (heval : ((brokenReview quiet).session.events.map ApiEvent.succeeded,
        (brokenReview quiet).result.analysis) = (true :: verdicts, brokenAnalysis)) :
      (brokenReview quiet).result = bif last then ⟨brokenAnalysis, true, summaryOf 1 1 1⟩
        else ⟨brokenAnalysis, false, []⟩ := by
    obtain ⟨hcalls, ha⟩ := Prod.mk.inj heval
    have hall := review_succeeds_iff_result_success ⟨"o", "r"⟩ "t" brokenGit ⟨7, false, quiet⟩
      (interruptedScript.take 1)
    rw [← brokenReview] at hall
    obtain ⟨hsuccess, ⟨reply, hhead⟩, -, hpull⟩ := hall
    have hfirst : some (ApiEvent.succeeded ⟨.pull 7, reply⟩) = some true := by
      rw [← Option.map_some, ← hhead, ← List.head?_map, hcalls]
      rfl
    cases reply with
    | error e => cases hfirst
    | ok pull =>
        obtain ⟨-, -, hconcluded⟩ := hpull pull hhead
        obtain ⟨-, hwell, hpending, hmessage⟩ := hconcluded _ _ rfl hparse
        rw [ha] at hpending hmessage
        rw [endsWell_iff_of_map (hcalls ▸ hlast)] at hwell
        cases last with
        | true =>
            have herror : (brokenReview quiet).error = none := hwell.mpr rfl
            rw [cond_true, ← ha, ← hsuccess.mp herror,
              show summaryOf 1 1 1 = _ from (hmessage herror).symm]
        | false => exact (hpending fun herror => by cases hwell.mp herror).2.1
  exact ⟨hrun true [] true rfl (by decide +kernel),
    hrun false [false, false] false rfl (by decide +kernel)⟩

end Enclosure
