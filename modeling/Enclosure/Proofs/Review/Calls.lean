import Enclosure.Proofs.PullRequest.Listing
import Enclosure.Proofs.Review.UpToDate
import Enclosure.PullRequest.Web

/-!
# The calls of a review

A review makes at most one call that writes a comment, and it is the last one. Before it there is
always a listing that came to its end, whatever failed earlier: the first listing of a review, which
looks for the very comment, may break off with a warning only, but the comment to edit is looked for
in a second one, and if that breaks off nothing is written. So no failure can lead to a second
comment with the same header.

## Main definitions

* `CommentCalls`: the calls with which a comment is brought up to date, and what they come to.

## Main results

* `review_cases`: how a review can go.
* `postComment_cases`: the calls with which a review brings its comment up to date.
* `review_writes_last_after_listing`: **one write at most, last, and after a whole listing**.
-/

namespace Enclosure

variable {σ : Type}

/-! ### How a review can go -/

/-- Reviewing the changes comes to an error before there is an analysis, or to the conclusion, and
until then there are only reports. -/
theorem reviewChanges_cases (server : Server σ) (git : Git) (calledOff : Bool) (r : ReviewRequest)
    (settings : Settings) (pull : PullRequest) (s : Session σ) :
    ∃ s', s.ReportsOnly s' ∧
      ((∃ e, reviewChanges server git calledOff r settings pull s =
          ⟨.empty, some e, some settings, s'⟩) ∨
        ∃ files a, git.changes pull.base pull.head settings.ignoredDirectories = .ok files ∧
          (analyse settings (git.reader pull.head) calledOff files).result = some a ∧
          reviewChanges server git calledOff r settings pull s =
            conclude server r settings a s') := by
  cases hfiles : git.changes pull.base pull.head settings.ignoredDirectories with
  | error e =>
      refine ⟨?session, ?reports, .inl ⟨.diff e, ?failed⟩⟩
      case failed =>
        simp only [reviewChanges, hfiles]
        rfl
      case reports => exact Session.ReportsOnly.note r _ s
  | ok files =>
      cases hresult : (analyse settings (git.reader pull.head) calledOff files).result with
      | none =>
          refine ⟨?session', ?reports, .inl ⟨.calledOff, ?failed⟩⟩
          case failed =>
            simp only [reviewChanges, hfiles, hresult]
            rfl
          case reports =>
            exact (Session.ReportsOnly.note r _ s).trans ((Session.ReportsOnly.note r _ _).trans
              ((Session.ReportsOnly.notes r _ _).trans
                (Session.ReportsOnly.foldl Session.ReportsOnly.warn _ _)))
      | some a =>
          obtain ⟨s', hreports, hconclude⟩ : ∃ s', s.ReportsOnly s' ∧ reviewChanges server git
              calledOff r settings pull s = conclude server r settings a s' :=
            exists_reviewChanges_eq_conclude hfiles hresult s
          exact ⟨s', hreports, .inr ⟨files, a, rfl, hresult, hconclude⟩⟩

/-- From the reply with the pull request to the changes there are only reports. -/
theorem exists_review_eq_reviewChanges {server : Server σ} (git : Git) (calledOff : Bool)
    {r : ReviewRequest} {s s' : Session σ} {pull : PullRequest}
    (hload : s.loadPull server r.pull = (.ok (), s')) (hpull : s'.pull = some pull) :
    ∃ s'', s'.ReportsOnly s'' ∧ review server git calledOff r s = reviewChanges server git calledOff
      r (Settings.read [] (git.reader pull.base)).settings pull s'' := by
  refine ⟨?session, ?reports, ?changes⟩
  case changes =>
    simp only [review, hload, hpull, Option.getD_some]
    rfl
  case reports =>
    exact (Session.ReportsOnly.note r _ s').trans (Session.ReportsOnly.foldl
      (fun s e => Session.ReportsOnly.warn s (Settings.warning e)) _ _)

/-- **How a review can go.** The pull request cannot be had; or the review fails before there is an
analysis; or it comes to its conclusion. Between the pull request and the conclusion there are only
reports. -/
theorem review_cases (server : Server σ) (git : Git) (calledOff : Bool) (r : ReviewRequest)
    (s : Session σ) :
    (∃ e state, review server git calledOff r s = ⟨.empty, some (.pull (.call e)), none,
        s.afterCalls state [⟨.pull r.pull, .error e⟩]⟩) ∨
    ∃ pull settings state s',
      ((s.afterCalls state [⟨.pull r.pull, .ok pull⟩]).about pull).ReportsOnly s' ∧
      ((∃ e, review server git calledOff r s = ⟨.empty, some e, some settings, s'⟩) ∨
        ∃ a, Analysed git calledOff pull settings a ∧
          review server git calledOff r s = conclude server r settings a s') := by
  obtain ⟨state, ⟨e, hload⟩ | ⟨pull, hload⟩⟩ := Session.loadPull_cases server r.pull s
  · refine .inl ⟨e, state, ?_⟩
    simp only [review, hload]
  · obtain ⟨s', hreports, hreview⟩ := exists_review_eq_reviewChanges git calledOff hload rfl
    obtain ⟨s'', hreports', hend⟩ := reviewChanges_cases server git calledOff r
      (Settings.read [] (git.reader pull.base)).settings pull s'
    refine .inr ⟨pull, (Settings.read [] (git.reader pull.base)).settings, state, s'',
      hreports.trans hreports', ?_⟩
    rw [hreview]
    obtain ⟨e, herror⟩ | ⟨files, a, hfiles, hresult, hconclude⟩ := hend
    · exact .inl ⟨e, herror⟩
    · exact .inr ⟨a, ⟨rfl, files, hfiles, hresult⟩, hconclude⟩

/-! ### The calls about comments -/

/-- The calls with which a comment is brought up to date, and what they come to. -/
inductive CommentCalls (pull : Int) (header body : Text) :
    Except SessionError Unit → List ApiEvent → Prop
  /-- The very comment is among those of a listing that came to its end. -/
  | upToDate (listing : List ApiEvent) (comments : List Comment) (c : Comment) :
      Listed pull 1 listing comments → c ∈ comments → c.body = body →
      CommentCalls pull header body (.ok ()) listing
  /-- The listing before the write breaks off. -/
  | givenUp (calls : List ApiEvent) (e : SessionError) :
      PageCalls pull calls → CommentCalls pull header body (.error e) calls
  /-- The comment is written right after a listing that came to its end. -/
  | written (earlier listing : List ApiEvent) (comments : List Comment) (e : ApiEvent)
      (result : Except SessionError Unit) :
      PageCalls pull earlier → Listed pull 1 listing comments →
      e.call = writeCall pull header body comments →
      CommentCalls pull header body result (earlier ++ listing ++ [e])

/-- The session about which nothing is remembered but the pull request brings a comment up to date
with just these calls. -/
theorem postComment_cases (server : Server σ) {r : ReviewRequest} {settings : CommentSettings}
    {a : Analysis} {s : Session σ} {pull : PullRequest} (hpull : s.pull = some pull)
    (hcomments : s.comments = none) (hquiet : r.quiet = false) (henabled : settings.enabled = true)
    (hworth : a.isWorthComment = true) :
    ∃ calls result s', postComment server r settings a s = (result, s') ∧
      s'.events = s.events ++ calls ∧
      CommentCalls pull.number settings.header (a.comment settings.header) result calls := by
  obtain ⟨first, found, s', hhas, hpull', hevents, hpages, hfound⟩ :=
    Session.hasComment_cases server hpull hcomments (a.comment settings.header)
  simp only [postComment, hquiet, henabled, hworth, isUpToDate, hhas, Bool.not_true, Bool.or_self,
    Bool.false_eq_true, if_false]
  cases found with
  | true =>
      obtain ⟨comments, hlisted, c, hc, hbody⟩ := hfound rfl
      obtain ⟨info, warnings, hnote⟩ :=
        Session.ReportsOnly.note r "Comment already up to date\n" s'
      refine ⟨first, .ok (), _, rfl, ?_, .upToDate first comments c hlisted hc hbody⟩
      rw [hnote]
      exact hevents
  | false =>
      obtain ⟨listing, hlisting, ⟨e, s'', hput, hevents'⟩ |
          ⟨comments, e, result, s'', hlisted, hcall, hput, hevents'⟩⟩ :=
        Session.putComment_cases server hpull' settings.header (a.comment settings.header)
      · refine ⟨first ++ listing, .error e, s'', hput, ?_, .givenUp _ e (hpages.append hlisting)⟩
        rw [hevents', hevents, List.append_assoc]
      · refine ⟨first ++ listing ++ [e], result, s'', hput, ?_,
          .written first listing comments e result hpages hlisted hcall⟩
        rw [hevents', hevents, List.append_assoc, List.append_assoc]

/-- A review that is kept from commenting, or has nothing to comment on, makes no call. -/
theorem postComment_of_idle (server : Server σ) {r : ReviewRequest} {settings : CommentSettings}
    {a : Analysis} (s : Session σ)
    (hidle : r.quiet = true ∨ settings.enabled = false ∨ a.isWorthComment = false) :
    ∃ s', postComment server r settings a s = (.ok (), s') ∧ s'.events = s.events := by
  have hnote (line : Text) : (r.note line s).events = s.events := by
    obtain ⟨info, warnings, hs⟩ := Session.ReportsOnly.note r line s
    rw [hs]
  by_cases hdisabled : (r.quiet || !settings.enabled) = true
  · refine ⟨_, ?_, hnote "Commenting disabled\n"⟩
    simp only [postComment, if_pos hdisabled]
  · have hnothing : a.isWorthComment = false := by
      cases hquiet : r.quiet <;> cases henabled : settings.enabled <;> simp_all
    refine ⟨_, ?_, hnote "Nothing to comment\n"⟩
    simp only [postComment, if_neg hdisabled, hnothing, Bool.not_false, if_true]

/-- Brought to its conclusion, a review has the analysis and the settings in its outcome, and it
fails only if the comment cannot be brought up to date. -/
theorem conclude_eq (server : Server σ) (r : ReviewRequest) (settings : Settings) (a : Analysis)
    {s s' : Session σ} {result : Except SessionError Unit}
    (hpost : postComment server r settings.comment a (r.notes a.notes s) = (result, s')) :
    (conclude server r settings a s).session = s' ∧
      (conclude server r settings a s).settings = some settings ∧
      (conclude server r settings a s).result.analysis = a ∧
      ((conclude server r settings a s).error = none → result = .ok ()) := by
  rw [conclude, hpost]
  cases result with
  | error e => exact ⟨rfl, rfl, rfl, by simp⟩
  | ok _ => exact ⟨rfl, rfl, rfl, fun _ => rfl⟩

/-- The calls that the outcome of a review can show. -/
inductive ReviewCalls (git : Git) (calledOff : Bool) (r : ReviewRequest)
    (outcome : ReviewOutcome σ) : Prop
  /-- The review has failed, or there was nothing to comment on, and nothing was asked for but the
  pull request. -/
  | pullOnly (reply : Except ApiError PullRequest) :
      outcome.session.events = [⟨.pull r.pull, reply⟩] →
      (outcome.error = none → ∀ settings, outcome.settings = some settings → r.quiet = true ∨
        settings.comment.enabled = false ∨ outcome.result.analysis.isWorthComment = false) →
      ReviewCalls git calledOff r outcome
  /-- The comment was brought up to date, or that was tried. -/
  | commented (pull : PullRequest) (settings : Settings) (calls : List ApiEvent)
      (result : Except SessionError Unit) :
      outcome.session.events = ⟨.pull r.pull, .ok pull⟩ :: calls →
      outcome.settings = some settings →
      Analysed git calledOff pull settings outcome.result.analysis →
      r.quiet = false → settings.comment.enabled = true →
      outcome.result.analysis.isWorthComment = true →
      (outcome.error = none → result = .ok ()) →
      CommentCalls pull.number settings.comment.header
        (outcome.result.analysis.comment settings.comment.header) result calls →
      ReviewCalls git calledOff r outcome

/-- **The calls of a review** from a fresh session. It asks for the pull request and then for
nothing if it fails or has nothing to comment on; otherwise it brings its comment up to date. -/
theorem review_calls (server : Server σ) (git : Git) (calledOff : Bool) (r : ReviewRequest)
    (state : σ) : ReviewCalls git calledOff r (review server git calledOff r (.start state)) := by
  obtain ⟨e, state', hreview⟩ | ⟨pull, settings, state', s, hreports, hend⟩ :=
    review_cases server git calledOff r (.start state)
  · rw [hreview]
    exact .pullOnly (.error e) rfl (by simp)
  obtain ⟨e, hreview⟩ | ⟨a, ha, hreview⟩ := hend
  · obtain ⟨info, warnings, rfl⟩ := hreports
    rw [hreview]
    exact .pullOnly (.ok pull) rfl (by simp)
  obtain ⟨info, warnings, hs⟩ := hreports.trans (Session.ReportsOnly.notes r a.notes s)
  have hevents : (r.notes a.notes s).events = [⟨.pull r.pull, .ok pull⟩] := by
    rw [hs]
    rfl
  rw [hreview]
  by_cases hidle : r.quiet = true ∨ settings.comment.enabled = false ∨ a.isWorthComment = false
  · obtain ⟨s', hpost, hevents'⟩ := postComment_of_idle server (r.notes a.notes s) hidle
    obtain ⟨hsession, hsettings, hanalysis, -⟩ := conclude_eq server r settings a hpost
    refine .pullOnly (.ok pull) ?_ ?_
    · rw [hsession, hevents', hevents]
    · rw [hsettings, hanalysis]
      rintro - _ ⟨rfl⟩
      exact hidle
  · simp only [not_or, Bool.not_eq_true, Bool.not_eq_false] at hidle
    obtain ⟨hquiet, henabled, hworth⟩ := hidle
    obtain ⟨calls, result, s', hpost, hevents', hcalls⟩ :=
      postComment_cases server (s := r.notes a.notes s) (by rw [hs]; rfl) (by rw [hs]; rfl) hquiet
        henabled hworth
    obtain ⟨hsession, hsettings, hanalysis, hsucceeded⟩ := conclude_eq server r settings a hpost
    refine .commented pull settings calls result ?_ hsettings ?_ hquiet henabled ?_ hsucceeded ?_
    · rw [hsession, hevents', hevents]
      rfl
    · rwa [hanalysis]
    · rwa [hanalysis]
    · rwa [hanalysis]

/-! ### Writes among the calls -/

/-- A call that writes, behind calls that do not, is the only one that writes. -/
theorem eq_of_append_isWrite {calls before after : List ApiEvent} {e e' : ApiEvent}
    (hcalls : ∀ c ∈ calls, c.isWrite = false) (h : calls ++ [e'] = before ++ e :: after)
    (he : e.isWrite = true) : before = calls ∧ e = e' ∧ after = [] := by
  obtain rfl | ⟨init, last, rfl⟩ := after.eq_nil_or_concat'
  · obtain ⟨rfl, heq⟩ := List.append_inj' h rfl
    exact ⟨rfl, (List.singleton_inj.mp heq).symm, rfl⟩
  · rw [← List.cons_append, ← List.append_assoc] at h
    obtain ⟨hinit, -⟩ := List.append_inj' h rfl
    have hmem : e ∈ calls := by simp [hinit]
    simp [hcalls e hmem] at he

namespace CommentCalls

variable {pull : Int} {header body : Text} {result : Except SessionError Unit}
  {calls : List ApiEvent}

/-- Bringing a comment up to date takes at most one call that writes. -/
theorem countP_isWrite_le (h : CommentCalls pull header body result calls) :
    calls.countP ApiEvent.isWrite ≤ 1 := by
  have hpages {events : List ApiEvent} (hevents : PageCalls pull events) :
      events.countP ApiEvent.isWrite = 0 :=
    List.countP_eq_zero.mpr fun e he => by simp [hevents.isWrite_eq_false e he]
  cases h with
  | upToDate listing comments c hlisted hc hbody => simp [hpages hlisted.pageCalls]
  | givenUp calls e hcalls => simp [hpages hcalls]
  | written earlier listing comments e result hearlier hlisted hcall =>
      rw [List.countP_append, hpages (hearlier.append hlisted.pageCalls), Nat.zero_add]
      exact List.countP_le_length

/-- **A comment is written last, and right after a listing that came to its end.** -/
theorem listed_of_isWrite (h : CommentCalls pull header body result calls)
    {before after : List ApiEvent} {e : ApiEvent} (hcalls : calls = before ++ e :: after)
    (he : e.isWrite = true) :
    after = [] ∧ ∃ earlier listing comments, before = earlier ++ listing ∧
      Listed pull 1 listing comments ∧ e.call = writeCall pull header body comments := by
  have hnone (hpages : PageCalls pull (before ++ e :: after)) : False := by
    have hfalse := hpages.isWrite_eq_false e (by simp)
    simp [hfalse] at he
  cases h with
  | upToDate listing comments c hlisted hc hbody => exact (hnone (hcalls ▸ hlisted.pageCalls)).elim
  | givenUp calls e' hpages => exact (hnone (hcalls ▸ hpages)).elim
  | written earlier listing comments e' result hearlier hlisted hcall =>
      obtain ⟨rfl, rfl, rfl⟩ := eq_of_append_isWrite
        (hearlier.append hlisted.pageCalls).isWrite_eq_false hcalls he
      exact ⟨rfl, earlier, listing, comments, rfl, hlisted, hcall⟩

end CommentCalls

namespace ReviewCalls

variable {git : Git} {calledOff : Bool} {r : ReviewRequest} {outcome : ReviewOutcome σ}

/-- A review makes at most one call that writes. -/
theorem countP_isWrite_le (h : ReviewCalls git calledOff r outcome) :
    outcome.session.events.countP ApiEvent.isWrite ≤ 1 := by
  cases h with
  | pullOnly reply hevents _ =>
      rw [hevents]
      exact List.countP_le_length
  | commented pull settings calls result hevents _ _ _ _ _ _ hcalls =>
      rw [hevents, List.countP_cons_of_neg (by simp [ApiEvent.isWrite])]
      exact hcalls.countP_isWrite_le

/-- A call of a review that writes is its last one. It comes right after a listing that came to its
end, whose comments decide which call it is. -/
theorem listed_of_isWrite (h : ReviewCalls git calledOff r outcome) {before after : List ApiEvent}
    {e : ApiEvent} (hevents : outcome.session.events = before ++ e :: after)
    (he : e.isWrite = true) :
    after = [] ∧ ∃ pull settings earlier listing comments,
      before = ⟨.pull r.pull, .ok pull⟩ :: (earlier ++ listing) ∧
      outcome.settings = some settings ∧
      Analysed git calledOff pull settings outcome.result.analysis ∧
      Listed pull.number 1 listing comments ∧
      e.call = writeCall pull.number settings.comment.header
        (outcome.result.analysis.comment settings.comment.header) comments := by
  cases h with
  | pullOnly reply hevents' _ =>
      have hmem : e ∈ outcome.session.events := by simp [hevents]
      rw [hevents', List.mem_singleton] at hmem
      simp [hmem, ApiEvent.isWrite] at he
  | commented pull settings calls result hevents' hsettings ha _ _ _ _ hcalls =>
      rw [hevents'] at hevents
      obtain ⟨rfl, hcons⟩ | ⟨before, rfl, hcons⟩ := List.cons_eq_append_iff.mp hevents
      · simp only [List.cons.injEq] at hcons
        simp [hcons.1, ApiEvent.isWrite] at he
      · obtain ⟨rfl, earlier, listing, comments, rfl, hlisted, hcall⟩ :=
          hcalls.listed_of_isWrite hcons he
        exact ⟨rfl, pull, settings, earlier, listing, comments, rfl, hsettings, ha, hlisted, hcall⟩

/-- A review that is kept from commenting, or has nothing to comment on, makes no call about
comments. -/
theorem isAboutComments_eq_false (h : ReviewCalls git calledOff r outcome)
    (hidle : r.quiet = true ∨ (∃ settings, outcome.settings = some settings ∧
      settings.comment.enabled = false) ∨ outcome.result.analysis.isWorthComment = false) :
    ∀ e ∈ outcome.session.events, e.isAboutComments = false := by
  cases h with
  | pullOnly reply hevents _ =>
      intro e he
      rw [hevents, List.mem_singleton] at he
      rw [he, ApiEvent.isAboutComments]
  | commented pull settings calls result _ hsettings _ hquiet henabled hworth _ _ =>
      obtain hquiet' | ⟨settings', hsettings', hdisabled⟩ | hworth' := hidle
      · simp [hquiet] at hquiet'
      · obtain rfl : settings = settings' := Option.some.inj (hsettings.symm.trans hsettings')
        simp [henabled] at hdisabled
      · simp [hworth] at hworth'

/-- A review that succeeds although a comment is due has written it, or has seen the very comment in
a listing that came to its end. -/
theorem written_or_seen (h : ReviewCalls git calledOff r outcome) {settings : Settings}
    (herror : outcome.error = none) (hsettings : outcome.settings = some settings)
    (hquiet : r.quiet = false) (henabled : settings.comment.enabled = true)
    (hworth : outcome.result.analysis.isWorthComment = true) :
    (∃ e ∈ outcome.session.events, e.isWrite = true) ∨ ∃ pull listing comments,
      outcome.session.events = ⟨.pull r.pull, .ok pull⟩ :: listing ∧
      Listed pull.number 1 listing comments ∧
      ∃ c ∈ comments, c.body = outcome.result.analysis.comment settings.comment.header := by
  cases h with
  | pullOnly reply _ hidle =>
      obtain hquiet' | henabled' | hworth' := hidle herror settings hsettings
      · simp [hquiet] at hquiet'
      · simp [henabled] at henabled'
      · simp [hworth] at hworth'
  | commented pull settings' calls result hevents hsettings' _ _ _ _ hok hcalls =>
      obtain rfl : settings' = settings := Option.some.inj (hsettings'.symm.trans hsettings)
      rw [hevents]
      cases hcalls with
      | upToDate listing comments c hlisted hc hbody =>
          exact .inr ⟨pull, calls, comments, rfl, hlisted, c, hc, hbody⟩
      | givenUp calls e hpages => simp at hok; exact absurd herror hok
      | written earlier listing comments e result hearlier hlisted hcall =>
          refine .inl ⟨e, by simp, ?_⟩
          rw [ApiEvent.isWrite, hcall, writeCall]
          cases comments.find? (·.body.startsWith settings'.comment.header) <;> rfl

end ReviewCalls

/-- **One write at most, last, and after a whole listing.** Whatever responses a review gets, it
makes at most one call that writes a comment, and no call after it. Just before that call there is
a listing of the comments on the pull request that came to its end. The call writes the comment for
the analysis of the review, which starts with the configured header: it edits the first comment of
the listing that starts with this header, and creates one only if there is none. A review that is
kept from commenting, or whose analysis has neither blocks nor skipped files, makes no call about
comments at all; and one that succeeds although a comment is due has written it, or has seen the
very comment in a listing that came to its end. -/
theorem review_writes_last_after_listing (repository : Repository) (token : Text) (git : Git)
    (calledOff : Bool) (r : ReviewRequest) (responses : List Response) :
    let outcome := review (repository.server token) git calledOff r (.start ⟨responses, []⟩)
    let events := outcome.session.events
    let a := outcome.result.analysis
    events.countP ApiEvent.isWrite ≤ 1 ∧
    (∀ before e after, events = before ++ e :: after → e.isWrite = true →
      after = [] ∧ ∃ pull settings earlier listing comments,
        before = ⟨.pull r.pull, .ok pull⟩ :: (earlier ++ listing) ∧
        outcome.settings = some settings ∧ Analysed git calledOff pull settings a ∧
        Listed pull.number 1 listing comments ∧
        (a.comment settings.comment.header).startsWith settings.comment.header = true ∧
        e.call = match comments.find? (·.body.startsWith settings.comment.header) with
          | none => .create pull.number (a.comment settings.comment.header)
          | some c => .edit c.id (a.comment settings.comment.header)) ∧
    ((r.quiet = true ∨ (∃ settings, outcome.settings = some settings ∧
        settings.comment.enabled = false) ∨ (a.contextCount = 0 ∧ a.skipped.items = [])) →
      ∀ e ∈ events, e.isAboutComments = false) ∧
    (∀ settings, outcome.error = none → outcome.settings = some settings → r.quiet = false →
      settings.comment.enabled = true → (a.contextCount ≠ 0 ∨ a.skipped.items ≠ []) →
      (∃ e ∈ events, e.isWrite = true) ∨ ∃ pull listing comments,
        events = ⟨.pull r.pull, .ok pull⟩ :: listing ∧ Listed pull.number 1 listing comments ∧
        ∃ c ∈ comments, c.body = a.comment settings.comment.header) := by
  intro outcome events a
  have h : ReviewCalls git calledOff r outcome :=
    review_calls (repository.server token) git calledOff r ⟨responses, []⟩
  refine ⟨h.countP_isWrite_le, ?_, ?_, ?_⟩
  · intro before e after hevents he
    obtain ⟨hlast, pull, settings, earlier, listing, comments, hbefore, hsettings, ha, hlisted,
      hcall⟩ := h.listed_of_isWrite hevents he
    refine ⟨hlast, pull, settings, earlier, listing, comments, hbefore, hsettings, ha, hlisted,
      a.comment_startsWith settings.comment.header, ?_⟩
    rw [hcall, writeCall]
    cases comments.find? (·.body.startsWith settings.comment.header) <;> rfl
  · rintro (hquiet | hdisabled | ⟨hcount, hskipped⟩)
    · exact h.isAboutComments_eq_false (.inl hquiet)
    · exact h.isAboutComments_eq_false (.inr (.inl hdisabled))
    · refine h.isAboutComments_eq_false (.inr (.inr ?_))
      simp [Analysis.isWorthComment, show outcome.result.analysis.contextCount = 0 from hcount,
        show outcome.result.analysis.skipped.items = [] from hskipped]
  · intro settings herror hsettings hquiet henabled hdue
    refine h.written_or_seen herror hsettings hquiet henabled ?_
    simpa [Analysis.isWorthComment] using hdue

/-- Responses that break off the first listing on its second page. The second listing comes to its
end, also on its second page, with a comment that has the header. -/
def interruptedScript : List Response :=
  [.answered 200
      "\x7b\"number\":7,\"base\":\x7b\"sha\":\"b\"\x7d,\"head\":\x7b\"sha\":\"h\"\x7d\x7d" 0,
    .answered 200 "[]" 2,
    .answered 500 [] 0,
    .answered 200 "[\x7b\"id\":3,\"body\":\"hello\"\x7d]" 2,
    .answered 200 "[\x7b\"id\":5,\"body\":\"<!-- hunk-context -->\\nold\"\x7d]" 0,
    .answered 200 [] 0]

/-- Although the first listing breaks off, the comment that has the header is edited and no second
one is created. -/
theorem review_writes_last_after_listing_interrupted :
    let events := (review (Repository.server ⟨"o", "r"⟩ "t") oneHunkGit false ⟨7, false, false⟩
      (.start ⟨interruptedScript, []⟩)).session.events
    events.map ApiEvent.call = [.pull 7, .comments 7 1, .comments 7 2, .comments 7 1,
      .comments 7 2, .edit 5 (oneHunkAnalysis.comment standardHeader)] ∧
    ∃ pull earlier listing comments e,
      events = ⟨.pull 7, .ok pull⟩ :: (earlier ++ listing) ++ [e] ∧ e.isWrite = true ∧
      Listed pull.number 1 listing comments := by
  intro events
  have hcalls : events.map ApiEvent.call = [.pull 7, .comments 7 1, .comments 7 2, .comments 7 1,
      .comments 7 2] ++ [.edit 5 (oneHunkAnalysis.comment standardHeader)] := by
    decide +kernel
  obtain ⟨before, last, hevents, -, hlast⟩ := List.map_eq_append_iff.mp hcalls
  obtain ⟨e, rfl, he⟩ := List.map_eq_singleton_iff.mp hlast
  have hwrite : e.isWrite = true := by rw [ApiEvent.isWrite, he]
  obtain ⟨-, hwritten, -⟩ := review_writes_last_after_listing ⟨"o", "r"⟩ "t" oneHunkGit false
    ⟨7, false, false⟩ interruptedScript
  obtain ⟨-, pull, settings, earlier, listing, comments, rfl, -, -, hlisted, -⟩ :=
    hwritten before e [] hevents hwrite
  exact ⟨hcalls, pull, earlier, listing, comments, e, hevents, hwrite, hlisted⟩

end Enclosure
