import Enclosure.Proofs.PullRequest.Board
import Enclosure.Review.Run

/-!
# The comment of a review stays up to date

A review looks for its very comment among all comments. If it is not there, it lists the comments
once more, and edits the first one that starts with the configured header or adds a new one. On a
server that keeps its comments this leaves exactly what it should: the comment is there, at most one
comment was written, there is no second comment with the header, and the next review of the same
commits finds its comment and writes nothing.

## Main definitions

* `Session.ReportsOnly`: two sessions that differ at most in what they have reported.
* `Analysed`: the settings and the analysis that a review of a pull request comes to.
* `Host.refresh`: the comments after a review has brought its comment up to date.

## Main results

* `exists_review_eq_conclude`: a review is the conclusion from its analysis, up to reports.
* `exists_review_eq`: what a review on a board asks for and leaves behind.
* `review_keeps_one_comment`: **one comment, kept up to date**.
-/

namespace Enclosure

variable {σ : Type}

/-! ### Reports -/

namespace Session

/-- Two sessions that differ at most in what they have reported. -/
def ReportsOnly (s s' : Session σ) : Prop :=
  ∃ info warnings, s' = { s with info := info, warnings := warnings }

namespace ReportsOnly

variable {s s' s'' : Session σ}

/-- A session differs from itself in nothing. -/
theorem refl (s : Session σ) : ReportsOnly s s :=
  ⟨s.info, s.warnings, rfl⟩

/-- Reports after reports. -/
theorem trans (h : ReportsOnly s s') (h' : ReportsOnly s' s'') : ReportsOnly s s'' := by
  obtain ⟨info, warnings, rfl⟩ := h
  obtain ⟨info', warnings', rfl⟩ := h'
  exact ⟨info', warnings', rfl⟩

/-- A warning is a report. -/
theorem warn (s : Session σ) (line : Text) : ReportsOnly s (s.warn line) :=
  ⟨s.info, s.warnings ++ [line], rfl⟩

/-- A step of a review that is reported, if all steps are, is a report. -/
theorem note (r : ReviewRequest) (line : Text) (s : Session σ) : ReportsOnly s (r.note line s) := by
  rw [ReviewRequest.note]
  split
  · exact ⟨s.info ++ [line], s.warnings, rfl⟩
  · exact refl s

/-- Line by line, reports are made of reports. -/
theorem foldl {α : Type} {f : Session σ → α → Session σ} (hf : ∀ s a, ReportsOnly s (f s a))
    (items : List α) (s : Session σ) : ReportsOnly s (items.foldl f s) := by
  induction items generalizing s with
  | nil => exact refl s
  | cons a items ih => exact (hf s a).trans (ih (f s a))

/-- Some steps of a review are reported. -/
theorem notes (r : ReviewRequest) (lines : List Text) (s : Session σ) :
    ReportsOnly s (r.notes lines s) :=
  foldl (fun s line => note r line s) lines s

end ReportsOnly

end Session

/-! ### From a review to its conclusion -/

/-- The settings and the analysis that a review of a pull request comes to: git has the settings at
the commit it starts from, and the analysis of what it changes. -/
structure Analysed (git : Git) (calledOff : Bool) (pull : PullRequest) (settings : Settings)
    (a : Analysis) : Prop where
  settings_eq : (Settings.read [] (git.reader pull.base)).settings = settings
  result_eq : ∃ files, git.changes pull.base pull.head settings.ignoredDirectories = .ok files ∧
    (analyse settings (git.reader pull.head) calledOff files).result = some a

variable {server : Server σ} {git : Git} {calledOff : Bool} {r : ReviewRequest}
  {pull : PullRequest} {settings : Settings} {a : Analysis}

/-- From the settings to the conclusion a review asks git and makes reports. -/
theorem exists_reviewChanges_eq_conclude {files : List ChangedFile}
    (hfiles : git.changes pull.base pull.head settings.ignoredDirectories = .ok files)
    (hresult : (analyse settings (git.reader pull.head) calledOff files).result = some a)
    (s : Session σ) :
    ∃ s', s.ReportsOnly s' ∧
      reviewChanges server git calledOff r settings pull s = conclude server r settings a s' := by
  refine ⟨?session, ?reports, ?conclusion⟩
  case conclusion =>
    simp only [reviewChanges, hfiles, hresult]
    rfl
  case reports =>
    exact (Session.ReportsOnly.note r _ s).trans ((Session.ReportsOnly.note r _ _).trans
      ((Session.ReportsOnly.notes r _ _).trans
        (Session.ReportsOnly.foldl Session.ReportsOnly.warn _ _)))

/-- **A review is the conclusion from its analysis**: everything between the reply with the pull
request and the comment on it is reports. -/
theorem exists_review_eq_conclude {s s' : Session σ} (ha : Analysed git calledOff pull settings a)
    (hload : s.loadPull server r.pull = (.ok (), s')) (hpull : s'.pull = some pull) :
    ∃ s'', s'.ReportsOnly s'' ∧
      review server git calledOff r s = conclude server r settings a s'' := by
  obtain ⟨rfl, files, hfiles, hresult⟩ := ha
  simp only [review, hload, hpull, Option.getD_some]
  obtain ⟨s'', hreports, hconclude⟩ := exists_reviewChanges_eq_conclude hfiles hresult _
  refine ⟨s'', ?_, hconclude⟩
  exact (Session.ReportsOnly.note r _ s').trans
    ((Session.ReportsOnly.foldl (fun s e => Session.ReportsOnly.warn s _) _ _).trans hreports)

/-! ### The comment on a board -/

/-- The comments after a review has brought its comment up to date: they stay as they are if the
very comment is among them, and otherwise the comment is put. -/
def Host.refresh (host : Host) (header body : Text) (comments : List Comment) : List Comment :=
  if comments.any (·.body == body) then comments else host.put header body comments

/-- Commenting on a board: all calls succeed, one of them writes if the very comment was not there,
and none does if it was. -/
theorem postComment_eq (host : Host) {s : Session Board} {comment : CommentSettings}
    (hpull : s.pull = some host.pull) (hcomments : s.comments = none) (hquiet : r.quiet = false)
    (henabled : comment.enabled = true) (hworth : a.isWorthComment = true) :
    ∃ calls s', postComment host.server r comment a s = (.ok (), s') ∧
      s'.events = s.events ++ calls ∧ (∀ e ∈ calls, e.succeeded = true) ∧
      calls.countP ApiEvent.isWrite =
        (if s.server.comments.any (·.body == a.comment comment.header) then 0 else 1) ∧
      s'.server.comments =
        host.refresh comment.header (a.comment comment.header) s.server.comments := by
  obtain ⟨reads, hreads, hhas⟩ :=
    Host.hasComment_eq host hpull hcomments (a.comment comment.header)
  have hsucceeded : ∀ e ∈ reads, e.succeeded = true := fun e he => (hreads e he).1
  simp only [postComment, hquiet, henabled, hworth, isUpToDate, hhas, Host.refresh, Bool.not_true,
    Bool.or_self, Bool.false_eq_true, if_false]
  cases s.server.comments.any (·.body == a.comment comment.header) with
  | true =>
      obtain ⟨info, warnings, hnote⟩ := Session.ReportsOnly.note r "Comment already up to date\n"
        (Host.afterListing s reads)
      refine ⟨reads, _, rfl, ?_, hsucceeded, hreads.countP_isWrite, ?_⟩
      · rw [hnote]
        rfl
      · rw [hnote]
        rfl
  | false =>
      obtain ⟨reads', e, s', hreads', he, hwrite, hput, hevents, hboard⟩ :=
        Host.putComment_eq host (s := Host.afterListing s reads) hpull comment.header
          (a.comment comment.header)
      refine ⟨reads ++ reads' ++ [e], s', hput, ?_, ?_, ?_, hboard⟩
      · rw [hevents]
        simp only [Host.afterListing, List.append_assoc]
      · intro e' he'
        obtain he' | he' := List.mem_append.mp he'
        · exact ((hreads.append hreads') e' he').1
        · rw [List.mem_singleton.mp he']
          exact he
      · rw [List.countP_append, (hreads.append hreads').countP_isWrite, List.countP_singleton,
          hwrite]
        rfl

/-- A review of the pull request that a host knows, from a fresh session to its end. -/
theorem exists_review_eq (host : Host) (b : Board)
    (ha : Analysed git calledOff host.pull settings a) (hnumber : r.pull = host.pull.number)
    (hquiet : r.quiet = false) (henabled : settings.comment.enabled = true)
    (hworth : a.isWorthComment = true) :
    ∃ s', review host.server git calledOff r (.start b) =
        ⟨⟨a, true, a.summary⟩, none, some settings, s'⟩ ∧
      (∀ e ∈ s'.events, e.succeeded = true) ∧
      s'.events.countP ApiEvent.isWrite =
        (if b.comments.any (·.body == a.comment settings.comment.header) then 0 else 1) ∧
      s'.server.comments =
        host.refresh settings.comment.header (a.comment settings.comment.header) b.comments := by
  obtain ⟨e, he, hload⟩ := Host.loadPull_eq host (s := Session.start b) hnumber
  obtain ⟨s, hreports, hreview⟩ := exists_review_eq_conclude ha hload rfl
  obtain ⟨info, warnings, hs⟩ := hreports.trans (Session.ReportsOnly.notes r a.notes s)
  obtain ⟨calls, s', hpost, hevents, hsucceeded, hwrites, hboard⟩ :=
    postComment_eq host (s := r.notes a.notes s) (by rw [hs]) (by rw [hs]; rfl) hquiet henabled
      hworth
  have hbefore : (r.notes a.notes s).events = [e] := by rw [hs]; rfl
  have hcomments : (r.notes a.notes s).server.comments = b.comments := by rw [hs]; rfl
  rw [hbefore] at hevents
  rw [hcomments] at hwrites hboard
  refine ⟨s', ?_, ?_, ?_, hboard⟩
  · rw [hreview, conclude, hpost]
  · rw [hevents]
    exact List.forall_mem_append.mpr ⟨fun e' he' => (he e' he').1, hsucceeded⟩
  · rw [hevents, List.countP_append, he.countP_isWrite, hwrites, Nat.zero_add]

/-- A review that is kept from commenting makes no call after the one for the pull request. -/
theorem countP_isWrite_of_quiet (host : Host) (b : Board)
    (ha : Analysed git calledOff host.pull settings a) (hnumber : r.pull = host.pull.number)
    (hquiet : r.quiet = true) :
    (review host.server git calledOff r (.start b)).session.events.countP ApiEvent.isWrite = 0 := by
  obtain ⟨e, he, hload⟩ := Host.loadPull_eq host (s := Session.start b) hnumber
  obtain ⟨s, hreports, hreview⟩ := exists_review_eq_conclude ha hload rfl
  obtain ⟨info, warnings, hs⟩ := (hreports.trans (Session.ReportsOnly.notes r a.notes s)).trans
    (Session.ReportsOnly.note r "Commenting disabled\n" _)
  rw [hreview, conclude]
  simp only [postComment, hquiet, Bool.true_or, if_true]
  rw [hs]
  exact he.countP_isWrite

/-! ### What a review leaves behind -/

/-- A text starts with each of its beginnings. -/
theorem Text.startsWith_append (start rest : Text) :
    Text.startsWith (start ++ rest) start = true := by
  rw [Text.startsWith, List.isPrefixOf_iff_prefix]
  exact List.prefix_append start rest

/-- The comment for an analysis starts with its header. -/
theorem Analysis.comment_startsWith (header : Text) (a : Analysis) :
    (a.comment header).startsWith header = true := by
  rw [Analysis.comment, List.append_assoc, List.append_assoc]
  exact Text.startsWith_append header _

namespace Host

variable (host : Host) (header : Text) {body : Text} {comments : List Comment}

/-- At most one comment is written. -/
theorem atMostOneWritten_refresh (hdistinct : (comments.map Comment.id).Nodup)
    (hbody : body.isUtf8) : AtMostOneWritten body comments (host.refresh header body comments) := by
  rw [refresh]
  split
  · exact .kept comments
  · exact host.atMostOneWritten_put header hdistinct hbody

/-- The comment is there afterwards. -/
theorem any_refresh (hdistinct : (comments.map Comment.id).Nodup) (hbody : body.isUtf8) :
    (host.refresh header body comments).any (·.body == body) = true := by
  rw [refresh]
  split
  · rename_i hany
    exact hany
  · obtain ⟨c, hc, rfl⟩ := host.exists_mem_put header hdistinct hbody
    exact List.any_eq_true.mpr ⟨c, hc, beq_self_eq_true c.body⟩

/-- There are as many comments with the header as before, but one at least. -/
theorem countP_refresh (hdistinct : (comments.map Comment.id).Nodup) (hbody : body.isUtf8)
    (hheader : body.startsWith header) :
    (host.refresh header body comments).countP (·.body.startsWith header) =
      max 1 (comments.countP (·.body.startsWith header)) := by
  rw [refresh]
  split
  · rename_i hany
    obtain ⟨c, hc, hcbody⟩ := List.any_eq_true.mp hany
    have hpos : 0 < comments.countP (·.body.startsWith header) := by
      refine List.countP_pos_iff.mpr ⟨c, hc, ?_⟩
      rw [eq_of_beq hcbody]
      exact hheader
    omega
  · exact host.countP_put header hdistinct hbody hheader

end Host

/-- **One comment, kept up to date.** A review whose analysis is worth a comment, on a server that
keeps its comments, makes no call that fails. Afterwards the comment is there; at most one comment
was written, and all others are as they were; and there are as many comments with the header as
before, but one at least. A further review of the same commits writes nothing. -/
theorem review_keeps_one_comment (host : Host) (before : Board)
    (ha : Analysed git calledOff host.pull settings a) (hnumber : r.pull = host.pull.number)
    (hquiet : r.quiet = false) (henabled : settings.comment.enabled = true)
    (hworth : a.contextCount ≠ 0 ∨ a.skipped.items ≠ [])
    (hutf8 : (a.comment settings.comment.header).isUtf8) :
    ∃ s, review host.server git calledOff r (.start before) =
        ⟨⟨a, true, a.summary⟩, none, some settings, s⟩ ∧
      (∀ e ∈ s.events, e.succeeded = true) ∧
      (∃ c ∈ s.server.comments, c.body = a.comment settings.comment.header) ∧
      AtMostOneWritten (a.comment settings.comment.header) before.comments s.server.comments ∧
      s.events.countP ApiEvent.isWrite ≤ 1 ∧
      s.server.comments.countP (·.body.startsWith settings.comment.header) =
        max 1 (before.comments.countP (·.body.startsWith settings.comment.header)) ∧
      ∀ r' : ReviewRequest, r'.pull = r.pull →
        (review host.server git calledOff r' (.start s.server)).session.events.countP
          ApiEvent.isWrite = 0 := by
  have hcomment : a.isWorthComment = true := by
    simpa [Analysis.isWorthComment] using hworth
  obtain ⟨s, hreview, hsucceeded, hwrites, hboard⟩ :=
    exists_review_eq host before ha hnumber hquiet henabled hcomment
  have hpresent := host.any_refresh settings.comment.header before.distinct hutf8
  refine ⟨s, hreview, hsucceeded, ?_, ?_, ?_, ?_, ?_⟩
  · rw [hboard]
    obtain ⟨c, hc, hbody⟩ := List.any_eq_true.mp hpresent
    exact ⟨c, hc, eq_of_beq hbody⟩
  · rw [hboard]
    exact host.atMostOneWritten_refresh settings.comment.header before.distinct hutf8
  · rw [hwrites]
    split <;> omega
  · rw [hboard]
    exact host.countP_refresh settings.comment.header before.distinct hutf8
      (a.comment_startsWith settings.comment.header)
  · intro r' hr'
    cases hquiet' : r'.quiet with
    | true => exact countP_isWrite_of_quiet host s.server ha (hr'.trans hnumber) hquiet'
    | false =>
        obtain ⟨s', hreview', -, hwrites', -⟩ :=
          exists_review_eq host s.server ha (hr'.trans hnumber) hquiet' henabled hcomment
        rw [hboard, if_pos hpresent] at hwrites'
        rw [hreview']
        exact hwrites'

/-- The sum of all numbers, taken as positive, and one is greater than each of them. -/
theorem natAbs_lt_foldr {c : Comment} {comments : List Comment} (hc : c ∈ comments) :
    c.id.natAbs < comments.foldr (fun c n => c.id.natAbs + n) 1 := by
  have hpos : ∀ comments : List Comment, 0 < comments.foldr (fun c n => c.id.natAbs + n) 1 := by
    intro comments
    induction comments with
    | nil => simp
    | cons d comments ih => rw [List.foldr_cons]; omega
  induction comments with
  | nil => simp at hc
  | cons d comments ih =>
      rw [List.foldr_cons]
      rcases List.mem_cons.mp hc with rfl | hc
      · have := hpos comments
        omega
      · have := ih hc
        omega

/-- A host that sends the comments of its first listing on one page, and later on one page for
each. -/
def pagingHost : Host where
  pull := ⟨7, "base", "head"⟩
  pages n comments := if n = 0 then [comments] else comments.map ([·])
  pages_flatten := by
    intro n comments
    split
    · exact List.flatten_singleton
    · rw [← List.flatMap_def, List.flatMap_singleton']
  freshId comments := (comments.foldr (fun c n => c.id.natAbs + n) 1 : Nat)
  freshId_not_mem := by
    intro comments hmem
    obtain ⟨c, hc, hid⟩ := List.mem_map.mp hmem
    have hlt := natAbs_lt_foldr hc
    omega
  clock _ := .zero
  stored body := body
  stored_of_isUtf8 _ _ := rfl

/-- A commit that changes the second line of a function, in a repository without settings. -/
def oneHunkGit : Git
  | .diff _ _ => .ok
    "diff --git a/m.py b/m.py\n--- a/m.py\n+++ b/m.py\n@@ -2 +2 @@\n-  x\n+  y\n"
  | .content _ _ => .ok "def f():\n  y\n"
  | .presence _ _ => .error ⟨"exit status 128", []⟩

/-- The analysis of that commit. -/
def oneHunkAnalysis : Analysis :=
  ⟨some [⟨"m.py", some [⟨⟨2, 2⟩, some ⟨.function, "f", 1, 2⟩⟩]⟩], some []⟩

/-- The board has a comment with the header, which says something else, behind another comment. -/
def staleBoard : Board where
  comments := [⟨3, "hello", .zero⟩, ⟨5, standardHeader ++ "\nold", .zero⟩]
  distinct := by decide
  listings := 0

/-- The comment that says something else is edited, and the second review writes nothing. -/
theorem review_keeps_one_comment_staleBoard :
    ∃ s, review pagingHost.server oneHunkGit false ⟨7, false, false⟩ (.start staleBoard) =
        ⟨⟨oneHunkAnalysis, true, oneHunkAnalysis.summary⟩, none, some .standard, s⟩ ∧
      (∃ c ∈ s.server.comments, c.body = oneHunkAnalysis.comment standardHeader) ∧
      s.server.comments.countP (·.body.startsWith standardHeader) = 1 ∧
      (review pagingHost.server oneHunkGit false ⟨7, true, false⟩
        (.start s.server)).session.events.countP ApiEvent.isWrite = 0 := by
  have hanalysed : Analysed oneHunkGit false pagingHost.pull .standard oneHunkAnalysis :=
    ⟨rfl, [⟨"m.py", [⟨2, 2⟩]⟩], rfl, by decide⟩
  obtain ⟨s, hreview, -, hthere, -, -, hcount, hagain⟩ := review_keeps_one_comment
    (r := ⟨7, false, false⟩) pagingHost staleBoard hanalysed rfl rfl rfl (by decide)
    (by decide +kernel)
  refine ⟨s, hreview, hthere, hcount.trans (by decide), hagain ⟨7, true, false⟩ rfl⟩

end Enclosure
