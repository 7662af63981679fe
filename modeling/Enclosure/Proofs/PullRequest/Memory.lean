import Enclosure.Proofs.PullRequest.Answers
import Enclosure.Proofs.PullRequest.Listing
import Enclosure.PullRequest.Web
import Mathlib.Data.List.Induction

/-!
# What a session remembers

A session performs one operation after the other, and each of them is a *turn*: the operation, what
it came to, and the calls it made. What a session remembers is a matter of its turns alone. The pull
request is that of the last turn that asked for one and got it, and the comments are those of the
last listing that came to its end, whichever operation made the listing and whatever became of the
operation afterwards. A listing that breaks off leaves no trace.

The responses come from a script. A listing takes a response for each page, so that it either comes
to its end or breaks off at a call that fails; it is never given up for its length.

## Main definitions

* `listed?`: the comments of a listing that came to its end.
* `BrokenOff`: the calls of a listing that breaks off at a call that fails.
* `Turn`, `Session.turn`, `Session.history`: the operations of a session and what they came to.
* `lastPull?`, `lastListing?`: what the turns say about the pull request and the comments.
* `Turn.Keeps`: what a turn does to the memory of a session.
* `Turn.Obeys`: the rules that every turn obeys.

## Main results

* `Session.loadComments_script_cases`: what a listing by a script can come to.
* `Session.perform_of_pull_eq_none`: without a pull request all that can be done is to ask for one.
* `Session.turn_keeps`: what one turn does to the memory of a session.
* `Session.history_keeps`: what all the turns do to it.
* `session_remembers_last_success`: **a session remembers the last that succeeded**.
-/

namespace Enclosure

/-! ### Listings -/

/-- Whether a call is for a page of comments. -/
def ApiEvent.isPage (e : ApiEvent) : Bool :=
  match e.call with
  | .comments _ _ => true
  | _ => false

/-- Whether a call for a page of comments failed. -/
def ApiEvent.isFailedPage : ApiEvent → Bool
  | ⟨.comments _ _, .error _⟩ => true
  | _ => false

/-- The comments of the listing that some calls begin with, if it came to its end: those of all
pages, in order, up to a page that names no other. -/
def listed? : List ApiEvent → Option (List Comment)
  | ⟨.comments _ _, .ok reply⟩ :: calls =>
    if reply.next = 0 then some reply.comments else (listed? calls).map (reply.comments ++ ·)
  | _ => none

/-- The calls of a **listing that breaks off**, from the given page on: each of them is for the page
that the reply before it named, and the last one failed. -/
inductive BrokenOff (pull : Int) : Int → List ApiEvent → Prop
  | failed (page : Int) (error : ApiError) :
      BrokenOff pull page [⟨.comments pull page, .error error⟩]
  | more (page : Int) (reply : CommentPage) (calls : List ApiEvent) :
      reply.next ≠ 0 → BrokenOff pull reply.next calls →
      BrokenOff pull page (⟨.comments pull page, .ok reply⟩ :: calls)

section Listings

variable {pull page : Int} {calls rest : List ApiEvent} {comments : List Comment}

/-- The comments of a listing that came to its end, whatever was called afterwards. -/
theorem Listed.listed?_append (h : Listed pull page calls comments) (rest : List ApiEvent) :
    listed? (calls ++ rest) = some comments := by
  induction h with
  | last page reply hnext => simp [listed?, hnext]
  | more page reply calls comments hnext _ ih => simp [listed?, hnext, ih]

/-- No call of a listing that came to its end failed. -/
theorem Listed.isFailedPage_eq_false (h : Listed pull page calls comments) :
    ∀ e ∈ calls, e.isFailedPage = false := by
  induction h with
  | last page reply hnext => simp [ApiEvent.isFailedPage]
  | more page reply calls comments hnext _ ih =>
      exact List.forall_mem_cons.mpr ⟨rfl, ih⟩

/-- A listing that breaks off does not come to its end. -/
theorem BrokenOff.listed?_eq_none (h : BrokenOff pull page calls) : listed? calls = none := by
  induction h with
  | failed page error => rfl
  | more page reply calls hnext _ ih => simp [listed?, hnext, ih]

/-- Calls that are not for pages do not begin with a listing. -/
theorem listed?_eq_none_of_isPage (h : ∀ e ∈ calls, e.isPage = false) : listed? calls = none := by
  cases calls with
  | nil => rfl
  | cons e calls =>
      obtain ⟨hpage, -⟩ := List.forall_mem_cons.mp h
      obtain ⟨call, reply⟩ := e
      cases call with
      | comments pull page => cases hpage
      | pull number => rfl
      | create pull body => rfl
      | edit id body => rfl

/-- A call that writes a comment is not for a page. -/
theorem ApiEvent.isPage_eq_false_of_isWrite {e : ApiEvent} (he : e.isWrite = true) :
    e.isPage = false := by
  obtain ⟨call, reply⟩ := e
  cases call with
  | comments pull page => cases he
  | pull number => rfl
  | create pull body => rfl
  | edit id body => rfl

/-- A call that is not for a page is no call for a page that failed. -/
theorem ApiEvent.isFailedPage_eq_false {e : ApiEvent} (he : e.isPage = false) :
    e.isFailedPage = false := by
  obtain ⟨call, reply⟩ := e
  cases call with
  | comments pull page => cases he
  | pull number => rfl
  | create pull body => rfl
  | edit id body => rfl

end Listings

/-- A call that is answered takes a response of the script. -/
theorem Repository.length_of_answer_eq_ok {repository : Repository} {token : Text} {c : ApiCall}
    {script : Script} {reply : c.Reply}
    (h : ((repository.server token).answer c script).1 = .ok reply) :
    ((repository.server token).answer c script).2.responses.length + 1 =
      script.responses.length := by
  simp only [Repository.server] at h ⊢
  cases hrequest : c.request repository token with
  | error fault =>
      rw [hrequest] at h
      cases h
  | ok request =>
      rw [hrequest] at h
      cases hresponses : script.responses with
      | nil =>
          simp only [Script.send, hresponses] at h
          cases h
      | cons response rest => simp [Script.send, hresponses]

namespace Session

section Script

variable (repository : Repository) (token : Text)

/-- A call is written down with its reply, and takes a response of the script if it is answered. -/
theorem exists_call_script_eq (c : ApiCall) (s : Session Script) :
    ∃ reply script, s.call (repository.server token) c =
        (reply, s.afterCalls script [⟨c, reply⟩]) ∧
      ∀ r, reply = .ok r → script.responses.length + 1 = s.server.responses.length :=
  ⟨_, _, rfl, fun _ hreply => Repository.length_of_answer_eq_ok hreply⟩

/-- **What following the pages of a script can come to**: the listing comes to its end, or it breaks
off. -/
theorem listFrom_script_cases (pull : Int) {limit : Nat} (page : Int) {s : Session Script}
    (hlimit : s.server.responses.length < limit) :
    ∃ script calls,
      (∃ comments, Listed pull page calls comments ∧
        s.listFrom (repository.server token) pull limit page =
          (.ok comments, s.afterCalls script calls)) ∨
      ∃ error, BrokenOff pull page calls ∧
        s.listFrom (repository.server token) pull limit page =
          (.error error, s.afterCalls script calls) := by
  -- Each page that is answered takes a response, so the limit outlives the responses, and the call
  -- after the last of them fails.
  induction limit generalizing page s with
  | zero => omega
  | succ limit ih =>
      obtain ⟨reply, script, hcall, hlength⟩ :=
        exists_call_script_eq repository token (.comments pull page) s
      rw [listFrom, hcall]
      cases reply with
      | error e => exact ⟨script, _, .inr ⟨e, .failed page e, rfl⟩⟩
      | ok reply =>
          by_cases hnext : reply.next = 0
          · simp only [if_pos hnext]
            exact ⟨script, _, .inl ⟨reply.comments, .last page reply hnext, rfl⟩⟩
          · have hlimit' : script.responses.length < limit := by
              have := hlength reply rfl
              omega
            obtain ⟨script', calls, hcases⟩ := ih reply.next
              (s := s.afterCalls script [⟨.comments pull page, .ok reply⟩]) hlimit'
            refine ⟨script', ⟨.comments pull page, .ok reply⟩ :: calls, ?_⟩
            simp only [if_neg hnext]
            obtain ⟨more, hlisted, hlist⟩ | ⟨e, hbroken, hlist⟩ := hcases
            · refine .inl ⟨reply.comments ++ more, .more page reply calls more hnext hlisted, ?_⟩
              simp only [hlist, afterCalls_afterCalls, List.singleton_append]
            · refine .inr ⟨e, .more page reply calls hnext hbroken, ?_⟩
              simp only [hlist, afterCalls_afterCalls, List.singleton_append]

/-- **What a listing by a script can come to.** It comes to its end, and its comments are
remembered, or it breaks off, and nothing is remembered of it. -/
theorem loadComments_script_cases {s : Session Script} {pull : PullRequest}
    (hpull : s.pull = some pull) :
    ∃ script calls,
      (∃ comments, Listed pull.number 1 calls comments ∧
        s.loadComments (repository.server token) =
          (.ok (), (s.afterCalls script calls).remember comments)) ∨
      ∃ error, BrokenOff pull.number 1 calls ∧
        s.loadComments (repository.server token) =
          (.error error, s.afterCalls script calls) := by
  have hlimit : s.server.responses.length < (repository.server token).pageLimit s.server :=
    Nat.lt_succ_self _
  obtain ⟨script, calls, hcases⟩ := listFrom_script_cases repository token pull.number 1 hlimit
  refine ⟨script, calls, ?_⟩
  simp only [loadComments, hpull]
  obtain ⟨comments, hlisted, hlist⟩ | ⟨e, hbroken, hlist⟩ := hcases
  · refine .inl ⟨comments, hlisted, ?_⟩
    simp only [hlist]
    rfl
  · refine .inr ⟨.call e, hbroken, ?_⟩
    simp only [hlist]

end Script

end Session

/-! ### Turns -/

/-- An operation of a session, what it came to, and the calls it made. -/
structure Turn where
  step : SessionStep
  result : Except SessionError Finding
  calls : List ApiEvent

/-- The pull request that a turn asked for and got. -/
def Turn.pull? (t : Turn) : Option PullRequest :=
  match t.step, t.result, t.calls with
  | .loadPull _, .ok _, [⟨.pull _, .ok pull⟩] => some pull
  | _, _, _ => none

/-- The pull request of the last turn that asked for one and got it. -/
def lastPull? (turns : List Turn) : Option PullRequest :=
  turns.reverse.findSome? Turn.pull?

/-- The comments of the last listing that came to its end. -/
def lastListing? (turns : List Turn) : Option (List Comment) :=
  turns.reverse.findSome? fun t => listed? t.calls

/-- One more turn. -/
theorem lastPull?_append_singleton (turns : List Turn) (t : Turn) :
    lastPull? (turns ++ [t]) = t.pull?.or (lastPull? turns) := by
  rw [lastPull?, List.reverse_append, List.reverse_singleton, List.singleton_append,
    List.findSome?_cons]
  cases t.pull? <;> rfl

/-- One more turn. -/
theorem lastListing?_append_singleton (turns : List Turn) (t : Turn) :
    lastListing? (turns ++ [t]) = (listed? t.calls).or (lastListing? turns) := by
  rw [lastListing?, List.reverse_append, List.reverse_singleton, List.singleton_append,
    List.findSome?_cons]
  cases listed? t.calls <;> rfl

/-- What an operation comes to as long as there is no pull request. -/
def SessionStep.withoutPull : SessionStep → Except SessionError Finding
  | .putComment _ _ => .error (.finding .noPull)
  | _ => .error .noPull

namespace Session

variable {σ : Type}

/-- Performs an operation and keeps what it came to. -/
def turn (server : Server σ) (s : Session σ) (step : SessionStep) : Turn × Session σ :=
  let (result, s') := s.perform server step
  (⟨step, result, s'.events.drop s.events.length⟩, s')

/-- Performs operations one after the other. -/
def history (server : Server σ) (s : Session σ) (steps : List SessionStep) :
    List Turn × Session σ :=
  steps.foldl (fun (turns, s) step => ((turns ++ [(s.turn server step).1]), (s.turn server step).2))
    ([], s)

/-- One more operation. -/
theorem history_append_singleton (server : Server σ) (s : Session σ) (steps : List SessionStep)
    (step : SessionStep) :
    s.history server (steps ++ [step]) =
      ((s.history server steps).1 ++ [((s.history server steps).2.turn server step).1],
        ((s.history server steps).2.turn server step).2) := by
  simp only [history, List.foldl_append, List.foldl_cons, List.foldl_nil]

/-- There is a turn for each operation. -/
theorem map_step_history (server : Server σ) (s : Session σ) (steps : List SessionStep) :
    (s.history server steps).1.map Turn.step = steps := by
  induction steps using List.reverseRecOn with
  | nil => rfl
  | append_singleton steps step ih =>
      rw [history_append_singleton, List.map_append, ih]
      rfl

/-- The turn with given calls. -/
theorem turn_eq {server : Server σ} {s s' : Session σ} {step : SessionStep}
    {result : Except SessionError Finding} {calls : List ApiEvent}
    (hperform : s.perform server step = (result, s')) (hevents : s'.events = s.events ++ calls) :
    s.turn server step = (⟨step, result, calls⟩, s') := by
  simp only [turn, hperform, hevents, List.drop_left]

/-- The calls of a turn are all that happens to the server. -/
theorem answers_turn (server : Server σ) (s : Session σ) (step : SessionStep) :
    server.Answers (s.turn server step).1.calls s.server (s.turn server step).2.server := by
  obtain ⟨calls, hevents, hanswers⟩ := reaches_perform server step s
  rw [turn_eq rfl hevents]
  exact hanswers

end Session

/-! ### What a turn does -/

/-- The calls of an operation as far as they are for pages: there are none, or they begin with a
listing of the comments on the pull request from the first page on, which comes to its end before
any other call, or breaks off and is all there is. -/
def Paged (pull : Option PullRequest) (calls : List ApiEvent) : Prop :=
  (∀ e ∈ calls, e.isPage = false) ∨
    ∃ p pages rest, pull = some p ∧ calls = pages ++ rest ∧
      ((∃ comments, Listed p.number 1 pages comments) ∧ (∀ e ∈ rest, e.isPage = false) ∨
        BrokenOff p.number 1 pages ∧ rest = [])

/-- What a turn does to the **memory** of a session. -/
structure Turn.Keeps (s : Session Script) (t : Turn) (s' : Session Script) : Prop where
  pull_eq : s'.pull = t.pull?.or s.pull
  comments_eq : s'.comments = (listed? t.calls).or s.comments
  paged : Paged s.pull t.calls

namespace Turn.Keeps

variable {s s' : Session Script} {t : Turn} {p : PullRequest} {pages rest : List ApiEvent}
  {comments : List Comment}

/-- A turn without calls for pages. -/
theorem of_isPage (hcalls : ∀ e ∈ t.calls, e.isPage = false) (hpull : s'.pull = t.pull?.or s.pull)
    (hcomments : s'.comments = s.comments) : Keeps s t s' where
  pull_eq := hpull
  comments_eq := by rw [listed?_eq_none_of_isPage hcalls, Option.none_or, hcomments]
  paged := .inl hcalls

/-- A turn with a listing that came to its end. -/
theorem of_listed (hsome : s.pull = some p) (hlisted : Listed p.number 1 pages comments)
    (hrest : ∀ e ∈ rest, e.isPage = false) (hcalls : t.calls = pages ++ rest)
    (hpull : s'.pull = t.pull?.or s.pull) (hcomments : s'.comments = some comments) :
    Keeps s t s' where
  pull_eq := hpull
  comments_eq := by rw [hcalls, hlisted.listed?_append rest, Option.some_or, hcomments]
  paged := .inr ⟨p, pages, rest, hsome, hcalls, .inl ⟨⟨comments, hlisted⟩, hrest⟩⟩

/-- A turn with a listing that broke off. -/
theorem of_brokenOff (hsome : s.pull = some p) (hbroken : BrokenOff p.number 1 t.calls)
    (hpull : s'.pull = t.pull?.or s.pull) (hcomments : s'.comments = s.comments) :
    Keeps s t s' where
  pull_eq := hpull
  comments_eq := by rw [hbroken.listed?_eq_none, Option.none_or, hcomments]
  paged := .inr ⟨p, t.calls, [], hsome, (List.append_nil _).symm, .inr ⟨hbroken, rfl⟩⟩

end Turn.Keeps

namespace Session

/-- **Without a pull request all that can be done is to ask for one.** -/
theorem perform_of_pull_eq_none (server : Server Script) {s : Session Script} (hpull : s.pull = none)
    {step : SessionStep} (hstep : ∀ number, step ≠ .loadPull number) :
    s.perform server step = (step.withoutPull, s) := by
  have hload : s.loadComments server = (.error .noPull, s) := by
    simp only [loadComments, hpull]
  cases step with
  | loadPull number => exact absurd rfl (hstep number)
  | loadComments =>
      rw [perform, hload]
      rfl
  | addComment body =>
      simp only [perform, addComment, hpull]
      rfl
  | editComment id body =>
      simp only [perform, editComment, hpull]
      rfl
  | putComment start body =>
      simp only [perform, putComment, findComment, hload]
      rfl
  | findComment start since =>
      simp only [perform, findComment, hload]
      rfl
  | hasComment body since =>
      simp only [perform, hasComment, hpull]
      rfl

/-- **The very comment is looked for in the comments that are remembered**, if there are any. -/
theorem exists_perform_hasComment_eq (server : Server Script) {s : Session Script}
    {known : List Comment} (hcomments : s.comments = some known) (body : Text)
    (since : Option Instant) :
    ∃ result, s.perform server (.hasComment body since) = (result, s) := by
  cases hpull : s.pull with
  | none => exact ⟨_, perform_of_pull_eq_none server hpull (by simp)⟩
  | some p =>
      simp only [perform, hasComment, hpull, ensureComments, hcomments, Option.isSome_some, if_true]
      exact ⟨_, rfl⟩

/-- The turn of an operation that does nothing. -/
theorem turn_eq_of_perform_eq_self {server : Server Script} {s : Session Script}
    {step : SessionStep} {result : Except SessionError Finding}
    (hperform : s.perform server step = (result, s)) :
    s.turn server step = (⟨step, result, []⟩, s) :=
  turn_eq hperform (List.append_nil _).symm

variable (repository : Repository) (token : Text) {s : Session Script} {p : PullRequest}

/-- An operation that does nothing keeps the memory. -/
theorem turn_keeps_of_perform_eq_self {step : SessionStep} {result : Except SessionError Finding}
    (hperform : s.perform (repository.server token) step = (result, s)) :
    (s.turn (repository.server token) step).1.Keeps s
      (s.turn (repository.server token) step).2 := by
  have hpull : Turn.pull? ⟨step, result, []⟩ = none := by
    cases step <;> cases result <;> rfl
  rw [turn_eq_of_perform_eq_self hperform]
  exact .of_isPage (by simp) (by rw [hpull, Option.none_or]) rfl

/-- Asking for a pull request keeps the memory. -/
theorem turn_loadPull_keeps (number : Int) (s : Session Script) :
    (s.turn (repository.server token) (.loadPull number)).1.Keeps s
      (s.turn (repository.server token) (.loadPull number)).2 := by
  obtain ⟨state, ⟨e, hload⟩ | ⟨pull, hload⟩⟩ := loadPull_cases (repository.server token) number s
  · rw [turn_eq (by rw [perform, hload, deliver]) rfl]
    exact .of_isPage (by simp [ApiEvent.isPage]) rfl rfl
  · rw [turn_eq (by rw [perform, hload, deliver]) rfl]
    exact .of_isPage (by simp [ApiEvent.isPage]) rfl rfl

/-- **An operation that makes a listing keeps the memory**, provided that it changes nothing more
than the listing does. -/
theorem turn_keeps_of_loadComments {step : SessionStep} (hpull : s.pull = some p)
    (hstep : ∀ result calls, Turn.pull? ⟨step, result, calls⟩ = none)
    (hs' : ∀ result s', s.loadComments (repository.server token) = (result, s') →
      (s.perform (repository.server token) step).2.events = s'.events ∧
      (s.perform (repository.server token) step).2.pull = s'.pull ∧
      (s.perform (repository.server token) step).2.comments = s'.comments) :
    (s.turn (repository.server token) step).1.Keeps s
      (s.turn (repository.server token) step).2 := by
  obtain ⟨script, calls, ⟨comments, hlisted, hload⟩ | ⟨e, hbroken, hload⟩⟩ :=
    loadComments_script_cases repository token hpull
  · obtain ⟨hevents, hpull', hcomments⟩ := hs' _ _ hload
    rw [turn_eq rfl hevents]
    exact .of_listed hpull hlisted (by simp) (List.append_nil _).symm
      (by rw [hstep, Option.none_or]; exact hpull') hcomments
  · obtain ⟨hevents, hpull', hcomments⟩ := hs' _ _ hload
    rw [turn_eq rfl hevents]
    exact .of_brokenOff hpull hbroken (by rw [hstep, Option.none_or]; exact hpull') hcomments

/-- Asking for all comments keeps the memory. -/
theorem turn_loadComments_keeps (hpull : s.pull = some p) :
    (s.turn (repository.server token) .loadComments).1.Keeps s
      (s.turn (repository.server token) .loadComments).2 := by
  refine turn_keeps_of_loadComments repository token hpull (fun _ _ => rfl) ?_
  intro result s' hload
  simp only [perform, hload, deliver, and_self]

/-- Looking for a comment with a given beginning keeps the memory. -/
theorem turn_findComment_keeps (hpull : s.pull = some p) (start : Text) (since : Option Instant) :
    (s.turn (repository.server token) (.findComment start since)).1.Keeps s
      (s.turn (repository.server token) (.findComment start since)).2 := by
  refine turn_keeps_of_loadComments repository token hpull (fun _ _ => rfl) ?_
  rintro (e | _) s' hload
  · simp only [perform, findComment, hload, deliver, and_self]
  · simp only [perform, findComment, hload, deliver, and_self]

/-- Looking for the very comment keeps the memory. -/
theorem turn_hasComment_keeps (hpull : s.pull = some p) (body : Text) (since : Option Instant) :
    (s.turn (repository.server token) (.hasComment body since)).1.Keeps s
      (s.turn (repository.server token) (.hasComment body since)).2 := by
  cases hcomments : s.comments with
  | some known =>
      obtain ⟨result, hperform⟩ :=
        exists_perform_hasComment_eq (repository.server token) hcomments body since
      exact turn_keeps_of_perform_eq_self repository token hperform
  | none =>
      refine turn_keeps_of_loadComments repository token hpull (fun _ _ => rfl) ?_
      rintro (e | _) s' hload
      · simp [perform, hasComment, hpull, ensureComments, hcomments, hload, deliver, warn]
      · simp [perform, hasComment, hpull, ensureComments, hcomments, hload, deliver]

/-- Adding a comment keeps the memory. -/
theorem turn_addComment_keeps (hpull : s.pull = some p) (body : Text) :
    (s.turn (repository.server token) (.addComment body)).1.Keeps s
      (s.turn (repository.server token) (.addComment body)).2 := by
  obtain ⟨reply, result, script, hadd⟩ := exists_addComment_eq (repository.server token) hpull body
  rw [turn_eq (by rw [perform, hadd, deliver]) rfl]
  exact .of_isPage (by simp [ApiEvent.isPage]) rfl rfl

/-- Editing a comment keeps the memory. -/
theorem turn_editComment_keeps (hpull : s.pull = some p) (id : Int) (body : Text) :
    (s.turn (repository.server token) (.editComment id body)).1.Keeps s
      (s.turn (repository.server token) (.editComment id body)).2 := by
  obtain ⟨reply, result, script, hedit⟩ :=
    exists_editComment_eq (repository.server token) hpull id body
  rw [turn_eq (by rw [perform, hedit, deliver]) rfl]
  exact .of_isPage (by simp [ApiEvent.isPage]) rfl rfl

/-- Once the comments are listed a comment is put by one call that is not for a page, and nothing
else changes but what is reported. -/
theorem exists_putComment_eq {server : Server Script} {listed : Session Script}
    (hload : s.loadComments server = (.ok (), listed)) (hpull : listed.pull = some p)
    (start body : Text) :
    ∃ line script e result, e.isPage = false ∧ s.putComment server start body =
      (result, (listed.inform line).afterCalls script [e]) := by
  obtain ⟨line, hput⟩ := exists_putComment_eq_write server hload hpull start body
  obtain ⟨reply, result, script, hwrite, -⟩ := exists_write_eq server
    (writeCall p.number start body (listed.comments.getD [])) (listed.inform line)
  exact ⟨line, script, ⟨_, reply⟩, result,
    ApiEvent.isPage_eq_false_of_isWrite (isWrite_writeCall p.number start body _ reply),
    hput.trans hwrite⟩

/-- Putting a comment keeps the memory, also if the comment is not written in the end. -/
theorem turn_putComment_keeps (hpull : s.pull = some p) (start body : Text) :
    (s.turn (repository.server token) (.putComment start body)).1.Keeps s
      (s.turn (repository.server token) (.putComment start body)).2 := by
  obtain ⟨script, calls, ⟨comments, hlisted, hload⟩ | ⟨e, hbroken, hload⟩⟩ :=
    loadComments_script_cases repository token hpull
  · obtain ⟨line, script', e, result, he, hput⟩ := exists_putComment_eq hload hpull start body
    have hevents : (s.events ++ calls) ++ [e] = s.events ++ (calls ++ [e]) := List.append_assoc ..
    rw [turn_eq (by rw [perform, hput, deliver]) hevents]
    exact .of_listed hpull hlisted (by simpa using he) rfl rfl rfl
  · have hput : s.putComment (repository.server token) start body =
        (.error (.finding e), s.afterCalls script calls) := by
      simp only [putComment, findComment, hload]
    rw [turn_eq (by rw [perform, hput, deliver]) rfl]
    exact .of_brokenOff hpull hbroken rfl rfl

/-- **What one turn does to the memory of a session.** -/
theorem turn_keeps (s : Session Script) (step : SessionStep) :
    (s.turn (repository.server token) step).1.Keeps s
      (s.turn (repository.server token) step).2 := by
  by_cases hstep : ∃ number, step = .loadPull number
  · obtain ⟨number, rfl⟩ := hstep
    exact turn_loadPull_keeps repository token number s
  · cases hpull : s.pull with
    | none =>
        exact turn_keeps_of_perform_eq_self repository token
          (perform_of_pull_eq_none _ hpull (not_exists.mp hstep))
    | some p =>
        cases step with
        | loadPull number => exact absurd ⟨number, rfl⟩ hstep
        | loadComments => exact turn_loadComments_keeps repository token hpull
        | addComment body => exact turn_addComment_keeps repository token hpull body
        | editComment id body => exact turn_editComment_keeps repository token hpull id body
        | putComment start body => exact turn_putComment_keeps repository token hpull start body
        | findComment start since =>
            exact turn_findComment_keeps repository token hpull start since
        | hasComment body since => exact turn_hasComment_keeps repository token hpull body since

/-- **What all the turns do to the memory of a session.** -/
theorem history_keeps (script : Script) (steps : List SessionStep) :
    ((Session.start script).history (repository.server token) steps).2.pull =
        lastPull? ((Session.start script).history (repository.server token) steps).1 ∧
      ((Session.start script).history (repository.server token) steps).2.comments =
        lastListing? ((Session.start script).history (repository.server token) steps).1 := by
  induction steps using List.reverseRecOn with
  | nil => exact ⟨rfl, rfl⟩
  | append_singleton steps step ih =>
      have hkeeps := turn_keeps repository token
        ((Session.start script).history (repository.server token) steps).2 step
      rw [history_append_singleton, lastPull?_append_singleton, lastListing?_append_singleton,
        ← ih.1, ← ih.2]
      exact ⟨hkeeps.pull_eq, hkeeps.comments_eq⟩

end Session

/-! ### The rules of a session -/

/-- The rules that every turn of a session **obeys**, where `earlier` are the turns before it. -/
structure Turn.Obeys (server : Server Script) (earlier : List Turn) (s : Session Script) (t : Turn)
    (s' : Session Script) : Prop where
  /-- The calls of the turn are all that happens to the server. -/
  answers : server.Answers t.calls s.server s'.server
  /-- A listing goes from the first page on, to its end or to a call that fails. -/
  paged : Paged s.pull t.calls
  /-- A listing that came to its end is remembered, and nothing else is. -/
  comments_eq : s'.comments = (listed? t.calls).or s.comments
  /-- A listing that fails at some page leaves the comments as they were. -/
  comments_of_failure : (∃ e ∈ t.calls, e.isFailedPage) → s'.comments = s.comments
  /-- To ask for a pull request takes one call, and succeeds exactly if the call does. -/
  loadPull : ∀ number, t.step = .loadPull number →
    (∃ pull, t.calls = [⟨.pull number, .ok pull⟩] ∧ t.result = .ok .done ∧ s'.pull = some pull) ∨
      ∃ e, t.calls = [⟨.pull number, .error e⟩] ∧ t.result = .error (.call e) ∧ s'.pull = s.pull
  /-- Without a pull request all that can be done is to ask for one. -/
  withoutPull : s.pull = none → (∀ number, t.step ≠ .loadPull number) →
    t.result = t.step.withoutPull ∧ t.calls = [] ∧ s' = s
  /-- The very comment is looked for on the server only if no listing came to its end before. -/
  hasComment : ∀ body since, t.step = .hasComment body since →
    lastListing? earlier ≠ none → t.calls = [] ∧ s' = s

/-- A listing with a call that failed did not come to its end. -/
theorem Paged.listed?_eq_none {pull : Option PullRequest} {calls : List ApiEvent}
    (h : Paged pull calls) (hfailed : ∃ e ∈ calls, e.isFailedPage) : listed? calls = none := by
  obtain ⟨e, he, hfailed⟩ := hfailed
  have hsound (hpage : e.isPage = false) : False := by
    rw [ApiEvent.isFailedPage_eq_false hpage] at hfailed
    cases hfailed
  obtain hquiet | ⟨p, pages, rest, -, rfl, ⟨⟨comments, hlisted⟩, hrest⟩ | ⟨hbroken, rfl⟩⟩ := h
  · exact absurd (hquiet e he) hsound
  · obtain he | he := List.mem_append.mp he
    · rw [hlisted.isFailedPage_eq_false e he] at hfailed
      cases hfailed
    · exact absurd (hrest e he) hsound
  · rw [List.append_nil]
    exact hbroken.listed?_eq_none

namespace Session

variable {repository : Repository} {token : Text} {s : Session Script}

/-- **Every turn obeys the rules.** -/
theorem turn_obeys {earlier : List Turn} (hcomments : s.comments = lastListing? earlier)
    (step : SessionStep) :
    (s.turn (repository.server token) step).1.Obeys (repository.server token) earlier s
      (s.turn (repository.server token) step).2 where
  answers := answers_turn _ s step
  paged := (turn_keeps repository token s step).paged
  comments_eq := (turn_keeps repository token s step).comments_eq
  comments_of_failure hfailed := by
    have hkeeps := turn_keeps repository token s step
    rw [hkeeps.comments_eq, hkeeps.paged.listed?_eq_none hfailed, Option.none_or]
  loadPull number hstep := by
    obtain rfl : step = .loadPull number := hstep
    obtain ⟨state, ⟨e, hload⟩ | ⟨pull, hload⟩⟩ := loadPull_cases (repository.server token) number s
    · rw [turn_eq (by rw [perform, hload, deliver]) rfl]
      exact .inr ⟨e, rfl, rfl, rfl⟩
    · rw [turn_eq (by rw [perform, hload, deliver]) rfl]
      exact .inl ⟨pull, rfl, rfl, rfl⟩
  withoutPull hpull hstep := by
    have hstep : ∀ number, step ≠ .loadPull number := hstep
    rw [turn_eq_of_perform_eq_self (perform_of_pull_eq_none _ hpull hstep)]
    exact ⟨rfl, rfl, rfl⟩
  hasComment body since hstep hlisted := by
    obtain rfl : step = .hasComment body since := hstep
    obtain ⟨known, hknown⟩ := Option.ne_none_iff_exists'.mp hlisted
    obtain ⟨result, hperform⟩ := exists_perform_hasComment_eq (repository.server token)
      (hcomments.trans hknown) body since
    rw [turn_eq_of_perform_eq_self hperform]
    exact ⟨rfl, rfl⟩

end Session

/-- **A session remembers the last that succeeded.** Whatever the responses of the script and the
operations performed, the pull request is that of the last turn that asked for one and got it, and
the comments are those of the last listing that came to its end; and whichever operation is
performed next, its turn obeys the rules. -/
theorem session_remembers_last_success (repository : Repository) (token : Text)
    (responses : List Response) (steps : List SessionStep) :
    ∃ turns s, (Session.start ⟨responses, []⟩).history (repository.server token) steps =
        (turns, s) ∧ turns.map Turn.step = steps ∧
      s.pull = lastPull? turns ∧ s.comments = lastListing? turns ∧
      ∀ step, (s.turn (repository.server token) step).1.Obeys (repository.server token) turns s
        (s.turn (repository.server token) step).2 := by
  obtain ⟨hpull, hcomments⟩ := Session.history_keeps repository token ⟨responses, []⟩ steps
  exact ⟨_, _, rfl, Session.map_step_history _ _ steps, hpull, hcomments,
    Session.turn_obeys hcomments⟩

/-- A script with a pull request, a listing of two pages, and a listing that breaks off at its
second page. -/
def flakyScript : List Response :=
  [.answered 200
      "\x7b\"number\":7,\"base\":\x7b\"sha\":\"b\"\x7d,\"head\":\x7b\"sha\":\"h\"\x7d\x7d" 0,
    .answered 200 "[\x7b\"id\":3,\"body\":\"hello\"\x7d]" 2,
    .answered 200 "[\x7b\"id\":5,\"body\":\"bye\"\x7d]" 0,
    .answered 200 "[]" 2,
    .answered 500 [] 0]

/-- A comment that is added too early, a listing that comes to its end, and one that breaks off. -/
def flakySteps : List SessionStep :=
  [.addComment "early", .loadPull 7, .loadComments, .findComment "hello" none]

/-- The comments of the first listing are still remembered after the second one has broken off, and
they are where the next comment is looked for. -/
theorem session_remembers_last_success_flaky :
    ∃ turns s, (Session.start ⟨flakyScript, []⟩).history (Repository.server ⟨"o", "r"⟩ "t")
        flakySteps = (turns, s) ∧
      turns.map (·.calls.length) = [0, 1, 2, 2] ∧ s.pull = some ⟨7, "b", "h"⟩ ∧
      s.comments.map (·.map Comment.id) = some [3, 5] ∧
      (s.turn (Repository.server ⟨"o", "r"⟩ "t") (.hasComment "bye" none)).1.calls = [] := by
  obtain ⟨turns, s, hhistory, -, hpull, hcomments, hobeys⟩ :=
    session_remembers_last_success ⟨"o", "r"⟩ "t" flakyScript flakySteps
  have hturns : turns = ((Session.start ⟨flakyScript, []⟩).history
      (Repository.server ⟨"o", "r"⟩ "t") flakySteps).1 := by rw [hhistory]
  have hlisted : (lastListing? turns).map (·.map Comment.id) = some [3, 5] := by
    rw [hturns]
    decide +kernel
  refine ⟨turns, s, hhistory, ?_, hpull.trans ?_, ?_, ?_⟩
  · rw [hturns]
    decide +kernel
  · rw [hturns]
    decide +kernel
  · rw [hcomments, hlisted]
  · refine ((hobeys (.hasComment "bye" none)).hasComment _ _ rfl ?_).1
    intro hnone
    rw [hnone] at hlisted
    cases hlisted

end Enclosure
