import Enclosure.Proofs.PullRequest.Board

/-!
# The calls of a session

Whatever a server answers, a session makes its calls in a fixed pattern. A listing asks for page
after page, each time for the one that the last reply named; it has come to its end when a reply
names no other page, and it is given up at the first call that fails. A comment is written only
after a listing that came to its end, and which call writes it is decided by the comments of that
listing alone.

Nothing is assumed of the server here, so that every way of failing is covered.

## Main definitions

* `Listed`: the calls of a listing that came to its end, and the comments it brought.
* `PageCalls`: calls for pages of comments, answered or not.
* `writeCall`: the call that writes a comment, given the comments there are.

## Main results

* `Session.listFrom_cases`, `Session.loadComments_cases`: what a listing can come to.
* `Session.hasComment_cases`, `Session.putComment_cases`: what looking for a comment and writing one
  can come to.
-/

namespace Enclosure

/-- The calls of a **listing that came to its end**, from the given page on: every call was
answered, and each of them is for the page that the reply before it named, up to a reply that names
none. The last argument are the comments of all pages, in order. -/
inductive Listed (pull : Int) : Int → List ApiEvent → List Comment → Prop
  | last (page : Int) (reply : CommentPage) :
      reply.next = 0 → Listed pull page [⟨.comments pull page, .ok reply⟩] reply.comments
  | more (page : Int) (reply : CommentPage) (events : List ApiEvent) (comments : List Comment) :
      reply.next ≠ 0 → Listed pull reply.next events comments →
      Listed pull page (⟨.comments pull page, .ok reply⟩ :: events) (reply.comments ++ comments)

/-- Calls for pages of the comments on a pull request, whatever they were answered with. -/
def PageCalls (pull : Int) (events : List ApiEvent) : Prop :=
  ∀ e ∈ events, ∃ page, e.call = .comments pull page

/-- The call that writes a comment with the given beginning: it edits the first comment that has
this beginning, and creates one if there is none. -/
def writeCall (pull : Int) (start body : Text) (comments : List Comment) : ApiCall :=
  match comments.find? (·.body.startsWith start) with
  | some c => .edit c.id body
  | none => .create pull body

/-- Whether a call is about comments. -/
def ApiEvent.isAboutComments (e : ApiEvent) : Bool :=
  match e.call with
  | .comments _ _ | .create _ _ | .edit _ _ => true
  | .pull _ => false

/-- A call that writes a comment is about comments. -/
theorem ApiEvent.isAboutComments_of_isWrite {e : ApiEvent} (he : e.isWrite = true) :
    e.isAboutComments = true := by
  obtain ⟨call, reply⟩ := e
  cases call with
  | pull number => cases he
  | comments pull page => cases he
  | create pull body => rfl
  | edit id body => rfl

/-- Whichever call writes a comment, it is one that writes. -/
theorem isWrite_writeCall (pull : Int) (start body : Text) (comments : List Comment)
    (reply : Except ApiError (writeCall pull start body comments).Reply) :
    ApiEvent.isWrite ⟨writeCall pull start body comments, reply⟩ = true := by
  simp only [ApiEvent.isWrite, writeCall]
  cases comments.find? (·.body.startsWith start) <;> rfl

/-! ### Calls for pages -/

namespace PageCalls

variable {pull : Int} {events more : List ApiEvent}

/-- No calls at all are calls for pages. -/
theorem nil : PageCalls pull [] := by
  simp [PageCalls]

/-- A call for a page before calls for pages. -/
theorem cons {e : ApiEvent} {page : Int} (he : e.call = .comments pull page)
    (h : PageCalls pull events) : PageCalls pull (e :: events) :=
  List.forall_mem_cons.mpr ⟨⟨page, he⟩, h⟩

/-- Calls for pages after calls for pages. -/
theorem append (h : PageCalls pull events) (h' : PageCalls pull more) :
    PageCalls pull (events ++ more) :=
  List.forall_mem_append.mpr ⟨h, h'⟩

/-- A call for a page writes nothing. -/
theorem isWrite_eq_false (h : PageCalls pull events) : ∀ e ∈ events, e.isWrite = false := by
  intro e he
  obtain ⟨page, hcall⟩ := h e he
  simp only [ApiEvent.isWrite, hcall]

end PageCalls

/-- The calls of a listing are calls for pages. -/
theorem Listed.pageCalls {pull page : Int} {events : List ApiEvent} {comments : List Comment}
    (h : Listed pull page events comments) : PageCalls pull events := by
  induction h with
  | last page reply hnext => exact .cons rfl .nil
  | more page reply events comments hnext hlisted ih => exact .cons rfl ih

/-! ### The operations of a session -/

namespace Session

variable {σ : Type} (server : Server σ)

/-- The session after some calls, which left the server in the given state. -/
def afterCalls (s : Session σ) (state : σ) (calls : List ApiEvent) : Session σ :=
  { s with server := state, events := s.events ++ calls }

/-- The session that remembers the comments of a listing. -/
def remember (s : Session σ) (comments : List Comment) : Session σ :=
  { s with comments := some comments }

/-- The session that is about the given pull request. -/
def about (s : Session σ) (pull : PullRequest) : Session σ :=
  { s with pull := some pull }

/-- A call is written down with its reply. -/
theorem exists_call_eq (c : ApiCall) (s : Session σ) :
    ∃ reply state, s.call server c = (reply, s.afterCalls state [⟨c, reply⟩]) :=
  ⟨_, _, rfl⟩

/-- Calls after calls. -/
@[simp] theorem afterCalls_afterCalls (s : Session σ) (state state' : σ)
    (calls calls' : List ApiEvent) :
    (s.afterCalls state calls).afterCalls state' calls' =
      s.afterCalls state' (calls ++ calls') := by
  simp only [afterCalls, List.append_assoc]

/-- **What following the pages can come to.** All calls are for pages, and if the comments are
delivered, the listing came to its end and these are its comments. -/
theorem listFrom_cases (pull : Int) (limit : Nat) (page : Int) (s : Session σ) :
    ∃ state calls result, s.listFrom server pull limit page = (result, s.afterCalls state calls) ∧
      PageCalls pull calls ∧
        ∀ comments, result = .ok comments → Listed pull page calls comments := by
  induction limit generalizing page s with
  | zero =>
      refine ⟨s.server, [], .error .endless, ?_, .nil, by simp⟩
      simp only [listFrom, afterCalls, List.append_nil]
  | succ limit ih =>
      obtain ⟨reply, state, hcall⟩ := exists_call_eq server (.comments pull page) s
      rw [listFrom, hcall]
      cases reply with
      | error e => exact ⟨state, _, .error e, rfl, .cons rfl .nil, by simp⟩
      | ok reply =>
          by_cases hnext : reply.next = 0
          · simp only [if_pos hnext]
            refine ⟨state, _, .ok reply.comments, rfl, .cons rfl .nil, ?_⟩
            rintro comments ⟨rfl⟩
            exact .last page reply hnext
          · obtain ⟨state', calls, result, hlist, hpages, hlisted⟩ := ih reply.next
              (s.afterCalls state [⟨.comments pull page, .ok reply⟩])
            simp only [if_neg hnext, hlist, afterCalls_afterCalls]
            cases result with
            | error e => exact ⟨state', _, .error e, rfl, hpages.cons rfl, by simp⟩
            | ok more =>
                refine ⟨state', _, .ok (reply.comments ++ more), rfl, hpages.cons rfl, ?_⟩
                rintro comments ⟨rfl⟩
                exact .more page reply calls more hnext (hlisted more rfl)

/-- **What asking for the pull request can come to.** There is one call, and the pull request is
remembered if the call is answered. -/
theorem loadPull_cases (number : Int) (s : Session σ) :
    ∃ state, (∃ e, s.loadPull server number =
        (.error (.call e), s.afterCalls state [⟨.pull number, .error e⟩])) ∨
      ∃ pull, s.loadPull server number =
        (.ok (), (s.afterCalls state [⟨.pull number, .ok pull⟩]).about pull) := by
  obtain ⟨reply, state, hcall⟩ := exists_call_eq server (.pull number) s
  rw [loadPull, hcall]
  cases reply with
  | error e => exact ⟨state, .inl ⟨e, rfl⟩⟩
  | ok pull => exact ⟨state, .inr ⟨pull, rfl⟩⟩

variable {pull : PullRequest} {s : Session σ}

/-- **What asking for all comments can come to.** The listing fails, and nothing is remembered of
it, or it comes to its end, and its comments are remembered. -/
theorem loadComments_cases (hpull : s.pull = some pull) :
    ∃ state calls, PageCalls pull.number calls ∧
      ((∃ e, s.loadComments server = (.error e, s.afterCalls state calls)) ∨
        ∃ comments, Listed pull.number 1 calls comments ∧ s.loadComments server =
          (.ok (), (s.afterCalls state calls).remember comments)) := by
  obtain ⟨state, calls, result, hlist, hpages, hlisted⟩ :=
    listFrom_cases server pull.number (server.pageLimit s.server) 1 s
  refine ⟨state, calls, hpages, ?_⟩
  simp only [loadComments, hpull, hlist]
  cases result with
  | error e => exact .inl ⟨.call e, rfl⟩
  | ok comments => exact .inr ⟨comments, hlisted comments rfl, rfl⟩

/-- **What looking for the very comment can come to**, while no comments are remembered. All calls
are for pages, and the comment is found only in a listing that came to its end. -/
theorem hasComment_cases (hpull : s.pull = some pull) (hcomments : s.comments = none)
    (body : Text) :
    ∃ calls found s', s.hasComment server body none = (.ok found, s') ∧
      s'.pull = some pull ∧ s'.events = s.events ++ calls ∧ PageCalls pull.number calls ∧
      (found = true → ∃ comments, Listed pull.number 1 calls comments ∧
        ∃ c ∈ comments, c.body = body) := by
  obtain ⟨state, calls, hpages, ⟨e, hload⟩ | ⟨comments, hlisted, hload⟩⟩ :=
    loadComments_cases server hpull
  · refine ⟨calls, false, (s.afterCalls state calls).warn
      ("WARNING: Error initializing comments: " ++ e.message ++ "\n"),
      ?_, hpull, rfl, hpages, by simp⟩
    simp only [hasComment, hpull, ensureComments, hcomments, Option.isSome_none, hload, warn,
      afterCalls, Option.getD_none, List.any_nil, Bool.false_eq_true, if_false]
  · refine ⟨calls, comments.any (·.body == body),
      (s.afterCalls state calls).remember comments, ?_, hpull, rfl, hpages, ?_⟩
    · simp only [hasComment, hpull, ensureComments, hcomments, Option.isSome_none, hload,
        remember, Bool.false_eq_true, if_false, Option.getD_some, Comment.isSince, Bool.true_and]
    · intro hfound
      obtain ⟨c, hc, hbody⟩ := List.any_eq_true.mp hfound
      exact ⟨comments, hlisted, c, hc, eq_of_beq hbody⟩

/-- A comment is written by one call, and is written if and only if the call succeeds. -/
theorem exists_write_eq (c : ApiCall) (s : Session σ) :
    ∃ reply result state, s.write server c = (result, s.afterCalls state [⟨c, reply⟩]) ∧
      (result = .ok () ↔ ApiEvent.succeeded ⟨c, reply⟩ = true) := by
  obtain ⟨reply, state, hcall⟩ := exists_call_eq server c s
  rw [write, hcall]
  cases reply with
  | error e => exact ⟨_, _, state, rfl, iff_of_false (by simp) Bool.false_ne_true⟩
  | ok reply => exact ⟨_, _, state, rfl, iff_of_true rfl rfl⟩

/-- A comment is edited by one call. -/
theorem exists_editComment_eq (hpull : s.pull = some pull) (id : Int) (body : Text) :
    ∃ reply result state, s.editComment server id body =
      (result, s.afterCalls state [⟨.edit id body, reply⟩]) := by
  obtain ⟨reply, result, state, hwrite, -⟩ := exists_write_eq server (.edit id body) s
  simp only [editComment, hpull]
  exact ⟨reply, result, state, hwrite⟩

/-- A comment is added by one call. -/
theorem exists_addComment_eq (hpull : s.pull = some pull) (body : Text) :
    ∃ reply result state, s.addComment server body =
      (result, s.afterCalls state [⟨.create pull.number body, reply⟩]) := by
  obtain ⟨reply, result, state, hwrite, -⟩ := exists_write_eq server (.create pull.number body) s
  simp only [addComment, hpull]
  exact ⟨reply, result, state, hwrite⟩

/-- Once the comments are listed, to put a comment is to make the call that they call for. -/
theorem exists_putComment_eq_write {listed : Session σ}
    (hload : s.loadComments server = (.ok (), listed)) (hpull : listed.pull = some pull)
    (start body : Text) :
    ∃ line, s.putComment server start body = (listed.inform line).write server
      (writeCall pull.number start body (listed.comments.getD [])) := by
  have hinform (line : Text) : (listed.inform line).pull = some pull := hpull
  have hfirst : firstWith start none (listed.comments.getD []) =
      (listed.comments.getD []).find? (·.body.startsWith start) := by
    simp only [firstWith, Comment.isSince, Bool.true_and]
  simp only [putComment, findComment, hload, hfirst, writeCall]
  cases (listed.comments.getD []).find? (·.body.startsWith start) with
  | some c =>
      simp only [Option.map_some, editComment, hinform]
      exact ⟨_, rfl⟩
  | none =>
      simp only [Option.map_none, addComment, hinform]
      exact ⟨_, rfl⟩

/-- **What putting a comment can come to.** A listing is made in any case. If it fails nothing is
written, and the operation fails. If it comes to its end one call follows that writes, and it is
the one that the comments of the listing call for. -/
theorem putComment_cases (hpull : s.pull = some pull) (start body : Text) :
    ∃ calls, PageCalls pull.number calls ∧
      ((∃ e s', s.putComment server start body = (.error e, s') ∧
          s'.events = s.events ++ calls) ∨
        ∃ comments e result s', Listed pull.number 1 calls comments ∧
          e.call = writeCall pull.number start body comments ∧
          s.putComment server start body = (result, s') ∧
          s'.events = s.events ++ (calls ++ [e])) := by
  obtain ⟨state, calls, hpages, ⟨e, hload⟩ | ⟨comments, hlisted, hload⟩⟩ :=
    loadComments_cases server hpull
  · refine ⟨calls, hpages, .inl ⟨.finding e, s.afterCalls state calls, ?_, rfl⟩⟩
    simp only [putComment, findComment, hload]
  · obtain ⟨line, hput⟩ := exists_putComment_eq_write server hload hpull start body
    obtain ⟨reply, result, state', hwrite, -⟩ := exists_write_eq server
      (writeCall pull.number start body comments)
      (((s.afterCalls state calls).remember comments).inform line)
    refine ⟨calls, hpages, .inr ⟨comments, ⟨_, reply⟩, result, _, hlisted, rfl,
      hput.trans hwrite, ?_⟩⟩
    simp only [afterCalls, remember, inform, List.append_assoc]

end Session

end Enclosure
