import Enclosure.PullRequest.Session
import Mathlib.Data.List.GetD
import Mathlib.Data.List.Nodup

/-!
# A server that keeps comments

A **board** is what a server remembers of a pull request: its comments, no two with the same
number. A **host** is a server with a board. It knows one pull request, sends the comments on it
in order over as many pages as it likes, puts a new comment behind the others and changes a
comment where it stands. How the comments are cut into pages may differ from one listing to the
next. A text that is well-formed UTF-8 is stored as it is; of any other text nothing is said.

## Main definitions

* `Board`: the comments on a pull request.
* `Host`, `Host.server`: a server with a board.
* `Host.put`: the comments after the first one with a given beginning is edited, or one is added.
* `AtMostOneWritten`: the comments before and after at most one of them is written.

## Main results

* `Host.loadComments_eq`: a listing brings all comments, whatever the pages.
* `Host.hasComment_eq`, `Host.putComment_eq`: what the operations of a session do to a board.
* `Host.atMostOneWritten_put`, `Host.exists_mem_put`, `Host.countP_put`: what a written comment
  changes: one comment has the body, all others are as they were, and no second comment with the
  same beginning comes into being.
-/

namespace Enclosure

/-- A comment with another body, if it is the one with the given number. -/
def Comment.rewrite (id : Int) (body : Text) (c : Comment) : Comment :=
  if c.id = id then { c with body } else c

/-- A change of its body does not change the number of a comment. -/
@[simp] theorem Comment.rewrite_id (id : Int) (body : Text) (c : Comment) :
    (c.rewrite id body).id = c.id := by
  rw [rewrite]
  split <;> rfl

/-- The comments on a pull request, as a server remembers them. -/
structure Board where
  comments : List Comment
  /-- No two comments have the same number. -/
  distinct : (comments.map Comment.id).Nodup
  /-- The number of listings that have come to their end. -/
  listings : Nat

namespace Board

/-- The board after a listing. -/
def listed (b : Board) : Board :=
  { b with listings := b.listings + 1 }

/-- The board with a new comment behind the others. -/
def add (b : Board) (c : Comment) (hc : c.id ∉ b.comments.map Comment.id) : Board where
  comments := b.comments ++ [c]
  distinct := by
    rw [List.map_append, List.nodup_append_comm]
    exact List.nodup_cons.mpr ⟨hc, b.distinct⟩
  listings := b.listings

/-- The board with another body for a comment. -/
def edit (b : Board) (id : Int) (body : Text) : Board where
  comments := b.comments.map (Comment.rewrite id body)
  distinct := by
    have hid : Comment.id ∘ Comment.rewrite id body = Comment.id :=
      funext fun c => c.rewrite_id id body
    rw [List.map_map, hid]
    exact b.distinct
  listings := b.listings

end Board

/-- A server that keeps the comments on a pull request. -/
structure Host where
  pull : PullRequest
  /-- The pages of a listing, given how many listings there were before. -/
  pages : Nat → List Comment → List (List Comment)
  pages_flatten : ∀ n comments, (pages n comments).flatten = comments
  /-- The number of a new comment. -/
  freshId : List Comment → Int
  freshId_not_mem : ∀ comments, freshId comments ∉ comments.map Comment.id
  /-- The time of a new comment. -/
  clock : List Comment → Instant
  /-- What is stored of a body. -/
  stored : Text → Text
  stored_of_isUtf8 : ∀ t, t.isUtf8 → stored t = t

namespace Host

/-- The reply when something is asked for that the host does not know. -/
def notFound : ApiError :=
  .refused .get [] 404 .blank

/-- The pages of the next listing. -/
def nextPages (host : Host) (b : Board) : List (List Comment) :=
  host.pages b.listings b.comments

/-- A page of the comments. The last page names no other and ends the listing. -/
def page (host : Host) (page : Int) (b : Board) : Except ApiError CommentPage × Board :=
  let comments := (host.nextPages b).getD (page - 1).toNat []
  if page < (host.nextPages b).length then (.ok ⟨comments, page + 1⟩, b)
  else (.ok ⟨comments, 0⟩, b.listed)

/-- A new comment with the given body. -/
def newComment (host : Host) (body : Text) (comments : List Comment) : Comment :=
  ⟨host.freshId comments, host.stored body, host.clock comments⟩

/-- What a call is answered with, and the board after it. -/
def answer (host : Host) : (call : ApiCall) → Board → Except ApiError call.Reply × Board
  | .pull number, b =>
    if number = host.pull.number then (.ok host.pull, b) else (.error notFound, b)
  | .comments number page, b =>
    if number = host.pull.number then host.page page b else (.error notFound, b)
  | .create number body, b =>
    if number = host.pull.number then
      (.ok (), b.add (host.newComment body b.comments) (host.freshId_not_mem b.comments))
    else (.error notFound, b)
  | .edit id body, b =>
    if id ∈ b.comments.map Comment.id then (.ok (), b.edit id (host.stored body))
    else (.error notFound, b)

/-- The host as a server. A listing is never given up before its last page. -/
def server (host : Host) : Server Board where
  answer := host.answer
  pageLimit b := (host.nextPages b).length + 1

/-- The comments after the first one that starts with `start` has got another body, or one has been
added if there is none. -/
def put (host : Host) (start body : Text) (comments : List Comment) : List Comment :=
  match comments.find? (·.body.startsWith start) with
  | some c => comments.map (Comment.rewrite c.id (host.stored body))
  | none => comments ++ [host.newComment body comments]

end Host

/-! ### What is asked of a host -/

namespace ApiEvent

/-- Whether a call succeeded. -/
def succeeded (e : ApiEvent) : Bool :=
  e.reply.isOk

/-- Whether a call creates or edits a comment. -/
def isWrite (e : ApiEvent) : Bool :=
  match e.call with
  | .create _ _ | .edit _ _ => true
  | .pull _ | .comments _ _ => false

end ApiEvent

/-- Calls that succeed and write nothing. -/
def Reads (events : List ApiEvent) : Prop :=
  ∀ e ∈ events, e.succeeded = true ∧ e.isWrite = false

/-- No calls at all are reads. -/
theorem Reads.nil : Reads [] := by
  simp [Reads]

/-- A call that succeeds and writes nothing, before reads. -/
theorem Reads.cons {e : ApiEvent} {events : List ApiEvent} (he : e.succeeded = true)
    (hw : e.isWrite = false) (h : Reads events) : Reads (e :: events) :=
  List.forall_mem_cons.mpr ⟨⟨he, hw⟩, h⟩

/-- Reads after reads are reads. -/
theorem Reads.append {events more : List ApiEvent} (h : Reads events) (h' : Reads more) :
    Reads (events ++ more) :=
  List.forall_mem_append.mpr ⟨h, h'⟩

/-- Among reads there is no call that writes. -/
theorem Reads.countP_isWrite {events : List ApiEvent} (h : Reads events) :
    events.countP ApiEvent.isWrite = 0 :=
  List.countP_eq_zero.mpr fun e he => by simp [(h e he).2]

namespace Host

variable (host : Host) {s : Session Board}

/-- The pages from one on are that page and the pages after it. -/
theorem flatten_drop {α : Type} (pages : List (List α)) (k : Nat) :
    (pages.drop k).flatten = pages.getD k [] ++ (pages.drop (k + 1)).flatten := by
  by_cases hk : k < pages.length
  · rw [List.drop_eq_getElem_cons hk, List.flatten_cons, List.getD_eq_getElem _ _ hk]
  · rw [List.drop_eq_nil_of_le (by omega), List.drop_eq_nil_of_le (by omega),
      List.getD_eq_default _ _ (by omega)]
    rfl

/-- The pull request that the host knows is had for the asking. -/
theorem loadPull_eq {number : Int} (hnumber : number = host.pull.number) :
    ∃ e, Reads [e] ∧ s.loadPull host.server number =
      (.ok (), { s with events := s.events ++ [e], pull := some host.pull }) := by
  simp only [Session.loadPull, Session.call, server, answer, if_pos hnumber]
  exact ⟨_, Reads.cons rfl rfl Reads.nil, rfl⟩

/-- A page that is not the last one names the next page and leaves the board as it is. -/
theorem call_page (k : Nat) (hk : k + 1 < (host.nextPages s.server).length) :
    ∃ e, Reads [e] ∧ s.call host.server (.comments host.pull.number (k + 1)) =
      (.ok ⟨(host.nextPages s.server).getD k [], (k + 1 : Nat) + 1⟩,
        { s with events := s.events ++ [e] }) := by
  have hindex : ((k : Int) + 1 - 1).toNat = k := by omega
  have hmore : (k : Int) + 1 < (host.nextPages s.server).length := by omega
  simp only [Session.call, server, answer, if_true, page, hindex, hmore]
  exact ⟨_, Reads.cons rfl rfl Reads.nil, rfl⟩

/-- The last page names no other and ends the listing. -/
theorem call_last_page (k : Nat) (hk : (host.nextPages s.server).length ≤ k + 1) :
    ∃ e, Reads [e] ∧ s.call host.server (.comments host.pull.number (k + 1)) =
      (.ok ⟨(host.nextPages s.server).getD k [], 0⟩,
        { s with server := s.server.listed, events := s.events ++ [e] }) := by
  have hindex : ((k : Int) + 1 - 1).toNat = k := by omega
  have hlast : ¬ (k : Int) + 1 < (host.nextPages s.server).length := by omega
  simp only [Session.call, server, answer, if_true, page, hindex, hlast, if_false]
  exact ⟨_, Reads.cons rfl rfl Reads.nil, rfl⟩

/-- A listing from any page on brings the comments of that page and all pages after it. -/
theorem listFrom_eq (k limit : Nat) (hlimit : 0 < limit)
    (hpages : (host.nextPages s.server).length ≤ k + limit) :
    ∃ events, Reads events ∧
      s.listFrom host.server host.pull.number limit (k + 1) =
        (.ok ((host.nextPages s.server).drop k).flatten,
          { s with server := s.server.listed, events := s.events ++ events }) := by
  induction limit generalizing k s with
  | zero => omega
  | succ limit ih =>
      rw [Session.listFrom, flatten_drop]
      by_cases hk : k + 1 < (host.nextPages s.server).length
      · obtain ⟨e, he, hcall⟩ := call_page host k hk
        obtain ⟨events, hevents, hlist⟩ :=
          ih (s := { s with events := s.events ++ [e] }) (k + 1) (by omega) (by simp only; omega)
        have hnext : ((k + 1 : Nat) : Int) + 1 ≠ 0 := by omega
        refine ⟨e :: events, he.append hevents, ?_⟩
        rw [hcall]
        simp only [if_neg hnext]
        rw [hlist]
        simp only [List.append_assoc, List.singleton_append]
      · have hlast : (host.nextPages s.server).length ≤ k + 1 := by omega
        obtain ⟨e, he, hcall⟩ := call_last_page host k hlast
        refine ⟨[e], he, ?_⟩
        rw [hcall, List.drop_eq_nil_of_le hlast]
        simp only [if_true, List.flatten_nil, List.append_nil]

/-- The session after a listing: the comments are remembered, and the calls are written down. -/
def afterListing (s : Session Board) (reads : List ApiEvent) : Session Board :=
  { s with
    server := s.server.listed
    events := s.events ++ reads
    comments := some s.server.comments }

/-- **A listing brings all comments**, over whatever pages they are sent. -/
theorem loadComments_eq (hpull : s.pull = some host.pull) :
    ∃ reads, Reads reads ∧ s.loadComments host.server = (.ok (), afterListing s reads) := by
  obtain ⟨reads, hreads, hlist⟩ := listFrom_eq host (s := s) 0
    ((host.nextPages s.server).length + 1) (by omega) (by omega)
  refine ⟨reads, hreads, ?_⟩
  have hflatten : (host.nextPages s.server).flatten = s.server.comments :=
    host.pages_flatten s.server.listings s.server.comments
  have hlimit : host.server.pageLimit s.server = (host.nextPages s.server).length + 1 := rfl
  rw [List.drop_zero, hflatten, Int.natCast_zero, Int.zero_add] at hlist
  simp only [Session.loadComments, hpull, hlimit, hlist, afterListing]

/-- Looking for the very comment, while none are remembered, lists the comments. -/
theorem hasComment_eq (hpull : s.pull = some host.pull) (hcomments : s.comments = none)
    (body : Text) :
    ∃ reads, Reads reads ∧ s.hasComment host.server body none =
      (.ok (s.server.comments.any (·.body == body)), afterListing s reads) := by
  obtain ⟨reads, hreads, hload⟩ := loadComments_eq host hpull
  refine ⟨reads, hreads, ?_⟩
  simp only [Session.hasComment, hpull, Session.ensureComments, hcomments, Option.isSome_none,
    Bool.false_eq_true, if_false, hload, afterListing, Option.getD_some, Comment.isSince,
    Bool.true_and]

/-- A comment on the board is edited where it stands. -/
theorem editComment_eq (hpull : s.pull = some host.pull) {c : Comment}
    (hc : c ∈ s.server.comments) (body : Text) :
    ∃ e, e.succeeded = true ∧ e.isWrite = true ∧ s.editComment host.server c.id body =
      (.ok (), { s with
        server := s.server.edit c.id (host.stored body)
        events := s.events ++ [e] }) := by
  have hknown : c.id ∈ s.server.comments.map Comment.id := List.mem_map_of_mem hc
  simp only [Session.editComment, hpull, Session.write, Session.call, server, answer, if_pos hknown]
  exact ⟨_, rfl, rfl, rfl⟩

/-- A new comment is put behind the others. -/
theorem addComment_eq (hpull : s.pull = some host.pull) (body : Text) :
    ∃ e, e.succeeded = true ∧ e.isWrite = true ∧ s.addComment host.server body =
      (.ok (), { s with
        server := s.server.add (host.newComment body s.server.comments)
          (host.freshId_not_mem s.server.comments)
        events := s.events ++ [e] }) := by
  simp only [Session.addComment, hpull, Session.write, Session.call, server, answer, if_true]
  exact ⟨_, rfl, rfl, rfl⟩

/-- **Putting a comment** lists the comments and then makes one call that writes. -/
theorem putComment_eq (hpull : s.pull = some host.pull) (start body : Text) :
    ∃ reads e s', Reads reads ∧ e.succeeded = true ∧ e.isWrite = true ∧
      s.putComment host.server start body = (.ok (), s') ∧
      s'.events = s.events ++ reads ++ [e] ∧
      s'.server.comments = host.put start body s.server.comments := by
  obtain ⟨reads, hreads, hload⟩ := loadComments_eq host hpull
  have hfirst : Session.firstWith start none ((afterListing s reads).comments.getD []) =
      s.server.comments.find? (·.body.startsWith start) := by
    simp only [afterListing, Option.getD_some, Session.firstWith, Comment.isSince, Bool.true_and]
  simp only [Session.putComment, Session.findComment, hload, hfirst, put]
  cases hfind : s.server.comments.find? (·.body.startsWith start) with
  | some c =>
      have hmem : c ∈ s.server.comments := List.mem_of_find?_eq_some hfind
      obtain ⟨e, he, hwrite, hedit⟩ := editComment_eq host (s := (afterListing s reads).inform
        ("Updating comment " ++ Text.ofInt c.id ++ "\n")) hpull hmem body
      exact ⟨reads, e, _, hreads, he, hwrite, hedit, rfl, rfl⟩
  | none =>
      obtain ⟨e, he, hwrite, hadd⟩ := addComment_eq host
        (s := (afterListing s reads).inform "Adding new comment\n") hpull body
      exact ⟨reads, e, _, hreads, he, hwrite, hadd, rfl, rfl⟩

end Host

/-! ### What a written comment changes -/

/-- The comments before and after **at most one of them is written**: nothing has changed, or a
comment with the body has been added behind the others, or one comment has got the body. -/
inductive AtMostOneWritten (body : Text) : List Comment → List Comment → Prop
  | kept (comments : List Comment) : AtMostOneWritten body comments comments
  | added (comments : List Comment) (c : Comment) :
      c.body = body → AtMostOneWritten body comments (comments ++ [c])
  | edited (earlier : List Comment) (c : Comment) (later : List Comment) :
      AtMostOneWritten body (earlier ++ c :: later) (earlier ++ { c with body } :: later)

/-- Comments with other numbers are left as they are. -/
theorem map_rewrite_of_not_mem {id : Int} {body : Text} {comments : List Comment}
    (hid : id ∉ comments.map Comment.id) : comments.map (Comment.rewrite id body) = comments := by
  have hsame : ∀ c ∈ comments, Comment.rewrite id body c = c := by
    intro c hc
    have hne : c.id ≠ id := fun heq => hid (heq ▸ List.mem_map_of_mem hc)
    rw [Comment.rewrite, if_neg hne]
  rw [List.map_congr_left hsame, List.map_id']

/-- Where no two comments have the same number, only one is edited. -/
theorem map_rewrite_eq {earlier later : List Comment} {c : Comment} (body : Text)
    (hdistinct : ((earlier ++ c :: later).map Comment.id).Nodup) :
    (earlier ++ c :: later).map (Comment.rewrite c.id body) =
      earlier ++ { c with body } :: later := by
  rw [List.map_append, List.map_cons, List.nodup_middle, List.nodup_cons,
    List.mem_append] at hdistinct
  obtain ⟨hid, -⟩ := hdistinct
  rw [List.map_append, List.map_cons, map_rewrite_of_not_mem fun h => hid (.inl h),
    map_rewrite_of_not_mem fun h => hid (.inr h), Comment.rewrite, if_pos rfl]

namespace Host

variable (host : Host) (start : Text) {body : Text} {comments : List Comment}

/-- What putting a comment does to the comments: there is a first one with the beginning, and it
gets the body, or there is none, and one with the body is added. -/
theorem put_cases (hdistinct : (comments.map Comment.id).Nodup) (hbody : body.isUtf8) :
    (∃ earlier c later, comments = earlier ++ c :: later ∧ c.body.startsWith start ∧
      host.put start body comments = earlier ++ { c with body } :: later) ∨
    ((∀ c ∈ comments, ¬ c.body.startsWith start) ∧
      ∃ c, c.body = body ∧ host.put start body comments = comments ++ [c]) := by
  have hstored : host.stored body = body := host.stored_of_isUtf8 body hbody
  rw [put]
  cases hfind : comments.find? (·.body.startsWith start) with
  | some c =>
      obtain ⟨hc, earlier, later, rfl, -⟩ := List.find?_eq_some_iff_append.mp hfind
      left
      refine ⟨earlier, c, later, rfl, hc, ?_⟩
      simp only [hstored]
      exact map_rewrite_eq body hdistinct
  | none =>
      right
      refine ⟨fun c hc => ?_, host.newComment body comments, hstored, rfl⟩
      exact List.find?_eq_none.mp hfind c hc

/-- Putting a comment writes one comment and leaves all others as they are. -/
theorem atMostOneWritten_put (hdistinct : (comments.map Comment.id).Nodup) (hbody : body.isUtf8) :
    AtMostOneWritten body comments (host.put start body comments) := by
  obtain ⟨earlier, c, later, rfl, -, hput⟩ | ⟨-, c, hc, hput⟩ :=
    put_cases host start hdistinct hbody
  · rw [hput]
    exact .edited earlier c later
  · rw [hput]
    exact .added comments c hc

/-- After a comment is put there is one with its body. -/
theorem exists_mem_put (hdistinct : (comments.map Comment.id).Nodup) (hbody : body.isUtf8) :
    ∃ c ∈ host.put start body comments, c.body = body := by
  obtain ⟨earlier, c, later, -, -, hput⟩ | ⟨-, c, hc, hput⟩ := put_cases host start hdistinct hbody
  · rw [hput]
    exact ⟨{ c with body }, List.mem_append_right earlier List.mem_cons_self, rfl⟩
  · rw [hput]
    exact ⟨c, List.mem_append_right comments List.mem_cons_self, hc⟩

/-- Putting a comment makes no second one with its beginning. -/
theorem countP_put (hdistinct : (comments.map Comment.id).Nodup) (hbody : body.isUtf8)
    (hstart : body.startsWith start) :
    (host.put start body comments).countP (·.body.startsWith start) =
      max 1 (comments.countP (·.body.startsWith start)) := by
  obtain ⟨earlier, c, later, rfl, hc, hput⟩ | ⟨hnone, c, rfl, hput⟩ :=
    put_cases host start hdistinct hbody
  · rw [hput]
    simp only [List.countP_append, List.countP_cons, hstart, hc, if_true]
    omega
  · have hzero : comments.countP (·.body.startsWith start) = 0 := List.countP_eq_zero.mpr hnone
    rw [hput, List.countP_append, hzero]
    simp [hstart]

end Host

end Enclosure
