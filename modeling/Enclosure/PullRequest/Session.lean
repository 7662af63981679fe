import Enclosure.PullRequest.Api

/-!
# Sessions with a server

A session remembers the pull request it is about and the comments on it, and writes down all calls
with their replies and all that it has to report. The comments remembered are always those of the
last listing that came to its end: a listing follows the pages from the first to the one that names
no other, and one that fails on the way changes nothing.

## Main definitions

* `Session`: the state of a session.
* `Session.loadPull`, `Session.loadComments`: ask for a pull request and for its comments.
* `Session.addComment`, `Session.editComment`: write a comment.
* `Session.findComment`, `Session.hasComment`: look for a comment.
* `Session.putComment`: edits the first comment with a given beginning, or adds one.
* `Session.perform`: any of these operations.
-/

namespace Enclosure

/-- The state of a session. -/
structure Session (σ : Type) where
  /-- The state of the server. -/
  server : σ
  /-- The calls made, with their replies. -/
  events : List ApiEvent
  pull : Option PullRequest
  /-- The comments of the last listing that came to its end. -/
  comments : Option (List Comment)
  /-- What is reported on request. -/
  info : List Text
  /-- What is reported always. -/
  warnings : List Text

/-- Why an operation of a session fails. -/
inductive SessionError where
  /-- There is no pull request yet. -/
  | noPull
  /-- A call failed. -/
  | call (error : ApiError)
  /-- The comment to edit could not be looked for. -/
  | finding (error : SessionError)
deriving DecidableEq, Repr

/-- The wording of an error. -/
def SessionError.message : SessionError → Text
  | noPull => "PR not initialized"
  | call error => error.message
  | finding error => "FindExistingComment Error: " ++ error.message

namespace Session

variable {σ : Type}

/-- A session that has just begun. -/
def start (server : σ) : Session σ :=
  ⟨server, [], none, none, [], []⟩

/-- Reports something on request. -/
def inform (s : Session σ) (line : Text) : Session σ :=
  { s with info := s.info ++ [line] }

/-- Reports something in any case. -/
def warn (s : Session σ) (line : Text) : Session σ :=
  { s with warnings := s.warnings ++ [line] }

/-- Makes a call. -/
def call (server : Server σ) (c : ApiCall) (s : Session σ) : Except ApiError c.Reply × Session σ :=
  let (reply, state) := server.answer c s.server
  (reply, { s with server := state, events := s.events ++ [⟨c, reply⟩] })

/-- Asks for a pull request. -/
def loadPull (server : Server σ) (number : Int) (s : Session σ) :
    Except SessionError Unit × Session σ :=
  match s.call server (.pull number) with
  | (.error e, s) => (.error (.call e), s)
  | (.ok pull, s) => (.ok (), { s with pull := some pull })

/-- Follows the pages of comments from the given one, in at most so many steps. -/
def listFrom (server : Server σ) (pull : Int) :
    Nat → Int → Session σ → Except ApiError (List Comment) × Session σ
  | 0, _, s => (.error .endless, s)
  | limit + 1, page, s =>
    match s.call server (.comments pull page) with
    | (.error e, s) => (.error e, s)
    | (.ok reply, s) =>
      if reply.next = 0 then (.ok reply.comments, s)
      else match listFrom server pull limit reply.next s with
        | (.error e, s) => (.error e, s)
        | (.ok more, s) => (.ok (reply.comments ++ more), s)

/-- Asks for all comments. -/
def loadComments (server : Server σ) (s : Session σ) : Except SessionError Unit × Session σ :=
  match s.pull with
  | none => (.error .noPull, s)
  | some pull =>
    match listFrom server pull.number (server.pageLimit s.server) 1 s with
    | (.error e, s) => (.error (.call e), s)
    | (.ok comments, s) => (.ok (), { s with comments := some comments })

/-- Makes a call that writes a comment. -/
def write (server : Server σ) (c : ApiCall) (s : Session σ) :
    Except SessionError Unit × Session σ :=
  match s.call server c with
  | (.error e, s) => (.error (.call e), s)
  | (.ok _, s) => (.ok (), s)

/-- Adds a comment. -/
def addComment (server : Server σ) (body : Text) (s : Session σ) :
    Except SessionError Unit × Session σ :=
  match s.pull with
  | none => (.error .noPull, s)
  | some pull => s.write server (.create pull.number body)

/-- Gives a comment another body. -/
def editComment (server : Server σ) (id : Int) (body : Text) (s : Session σ) :
    Except SessionError Unit × Session σ :=
  match s.pull with
  | none => (.error .noPull, s)
  | some _ => s.write server (.edit id body)

/-- The first comment that is recent enough and starts with a given text. -/
def firstWith (start : Text) (since : Option Instant) (comments : List Comment) : Option Comment :=
  comments.find? fun c => c.isSince since && c.body.startsWith start

/-- Asks for all comments and looks for the first one with a given beginning. -/
def findComment (server : Server σ) (start : Text) (since : Option Instant) (s : Session σ) :
    Except SessionError (Option Int) × Session σ :=
  match s.loadComments server with
  | (.error e, s) => (.error e, s)
  | (.ok _, s) => (.ok ((firstWith start since (s.comments.getD [])).map Comment.id), s)

/-- Edits the first comment with a given beginning, or adds one if there is none. -/
def putComment (server : Server σ) (start body : Text) (s : Session σ) :
    Except SessionError Unit × Session σ :=
  match s.findComment server start none with
  | (.error e, s) => (.error (.finding e), s)
  | (.ok (some id), s) =>
    (s.inform ("Updating comment " ++ Text.ofInt id ++ "\n")).editComment server id body
  | (.ok none, s) => (s.inform "Adding new comment\n").addComment server body

/-- Asks for all comments unless some are remembered. A failure is only warned about. -/
def ensureComments (server : Server σ) (s : Session σ) : Session σ :=
  if s.comments.isSome then s
  else match s.loadComments server with
    | (.ok _, s) => s
    | (.error e, s) => s.warn ("WARNING: Error initializing comments: " ++ e.message ++ "\n")

/-- Whether there is a comment that is recent enough and has the given body, as far as is
remembered. -/
def hasComment (server : Server σ) (body : Text) (since : Option Instant) (s : Session σ) :
    Except SessionError Bool × Session σ :=
  match s.pull with
  | none => (.error .noPull, s)
  | some _ =>
    let s := s.ensureComments server
    (.ok ((s.comments.getD []).any fun c => c.isSince since && c.body == body), s)

end Session

/-- An operation of a session. -/
inductive SessionStep where
  | loadPull (number : Int)
  | loadComments
  | addComment (body : Text)
  | editComment (id : Int) (body : Text)
  | putComment (start body : Text)
  | findComment (start : Text) (since : Option Instant)
  | hasComment (body : Text) (since : Option Instant)
deriving DecidableEq, Repr

/-- What an operation delivers. -/
inductive Finding where
  | done
  /-- The comment looked for. -/
  | comment (id : Option Int)
  /-- Whether there is such a comment. -/
  | presence (found : Bool)
deriving DecidableEq, Repr

namespace Session

/-- A result of another form, after which the session is the same. -/
def deliver {σ α : Type} (f : α → Finding) :
    Except SessionError α × Session σ → Except SessionError Finding × Session σ
  | (result, s) => (result.map f, s)

/-- Performs an operation. -/
def perform {σ : Type} (server : Server σ) (s : Session σ) :
    SessionStep → Except SessionError Finding × Session σ
  | .loadPull number => deliver (fun _ => .done) (s.loadPull server number)
  | .loadComments => deliver (fun _ => .done) (s.loadComments server)
  | .addComment body => deliver (fun _ => .done) (s.addComment server body)
  | .editComment id body => deliver (fun _ => .done) (s.editComment server id body)
  | .putComment start body => deliver (fun _ => .done) (s.putComment server start body)
  | .findComment start since => deliver .comment (s.findComment server start since)
  | .hasComment body since => deliver .presence (s.hasComment server body since)

end Session

end Enclosure
