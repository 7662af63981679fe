import Enclosure.Http.Url
import Enclosure.PullRequest.Payload

/-!
# What is asked of the server

There are four calls: for a pull request, for a page of its comments, for a new comment and for the
change of a comment. A *server* is anything that answers them and has a state of its own. That is
all the rest of the library knows of it; a script of responses is a server, and so is a list of
comments kept in memory.

## Main definitions

* `ApiCall`, `ApiCall.Reply`: the calls, and what each of them is answered with.
* `ApiError`: why a call fails.
* `Server`: what answers calls.
* `ApiEvent`: a call together with its reply.
-/

namespace Enclosure

/-- What is asked of the server. -/
inductive ApiCall where
  /-- A pull request. -/
  | pull (number : Int)
  /-- A page of the comments on a pull request. -/
  | comments (pull page : Int)
  /-- A new comment on a pull request. -/
  | create (pull : Int) (body : Text)
  /-- Another body for a comment. -/
  | edit (id : Int) (body : Text)
deriving DecidableEq, Repr

/-- What a call is answered with. -/
abbrev ApiCall.Reply : ApiCall → Type
  | pull _ => PullRequest
  | comments _ _ => CommentPage
  | create _ _ => Unit
  | edit _ _ => Unit

/-- The method of a request. -/
inductive Method where
  | get
  | post
  | patch
deriving DecidableEq, Repr

/-- The name of a method in a request. -/
def Method.name : Method → Text
  | get => "GET"
  | post => "POST"
  | patch => "PATCH"

/-- The name of a method in an error. -/
def Method.verb : Method → Text
  | get => "Get"
  | post => "Post"
  | patch => "Patch"

/-- Why a call fails. -/
inductive ApiError where
  /-- The call has no address. -/
  | address (fault : UrlFault)
  /-- The request does not come through. -/
  | network (method : Method) (url reason : Text)
  /-- The server refuses. -/
  | refused (method : Method) (url : Text) (status : Int) (refusal : Refusal)
  /-- The server puts the call off. -/
  | postponed
  /-- The reply makes no sense. -/
  | payload (fault : PayloadFault)
  /-- A listing does not come to an end. -/
  | endless
deriving DecidableEq, Repr

/-- The wording of an error. -/
def ApiError.message : ApiError → Text
  | address fault => fault.message
  | network method url reason => method.verb ++ " " ++ url.quoted ++ ": " ++ reason
  | refused method url status refusal =>
    method.name ++ " " ++ url ++ ": " ++ Text.ofInt status ++ " " ++ refusal.shown
  | postponed => "job scheduled on GitHub side; try again later"
  | payload fault => fault.message
  | endless => "listing does not end"

/-- Anything that answers calls and has a state of its own. -/
structure Server (σ : Type) where
  /-- Answers a call. -/
  answer : (call : ApiCall) → σ → Except ApiError call.Reply × σ
  /-- The number of pages after which a listing is given up. -/
  pageLimit : σ → Nat

/-- A call together with its reply. -/
structure ApiEvent where
  call : ApiCall
  reply : Except ApiError call.Reply

end Enclosure
