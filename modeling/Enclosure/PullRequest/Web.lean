import Enclosure.PullRequest.Api

/-!
# Calls over the web

Each call is one request to the address of a repository, and its reply is read from the status and
the body of the response. The responses here come from a script, one for each request; when the
script is over no request comes through.

## Main definitions

* `Request`, `Response`, `Script`: what is sent and what comes back.
* `ApiCall.request`: the request of a call.
* `ApiCall.read`: the reply that a response stands for.
* `Repository.server`: a script as the server of a repository.
-/

namespace Enclosure

/-- A request. -/
structure Request where
  method : Method
  url : Text
  authorization : Text
  body : Text
deriving DecidableEq, Repr

/-- What comes back for a request. -/
inductive Response where
  /-- A response; the last number is the page that it names as the next one, or zero. -/
  | answered (status : Int) (body : Text) (next : Int)
  /-- The request did not come through. -/
  | failed (reason : Text)
deriving DecidableEq, Repr

/-- The responses still to come, and the requests sent so far. -/
structure Script where
  responses : List Response
  sent : List Request
deriving DecidableEq, Repr

namespace Script

/-- Why a request does not come through when the script is over. -/
def overMessage : Text := "no scripted response"

/-- Sends a request. -/
def send (s : Script) (r : Request) : Response × Script :=
  match s.responses with
  | [] => (.failed overMessage, { s with sent := s.sent ++ [r] })
  | response :: rest => (response, ⟨rest, s.sent ++ [r]⟩)

end Script

/-- A repository. -/
structure Repository where
  owner : Text
  name : Text
deriving DecidableEq, Repr

namespace Repository

/-- The repository with the given full name, which is that of the owner and its own name with a
slash between them. -/
def ofFullName? (fullName : Text) : Option Repository :=
  match Text.splitAt Text.slash fullName with
  | [owner, name] => if owner.isEmpty || name.isEmpty then none else some ⟨owner, name⟩
  | _ => none

/-- What is said about a full name of another form. -/
def badNameMessage (fullName : Text) : Text :=
  "invalid repo name: " ++ fullName

/-- The beginning of all addresses of a repository. -/
def path (r : Repository) : Text :=
  "repos/" ++ r.owner ++ "/" ++ r.name ++ "/"

end Repository

namespace ApiCall

/-- The method of a call. -/
def method : ApiCall → Method
  | pull _ | comments _ _ => .get
  | create _ _ => .post
  | edit _ _ => .patch

/-- The path of a call below the address of the repository. The comments of the pull request zero
are those of the whole repository. -/
def path : ApiCall → Text
  | pull number => "pulls/" ++ Text.ofInt number
  | comments number _ =>
    if number = 0 then "issues/comments" else "issues/" ++ Text.ofInt number ++ "/comments"
  | create number _ => "issues/" ++ Text.ofInt number ++ "/comments"
  | edit id _ => "issues/comments/" ++ Text.ofInt id

/-- How many comments are asked for at once. -/
def pageSize : Nat := 100

/-- The query of a call, where it has one of its own. -/
def query? : ApiCall → Option Text
  | comments _ page => some ("page=" ++ Text.ofInt page ++ "&per_page=" ++ Text.ofNat pageSize)
  | _ => none

/-- The text sent along with a call. -/
def body : ApiCall → Text
  | pull _ | comments _ _ => []
  | create _ body | edit _ body => (Json.object [("body", .string body)]).renderPlain ++ "\n"

/-- Where all repositories are. -/
def site : Text := "https://api.github.com"

/-- The address of a call. -/
def url (repository : Repository) (call : ApiCall) : Except UrlFault Text := do
  let reference ← Reference.parse (repository.path ++ call.path)
  return match call.query? with
    | none => reference.address site
    | some query => { reference with query := some query }.address site

/-- The request of a call. -/
def request (repository : Repository) (token : Text) (call : ApiCall) :
    Except UrlFault Request := do
  return ⟨call.method, ← call.url repository, "Bearer " ++ token, call.body⟩

/-- The reply in the body of a response. -/
def decode (body : Text) (next : Int) : (call : ApiCall) → Except PayloadFault call.Reply
  | pull _ => Payload.decode (.record .pull) Payload.pull body
  | comments _ _ =>
    (Payload.decode (.list (.record .comment)) Payload.comments body).map fun comments =>
      ⟨comments, next⟩
  | create _ _ | edit _ _ =>
    (Payload.decode (.record .comment) Payload.comment body).map fun _ => ()

/-- The reply that a response stands for. -/
def read (call : ApiCall) (url : Text) : Response → Except ApiError call.Reply
  | .failed reason => .error (.network call.method url reason)
  | .answered status body next =>
    if status = 202 then .error .postponed
    else if 200 ≤ status && status ≤ 299 then (call.decode body next).mapError .payload
    else .error (.refused call.method url status (.ofBody body))

end ApiCall

/-- The server of a repository that answers by a script. A listing takes a response for each page,
so the number of responses bounds it. -/
def Repository.server (repository : Repository) (token : Text) : Server Script where
  answer call script :=
    match call.request repository token with
    | .error fault => (.error (.address fault), script)
    | .ok request =>
      let (response, script) := script.send request
      (call.read request.url response, script)
  pageLimit script := script.responses.length + 1

end Enclosure
