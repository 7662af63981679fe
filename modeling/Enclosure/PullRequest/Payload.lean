import Enclosure.PullRequest.Basic
import Enclosure.PullRequest.Schema

/-!
# Pull requests and comments as a server sends them

A payload has to have the shape that is expected of it. Then an object is taken member by member:
the last of several members of one name wins, and a member that is null takes back what was told. A
blank text tells nothing.

## Main definitions

* `Payload.pull`, `Payload.comment`, `Payload.comments`: what a payload tells.
* `Payload.decode`: what a payload tells if it has the shape that is expected.
* `Refusal.ofBody`: what a server says when it refuses something.
-/

namespace Enclosure

namespace Payload

/-- What is told in the end, where the members of an object tell one thing after the other. Null
takes everything back. -/
def members {α : Type} (blank old : α) (tell : α → Text × Json → α) : Json → α
  | .null => blank
  | .object members => members.foldl tell old
  | _ => old

/-- The integer that is told after an old one. -/
def integer (old : Int) : Json → Int
  | .null => 0
  | .number token => (Text.decimal token).toOption.getD old
  | _ => old

/-- The text that is told after an old one. -/
def text (old : Text) : Json → Text
  | .null => []
  | .string t => t
  | _ => old

/-- The point in time that is told after an old one. -/
def instant (old : Instant) : Json → Instant
  | .null => .zero
  | v => (readInstant v).toOption.getD old

/-- The commit of a branch. -/
def branch (old : Text) : Json → Text :=
  members [] old fun sha member => if isNamed "sha" member then text sha member.2 else sha

/-- A pull request. -/
def pull : Json → PullRequest :=
  members .blank .blank fun pull member =>
    if isNamed "number" member then { pull with number := integer pull.number member.2 }
    else if isNamed "base" member then { pull with base := branch pull.base member.2 }
    else if isNamed "head" member then { pull with head := branch pull.head member.2 }
    else pull

/-- A comment. -/
def comment : Json → Comment :=
  members .blank .blank fun c member =>
    if isNamed "id" member then { c with id := integer c.id member.2 }
    else if isNamed "body" member then { c with body := text c.body member.2 }
    else if isNamed "created_at" member then { c with created := instant c.created member.2 }
    else c

/-- A list of comments. -/
def comments : Json → List Comment
  | .array items => items.map comment
  | _ => []

/-- What the first value of a body tells, if it has the shape that is expected. -/
def decode {α : Type} (shape : Shape) (tell : Json → α) (body : Text) : Except PayloadFault α :=
  match Json.first? body with
  | .error fault => .error (.noJson fault)
  | .ok v =>
    let v := v.getD .null
    match PayloadFault.reported? (shape.faults "value" [] v) with
    | some fault => .error fault
    | none => .ok (tell v)

end Payload

/-! ### Refusals -/

/-- One of the reasons that a server gives for a refusal. -/
structure RefusalDetail where
  resource : Text
  field : Text
  code : Text
  message : Text
deriving DecidableEq, Repr

/-- What a server says when it refuses something. -/
structure Refusal where
  message : Text
  details : List RefusalDetail
deriving DecidableEq, Repr

/-- The detail in words. -/
def RefusalDetail.shown (d : RefusalDetail) : Text :=
  "\x7bResource:" ++ d.resource ++ " Field:" ++ d.field ++ " Code:" ++ d.code ++ " Message:"
    ++ d.message ++ "\x7d"

namespace Refusal

/-- A refusal without a word. -/
def blank : Refusal :=
  ⟨[], []⟩

/-- A text that may be null, in which case the old one stays. -/
def text? (old : Text) : Json → Option Text
  | .null => some old
  | .string t => some t
  | _ => none

/-- A detail with one more member. -/
def detailMember (d : RefusalDetail) (member : Text × Json) : Option RefusalDetail :=
  if Payload.isNamed "resource" member then
    (text? d.resource member.2).map fun resource => { d with resource }
  else if Payload.isNamed "field" member then
    (text? d.field member.2).map fun field => { d with field }
  else if Payload.isNamed "code" member then
    (text? d.code member.2).map fun code => { d with code }
  else if Payload.isNamed "message" member then
    (text? d.message member.2).map fun message => { d with message }
  else some d

/-- A detail, which may also be a mere message. -/
def detail? : Json → Option RefusalDetail
  | .null => some ⟨[], [], [], []⟩
  | .string message => some ⟨[], [], [], message⟩
  | .object members => members.foldlM detailMember ⟨[], [], [], []⟩
  | _ => none

/-- The details of a refusal. -/
def details? : Json → Option (List RefusalDetail)
  | .null => some []
  | .array items => items.mapM detail?
  | _ => none

/-- A refusal with one more member. -/
def member (r : Refusal) (member : Text × Json) : Option Refusal :=
  if Payload.isNamed "message" member then
    (text? r.message member.2).map fun message => { r with message }
  else if Payload.isNamed "errors" member then
    (details? member.2).map fun details => { r with details }
  else if Payload.isNamed "documentation_url" member then
    (text? [] member.2).map fun _ => r
  else some r

/-- The refusal that a value tells. -/
def ofJson? : Json → Option Refusal
  | .null => some blank
  | .object members => members.foldlM member blank
  | _ => none

/-- The refusal that a body tells. A body that is not well formed tells nothing. -/
def ofBody (body : Text) : Refusal :=
  ((Json.parse body).toOption.bind ofJson?).getD blank

/-- The refusal in words. -/
def shown (r : Refusal) : Text :=
  r.message ++ " [" ++ Text.join " " (r.details.map RefusalDetail.shown) ++ "]"

end Refusal

end Enclosure
