import Enclosure.Timestamp.Layout

/-!
# Pull requests and their comments

What is known of a pull request: its number and the two commits it lies between. Its comments come
in pages, and each page names the one after it.

## Main definitions

* `PullRequest`, `Comment`, `CommentPage`: what a server tells.
* `Comment.isSince`: whether a comment is recent enough.
-/

namespace Enclosure

/-- A pull request: the commit it starts from and the commit it proposes. -/
structure PullRequest where
  number : Int
  base : Text
  head : Text
deriving DecidableEq, Repr

/-- A comment on a pull request. -/
structure Comment where
  id : Int
  body : Text
  created : Instant
deriving DecidableEq, Repr

/-- Some of the comments on a pull request, and the page with more of them; zero if there are no
more. -/
structure CommentPage where
  comments : List Comment
  next : Int
deriving DecidableEq, Repr

/-- A pull request of which nothing is told. -/
def PullRequest.blank : PullRequest :=
  ⟨0, [], []⟩

namespace Comment

/-- A comment of which nothing is told. -/
def blank : Comment :=
  ⟨0, [], .zero⟩

/-- Whether a comment is not older than a point in time; without one, every comment is. -/
def isSince (since : Option Instant) (c : Comment) : Bool :=
  match since with
  | none => true
  | some i => !c.created.before i

end Comment

end Enclosure
