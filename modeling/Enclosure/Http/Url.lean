import Enclosure.Text.Quoted

/-!
# Relative references and the addresses they lead to

A *relative reference* is a path, then a query after the first question mark, then a fragment after
the first number sign. The bytes of a path or fragment that cannot stand for themselves are written
as percent escapes. A path that is already written so is kept as it is; otherwise it is decoded and
written anew.

A reference leads from a site to an address: its path is followed from the root of the site, where
an element `.` stays and an element `..` goes back up.

## Main definitions

* `UrlFault`: why a text is no reference.
* `Reference.parse`: reads a reference.
* `Reference.shown`: a reference as text.
* `Reference.address`: the address of a reference at a site.
-/

namespace Enclosure

/-- Why a text is no reference. -/
inductive UrlFault where
  /-- A control character stands in front of the fragment. -/
  | control (text : Text)
  /-- A percent sign has no two hexadecimal digits behind it. -/
  | badEscape (text escape : Text)
deriving DecidableEq, Repr

/-- The wording of a fault. -/
def UrlFault.message : UrlFault → Text
  | control text => "parse " ++ text.quoted ++ ": net/url: invalid control character in URL"
  | badEscape text escape =>
    "parse " ++ text.quoted ++ ": invalid URL escape " ++ escape.quoted

namespace Percent

/-- Letters, digits and the four marks that are never escaped. -/
def isUnreserved (b : UInt8) : Bool :=
  Text.isLetter b || Text.isDigit b || ("-_.~" : Text).contains b

/-- Bytes that are not escaped in a path. -/
def isPlainInPath (b : UInt8) : Bool :=
  isUnreserved b || ("$&+,/:;=@" : Text).contains b

/-- Bytes that are not escaped in a fragment. -/
def isPlainInFragment (b : UInt8) : Bool :=
  isPlainInPath b || ("?!()*" : Text).contains b

/-- Bytes that may stand in a path or fragment that is written already. -/
def isTolerated (b : UInt8) : Bool :=
  ("!$&'()*+,;=:@[]%" : Text).contains b

/-- A byte as a percent escape. -/
def escapeByte (b : UInt8) : Text :=
  37 :: (Text.hex 2 b.toNat).map Text.upperByte

/-- The text with all bytes escaped that are not plain. -/
def encode (isPlain : UInt8 → Bool) (t : Text) : Text :=
  t.flatMap fun b => if isPlain b then [b] else escapeByte b

/-- The text that percent escapes stand for, or the first of them that is malformed. -/
def decode : Text → Except Text Text
  | [] => .ok []
  | b :: t =>
    if b == 37 then
      match t with
      | x :: y :: rest =>
        match Text.hexNumber? [x, y] with
        | some n => (decode rest).map (n.toUInt8 :: ·)
        | none => .error [b, x, y]
      | _ => .error (b :: t)
    else (decode t).map (b :: ·)

/-- The written form of a text with percent escapes. -/
def normalize (isPlain : UInt8 → Bool) (t : Text) : Except Text Text := do
  let decoded ← decode t
  return if t.all fun b => isPlain b || isTolerated b then t else encode isPlain decoded

end Percent

/-- A relative reference. The path and the fragment are in written form, and an empty fragment is
none. -/
structure Reference where
  path : Text
  query : Option Text
  fragment : Text
deriving DecidableEq, Repr

namespace Reference

/-- Parts the query from what stands in front of it. A question mark at the very end makes an empty
query. -/
def splitQuery (t : Text) : Text × Option Text :=
  match Text.cut "?" t with
  | none => (t, none)
  | some (before, query) => (before, some query)

/-- The control characters. -/
def isControl (b : UInt8) : Bool :=
  b < 32 || b == 127

/-- Reads a reference. -/
def parse (t : Text) : Except UrlFault Reference := do
  let (front, fragment) := (Text.cut "#" t).getD (t, [])
  if front.any isControl then throw (.control front)
  let (path, query) := splitQuery front
  let path ← (Percent.normalize Percent.isPlainInPath path).mapError (.badEscape front)
  let fragment ← (Percent.normalize Percent.isPlainInFragment fragment).mapError (.badEscape t)
  return ⟨path, query, fragment⟩

/-- The query and the fragment as text. -/
def tail (r : Reference) : Text :=
  (match r.query with
    | none => []
    | some query => 63 :: query)
  ++ (if r.fragment.isEmpty then [] else 35 :: r.fragment)

/-- The reference as text. -/
def shown (r : Reference) : Text :=
  r.path ++ r.tail

/-- Follows one element of a path from the elements before it, which are in reverse. -/
def follow (before : List Text) (e : Text) : List Text :=
  if e == "." then if before.isEmpty then [[]] else before
  else if e == ".." then before.tail
  else e :: before

/-- A path with one slash in front where there may be two. -/
def oneSlash : Text → Text
  | 47 :: 47 :: t => 47 :: t
  | t => t

/-- The path from the root of a site. An element `.` or `..` at the end leads to a directory. -/
def absolutePath (path : Text) : Text :=
  let elements := [] :: Text.splitAt Text.slash path
  let followed := Text.join "/" (elements.foldl follow []).reverse
  let last := elements.getLast?.getD []
  oneSlash (Text.slash :: (followed ++ if last == "." || last == ".." then [Text.slash] else []))

/-- The address of the reference at a site. -/
def address (site : Text) (r : Reference) : Text :=
  site ++ absolutePath r.path ++ r.tail

end Reference

end Enclosure
