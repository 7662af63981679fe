/-!
# Byte texts

Everything this library reads or writes — sources, diffs, file names, comments — is a sequence of
bytes that is usually, but not always, UTF-8. A `Text` is such a sequence. String literals stand
for their UTF-8 encoding through a coercion, so that fixed wording can be written plainly.

## Main definitions

* `Text.ofString`: the bytes of a string literal.
* `Text.splitAt`: the pieces between the occurrences of one byte, and `Text.lines` for newlines.
* `Text.cut`: the parts before and after the first occurrence of a text.
* `Text.join`: pieces put together with a separator.
-/

namespace Enclosure

/-- A sequence of bytes, usually UTF-8. -/
abbrev Text := List UInt8

namespace Text

/-- The UTF-8 bytes of a string. -/
def ofString (s : String) : Text :=
  s.toList.flatMap String.utf8EncodeChar

instance : Coe String Text := ⟨ofString⟩

/-- The byte that ends a line. -/
def newline : UInt8 := 10

/-- The byte between the elements of a path. -/
def slash : UInt8 := 47

/-- Puts one more byte in front of the first of some pieces. -/
def consFirst (b : UInt8) : List Text → List Text
  | [] => [[b]]
  | p :: ps => (b :: p) :: ps

/-- The pieces between the occurrences of `sep`, in order. There is one piece more than there are
occurrences, so the empty text has one empty piece. -/
def splitAt (sep : UInt8) (t : Text) : List Text :=
  t.foldr (fun b ps => if b = sep then [] :: ps else consFirst b ps) [[]]

/-- The lines of a text: the pieces between its newlines. A text that ends in a newline has an
empty last line. -/
def lines (t : Text) : List Text :=
  splitAt newline t

/-- Pieces put together with `sep` between neighbours. -/
def join (sep : Text) (ps : List Text) : Text :=
  ps.intersperse sep |>.flatten

/-- Looks for the first occurrence of `pat`; `acc` holds, in reverse, what stands before. -/
def cutFrom (pat : Text) (acc : Text) : Text → Option (Text × Text)
  | [] => if pat.isEmpty then some (acc.reverse, []) else none
  | b :: t =>
    match pat.isPrefixOf? (b :: t) with
    | some rest => some (acc.reverse, rest)
    | none => cutFrom pat (b :: acc) t

/-- The parts before and after the first occurrence of `pat`, if there is one. -/
def cut (pat t : Text) : Option (Text × Text) :=
  cutFrom pat [] t

/-- Whether `pat` occurs somewhere in the text. -/
def hasInfix (pat t : Text) : Bool :=
  (cut pat t).isSome

/-- Whether the text starts with `pat`. -/
def startsWith (t pat : Text) : Bool :=
  pat.isPrefixOf t

/-- Whether the text ends in `pat`. -/
def endsWith (t pat : Text) : Bool :=
  pat.isSuffixOf t

/-- The text less `pat` if it starts with it, else the text itself. -/
def dropFirst (t pat : Text) : Text :=
  (pat.isPrefixOf? t).getD t

/-- The text less `pat` if it ends in it, else the text itself. -/
def dropFinal (t pat : Text) : Text :=
  (pat.isSuffixOf? t).getD t

/-- `n` copies of a text, one after the other. -/
def copies (n : Nat) (t : Text) : Text :=
  (List.replicate n t).flatten

/-- The bytewise order of texts: a text comes before its extensions. -/
def le : Text → Text → Bool
  | [], _ => true
  | _ :: _, [] => false
  | a :: s, b :: t => a < b || (a == b && le s t)

/-- Texts in bytewise order, equal ones kept in the order given. -/
def sort (ts : List Text) : List Text :=
  ts.mergeSort le

/-- A lower-case or upper-case ASCII letter. -/
def isLetter (b : UInt8) : Bool :=
  (65 ≤ b && b ≤ 90) || (97 ≤ b && b ≤ 122)

/-- An ASCII decimal digit. -/
def isDigit (b : UInt8) : Bool :=
  48 ≤ b && b ≤ 57

/-- An ASCII letter, digit or underscore. -/
def isWord (b : UInt8) : Bool :=
  isLetter b || isDigit b || b == 95

/-- The lower-case form of an ASCII letter; any other byte is kept. -/
def lowerByte (b : UInt8) : UInt8 :=
  if 65 ≤ b && b ≤ 90 then b + 32 else b

end Text

end Enclosure
