import Enclosure.Text.Decimal
import Enclosure.Text.Rune

/-!
# JSON values and their text

A JSON value is written without any blanks and with the members of an object in the order given.
Between the quotes of a string a short escape or a numbered one stands for each control character, a
numbered one for the line separators of Unicode and for a stray byte, and, where the text may end up
in a page, also for the characters that markup is made of. All other characters stand for
themselves, so no written value holds a newline.

## Main definitions

* `Json`: a JSON value.
* `Json.quote`: a string between quotes.
* `Json.render`: the text of a value.
-/

namespace Enclosure

/-- A JSON value. Numbers are integers as far as they are written here, and are kept as spelled. -/
inductive Json where
  | null
  | bool (b : Bool)
  | number (token : Text)
  | string (t : Text)
  | array (items : List Json)
  | object (members : List (Text × Json))
deriving Repr

namespace Json

/-- An integer. -/
def int (n : Int) : Json :=
  number (Text.ofInt n)

/-- The letters of the short escapes and the characters they stand for. -/
def shortEscapes : List (UInt8 × UInt8) :=
  [(34, 34), (92, 92), (98, 8), (102, 12), (110, 10), (114, 13), (116, 9)]

/-- The characters that markup is made of. -/
def isMarkup (c : Char) : Bool :=
  c == '<' || c == '>' || c == '&'

/-- The two line separators beyond the control characters. -/
def isLineSeparator (c : Char) : Bool :=
  c == '\u2028' || c == '\u2029'

/-- How a rune is written between quotes. -/
def quoteRune (escapeMarkup : Bool) : Rune → Text
  | .stray _ => "\\ufffd"
  | .scalar c =>
    match shortEscapes.find? (fun e => e.2.toNat == c.toNat) with
    | some (letter, _) => [92, letter]
    | none =>
      if c.toNat < 32 || isLineSeparator c || (escapeMarkup && isMarkup c) then
        "\\u" ++ Text.hex 4 c.toNat
      else String.utf8EncodeChar c

/-- A string between quotes. -/
def quote (escapeMarkup : Bool) (t : Text) : Text :=
  34 :: (t.runes.flatMap (quoteRune escapeMarkup) ++ [34])

mutual

/-- The text of a value. -/
def renderWith (escapeMarkup : Bool) : Json → Text
  | null => "null"
  | bool b => if b then "true" else "false"
  | number token => token
  | string t => quote escapeMarkup t
  | array items => "[" ++ renderItems escapeMarkup items ++ "]"
  | object members => "\x7b" ++ renderMembers escapeMarkup members ++ "\x7d"

/-- The items of an array with commas between them. -/
def renderItems (escapeMarkup : Bool) : List Json → Text
  | [] => []
  | [v] => renderWith escapeMarkup v
  | v :: vs => renderWith escapeMarkup v ++ "," ++ renderItems escapeMarkup vs

/-- The members of an object with commas between them. -/
def renderMembers (escapeMarkup : Bool) : List (Text × Json) → Text
  | [] => []
  | [(name, v)] => quote escapeMarkup name ++ ":" ++ renderWith escapeMarkup v
  | (name, v) :: rest =>
    quote escapeMarkup name ++ ":" ++ renderWith escapeMarkup v ++ ","
      ++ renderMembers escapeMarkup rest

end

/-- The text of a value that may end up in a page. -/
def render (v : Json) : Text :=
  v.renderWith true

/-- The text of a value that a server reads. -/
def renderPlain (v : Json) : Text :=
  v.renderWith false

end Json

end Enclosure
