/-
**Code points.**

An escape in a document can name a number that is reserved for halves of pairs of sixteen-bit units.
Such a number is a code point though it is no character, and a text that holds one is unlike every
text of characters.

Main definitions:

* `Text.CodePoint` — a character, or a half of a pair;
* `Text.CodePoint.ofText`, `Text.CodePoint.text?` — texts of characters as texts of code points, and
  back.
-/

set_option autoImplicit false

namespace SourceOutline.Text

/-- A character, or the number of a half of a pair. -/
inductive CodePoint where
  | char (c : Char)
  | half (n : Nat)
  deriving DecidableEq, Repr

namespace CodePoint

/-- The code points of a text of characters. -/
def ofText (text : List Char) : List CodePoint :=
  text.map char

/-- The character that a code point is, if it is one. -/
def char? : CodePoint → Option Char
  | char c => some c
  | half _ => none

/-- The text of characters that code points make up, if no half is among them. -/
def text? : List CodePoint → Option (List Char)
  | [] => some []
  | point :: rest => do
    let c ← point.char?
    let text ← text? rest
    return c :: text

end CodePoint

end SourceOutline.Text
