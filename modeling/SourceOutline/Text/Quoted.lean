/-
**Quoted texts in messages.**

A message shows a path between single quotes, or between double quotes if it holds a single quote
and no double one.  The delimiter and the backslash are escaped, and so is every character that
cannot be printed.

Main definitions:

* `Text.delimiter` — the quote that is used;
* `Text.escaped`, `Text.escapedPoint` — one character or code point between quotes;
* `Text.quotedPoints`, `Text.quoted` — the whole.
-/

import SourceOutline.Text.CodePoint
import SourceOutline.Text.Hex
import SourceOutline.Text.Printable

set_option autoImplicit false

namespace SourceOutline.Text

/-- The quote that delimits a text in a message. -/
def delimiter (text : List Char) : Char :=
  if text.contains '\x27' && !text.contains '"' then '"' else '\x27'

/-- A character between two delimiters: escapes have two, four or eight hexadecimal digits. -/
def escaped (delimiter c : Char) : List Char :=
  if c == delimiter || c == '\\' then ['\\', c]
  else if c == '\t' then ['\\', 't']
  else if c == '\n' then ['\\', 'n']
  else if c == '\r' then ['\\', 'r']
  else if isPrintable c then [c]
  else if c.toNat ≤ 0xFF then '\\' :: 'x' :: hex 2 c.toNat
  else if c.toNat ≤ 0xFFFF then '\\' :: 'u' :: hex 4 c.toNat
  else '\\' :: 'U' :: hex 8 c.toNat

/-- A code point between two delimiters; a half of a pair is never printed. -/
def escapedPoint (delimiter : Char) : CodePoint → List Char
  | .char c => escaped delimiter c
  | .half n => '\\' :: 'u' :: hex 4 n

/-- Code points between delimiters. -/
def quotedPoints (points : List CodePoint) : String :=
  let mark := delimiter (points.filterMap CodePoint.char?)
  String.ofList (mark :: (points.flatMap (escapedPoint mark) ++ [mark]))

/-- The text between delimiters. -/
def quoted (text : String) : String :=
  quotedPoints (CodePoint.ofText text.toList)

end SourceOutline.Text
