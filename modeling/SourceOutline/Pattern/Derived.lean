/-
**Common patterns.**

The patterns that statements are put together from: words, blanks, the edges of lines and words,
identifiers and quoted literals.

Main definitions:

* `Pattern.word`, `Pattern.optional`, `Pattern.oneOrMore` — a word, a pattern that may be absent, and
  a nonempty run;
* `Pattern.blanks`, `Pattern.gap`, `Pattern.padding` — blanks, at least one blank, spaces and tabs;
* `Pattern.here`, `Pattern.lineStart`, `Pattern.lineEnd`, `Pattern.wordEdge` — places;
* `Pattern.identifier`, `Pattern.dottedName` — names;
* `Pattern.literal` — what stands between two quotes of one kind.
-/

import SourceOutline.Pattern.Basic
import SourceOutline.Text.Word

set_option autoImplicit false

namespace SourceOutline.Pattern

open Text

/-- A given word. -/
def word (s : String) : Pattern Unit :=
  exactly s.toList

/-- The pattern if it matches, and nothing otherwise. -/
def optional {α : Type} (p : Pattern α) : Pattern (Option α) :=
  (some <$> p) <|> pure none

/-- A nonempty run of characters that pass the test, as long as possible. -/
def oneOrMore (test : Char → Bool) : Pattern Unit := do
  let _ ← one test
  many test

/-! ### Blanks -/

/-- Any blanks, line feeds among them. -/
def blanks : Pattern Unit :=
  many isBlank

/-- At least one blank. -/
def gap : Pattern Unit :=
  oneOrMore isBlank

/-- Spaces and tabs. -/
def padding : Pattern Unit :=
  many isPadding

/-! ### Places -/

/-- This place. -/
def here : Pattern Cursor :=
  Capture.start <$> captured (pure ())

/-- The start of a line. -/
def lineStart : Pattern Unit :=
  edge fun before _ => before.all (· == '\n')

/-- The end of a line. -/
def lineEnd : Pattern Unit :=
  edge fun _ next => next.all (· == '\n')

/-- A place where a word begins or ends. -/
def wordEdge : Pattern Unit :=
  edge fun before next => before.any isWord != next.any isWord

/-! ### Names and literals -/

/-- An identifier, as long as possible. -/
def identifier : Pattern Capture :=
  captured do
    let _ ← one isIdentStart
    many isIdentPart

/-- Identifiers with points between them. -/
def dottedName : Pattern Capture :=
  captured do
    let _ ← identifier
    star do
      word "."
      identifier

/-- The quotes that delimit a module's name. -/
def isQuote (c : Char) : Bool :=
  c == '\x27' || c == '"'

/-- What stands between a quote and a later one of the same kind in the same line: at least one
character. -/
def literal : Pattern Capture := do
  let quote ← one isQuote
  let content ← captured (fewest (· != '\n'))
  exactly [quote]
  return content

end SourceOutline.Pattern
