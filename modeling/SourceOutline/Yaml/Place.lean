/-
**Places in a document.**

The layout of a document depends on lines and columns, so a place carries both along with the
characters that follow.  Line ends are taken to be unified already; besides the line feed, the next
line, line separator and paragraph separator characters end a line.

Main definitions:

* `Yaml.isBreak` — the characters that end a line;
* `Yaml.endsLine`, `Yaml.endsWord`, `Yaml.endsName` — what may follow a line, a word and a name;
* `Yaml.Place`, `Yaml.Place.advance`, `Yaml.Place.takeWhile` — places and moving on;
* `Yaml.Place.lineBreak?` — a line end here;
* `Yaml.isSeparator` — the marks that separate documents.
-/

set_option autoImplicit false

namespace SourceOutline.Yaml

/-! ### Characters -/

/-- The characters that end a line. -/
def isBreak (c : Char) : Bool :=
  c == '\n' || c == '\x85' || c == '\u2028' || c == '\u2029'

/-- The line end that a text shows for a character that ends a line: a line feed unless the
character is a separator of its own. -/
def shownBreak (c : Char) : Char :=
  if c == '\x85' then '\n' else c

/-- Whether a line ends before the next character. -/
def endsLine (next : Option Char) : Bool :=
  next.all isBreak

/-- Whether a name ends before the next character: at a space or the end of the line. -/
def endsName (next : Option Char) : Bool :=
  next.all fun c => isBreak c || c == ' '

/-- Whether a word ends before the next character: at a space, a tab or the end of the line. -/
def endsWord (next : Option Char) : Bool :=
  next.all fun c => isBreak c || c == ' ' || c == '\t'

/-- The characters of names: ASCII letters, digits, hyphen and underscore. -/
def isNameChar (c : Char) : Bool :=
  c.isAlphanum || c == '-' || c == '_'

/-! ### Places -/

/-- What follows, and where it stands: the number of characters before it, its line and its column,
all counted from zero. -/
structure Place where
  rest : List Char
  index : Nat
  line : Nat
  column : Nat
  deriving DecidableEq, Repr

namespace Place

/-- The beginning of a text. -/
def ofText (text : List Char) : Place :=
  ⟨text, 0, 0, 0⟩

/-- The character that follows after `k` others. -/
def peek (p : Place) (k : Nat) : Option Char :=
  p.rest[k]?

/-- The next character. -/
def next (p : Place) : Option Char :=
  p.rest.head?

/-- The place after one more character; a byte order mark has no width. -/
def step (p : Place) : Place :=
  match p.rest with
  | [] => p
  | c :: rest =>
    if isBreak c then ⟨rest, p.index + 1, p.line + 1, 0⟩
    else if c == '\uFEFF' then ⟨rest, p.index + 1, p.line, p.column⟩
    else ⟨rest, p.index + 1, p.line, p.column + 1⟩

/-- The place after a number of characters. -/
def advance (p : Place) : Nat → Place
  | 0 => p
  | n + 1 => p.step.advance n

/-- The longest run of characters that pass a test, and the place after it. -/
def takeWhile (p : Place) (test : Char → Bool) : List Char × Place :=
  let run := p.rest.takeWhile test
  (run, p.advance run.length)

/-- The place after the longest run of characters that pass a test. -/
def skipWhile (p : Place) (test : Char → Bool) : Place :=
  (p.takeWhile test).2

/-- The place after any spaces. -/
def skipSpaces (p : Place) : Place :=
  p.skipWhile (· == ' ')

/-- The place at the end of the line. -/
def skipLine (p : Place) : Place :=
  p.skipWhile (!isBreak ·)

/-- The line end that stands here, and the place after it. -/
def lineBreak? (p : Place) : Option (Char × Place) :=
  match p.rest with
  | c :: _ => if isBreak c then some (shownBreak c, p.step) else none
  | [] => none

end Place

/-- Whether a text begins with three given characters and a word ends after them. -/
def beginsMark (mark : List Char) (text : List Char) : Bool :=
  mark.isPrefixOf text && endsWord text[mark.length]?

/-- Whether a text begins with a mark that separates documents. -/
def isSeparator (text : List Char) : Bool :=
  beginsMark ['-', '-', '-'] text || beginsMark ['.', '.', '.'] text

end SourceOutline.Yaml
