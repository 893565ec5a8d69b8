/-
**Heads of declarations.**

A declaration begins a line, perhaps indented, and may have a comment just above it: one block
comment, or a run of line comments.

Main definitions:

* `Declaration.LeadingComment`, `Declaration.leadingComment` — the comment above a declaration;
* `Declaration.Header`, `Declaration.header` — a declaration's head with its comment;
* `Declaration.parameters` — a list of parameters between parentheses.
-/

import SourceOutline.Comment
import SourceOutline.Pattern.Derived

set_option autoImplicit false

namespace SourceOutline.Declaration

open Text Pattern

/-! ### Comments -/

/-- The comment above a declaration. -/
inductive LeadingComment where
  /-- A block comment; what stands between its delimiters. -/
  | block (body : Capture)
  /-- A run of line comments. -/
  | lines (run : Capture)

/-- The summary of a comment. -/
def LeadingComment.summary? : LeadingComment → Option (List Char)
  | block body => Comment.summary? (some body.text) none
  | lines run => Comment.summary? none (some run.text)

/-- A block comment with the blanks around it. -/
def blockComment : Pattern LeadingComment := do
  blanks
  word "/**"
  let body ← captured (upTo ['*', '/'])
  word "*/"
  blanks
  return .block body

/-- A line that holds nothing but a comment. -/
def commentLine : Pattern Unit := do
  padding
  word "//"
  many fun c => c != '\r' && c != '\n'
  let _ ← optional (word "\r")
  word "\n"

/-- Lines that hold nothing but comments. -/
def lineComments : Pattern LeadingComment := do
  blanks
  lineStart
  let run ← captured do
    commentLine
    star commentLine
  return .lines run

/-- The comment above a declaration, if there is one. -/
def leadingComment : Pattern (Option LeadingComment) :=
  optional (blockComment <|> lineComments)

/-! ### Heads -/

/-- A declaration's head: its comment, the place of its first word, and what it says. -/
structure Header (α : Type) where
  comment : Option LeadingComment
  start : Cursor
  parts : α

/-- The summary of the comment above. -/
def Header.summary? {α : Type} (header : Header α) : Option String :=
  (header.comment.bind LeadingComment.summary?).map String.ofList

/-- A head that begins a line, with the comment above it. -/
def header {α : Type} (parts : Pattern α) : Pattern (Header α) := do
  let comment ← leadingComment
  lineStart
  padding
  let start ← here
  let parts ← parts
  return ⟨comment, start, parts⟩

/-- What stands between a name and the brace of a body: parameters between parentheses, and blanks.
No parenthesis may stand among the parameters. -/
def parameters : Pattern Capture := do
  blanks
  word "("
  let inner ← captured (many (· != ')'))
  word ")"
  blanks
  word "\x7b"
  return inner

/-- A keyword that may be absent, with blanks after it. -/
def optionalKeyword (keyword : String) : Pattern Bool := do
  let found ← optional do
    word keyword
    gap
  return found.isSome

end SourceOutline.Declaration
