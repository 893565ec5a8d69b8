/-
**Summaries of comments.**

The comment just above a declaration is reduced to one line: the first lines that describe, without
the marks that make them a comment.  A text of more than a hundred characters is cut at its first
full stop.

Main definitions:

* `Comment.docLines`, `Comment.plainLines` — the lines of a block comment, and of a run of line
  comments, without their marks;
* `Comment.gather`, `Comment.digest` — the descriptive lines joined, and nothing if there are none;
* `Comment.summary?` — the summary of a block comment or else of line comments.
-/

import SourceOutline.Text.Basic

set_option autoImplicit false

namespace SourceOutline.Comment

open Text

/-! ### Lines without marks -/

/-- A trimmed line without the mark it begins with, if it does. -/
def dropMark (mark line : List Char) : List Char :=
  match dropPrefix? mark (trimLeft line) with
  | some rest => trim rest
  | none => trim line

/-- The body of a block comment that may still have its opening mark: blanks, a slash and two stars,
and perhaps an exclamation mark. -/
def dropOpening (text : List Char) : List Char :=
  match dropPrefix? ['/', '*', '*'] (trimLeft text) with
  | some ('!' :: rest) => rest
  | some rest => rest
  | none => text

/-- The body of a block comment that may still have its closing mark and blanks after it. -/
def dropClosing (text : List Char) : List Char :=
  match dropPrefix? ['/', '*'] (text.reverse.dropWhile isBlank) with
  | some rest => rest.reverse
  | none => text

/-- The lines of a block comment, given with or without its delimiters.  A leading exclamation mark
belongs to the opening. -/
def docLines (text : List Char) : List (List Char) :=
  let body :=
    match dropClosing (dropOpening text) with
    | '!' :: rest => rest
    | body => body
  (splitOn '\n' (trim body)).map (dropMark ['*'])

/-- The lines of a run of line comments. -/
def plainLines (text : List Char) : List (List Char) :=
  (splitOn '\n' (trim text)).map (dropMark ['/', '/'])

/-! ### The summary -/

/-- Summaries longer than this end at their first full stop. -/
def maxLength : Nat := 100

/-- The text up to its first full stop, which is included. -/
def firstSentence (text : List Char) : List Char :=
  text.takeWhile (· != '.') ++ ['.']

/-- A summary and one more line. -/
def joinLine (summary line : List Char) : List Char :=
  if summary.isEmpty then line else summary ++ ' ' :: line

/-- Adds lines to a summary until a tag, an empty line after some text, or a sentence that ends a
text that has grown too long. -/
def gather (summary : List Char) : List (List Char) → List Char
  | [] => summary
  | line :: rest =>
    if line.head? == some '@' then
      summary
    else if line.isEmpty then
      if summary.isEmpty then gather summary rest else summary
    else
      let longer := joinLine summary line
      if longer.length > maxLength && longer.contains '.' then
        firstSentence longer
      else
        gather longer rest

/-- The summary of cleaned lines, if they hold any text. -/
def digest (lines : List (List Char)) : Option (List Char) :=
  let summary := trim (gather [] lines)
  if summary.isEmpty then none else some summary

/-- The summary of a block comment, or of line comments where there is no block comment.  An empty
comment counts as none. -/
def summary? (doc lineComments : Option (List Char)) : Option (List Char) :=
  match doc with
  | some (c :: text) => digest (docLines (c :: text))
  | _ =>
    match lineComments with
    | some (c :: text) => digest (plainLines (c :: text))
    | _ => none

end SourceOutline.Comment
