/-
**Source files.**

The text of a file, the name under which records refer to it, and the index of its lines.

Main definitions:

* `SourceFile`, `SourceFile.ofText` — a file and its index;
* `SourceFile.lineOf`, `SourceFile.extent` — the line of an offset, and the lines of a range.
-/

import SourceOutline.Position
import SourceOutline.Text.Lines

set_option autoImplicit false

namespace SourceOutline

open Text

/-- A file under the name that records give it.  The index of lines is that of the text. -/
structure SourceFile where
  path : String
  text : List Char
  lines : LineIndex
  lines_eq : lines = LineIndex.ofText text

namespace SourceFile

/-- The file with a given name and text. -/
def ofText (path : String) (text : List Char) : SourceFile :=
  ⟨path, text, LineIndex.ofText text, rfl⟩

/-- The line of an offset. -/
def lineOf (file : SourceFile) (offset : Int) : Nat :=
  file.lines.lineOf offset

/-- The lines from that of one offset to that of another. -/
def extent (file : SourceFile) (first last : Int) : Extent :=
  ⟨file.lineOf first, file.lineOf last⟩

@[simp]
theorem ofText_path (path : String) (text : List Char) : (ofText path text).path = path := rfl

@[simp]
theorem ofText_text (path : String) (text : List Char) : (ofText path text).text = text := rfl

end SourceFile

end SourceOutline
