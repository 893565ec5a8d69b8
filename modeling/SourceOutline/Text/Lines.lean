/-
**Line numbers.**

Lines are counted from one, and only a line feed ends a line.  The line of an offset is found in
two ways: by counting the line feeds before it, and by bisection of the recorded positions of all
line feeds, which serves many look-ups in one text.

Main definitions:

* `Text.lineNumber` — by counting;
* `Text.newlinesFrom`, `Text.LineIndex`, `Text.LineIndex.lineOf` — by bisection.

Main results:

* `Text.one_le_lineNumber`, `Text.LineIndex.one_le_lineOf` — the first line has number one.
-/

import SourceOutline.Text.Basic
import SourceOutline.Text.Bisect

set_option autoImplicit false

namespace SourceOutline.Text

/-- One more than the number of line feeds before the position that `offset` means. -/
def lineNumber (text : List Char) (offset : Int) : Nat :=
  (text.take (clamp text.length offset)).count '\n' + 1

/-- The positions of the line feeds of `text`, where the first character has position `pos`. -/
def newlinesFrom (pos : Nat) : List Char → List Nat
  | [] => []
  | c :: rest => if c == '\n' then pos :: newlinesFrom (pos + 1) rest else newlinesFrom (pos + 1) rest

/-- The positions of the line feeds of a text, in increasing order. -/
structure LineIndex where
  newlines : Array Nat

/-- The index of a text. -/
def LineIndex.ofText (text : List Char) : LineIndex :=
  ⟨(newlinesFrom 0 text).toArray⟩

/-- One more than the number of recorded line feeds before `offset`. -/
def LineIndex.lineOf (index : LineIndex) (offset : Int) : Nat :=
  boundary (fun pos : Nat => decide ((pos : Int) < offset)) index.newlines + 1

theorem one_le_lineNumber (text : List Char) (offset : Int) : 1 ≤ lineNumber text offset :=
  Nat.le_add_left ..

theorem LineIndex.one_le_lineOf (index : LineIndex) (offset : Int) : 1 ≤ index.lineOf offset :=
  Nat.le_add_left ..

theorem newlinesFrom_length (pos : Nat) (text : List Char) :
    (newlinesFrom pos text).length = text.count '\n' := by
  induction text generalizing pos with
  | nil => rfl
  | cons c rest ih => by_cases h : c = '\n' <;> simp [newlinesFrom, h, ih]

/-- No line number exceeds the number of lines. -/
theorem LineIndex.lineOf_le (text : List Char) (offset : Int) :
    (ofText text).lineOf offset ≤ text.count '\n' + 1 := by
  have h := boundary_le_size (fun pos : Nat => decide ((pos : Int) < offset)) (ofText text).newlines
  have hsize : (ofText text).newlines.size = text.count '\n' := by
    simp [ofText, newlinesFrom_length]
  exact Nat.succ_le_succ (hsize ▸ h)

end SourceOutline.Text
