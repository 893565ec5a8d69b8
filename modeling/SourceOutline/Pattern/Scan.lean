/-
**Scanning a text.**

A scan walks through a text from left to right, tries a pattern at each place and lists what it
finds.  After a find it goes on at a place that the caller chooses, usually the end of the find, so
finds do not overlap.

Main definitions:

* `Pattern.Find` — one find: its offset, its two ends and what was found;
* `Pattern.scan` — all finds, with a choice of where to go on;
* `Pattern.findAll` — all finds that do not overlap.
-/

import SourceOutline.Pattern.Basic

set_option autoImplicit false

namespace SourceOutline.Pattern

/-- What a scan found at a place. -/
structure Find (α : Type) where
  /-- How many characters of the text precede the find. -/
  offset : Nat
  start : Cursor
  stop : Cursor
  value : α

namespace Find
variable {α : Type}

/-- The characters of the find. -/
def text (find : Find α) : List Char :=
  Capture.text ⟨find.start, find.stop⟩

/-- The offset at which the find ends. -/
def stopOffset (find : Find α) : Nat :=
  find.offset + find.start.gap find.stop

/-- The offset of a place within the find. -/
def offsetOf (find : Find α) (place : Cursor) : Nat :=
  find.offset + find.start.gap place

end Find

/-- The finds of a pattern in `rest`, whose first character has offset `pos`.  The next `skip`
characters are passed over.  After a find the scan goes on at the offset `resume` gives, and in any
case at a later place. -/
def scan {α : Type} (p : Pattern α) (resume : Find α → Nat) :
    (pos skip : Nat) → (before : Option Char) → (rest : List Char) → List (Find α)
  | _, _ + 1, _, [] => []
  | pos, skip + 1, _, x :: rest => scan p resume (pos + 1) skip (some x) rest
  | pos, 0, before, [] =>
    match p.first? ⟨before, []⟩ with
    | some (value, stop) => [⟨pos, ⟨before, []⟩, stop, value⟩]
    | none => []
  | pos, 0, before, x :: rest =>
    match p.first? ⟨before, x :: rest⟩ with
    | some (value, stop) =>
      let find : Find α := ⟨pos, ⟨before, x :: rest⟩, stop, value⟩
      -- the character here is passed over in any case, so the scan ends
      find :: scan p resume (pos + 1) (resume find - (pos + 1)) (some x) rest
    | none => scan p resume (pos + 1) 0 (some x) rest

/-- The finds of a pattern in a text, from left to right and without overlap. -/
def findAll {α : Type} (p : Pattern α) (text : List Char) : List (Find α) :=
  scan p Find.stopOffset 0 0 none text

end SourceOutline.Pattern
