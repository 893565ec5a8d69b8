/-
**Matching braces.**

A block ends at the brace that closes it.  Braces are counted wherever they stand, inside literals
and comments too.

Main definitions:

* `Text.closeFrom` — the closing brace ahead, at a given depth of nesting;
* `Text.closingBrace?` — the closing brace of the block at a position;
* `Text.closingBraceFrom` — the same where the search may start before the text, counted from its
  end.

Main results:

* `Text.closeFrom_open`, `Text.closeFrom_close`, `Text.closeFrom_other` — one step of the count;
* `Text.closeFrom_add` — the answer moves with the text.
-/

import SourceOutline.Text.Basic

set_option autoImplicit false

namespace SourceOutline.Text

/-- The position of the first closing brace that brings the depth to zero, if there is one; the
text's first character has position `pos`. -/
def closeFrom (depth : Int) (pos : Nat) : List Char → Option Nat
  | [] => none
  | c :: rest =>
    if c == '\x7b' then
      closeFrom (depth + 1) (pos + 1) rest
    else if c == '\x7d' then
      if depth - 1 == 0 then some pos else closeFrom (depth - 1) (pos + 1) rest
    else
      closeFrom depth (pos + 1) rest

/-- The closing brace of the block that opens at `start`. -/
def closingBrace? (text : List Char) (start : Nat) : Option Nat :=
  closeFrom 0 start (text.drop start)

/-- A position before the first character of a text. -/
structure OutOfRange where
  deriving DecidableEq, Repr

/-- The closing brace for a search that starts at any position.  A negative one counts from the end
of the text, and the search then runs on through the text from its first character. -/
def closingBraceFrom (text : List Char) (start : Int) : Except OutOfRange (Option Int) :=
  if start < 0 then
    if start + text.length < 0 then
      .error ⟨⟩
    else
      -- the end of the text from `start` on, then the whole text
      let wrapped := text.drop (start + text.length).toNat ++ text
      .ok ((closeFrom 0 0 wrapped).map fun ahead => start + ahead)
  else
    .ok ((closingBrace? text start.toNat).map fun pos => (pos : Int))

/-! ### One step of the count -/

@[simp]
theorem closeFrom_nil (depth : Int) (pos : Nat) : closeFrom depth pos [] = none := rfl

theorem closeFrom_open (depth : Int) (pos : Nat) (rest : List Char) :
    closeFrom depth pos ('\x7b' :: rest) = closeFrom (depth + 1) (pos + 1) rest := rfl

theorem closeFrom_close (depth : Int) (pos : Nat) (rest : List Char) :
    closeFrom depth pos ('\x7d' :: rest) =
      if depth - 1 == 0 then some pos else closeFrom (depth - 1) (pos + 1) rest := rfl

theorem closeFrom_other (depth : Int) (pos : Nat) {c : Char} (rest : List Char) (h : c ≠ '\x7b')
    (h' : c ≠ '\x7d') : closeFrom depth pos (c :: rest) = closeFrom depth (pos + 1) rest := by
  simp [closeFrom, h, h']

/-- Positions are counted from `pos`. -/
theorem closeFrom_add (depth : Int) (pos k : Nat) (text : List Char) :
    closeFrom depth (pos + k) text = (closeFrom depth pos text).map (· + k) := by
  induction text generalizing depth pos with
  | nil => rfl
  | cons c rest ih =>
      have ih' := fun depth => ih depth (pos + 1)
      simp only [closeFrom, Nat.add_right_comm pos k 1, ih']
      split
      · rfl
      · split
        · split <;> rfl
        · rfl

end SourceOutline.Text
