/-
**Tables of code-point ranges.**

A property of characters is written down as the increasing list of the ranges that have it, both
ends included.

Main definitions:

* `Text.CodeRanges` — such a table;
* `Text.CodeRanges.holds` — whether a character has the property.
-/

import SourceOutline.Text.Bisect

set_option autoImplicit false

namespace SourceOutline.Text

/-- Increasing, disjoint ranges of code points, both ends included. -/
abbrev CodeRanges : Type := Array (Nat × Nat)

/-- Whether some range of the table holds the character.  Only the first range that does not end
before the character can. -/
def CodeRanges.holds (table : CodeRanges) (c : Char) : Bool :=
  match table[boundary (fun range : Nat × Nat => decide (range.2 < c.toNat)) table]? with
  | some range => decide (range.1 ≤ c.toNat)
  | none => false

end SourceOutline.Text
