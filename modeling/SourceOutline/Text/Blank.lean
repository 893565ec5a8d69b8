/-
**Blank characters.**

Blanks separate words and are dropped at the ends of a text: the characters with a bidirectional
class of white space or a separator category, control characters such as the file and unit
separators among them.

Main definitions:

* `Text.isBlank` — the blank characters;
* `Text.isPadding` — space and tab, the blanks that indent a line.
-/

set_option autoImplicit false

namespace SourceOutline.Text

/-- The blank characters. -/
def isBlank (c : Char) : Bool :=
  let n := c.toNat
  (0x09 ≤ n && n ≤ 0x0D) || (0x1C ≤ n && n ≤ 0x20) || n == 0x85 || n == 0xA0 || n == 0x1680 ||
    (0x2000 ≤ n && n ≤ 0x200A) || n == 0x2028 || n == 0x2029 || n == 0x202F || n == 0x205F ||
    n == 0x3000

/-- The characters that indent a line. -/
def isPadding (c : Char) : Bool :=
  c == ' ' || c == '\t'

theorem isBlank_of_isPadding {c : Char} (h : isPadding c = true) : isBlank c = true := by
  rcases Bool.or_eq_true_iff.mp h with h | h <;> rw [beq_iff_eq.mp h] <;> rfl

theorem isBlank_newline : isBlank '\n' = true := rfl

end SourceOutline.Text
