/-
**Hexadecimal numerals.**

Main definitions:

* `Text.hexDigit`, `Text.hex` — numerals of a fixed width, in lower case;
* `Text.hexValue?` — the value of a hexadecimal digit of either case.

Main results:

* `Text.hexValue?_hexDigit` — a digit is read back.
-/

set_option autoImplicit false

namespace SourceOutline.Text

/-- The digit for a value below sixteen. -/
def hexDigit (n : Nat) : Char :=
  if n < 10 then Char.ofNat ('0'.toNat + n) else Char.ofNat ('a'.toNat + (n - 10))

/-- The last `width` hexadecimal digits of a number. -/
def hex : (width n : Nat) → List Char
  | 0, _ => []
  | width + 1, n => hex width (n / 16) ++ [hexDigit (n % 16)]

/-- The value of a hexadecimal digit. -/
def hexValue? (c : Char) : Option Nat :=
  if c.isDigit then some (c.toNat - '0'.toNat)
  else if 'a' ≤ c && c ≤ 'f' then some (c.toNat - 'a'.toNat + 10)
  else if 'A' ≤ c && c ≤ 'F' then some (c.toNat - 'A'.toNat + 10)
  else none

theorem hexValue?_hexDigit {n : Nat} (h : n < 16) : hexValue? (hexDigit n) = some n := by
  have all : ∀ k ∈ List.range 16, hexValue? (hexDigit k) = some k := by decide
  exact all n (List.mem_range.mpr h)

end SourceOutline.Text
