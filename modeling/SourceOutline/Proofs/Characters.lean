/-
**Classes of characters.**

Names, blanks and marks are told apart by their characters alone.  A character that may stand in a
name is neither blank nor one of the ASCII marks other than the underscore and the dollar sign, so a
name ends where a blank or a mark begins.

Main results:

* `Text.isBlank_eq_false_of_isIdentPart` — no blank stands in a name;
* `Text.ne_of_isIdentPart` — nor does any mark;
* `Text.isIdent_iff` — an identifier has a first character, and more that continue it.
-/

import SourceOutline.Text.Basic
import SourceOutline.Text.Word

set_option autoImplicit false

namespace SourceOutline.Text

/-! ### Blanks and names -/

/-- No blank is a word character. -/
theorem isWord_eq_false_of_isBlank {c : Char} (h : isBlank c = true) : isWord c = false := by
  -- there are twenty-nine blanks, so the table of words is asked about each of them
  have hcodes : ∀ n ∈ [0x09, 0x0A, 0x0B, 0x0C, 0x0D, 0x1C, 0x1D, 0x1E, 0x1F, 0x20, 0x85, 0xA0, 0x1680,
      0x2000, 0x2001, 0x2002, 0x2003, 0x2004, 0x2005, 0x2006, 0x2007, 0x2008, 0x2009, 0x200A, 0x2028,
      0x2029, 0x202F, 0x205F, 0x3000], isWord (Char.ofNat n) = false := by decide +kernel
  have hc : Char.ofNat c.toNat = c := Char.ofNat_toNat c
  rw [← hc]
  refine hcodes c.toNat ?_
  simp only [isBlank, Bool.or_eq_true, Bool.and_eq_true, decide_eq_true_eq, beq_iff_eq] at h
  simp only [List.mem_cons, List.not_mem_nil, or_false]
  omega

/-- No blank stands in a name. -/
theorem isBlank_eq_false_of_isIdentPart {c : Char} (h : isIdentPart c = true) :
    isBlank c = false := by
  cases hb : isBlank c with
  | false => rfl
  | true =>
      have hword : isWord c = false := isWord_eq_false_of_isBlank hb
      have hdollar : c = '$' := by simpa [isIdentPart, hword] using h
      subst hdollar
      exact absurd hb (by decide)

theorem isBlank_eq_false_of_isIdentStart {c : Char} (h : isIdentStart c = true) :
    isBlank c = false :=
  isBlank_eq_false_of_isIdentPart (isIdentPart_of_isIdentStart h)

theorem isIdentPart_eq_false_of_isBlank {c : Char} (h : isBlank c = true) :
    isIdentPart c = false := by
  cases hpart : isIdentPart c with
  | false => rfl
  | true =>
      rw [isBlank_eq_false_of_isIdentPart hpart] at h
      exact absurd h (by decide)

theorem isPadding_eq_false_of_isBlank_eq_false {c : Char} (h : isBlank c = false) :
    isPadding c = false := by
  cases hp : isPadding c with
  | false => rfl
  | true => rw [isBlank_of_isPadding hp] at h; exact h

/-- A mark does not stand in a name. -/
theorem ne_of_isIdentPart {c mark : Char} (h : isIdentPart c = true)
    (hmark : isIdentPart mark = false) : c ≠ mark := by
  rintro rfl
  rw [hmark] at h
  exact absurd h (by decide)

/-! ### Identifiers -/

theorem isIdent_iff {name : List Char} :
    isIdent name = true ↔
      ∃ c rest, name = c :: rest ∧ isIdentStart c = true ∧ ∀ x ∈ rest, isIdentPart x = true := by
  cases name with
  | nil => simp [isIdent]
  | cons c rest => simp [isIdent, and_assoc]

/-- Every character of an identifier may stand in a name. -/
theorem isIdentPart_of_mem {name : List Char} (h : isIdent name = true) :
    ∀ x ∈ name, isIdentPart x = true := by
  obtain ⟨c, rest, rfl, hc, hrest⟩ := isIdent_iff.1 h
  intro x hx
  rcases List.mem_cons.1 hx with rfl | hx
  · exact isIdentPart_of_isIdentStart hc
  · exact hrest x hx

theorem ne_nil_of_isIdent {name : List Char} (h : isIdent name = true) : name ≠ [] := by
  rintro rfl
  exact absurd h (by decide)

/-- What is no part of a name does not stand in an identifier. -/
theorem not_mem_of_isIdent {name : List Char} (h : isIdent name = true) {mark : Char}
    (hmark : isIdentPart mark = false) : mark ∉ name := fun hmem =>
  ne_of_isIdentPart (isIdentPart_of_mem h mark hmem) hmark rfl

end SourceOutline.Text
