/-
**Places of a text.**

A cursor does not know its offset.  What a scan lists is nevertheless placed: each find starts at the
place that its offset says, and all places that a pattern reached from there lie as many characters
further on as were read.

Main definitions:

* `Pattern.Cursor.StandsAt` — the place of a text at an offset.

Main results:

* `Pattern.Cursor.StandsAt.reads` — reading moves the offset by what was read;
* `Pattern.Cursor.StandsAt.unique` — there is one place at each offset;
* `Pattern.mem_scan`, `Pattern.mem_findAll` — every find stands where it says, and is the first
  outcome of the pattern there;
* `Text.closingBrace?_bounds` — a closing brace lies behind the place where the search began.
-/

import SourceOutline.Pattern.Reach
import SourceOutline.Pattern.Scan
import SourceOutline.Text.Braces

set_option autoImplicit false

namespace SourceOutline

namespace Pattern

open Text

/-! ### Cursors -/

namespace Cursor

/-- The cursor is the place of `text` at an offset. -/
structure StandsAt (c : Cursor) (text : List Char) (offset : Nat) : Prop where
  le_length : offset ≤ text.length
  rest_eq : c.rest = text.drop offset
  before_eq : c.before = (text.take offset).getLast?

theorem standsAt_ofText (text : List Char) : (ofText text).StandsAt text 0 :=
  ⟨Nat.zero_le _, by simp [ofText], by simp [ofText]⟩

theorem standsAt_drop {text : List Char} {k : Nat} (h : k ≤ text.length) :
    StandsAt ⟨(text.take k).getLast?, text.drop k⟩ text k :=
  ⟨h, rfl, rfl⟩

/-- Reading moves the offset by as many characters as were read. -/
theorem StandsAt.reads {c c' : Cursor} {text s : List Char} {offset : Nat}
    (h : c.StandsAt text offset) (hreads : c.Reads s c') :
    c'.StandsAt text (offset + s.length) := by
  have hrest : text.drop offset = s ++ c'.rest := h.rest_eq ▸ hreads.1
  have hlength := congrArg List.length hrest
  simp only [List.length_drop, List.length_append] at hlength
  have htake : text.take (offset + s.length) = text.take offset ++ s := by
    rw [List.take_add, hrest, List.take_left]
  refine ⟨?_, ?_, ?_⟩
  · have := h.le_length
    omega
  · rw [← List.drop_drop, hrest, List.drop_left]
  · rw [htake, List.getLast?_append, hreads.2, h.before_eq]

/-- There is one place at each offset. -/
theorem StandsAt.unique {c c' : Cursor} {text : List Char} {offset : Nat}
    (h : c.StandsAt text offset) (h' : c'.StandsAt text offset) : c = c' := by
  obtain ⟨before, rest⟩ := c
  obtain ⟨before', rest'⟩ := c'
  obtain rfl : rest = rest' := h.rest_eq.trans h'.rest_eq.symm
  obtain rfl : before = before' := h.before_eq.trans h'.before_eq.symm
  rfl

/-- One character further on. -/
theorem StandsAt.next {before : Option Char} {x : Char} {rest text : List Char} {pos : Nat}
    (h : StandsAt ⟨before, x :: rest⟩ text pos) :
    StandsAt ⟨some x, rest⟩ text (pos + 1) :=
  h.reads (Reads.nil _).cons

end Cursor

/-! ### Finds -/

section
variable {α : Type}

/-- A scan that begins at a place of the text lists finds at this place or later ones. -/
theorem mem_scan {p : Pattern α} {resume : Find α → Nat} {text : List Char} {find : Find α}
    {pos skip : Nat} {before : Option Char} {rest : List Char}
    (hplace : Cursor.StandsAt ⟨before, rest⟩ text pos)
    (h : find ∈ scan p resume pos skip before rest) :
    pos ≤ find.offset ∧ find.start.StandsAt text find.offset ∧
      p.first? find.start = some (find.value, find.stop) := by
  induction rest generalizing pos skip before with
  | nil =>
      cases skip with
      | succ skip => simp [scan] at h
      | zero =>
          simp only [scan] at h
          split at h
          · rename_i value stop hfirst
            rw [List.mem_singleton] at h
            subst h
            exact ⟨Nat.le_refl _, hplace, hfirst⟩
          · exact absurd h List.not_mem_nil
  | cons x rest ih =>
      cases skip with
      | succ skip =>
          simp only [scan] at h
          obtain ⟨hle, hrest⟩ := ih hplace.next h
          exact ⟨Nat.le_of_succ_le hle, hrest⟩
      | zero =>
          simp only [scan] at h
          split at h
          · rename_i value stop hfirst
            rcases List.mem_cons.1 h with rfl | h
            · exact ⟨Nat.le_refl _, hplace, hfirst⟩
            · obtain ⟨hle, hrest⟩ := ih hplace.next h
              exact ⟨Nat.le_of_succ_le hle, hrest⟩
          · obtain ⟨hle, hrest⟩ := ih hplace.next h
            exact ⟨Nat.le_of_succ_le hle, hrest⟩

theorem mem_findAll {p : Pattern α} {text : List Char} {find : Find α}
    (h : find ∈ findAll p text) :
    find.start.StandsAt text find.offset ∧
      (find.value, find.stop) ∈ p.outcomes find.start := by
  obtain ⟨-, hplace, hfirst⟩ := mem_scan (Cursor.standsAt_ofText text) h
  exact ⟨hplace, List.mem_of_head? hfirst⟩

/-- The offset of a place within a find is where the place stands. -/
theorem Find.standsAt_offsetOf {find : Find α} {text s : List Char} {place : Cursor}
    (h : find.start.StandsAt text find.offset) (hreads : find.start.Reads s place) :
    place.StandsAt text (find.offsetOf place) := by
  rw [Find.offsetOf, hreads.gap_eq]
  exact h.reads hreads

theorem Find.standsAt_stopOffset {find : Find α} {text : List Char} {p : Pattern α}
    (h : find.start.StandsAt text find.offset)
    (hmem : (find.value, find.stop) ∈ p.outcomes find.start) :
    find.stop.StandsAt text find.stopOffset := by
  obtain ⟨s, hreads⟩ := reaches_of_mem_outcomes p _ _ hmem
  exact Find.standsAt_offsetOf h hreads

end

end Pattern

/-! ### Closing braces -/

namespace Text

theorem closeFrom_bounds {depth : Int} {pos close : Nat} {text : List Char}
    (h : closeFrom depth pos text = some close) :
    pos ≤ close ∧ text[close - pos]? = some '\x7d' := by
  -- the step to the next character
  have hcons : ∀ {c : Char} {rest : List Char} {pos : Nat},
      pos + 1 ≤ close ∧ rest[close - (pos + 1)]? = some '\x7d' →
        pos ≤ close ∧ (c :: rest)[close - pos]? = some '\x7d' := by
    rintro c rest pos ⟨hle, hget⟩
    have hindex : close - pos = close - (pos + 1) + 1 := by omega
    exact ⟨by omega, by rw [hindex, List.getElem?_cons_succ, hget]⟩
  induction text generalizing depth pos with
  | nil => exact absurd h (by simp)
  | cons c rest ih =>
      simp only [closeFrom] at h
      split at h
      · exact hcons (ih h)
      · split at h
        · rename_i hc
          split at h
          · obtain rfl := Option.some.inj h
            simpa using hc
          · exact hcons (ih h)
        · exact hcons (ih h)

/-- The closing brace of a block stands at or behind the place where the search began. -/
theorem closingBrace?_bounds {text : List Char} {start close : Nat}
    (h : closingBrace? text start = some close) :
    start ≤ close ∧ close < text.length ∧ text[close]? = some '\x7d' := by
  obtain ⟨hle, hget⟩ := closeFrom_bounds h
  rw [List.getElem?_drop, Nat.add_sub_cancel' hle] at hget
  exact ⟨hle, (List.getElem?_eq_some_iff.1 hget).1, hget⟩

end Text

end SourceOutline
