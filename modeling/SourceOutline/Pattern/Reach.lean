/-
**Patterns move forward.**

Whatever a pattern finds, it ends at a place that can be reached by reading on: what follows there is
a tail of what followed at the start, and the character before it is the last one read.

Main definitions:

* `Pattern.Cursor.Reads`, `Pattern.Cursor.Reaches` — a place that is reached by reading a given text,
  or some text.

Main results:

* `Pattern.reaches_of_mem_outcomes` — every outcome of a pattern is reached by reading on;
* `Pattern.Cursor.Reads.text_eq` — the text between two places is what was read.
-/

import SourceOutline.Pattern.Basic

set_option autoImplicit false

namespace SourceOutline.Pattern

namespace Cursor

/-- Reading `text` leads from one place to another. -/
def Reads (c : Cursor) (text : List Char) (c' : Cursor) : Prop :=
  c.rest = text ++ c'.rest ∧ c'.before = text.getLast?.or c.before

/-- Reading some text leads from one place to another. -/
def Reaches (c c' : Cursor) : Prop :=
  ∃ text, c.Reads text c'

theorem Reads.nil (c : Cursor) : c.Reads [] c :=
  ⟨rfl, rfl⟩

theorem Reads.cons {before : Option Char} {x : Char} {rest text : List Char} {c' : Cursor}
    (h : Reads ⟨some x, rest⟩ text c') : Reads ⟨before, x :: rest⟩ (x :: text) c' := by
  obtain ⟨hrest, hbefore⟩ := h
  refine ⟨by simpa using hrest, ?_⟩
  rw [hbefore, List.getLast?_cons]
  cases text.getLast? <;> rfl

theorem Reads.append {c c' c'' : Cursor} {s t : List Char} (h : c.Reads s c')
    (h' : c'.Reads t c'') : c.Reads (s ++ t) c'' := by
  refine ⟨by rw [h.1, h'.1, List.append_assoc], ?_⟩
  rw [h'.2, h.2, List.getLast?_append]
  cases t.getLast? <;> simp

theorem Reaches.refl (c : Cursor) : c.Reaches c :=
  ⟨[], Reads.nil c⟩

theorem Reaches.cons {before : Option Char} {x : Char} {rest : List Char} {c' : Cursor}
    (h : Reaches ⟨some x, rest⟩ c') : Reaches ⟨before, x :: rest⟩ c' := by
  obtain ⟨text, h⟩ := h
  exact ⟨x :: text, Reads.cons h⟩

theorem Reaches.trans {c c' c'' : Cursor} (h : c.Reaches c') (h' : c'.Reaches c'') :
    c.Reaches c'' := by
  obtain ⟨s, hs⟩ := h
  obtain ⟨t, ht⟩ := h'
  exact ⟨s ++ t, hs.append ht⟩

/-- The number of characters between two places is the length of what was read. -/
theorem Reads.gap_eq {c c' : Cursor} {text : List Char} (h : c.Reads text c') :
    c.gap c' = text.length := by
  simp [gap, h.1]

/-- The text between two places is what was read. -/
theorem Reads.text_eq {c c' : Cursor} {text : List Char} (h : c.Reads text c') :
    Capture.text ⟨c, c'⟩ = text :=
  Capture.text_of_rest_eq h.1

/-! ### The moves of patterns -/

theorem reads_of_skip? {word : List Char} {c c' : Cursor} (h : skip? word c = some c') :
    c.Reads word c' :=
  skip?_eq_some_iff.mp h

theorem reaches_of_mem_runs {test : Char → Bool} {before : Option Char} {rest : List Char}
    {c' : Cursor} (h : c' ∈ runs test [] before rest) : Reaches ⟨before, rest⟩ c' := by
  induction rest generalizing before with
  | nil =>
      simp only [runs, List.mem_singleton] at h
      exact h ▸ Reaches.refl _
  | cons x rest ih =>
      rw [runs_cons] at h
      rcases List.mem_append.mp h with h | h
      · by_cases hx : test x = true
        · rw [if_pos hx] at h
          exact Reaches.cons (ih h)
        · rw [if_neg hx] at h
          exact absurd h (List.not_mem_nil)
      · rw [List.mem_singleton] at h
        exact h ▸ Reaches.refl _

theorem reaches_of_seek? {word : List Char} {before : Option Char} {rest : List Char} {c' : Cursor}
    (h : seek? word before rest = some c') : Reaches ⟨before, rest⟩ c' := by
  induction rest generalizing before with
  | nil =>
      simp only [seek?] at h
      split at h
      · exact (Option.some.inj h) ▸ Reaches.refl _
      · exact absurd h (by simp)
  | cons x rest ih =>
      simp only [seek?] at h
      split at h
      · exact (Option.some.inj h) ▸ Reaches.refl _
      · exact Reaches.cons (ih h)

end Cursor

theorem reaches_of_mem_repeated {step : Cursor → List Cursor}
    (hstep : ∀ c, ∀ c' ∈ step c, c.Reaches c') (fuel : Nat) {c c' : Cursor}
    (h : c' ∈ repeated step fuel c) : c.Reaches c' := by
  induction fuel generalizing c with
  | zero =>
      simp only [repeated, List.mem_singleton] at h
      exact h ▸ Cursor.Reaches.refl _
  | succ fuel ih =>
      simp only [repeated, List.mem_append, List.mem_flatMap, List.mem_singleton] at h
      rcases h with ⟨mid, hmid, h⟩ | h
      · exact (hstep c mid hmid).trans (ih h)
      · exact h ▸ Cursor.Reaches.refl _

/-- Every outcome of a pattern is reached by reading on. -/
theorem reaches_of_mem_outcomes {α : Type} (p : Pattern α) :
    ∀ (c : Cursor), ∀ found ∈ p.outcomes c, c.Reaches found.2 := by
  induction p with
  | done a =>
      intro c found h
      simp only [outcomes, List.mem_singleton] at h
      exact h ▸ Cursor.Reaches.refl c
  | andThen p next ihp ihnext =>
      intro c found h
      simp only [outcomes, List.mem_flatMap] at h
      obtain ⟨mid, hmid, h⟩ := h
      exact (ihp c mid hmid).trans (ihnext mid.1 mid.2 found h)
  | either p q ihp ihq =>
      intro c found h
      simp only [outcomes, List.mem_append] at h
      rcases h with h | h
      · exact ihp c found h
      · exact ihq c found h
  | one test =>
      rintro ⟨before, rest⟩ found h
      cases rest with
      | nil => exact absurd h (by simp [outcomes])
      | cons x rest =>
          simp only [outcomes] at h
          split at h
          · rw [List.mem_singleton] at h
            exact h ▸ Cursor.Reaches.cons (Cursor.Reaches.refl _)
          · exact absurd h (List.not_mem_nil)
  | exactly word =>
      intro c found h
      simp only [outcomes, List.mem_map, Option.mem_toList] at h
      obtain ⟨stop, hstop, rfl⟩ := h
      exact ⟨word, Cursor.reads_of_skip? hstop⟩
  | many test =>
      intro c found h
      simp only [outcomes, List.mem_map] at h
      obtain ⟨stop, hstop, rfl⟩ := h
      exact Cursor.reaches_of_mem_runs hstop
  | fewest test =>
      intro c found h
      simp only [outcomes, List.mem_map] at h
      obtain ⟨stop, hstop, rfl⟩ := h
      exact Cursor.reaches_of_mem_runs (List.mem_reverse.mp (List.mem_of_mem_tail hstop))
  | upTo word =>
      intro c found h
      simp only [outcomes, List.mem_map, Option.mem_toList] at h
      obtain ⟨stop, hstop, rfl⟩ := h
      exact Cursor.reaches_of_seek? hstop
  | star p ihp =>
      intro c found h
      simp only [outcomes, List.mem_map] at h
      obtain ⟨stop, hstop, rfl⟩ := h
      refine reaches_of_mem_repeated (fun here stop hmem => ?_) c.rest.length hstop
      obtain ⟨mid, hmid, rfl⟩ := List.mem_map.mp hmem
      exact ihp here mid hmid
  | captured p ihp =>
      intro c found h
      simp only [outcomes, List.mem_map] at h
      obtain ⟨mid, hmid, rfl⟩ := h
      exact ihp c mid hmid
  | edge test =>
      intro c found h
      simp only [outcomes] at h
      split at h
      · rw [List.mem_singleton] at h
        exact h ▸ Cursor.Reaches.refl c
      · exact absurd h (List.not_mem_nil)
  | notAhead p ihp =>
      intro c found h
      simp only [outcomes] at h
      split at h
      · rw [List.mem_singleton] at h
        exact h ▸ Cursor.Reaches.refl c
      · exact absurd h (List.not_mem_nil)

end SourceOutline.Pattern
