/-
**Both ways of numbering lines agree.**

The line of an offset is found by bisection of the recorded line feeds, or by counting the line
feeds before it.  The recorded positions that lie before an offset are the first ones, as many as
there are line feeds before it, so bisection stops at that number.

The two read a negative offset differently.  Counting takes it from the end of the text, while no
recorded position lies before it, so bisection says the first line.

Main results:

* `Text.boundary_eq` — bisection finds the boundary of a test, wherever it lies;
* `Text.LineIndex.lineOf_natCast` — the two line numbers of an offset are equal;
* `Text.lineNumber_append`, `Text.lineNumber_mono` — counting on from a place, and monotony;
* `Text.lineNumber_add_of_not_mem` — within a line the number stays;
* `Text.LineIndex.lineOf_exact` — **where the two agree**, for every offset.
-/

import SourceOutline.SourceFile

set_option autoImplicit false

namespace SourceOutline

namespace Text

/-! ### Bisection -/

/-- Bisection ends at the boundary that its interval holds. -/
theorem bisect_eq {α : Type} {test : α → Bool} {items : Array α} {n : Nat}
    (hn : ∀ i (hi : i < items.size), test items[i] = true ↔ i < n) {lo hi : Nat}
    {bound : hi ≤ items.size} (hlo : lo ≤ n) (hhi : n ≤ hi) :
    bisect test items lo hi bound = n := by
  fun_induction bisect test items lo hi bound with
  | case1 lo hi bound hlt mid inside pass ih =>
      -- the middle item passes, so the boundary lies behind it
      have hmid : mid < n := (hn mid inside).1 pass
      exact ih hmid hhi
  | case2 lo hi bound hlt mid inside fail ih =>
      have hmid : ¬ mid < n := fun h => fail ((hn mid inside).2 h)
      exact ih hlo (by omega)
  | case3 lo hi bound hge => omega

/-- The boundary of a test that exactly the first `n` items pass is `n`. -/
theorem boundary_eq {α : Type} {test : α → Bool} {items : Array α} {n : Nat}
    (hn : ∀ i (hi : i < items.size), test items[i] = true ↔ i < n) (hle : n ≤ items.size) :
    boundary test items = n :=
  bisect_eq hn (Nat.zero_le n) hle

/-! ### Recorded line feeds -/

/-- Positions are counted from `pos`. -/
theorem le_of_mem_newlinesFrom {pos q : Nat} {text : List Char} (h : q ∈ newlinesFrom pos text) :
    pos ≤ q := by
  induction text generalizing pos with
  | nil => simp [newlinesFrom] at h
  | cons c rest ih =>
      simp only [newlinesFrom] at h
      split at h
      · rcases List.mem_cons.1 h with rfl | h
        · exact Nat.le_refl _
        · exact Nat.le_of_succ_le (ih h)
      · exact Nat.le_of_succ_le (ih h)

/-- The recorded positions before the `k`-th character are as many as the line feeds there. -/
theorem newlinesFrom_lt_iff (pos : Nat) (text : List Char) (k i : Nat)
    (hi : i < (newlinesFrom pos text).length) :
    (newlinesFrom pos text)[i] < pos + k ↔ i < (text.take k).count '\n' := by
  induction text generalizing pos k i with
  | nil => simp [newlinesFrom] at hi
  | cons c rest ih =>
      cases k with
      | zero =>
          have := le_of_mem_newlinesFrom (List.getElem_mem hi)
          simp only [List.take_zero, List.count_nil, Nat.not_lt_zero, iff_false]
          omega
      | succ k =>
          have hstep : pos + (k + 1) = pos + 1 + k := by omega
          by_cases hc : c = '\n'
          · subst hc
            cases i with
            | zero => simp [newlinesFrom]
            | succ i =>
                have hi' : i < (newlinesFrom (pos + 1) rest).length := by
                  simpa [newlinesFrom] using hi
                have := ih (pos + 1) k i hi'
                simpa [newlinesFrom, hstep] using this
          · have hi' : i < (newlinesFrom (pos + 1) rest).length := by
              simpa [newlinesFrom, hc] using hi
            have := ih (pos + 1) k i hi'
            simpa [newlinesFrom, hc, hstep] using this

/-- **Bisection and counting agree** at every offset that does not count from the end. -/
theorem LineIndex.lineOf_natCast (text : List Char) (offset : Nat) :
    (ofText text).lineOf offset = lineNumber text offset := by
  have hlen : (newlinesFrom 0 text).length = text.count '\n' := newlinesFrom_length 0 text
  have hle : (text.take offset).count '\n' ≤ text.count '\n' :=
    (List.take_sublist offset text).count_le '\n'
  have hboundary : boundary (fun pos : Nat => decide ((pos : Int) < offset)) (ofText text).newlines
      = (text.take offset).count '\n' := by
    refine boundary_eq (fun i hi => ?_) ?_
    · have hi' : i < (newlinesFrom 0 text).length := by simpa [ofText] using hi
      have := newlinesFrom_lt_iff 0 text offset i hi'
      simpa [ofText] using this
    · simpa [ofText, hlen] using hle
  have htake : text.take (min offset text.length) = text.take offset := by
    simp [List.take_eq_take_iff]
  simp only [LineIndex.lineOf, hboundary, lineNumber, clamp_natCast, htake]

/-! ### Counting lines -/

theorem lineNumber_zero (text : List Char) : lineNumber text (0 : Nat) = 1 := by
  rw [lineNumber, clamp_natCast, Nat.zero_min, List.take_zero, List.count_nil]

/-- The line of an offset within `s ++ t` that lies `k` characters behind `s`. -/
theorem lineNumber_append (s t : List Char) (k : Nat) :
    lineNumber (s ++ t) (s.length + k : Nat) = s.count '\n' + lineNumber t k := by
  simp only [lineNumber, clamp_natCast, List.take_append, List.count_append]
  have hs : s.take (min (s.length + k) (s ++ t).length) = s := by
    refine List.take_of_length_le ?_
    simp only [List.length_append]
    omega
  have ht : min (s.length + k) (s ++ t).length - s.length = min k t.length := by
    simp only [List.length_append]
    omega
  rw [hs, ht]
  omega

/-- Within a line the number stays. -/
theorem lineNumber_add_of_not_mem {text s : List Char} {a : Nat} (hs : s <+: text.drop a)
    (hline : '\n' ∉ s) : lineNumber text (a + s.length : Nat) = lineNumber text a := by
  by_cases hle : a ≤ text.length
  · obtain ⟨t, ht⟩ := hs
    have htext : text = text.take a ++ (s ++ t) := by rw [ht, List.take_append_drop]
    have hlength : (text.take a).length = a := List.length_take_of_le hle
    have hadd := lineNumber_append (text.take a) (s ++ t) s.length
    have hzero := lineNumber_append (text.take a) (s ++ t) 0
    rw [← htext, hlength] at hadd hzero
    rw [hadd, ← Nat.add_zero a, hzero, lineNumber_zero]
    simp [lineNumber, clamp_natCast, List.count_eq_zero.2 hline]
  · rw [List.drop_eq_nil_of_le (by omega), List.prefix_nil] at hs
    rw [hs, List.length_nil, Nat.add_zero]

/-- Later offsets have no smaller line number. -/
theorem lineNumber_mono (text : List Char) {k l : Nat} (h : k ≤ l) :
    lineNumber text k ≤ lineNumber text l := by
  simp only [lineNumber, clamp_natCast]
  have hsub : (text.take (min k text.length)).Sublist (text.take (min l text.length)) :=
    (List.take_prefix_take_left (by omega)).sublist
  have := hsub.count_le '\n'
  omega

/-! ### All offsets -/

/-- No recorded line feed lies before a negative offset. -/
theorem LineIndex.lineOf_of_neg (text : List Char) {offset : Int} (h : offset < 0) :
    (ofText text).lineOf offset = 1 := by
  have hboundary : boundary (fun pos : Nat => decide ((pos : Int) < offset)) (ofText text).newlines
      = 0 := by
    refine boundary_eq (fun i hi => ?_) (Nat.zero_le _)
    have hnot : ¬ ((ofText text).newlines[i] : Int) < offset := by omega
    simp only [hnot, decide_false, Bool.false_eq_true, Nat.not_lt_zero]
  rw [lineOf, hboundary]

/-- Counting takes a negative offset from the end of the text. -/
theorem lineNumber_of_neg (text : List Char) {offset : Int} (h : offset < 0) :
    lineNumber text offset = (text.take (max 0 (text.length + offset)).toNat).count '\n' + 1 := by
  have hclamp : clamp text.length offset = (max 0 (text.length + offset)).toNat := by
    rw [clamp, if_pos h]
    omega
  rw [lineNumber, hclamp]

/-- Later offsets have no smaller line, also where they are negative. -/
theorem LineIndex.lineOf_mono (text : List Char) {a b : Int} (h : a ≤ b) :
    (ofText text).lineOf a ≤ (ofText text).lineOf b := by
  by_cases ha : a < 0
  · rw [lineOf_of_neg text ha]
    exact one_le_lineOf _ _
  · obtain ⟨k, rfl⟩ := Int.eq_ofNat_of_zero_le (Int.not_lt.1 ha)
    obtain ⟨l, rfl⟩ := Int.eq_ofNat_of_zero_le (Int.le_trans (Int.natCast_nonneg k) h)
    rw [lineOf_natCast, lineOf_natCast]
    exact lineNumber_mono text (Int.ofNat_le.1 h)

/-- **Where bisection and counting agree**: at every offset that is not negative, beyond the end of
the text too, and at a negative one exactly if no line feed stands before the place that it means,
since bisection says the first line there.  Bisection is monotone in the offset, and it gives only
numbers that lines have. -/
theorem LineIndex.lineOf_exact (text : List Char) :
    let index := ofText text
    (∀ offset, 0 ≤ offset → index.lineOf offset = lineNumber text offset) ∧
      (∀ offset, offset < 0 → index.lineOf offset = 1 ∧
        (index.lineOf offset = lineNumber text offset ↔
          '\n' ∉ text.take (max 0 (text.length + offset)).toNat)) ∧
      (∀ a b, a ≤ b → index.lineOf a ≤ index.lineOf b) ∧
      ∀ offset, 1 ≤ index.lineOf offset ∧ index.lineOf offset ≤ text.count '\n' + 1 := by
  intro index
  refine ⟨fun offset h => ?_, fun offset h => ⟨lineOf_of_neg text h, ?_⟩,
    fun a b => lineOf_mono text, fun offset => ⟨one_le_lineOf _ _, lineOf_le text offset⟩⟩
  · obtain ⟨k, rfl⟩ := Int.eq_ofNat_of_zero_le h
    exact lineOf_natCast text k
  · rw [lineOf_of_neg text h, lineNumber_of_neg text h, ← List.count_eq_zero]
    omega

-- counted from the end, the last character stands in the second line
example : lineNumber "a\nb".toList (-1) = 2 ∧ (LineIndex.ofText "a\nb".toList).lineOf (-1) = 1 := by
  decide +kernel

end Text

namespace SourceFile

open Text

theorem lineOf_natCast (file : SourceFile) (offset : Nat) :
    file.lineOf offset = lineNumber file.text offset := by
  rw [lineOf, file.lines_eq, LineIndex.lineOf_natCast]

theorem extent_natCast (file : SourceFile) (first last : Nat) :
    file.extent first last = ⟨lineNumber file.text first, lineNumber file.text last⟩ := by
  rw [extent, lineOf_natCast, lineOf_natCast]

end SourceFile

end SourceOutline
