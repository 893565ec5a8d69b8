/-
**The order of finds.**

A scan lists its finds from left to right.  After each it goes on where it is told to, so nothing is
found before that place; and a place where the pattern matches is passed over only if an earlier find
leads beyond it.

Main results:

* `Pattern.pairwise_scan`, `Pattern.pairwise_findAll` — **finds come in order**, each at or behind the
  place where the one before it leads;
* `Pattern.mem_scan_of_first?` — **nothing is missed** that no earlier find leads beyond;
* `Text.lineNumber_lt_of_lineStart` — behind the start of a line the numbers of lines are larger;
* `Finding.records_flatMap` — the records of all finds are those of each, in order.
-/

import SourceOutline.Proofs.Faithful

set_option autoImplicit false

namespace SourceOutline

/-! ### Scans -/

namespace Pattern

section
variable {α : Type} {p : Pattern α} {resume : Find α → Nat}

/-- Nothing is found among the characters that are passed over. -/
theorem le_offset_of_mem_scan {pos skip : Nat} {before : Option Char} {rest : List Char}
    {find : Find α} (h : find ∈ scan p resume pos skip before rest) : pos + skip ≤ find.offset := by
  induction rest generalizing pos skip before with
  | nil =>
      cases skip with
      | succ skip => simp [scan] at h
      | zero =>
          simp only [scan] at h
          split at h
          · rw [List.mem_singleton.1 h]
            exact Nat.le_refl _
          · exact absurd h List.not_mem_nil
  | cons x rest ih =>
      cases skip with
      | succ skip =>
          simp only [scan] at h
          have := ih h
          omega
      | zero =>
          simp only [scan] at h
          split at h
          · rcases List.mem_cons.1 h with rfl | h
            · exact Nat.le_refl _
            · have := ih h
              omega
          · have := ih h
            omega

/-- **Finds come in order**, each at or behind the place where the one before it leads. -/
theorem pairwise_scan (pos skip : Nat) (before : Option Char) (rest : List Char) :
    (scan p resume pos skip before rest).Pairwise fun f g =>
      f.offset < g.offset ∧ resume f ≤ g.offset := by
  induction rest generalizing pos skip before with
  | nil =>
      cases skip with
      | succ skip => simp [scan]
      | zero =>
          simp only [scan]
          split
          · exact List.pairwise_singleton _ _
          · exact List.Pairwise.nil
  | cons x rest ih =>
      cases skip with
      | succ skip =>
          simp only [scan]
          exact ih _ _ _
      | zero =>
          simp only [scan]
          split
          · refine List.pairwise_cons.2 ⟨fun g hg => ?_, ih _ _ _⟩
            have := le_offset_of_mem_scan hg
            simp only
            omega
          · exact ih _ _ _

theorem pairwise_findAll (p : Pattern α) (text : List Char) :
    (findAll p text).Pairwise fun f g => f.offset < g.offset ∧ f.stopOffset ≤ g.offset :=
  pairwise_scan 0 0 none text

/-- **Nothing is missed**: where the pattern matches, the scan finds it, unless an earlier find leads
beyond this place. -/
theorem mem_scan_of_first? {text : List Char} {pos skip : Nat} {before : Option Char}
    {rest : List Char} (hplace : Cursor.StandsAt ⟨before, rest⟩ text pos) {c stop : Cursor}
    {offset : Nat} {value : α} (hc : c.StandsAt text offset)
    (hfirst : p.first? c = some (value, stop)) (hskip : pos + skip ≤ offset)
    (hfree : ∀ f ∈ scan p resume pos skip before rest, f.offset < offset → resume f ≤ offset) :
    ⟨offset, c, stop, value⟩ ∈ scan p resume pos skip before rest := by
  induction rest generalizing pos skip before with
  | nil =>
      -- the text ends here, so this is the place
      have hend : text.length ≤ pos := List.drop_eq_nil_iff.1 hplace.rest_eq.symm
      have hle := hc.le_length
      obtain rfl : skip = 0 := by omega
      obtain rfl : offset = pos := by omega
      obtain rfl := hc.unique hplace
      simp [scan, hfirst]
  | cons x rest ih =>
      cases skip with
      | succ skip =>
          simp only [scan] at hfree ⊢
          exact ih hplace.next (by omega) hfree
      | zero =>
          by_cases hhere : offset = pos
          · subst hhere
            obtain rfl := hc.unique hplace
            simp [scan, hfirst]
          · simp only [scan] at hfree ⊢
            split at hfree
            · have hresume := hfree _ List.mem_cons_self (by simp only; omega)
              refine List.mem_cons_of_mem _ (ih hplace.next (by omega) fun f hf => ?_)
              exact hfree f (List.mem_cons_of_mem _ hf)
            · exact ih hplace.next (by omega) hfree

end

end Pattern

/-! ### Lines -/

namespace Text

/-- Behind the start of a line the numbers of lines are larger. -/
theorem lineNumber_lt_of_lineStart {text : List Char} {a b c : Nat} (hab : a < b) (hbc : b ≤ c)
    (hb : b ≤ text.length) (hstart : (text.take b).getLast? = some '\n') :
    lineNumber text a < lineNumber text c := by
  refine Nat.lt_of_lt_of_le ?_ (lineNumber_mono text hbc)
  obtain ⟨line, hline⟩ := List.getLast?_eq_some_iff.1 hstart
  have hlength := congrArg List.length hline
  rw [List.length_take_of_le hb, List.length_append, List.length_singleton] at hlength
  have hprefix : text.take a <+: line := by
    refine List.prefix_of_prefix_length_le (List.take_prefix a text)
      ((hline ▸ List.prefix_append line ['\n']).trans (List.take_prefix b text)) ?_
    rw [List.length_take]
    omega
  have hcount := hprefix.sublist.count_le '\n'
  simp only [lineNumber, clamp_natCast, Nat.min_eq_left hb,
    Nat.min_eq_left (Nat.le_trans (Nat.le_of_lt hab) hb), hline, List.count_append,
    List.count_singleton_self]
  omega

end Text

/-! ### Records of all finds -/

/-- The records of all finds are those of each, in order. -/
theorem Finding.records_flatMap {α β : Type} (items : List β) (f : β → List (Finding α)) :
    records (items.flatMap f) = items.flatMap fun a => records (f a) :=
  List.filterMap_flatMap

theorem Finding.warnings_flatMap {α β : Type} (items : List β) (f : β → List (Finding α)) :
    warnings (items.flatMap f) = items.flatMap fun a => warnings (f a) :=
  List.filterMap_flatMap

end SourceOutline
