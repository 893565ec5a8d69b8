/-
**Balanced braces.**

The search for a closing brace counts braces and nothing else.  A text whose braces balance leaves
the count as it was, and on the way it never falls below where it began; such a text is passed over
at any depth of nesting, so a block ends at the brace behind its body.

Main definitions:

* `Text.Balanced` — the braces of a text match each other.

Main results:

* `Text.Balanced.append`, `Text.Balanced.block` — texts one after the other, and between braces;
* `Text.Balanced.closeFrom_append` — a balanced text is passed over;
* `Text.closingBrace?_block` — a block around a balanced body ends with its own brace.
-/

import SourceOutline.Export

set_option autoImplicit false

namespace SourceOutline

namespace Text

/-- No beginning of the text closes more blocks than it opens, and the whole text closes as many as
it opens. -/
structure Balanced (s : List Char) : Prop where
  closed_le_opened : ∀ u v, s = u ++ v → u.count '\x7d' ≤ u.count '\x7b'
  closed_eq_opened : s.count '\x7d' = s.count '\x7b'

theorem balanced_of_not_mem {s : List Char} (hopen : '\x7b' ∉ s) (hclose : '\x7d' ∉ s) :
    Balanced s where
  closed_le_opened := by
    intro u v huv
    have hu : '\x7d' ∉ u := fun h => hclose (huv ▸ List.mem_append_left v h)
    rw [List.count_eq_zero.2 hu]
    exact Nat.zero_le _
  closed_eq_opened := by rw [List.count_eq_zero.2 hopen, List.count_eq_zero.2 hclose]

theorem Balanced.append {s t : List Char} (hs : Balanced s) (ht : Balanced t) :
    Balanced (s ++ t) where
  closed_le_opened := by
    intro u v huv
    -- the beginning ends within `s`, or it is `s` and a beginning of `t`
    rcases List.append_eq_append_iff.1 huv with ⟨more, rfl, hmore⟩ | ⟨more, hmore, -⟩
    · have := ht.closed_le_opened more v hmore
      have := hs.closed_eq_opened
      simp only [List.count_append]
      omega
    · exact hs.closed_le_opened u more hmore
  closed_eq_opened := by
    rw [List.count_append, List.count_append, hs.closed_eq_opened, ht.closed_eq_opened]

/-- A balanced text between braces. -/
theorem Balanced.block {s : List Char} (hs : Balanced s) :
    Balanced ('\x7b' :: (s ++ ['\x7d'])) where
  closed_le_opened := by
    intro u v huv
    cases u with
    | nil => exact Nat.le_refl _
    | cons x u =>
        obtain ⟨rfl, hrest⟩ := List.cons.inj huv
        have hopened : ('\x7b' :: u).count '\x7b' = u.count '\x7b' + 1 := List.count_cons_self
        have hclosed : ('\x7b' :: u).count '\x7d' = u.count '\x7d' :=
          List.count_cons_of_ne (by decide)
        rw [hopened, hclosed]
        rcases List.append_eq_append_iff.1 hrest with ⟨more, rfl, hmore⟩ | ⟨more, hmore, -⟩
        · have hone : more.count '\x7d' ≤ ['\x7d'].count '\x7d' := by
            rw [hmore]
            exact (List.sublist_append_left more v).count_le _
          have := hs.closed_eq_opened
          simp only [List.count_append, List.count_singleton_self] at hone ⊢
          omega
        · have := hs.closed_le_opened u more hmore
          omega
  closed_eq_opened := by
    have hopen : List.count '\x7b' ['\x7d'] = 0 := by decide
    have := hs.closed_eq_opened
    rw [List.count_cons_self, List.count_cons_of_ne (by decide), List.count_append,
      List.count_append, List.count_singleton_self, hopen]
    omega

/-! ### The count -/

/-- A text is passed over as long as the depth stays positive. -/
theorem closeFrom_append {s : List Char} {depth : Int}
    (h : ∀ u v, s = u ++ v → (u.count '\x7d' : Int) < depth + u.count '\x7b') (pos : Nat)
    (t : List Char) :
    closeFrom depth pos (s ++ t) =
      closeFrom (depth + s.count '\x7b' - s.count '\x7d') (pos + s.length) t := by
  induction s generalizing depth pos with
  | nil => simp
  | cons c s ih =>
      have hpos : pos + (c :: s).length = pos + 1 + s.length := by
        rw [List.length_cons]
        omega
      rw [List.cons_append, hpos]
      by_cases hopen : c = '\x7b'
      · subst hopen
        rw [closeFrom_open, ih ?_, List.count_cons_self, List.count_cons_of_ne (by decide)]
        · congr 1
          omega
        · intro u v huv
          have := h ('\x7b' :: u) v (by rw [huv, List.cons_append])
          rw [List.count_cons_self, List.count_cons_of_ne (by decide)] at this
          omega
      · by_cases hclose : c = '\x7d'
        · subst hclose
          have hdepth := h ['\x7d'] s rfl
          have hopened : List.count '\x7b' ['\x7d'] = 0 := by decide
          rw [List.count_singleton_self, hopened] at hdepth
          have hgo : ¬ (depth - 1 == 0) = true := by
            rw [beq_iff_eq]
            omega
          rw [closeFrom_close, if_neg hgo, ih ?_, List.count_cons_self,
            List.count_cons_of_ne (by decide)]
          · congr 1
            omega
          · intro u v huv
            have := h ('\x7d' :: u) v (by rw [huv, List.cons_append])
            rw [List.count_cons_self, List.count_cons_of_ne (by decide)] at this
            omega
        · rw [closeFrom_other _ _ _ hopen hclose, ih ?_, List.count_cons_of_ne hopen,
            List.count_cons_of_ne hclose]
          intro u v huv
          have := h (c :: u) v (by rw [huv, List.cons_append])
          rwa [List.count_cons_of_ne hopen, List.count_cons_of_ne hclose] at this

theorem Balanced.closeFrom_append {s : List Char} (hs : Balanced s) {depth : Int}
    (hdepth : 0 < depth) (pos : Nat) (t : List Char) :
    closeFrom depth pos (s ++ t) = closeFrom depth (pos + s.length) t := by
  rw [Text.closeFrom_append fun u v huv => ?_]
  · have := hs.closed_eq_opened
    congr 1
    omega
  · have := hs.closed_le_opened u v huv
    omega

/-- The block around a balanced body ends with the brace behind the body. -/
theorem closingBrace?_block {body : List Char} (hbody : Balanced body) (pre t : List Char) :
    closingBrace? (pre ++ '\x7b' :: (body ++ '\x7d' :: t)) pre.length =
      some (pre.length + 1 + body.length) := by
  rw [closingBrace?, List.drop_left, closeFrom_open, hbody.closeFrom_append (by decide),
    closeFrom_close]
  rfl

end Text

namespace Export

/-- Behind a text without opening braces, the first block is the one that opens there. -/
theorem blockEnd?_eq {text head rest : List Char} {start : Nat} (hhead : '\x7b' ∉ head)
    (hdrop : text.drop start = head ++ '\x7b' :: rest) :
    blockEnd? text start = Text.closingBrace? text (start + head.length) := by
  have hfind : (head ++ '\x7b' :: rest).findIdx? (· == '\x7b') = some head.length := by
    rw [List.findIdx?_append, List.findIdx?_eq_none_iff.2 ?_]
    · simp [List.findIdx?_cons]
    · intro x hx
      simp only [beq_eq_false_iff_ne, ne_eq]
      rintro rfl
      exact hhead hx
  rw [blockEnd?, hdrop, hfind]
  rfl

/-- The first block behind a text without braces. -/
theorem blockEnd?_block {head body : List Char} (hhead : '\x7b' ∉ head)
    (hbody : Text.Balanced body) (pre t : List Char) :
    blockEnd? (pre ++ (head ++ '\x7b' :: (body ++ '\x7d' :: t))) pre.length =
      some (pre.length + head.length + 1 + body.length) := by
  have hclose := Text.closingBrace?_block hbody (pre ++ head) t
  rw [List.append_assoc, List.length_append] at hclose
  rw [blockEnd?_eq hhead List.drop_left]
  exact hclose

end Export

end SourceOutline
