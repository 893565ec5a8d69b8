/-
**Blocks.**

The search for a closing brace finds a block: an opening brace, a balanced body and the brace that
closes it.  Every block that opens in a balanced body closes in it, and a search that only sees the
body finds the same brace as one that sees the whole text.  Blocks are therefore nested or apart, and
no brace closes two of them.

Main definitions:

* `Text.opened` — how many more blocks a text opens than it closes.

Main results:

* `Text.closeFrom_cons` — one step of the count, whatever the character;
* `Text.balanced_of_closingBrace?` — what stands between a brace and the one that closes it;
* `Text.exists_closingBrace?_inside` — **a block that opens within another closes within it**;
* `Text.closingBrace?_nested` — **two blocks are nested or apart**.
-/

import SourceOutline.Proofs.Balance
import SourceOutline.Proofs.Placement

set_option autoImplicit false

namespace SourceOutline

namespace Text

/-! ### Counting -/

/-- How many more blocks a text opens than it closes. -/
def opened (s : List Char) : Int :=
  s.count '\x7b' - s.count '\x7d'

@[simp]
theorem opened_nil : opened [] = 0 := rfl

theorem opened_append (s t : List Char) : opened (s ++ t) = opened s + opened t := by
  simp only [opened, List.count_append]
  omega

theorem opened_cons (c : Char) (s : List Char) : opened (c :: s) = opened [c] + opened s :=
  opened_append [c] s

theorem balanced_iff_opened {s : List Char} :
    Balanced s ↔ (∀ u v, s = u ++ v → 0 ≤ opened u) ∧ opened s = 0 := by
  constructor
  · intro h
    refine ⟨fun u v huv => ?_, ?_⟩
    · have := h.closed_le_opened u v huv
      simp only [opened]
      omega
    · have := h.closed_eq_opened
      simp only [opened]
      omega
  · rintro ⟨hle, heq⟩
    refine ⟨fun u v huv => ?_, ?_⟩
    · have := hle u v huv
      simp only [opened] at this
      omega
    · simp only [opened] at heq
      omega

/-- One step of the search: it ends at a closing brace that brings the depth to zero, and goes on
otherwise at the depth that the character leaves. -/
theorem closeFrom_cons (depth : Int) (pos : Nat) (c : Char) (rest : List Char) :
    closeFrom depth pos (c :: rest) =
      if c = '\x7d' ∧ depth = 1 then some pos
      else closeFrom (depth + opened [c]) (pos + 1) rest := by
  by_cases hopen : c = '\x7b'
  · subst hopen
    rw [closeFrom_open, if_neg (by simp)]
    rfl
  · by_cases hclose : c = '\x7d'
    · subst hclose
      have hone : (depth - 1 == 0) = true ↔ depth = 1 := by
        rw [beq_iff_eq]
        omega
      rw [closeFrom_close]
      simp only [hone, true_and]
      rfl
    · have hnone : opened [c] = 0 := by
        simp [opened, hopen, hclose]
      rw [closeFrom_other _ _ _ hopen hclose, if_neg (fun h => hclose h.1), hnone, Int.add_zero]

/-- The depth that a character leaves is positive unless the search ends at it. -/
theorem depth_pos_of_step {depth : Int} {c : Char} (hdepth : 0 < depth)
    (hgo : ¬ (c = '\x7d' ∧ depth = 1)) : 0 < depth + opened [c] := by
  by_cases hclose : c = '\x7d'
  · subst hclose
    have hone : depth ≠ 1 := fun h => hgo ⟨rfl, h⟩
    have : opened ['\x7d'] = -1 := by decide
    omega
  · have : 0 ≤ opened [c] := by
      simp [opened, hclose]
    omega

/-! ### What a search passes over -/

/-- A search that succeeds passes over a text that keeps the depth positive, and leaves it at one. -/
theorem exists_body_of_closeFrom {depth : Int} {pos close : Nat} {text : List Char}
    (hdepth : 0 < depth) (h : closeFrom depth pos text = some close) :
    ∃ body t, text = body ++ '\x7d' :: t ∧ close = pos + body.length ∧
      (∀ u v, body = u ++ v → 0 < depth + opened u) ∧ depth + opened body = 1 := by
  induction text generalizing depth pos with
  | nil => exact absurd h (by simp)
  | cons c rest ih =>
      rw [closeFrom_cons] at h
      split at h
      · rename_i hend
        obtain ⟨rfl, rfl⟩ := hend
        refine ⟨[], rest, rfl, (Option.some.inj h).symm, fun u v huv => ?_, rfl⟩
        obtain ⟨rfl, -⟩ := List.append_eq_nil_iff.1 huv.symm
        decide
      · rename_i hgo
        obtain ⟨body, t, rfl, rfl, hpos, hone⟩ := ih (depth_pos_of_step hdepth hgo) h
        refine ⟨c :: body, t, rfl, by rw [List.length_cons]; omega, fun u v huv => ?_, ?_⟩
        · cases u with
          | nil => simpa using hdepth
          | cons x u =>
              obtain ⟨rfl, hbody⟩ := List.cons.inj huv
              have := hpos u v hbody
              rw [opened_cons]
              omega
        · rw [opened_cons]
          omega

/-- A search that fails leaves some block open. -/
theorem opened_of_closeFrom_eq_none {depth : Int} {pos : Nat} {text : List Char}
    (hdepth : 0 < depth) (h : closeFrom depth pos text = none) : 0 < depth + opened text := by
  induction text generalizing depth pos with
  | nil => simpa using hdepth
  | cons c rest ih =>
      rw [closeFrom_cons] at h
      split at h
      · exact absurd h (by simp)
      · rename_i hgo
        have := ih (depth_pos_of_step hdepth hgo) h
        rw [opened_cons]
        omega

/-- What stands behind a closing brace does not matter to the search for it. -/
theorem closeFrom_append_of_some {depth : Int} {pos close : Nat} {s : List Char}
    (h : closeFrom depth pos s = some close) (t : List Char) :
    closeFrom depth pos (s ++ t) = some close := by
  induction s generalizing depth pos with
  | nil => exact absurd h (by simp)
  | cons c s ih =>
      rw [closeFrom_cons] at h
      rw [List.cons_append, closeFrom_cons]
      split at h
      · rename_i hend
        rw [if_pos hend, h]
      · rename_i hgo
        rw [if_neg hgo, ih h]

/-! ### Blocks -/

/-- What stands between a brace and the one that closes it is balanced. -/
theorem balanced_of_closingBrace? {text rest : List Char} {start close : Nat}
    (hopen : text.drop start = '\x7b' :: rest) (h : closingBrace? text start = some close) :
    start + 1 ≤ close ∧ Balanced (range text (start + 1) close) := by
  have hrest : text.drop (start + 1) = rest := by
    rw [← List.drop_drop, hopen, List.drop_one, List.tail_cons]
  rw [closingBrace?, hopen, closeFrom_open] at h
  obtain ⟨body, t, rfl, rfl, hpos, hone⟩ := exists_body_of_closeFrom (by decide) h
  have hbody : range text (start + 1) (start + 1 + body.length) = body := by
    rw [range, hrest, Nat.add_sub_cancel_left, List.take_left]
  refine ⟨Nat.le_add_right _ _, hbody.symm ▸ balanced_iff_opened.2 ⟨fun u v huv => ?_, ?_⟩⟩
  · have := hpos u v huv
    omega
  · omega

/-- A block that opens in a balanced text closes in it. -/
theorem Balanced.exists_closingBrace? {u v : List Char} (h : Balanced (u ++ '\x7b' :: v)) :
    ∃ close, closingBrace? (u ++ '\x7b' :: v) u.length = some close := by
  obtain ⟨hle, heq⟩ := balanced_iff_opened.1 h
  rw [closingBrace?, List.drop_left, closeFrom_open]
  refine Option.ne_none_iff_exists'.1 fun hnone => ?_
  -- behind `u` no fewer blocks are closed than were opened, so the one in question is
  have hu := hle u ('\x7b' :: v) rfl
  have hv : 0 < 0 + 1 + opened v := opened_of_closeFrom_eq_none (by decide) hnone
  have hone : opened ['\x7b'] = 1 := by decide
  rw [opened_append, opened_cons, hone] at heq
  omega

/-- The search for the end of a block that closes within a range finds the same brace in the whole
text. -/
theorem closingBrace?_range {text : List Char} {base stop start close : Nat}
    (h : closingBrace? (range text base stop) start = some close) :
    closingBrace? text (base + start) = some (base + close) := by
  have hle : start ≤ (range text base stop).length :=
    Nat.le_of_lt (Nat.lt_of_le_of_lt (closingBrace?_bounds h).1 (closingBrace?_bounds h).2.1)
  have hsplit : text.drop (base + start) =
      (range text base stop).drop start ++ (text.drop base).drop (stop - base) := by
    rw [← List.drop_append_of_le_length hle, range, List.take_append_drop, List.drop_drop]
  have hadd := closeFrom_add 0 start base ((range text base stop).drop start)
  rw [show closeFrom 0 start _ = some close from h, Option.map_some] at hadd
  rw [closingBrace?, hsplit, Nat.add_comm base start, Nat.add_comm base close]
  exact closeFrom_append_of_some hadd _

/-- **A block that opens within another closes within it**, and it does not matter to the search
whether it sees the inside of the outer block only or the whole text. -/
theorem exists_closingBrace?_inside {text rest inner : List Char} {start close k : Nat}
    (hopen : text.drop start = '\x7b' :: rest) (h : closingBrace? text start = some close)
    (hk : (range text (start + 1) close).drop k = '\x7b' :: inner) :
    ∃ c, closingBrace? (range text (start + 1) close) k = some c ∧
      closingBrace? text (start + 1 + k) = some (start + 1 + c) := by
  obtain ⟨-, hbody⟩ := balanced_of_closingBrace? hopen h
  have hlt : k < (range text (start + 1) close).length := by
    refine Nat.lt_of_not_le fun hle => ?_
    rw [List.drop_eq_nil_of_le hle] at hk
    exact absurd hk (by simp)
  have hsplit : range text (start + 1) close =
      (range text (start + 1) close).take k ++ '\x7b' :: inner := by
    rw [← hk, List.take_append_drop]
  obtain ⟨c, hc⟩ := Balanced.exists_closingBrace? (hsplit ▸ hbody)
  rw [← hsplit, List.length_take_of_le (Nat.le_of_lt hlt)] at hc
  exact ⟨c, hc, closingBrace?_range hc⟩

/-- **Two blocks are nested or apart**: of two that open one after the other, the first closes before
the second opens, or the second closes before the first does. -/
theorem closingBrace?_nested {text rest rest' : List Char} {start start' close close' : Nat}
    (hlt : start < start') (hopen : text.drop start = '\x7b' :: rest)
    (hopen' : text.drop start' = '\x7b' :: rest') (h : closingBrace? text start = some close)
    (h' : closingBrace? text start' = some close') : close < start' ∨ close' < close := by
  by_cases hapart : close < start'
  · exact Or.inl hapart
  · right
    obtain ⟨hle, hclose, hbrace⟩ := closingBrace?_bounds h
    have hne : start' ≠ close := by
      rintro rfl
      have hhead := congrArg List.head? hopen'
      rw [List.head?_drop, hbrace] at hhead
      simp at hhead
    -- so the second brace stands in the first block
    obtain ⟨k, rfl⟩ : ∃ k, start' = start + 1 + k := ⟨start' - (start + 1), by omega⟩
    obtain ⟨n, hn⟩ : ∃ n, close - (start + 1) - k = n + 1 := ⟨close - (start + 1) - k - 1, by omega⟩
    have hk : (range text (start + 1) close).drop k = '\x7b' :: rest'.take n := by
      rw [range, List.drop_take, List.drop_drop, hopen', hn, List.take_succ_cons]
    obtain ⟨c, hc, hcwhole⟩ := exists_closingBrace?_inside hopen h hk
    obtain rfl := Option.some.inj (h'.symm.trans hcwhole)
    have hinside := (closingBrace?_bounds hc).2.1
    rw [range, List.length_take] at hinside
    omega

end Text

end SourceOutline
