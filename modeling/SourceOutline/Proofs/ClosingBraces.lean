/-
**The brace that closes a block.**

The search for a closing brace counts braces from a position on, and it looks at the count only
where a brace closes something.  It stops at the first closing brace up to which as many blocks were
opened as closed.  This holds wherever it begins; inside a block the count may become negative and
come back later.  From an opening brace on, however, the count stays positive until the search
stops, so what it finds is the partner of that brace: the two enclose a balanced text.

Main definitions:

* `Text.ClosesAt`, `Text.ClosesAll` — a closing brace that brings the count to zero, in the text
  ahead and in the whole text;
* `Text.Partners` — two braces around a balanced text.

Main results:

* `Text.not_closesAt_of_closeFrom_eq_none`, `Text.exists_isLeast_of_closeFrom` — **the search stops
  at the first such brace**, by induction on the text ahead;
* `Text.closingBrace?_eq_some_iff`, `Text.closingBrace?_eq_none_iff` — the same in the whole text;
* `Text.closingBrace?_eq_some_iff_partners` — from an opening brace on it finds the partner;
* `Text.closingBrace_exact` — **what the search for a closing brace returns**.
-/

import SourceOutline.Proofs.Blocks
import Mathlib.Order.Bounds.Basic

set_option autoImplicit false

namespace SourceOutline

namespace Text

/-! ### The count ahead -/

/-- The character at `k` is a closing brace, and the count that begins with `depth` is zero behind
it. -/
structure ClosesAt (depth : Int) (s : List Char) (k : Nat) : Prop where
  brace : s[k]? = some '\x7d'
  even : depth + opened (s.take (k + 1)) = 0

section
variable {depth : Int} {c : Char} {s : List Char} {pos close : Nat}

theorem not_closesAt_nil (k : Nat) : ¬ ClosesAt depth [] k := fun h => absurd h.brace (by simp)

theorem closesAt_cons_zero : ClosesAt depth (c :: s) 0 ↔ c = '\x7d' ∧ depth = 1 := by
  have hone : opened ['\x7d'] = -1 := by decide
  constructor
  · rintro ⟨hbrace, heven⟩
    obtain rfl : c = '\x7d' := by simpa using hbrace
    rw [List.take_succ_cons, List.take_zero, hone] at heven
    exact ⟨rfl, by omega⟩
  · rintro ⟨rfl, rfl⟩
    exact ⟨rfl, by rw [List.take_succ_cons, List.take_zero, hone]; rfl⟩

theorem closesAt_cons_succ (k : Nat) :
    ClosesAt depth (c :: s) (k + 1) ↔ ClosesAt (depth + opened [c]) s k := by
  have hcount : depth + opened ((c :: s).take (k + 1 + 1)) =
      depth + opened [c] + opened (s.take (k + 1)) := by
    rw [List.take_succ_cons, opened_cons, Int.add_assoc]
  constructor
  · rintro ⟨hbrace, heven⟩
    exact ⟨by simpa using hbrace, hcount ▸ heven⟩
  · rintro ⟨hbrace, heven⟩
    exact ⟨by simpa using hbrace, hcount ▸ heven⟩

/-- A search that fails has met no such brace. -/
theorem not_closesAt_of_closeFrom_eq_none (h : closeFrom depth pos s = none) (k : Nat) :
    ¬ ClosesAt depth s k := by
  induction s generalizing depth pos k with
  | nil => exact not_closesAt_nil k
  | cons c s ih =>
      rw [closeFrom_cons] at h
      split at h
      · exact absurd h (by simp)
      · rename_i hgo
        cases k with
        | zero => exact fun hk => hgo (closesAt_cons_zero.1 hk)
        | succ k => exact fun hk => ih h k ((closesAt_cons_succ k).1 hk)

/-- A search that succeeds has stopped at the first such brace. -/
theorem exists_isLeast_of_closeFrom (h : closeFrom depth pos s = some close) :
    ∃ k, close = pos + k ∧ IsLeast {k | ClosesAt depth s k} k := by
  induction s generalizing depth pos with
  | nil => exact absurd h (by simp)
  | cons c s ih =>
      rw [closeFrom_cons] at h
      split at h
      · rename_i hend
        exact ⟨0, (Option.some.inj h).symm, closesAt_cons_zero.2 hend, fun _ _ => Nat.zero_le _⟩
      · rename_i hgo
        obtain ⟨k, rfl, heven, hleast⟩ := ih h
        refine ⟨k + 1, by omega, (closesAt_cons_succ k).2 heven, fun j hj => ?_⟩
        cases j with
        | zero => exact absurd (closesAt_cons_zero.1 hj) hgo
        | succ j => exact Nat.succ_le_succ (hleast ((closesAt_cons_succ j).1 hj))

end

/-! ### The whole text -/

/-- At `close` stands a closing brace, and from `start` up to it as many blocks are opened as
closed. -/
structure ClosesAll (text : List Char) (start close : Nat) : Prop where
  start_le : start ≤ close
  brace : text[close]? = some '\x7d'
  even : (range text start (close + 1)).count '\x7b' = (range text start (close + 1)).count '\x7d'

section
variable {text : List Char} {start close : Nat}

theorem closesAll_add_iff {k : Nat} :
    ClosesAll text start (start + k) ↔ ClosesAt 0 (text.drop start) k := by
  have hrange : range text start (start + k + 1) = (text.drop start).take (k + 1) := by
    rw [range, Nat.add_assoc, Nat.add_sub_cancel_left]
  have hbrace : (text.drop start)[k]? = text[start + k]? := List.getElem?_drop
  constructor
  · rintro ⟨-, h, heven⟩
    rw [hrange] at heven
    exact ⟨hbrace.trans h, by rw [opened, heven]; omega⟩
  · rintro ⟨h, heven⟩
    refine ⟨Nat.le_add_right _ _, hbrace.symm.trans h, ?_⟩
    rw [opened] at heven
    rw [hrange]
    omega

/-- **The search fails** exactly where no closing brace brings the count to zero. -/
theorem closingBrace?_eq_none_iff :
    closingBrace? text start = none ↔ ∀ c, ¬ ClosesAll text start c := by
  constructor
  · intro h c hc
    obtain ⟨k, rfl⟩ := Nat.exists_eq_add_of_le hc.start_le
    exact not_closesAt_of_closeFrom_eq_none h k (closesAll_add_iff.1 hc)
  · intro h
    refine Option.eq_none_iff_forall_ne_some.2 fun close hclose => ?_
    obtain ⟨k, rfl, heven, -⟩ := exists_isLeast_of_closeFrom hclose
    exact h _ (closesAll_add_iff.2 heven)

theorem isLeast_of_closingBrace? (h : closingBrace? text start = some close) :
    IsLeast {c | ClosesAll text start c} close := by
  obtain ⟨k, rfl, heven, hleast⟩ := exists_isLeast_of_closeFrom h
  refine ⟨closesAll_add_iff.2 heven, fun c hc => ?_⟩
  obtain ⟨j, rfl⟩ := Nat.exists_eq_add_of_le (ClosesAll.start_le hc)
  exact Nat.add_le_add_left (hleast (closesAll_add_iff.1 hc)) start

/-- **The search finds the first closing brace that brings the count to zero.** -/
theorem closingBrace?_eq_some_iff :
    closingBrace? text start = some close ↔ IsLeast {c | ClosesAll text start c} close := by
  refine ⟨isLeast_of_closingBrace?, fun hleast => ?_⟩
  cases h : closingBrace? text start with
  | none => exact absurd hleast.1 (closingBrace?_eq_none_iff.1 h close)
  | some c => rw [(isLeast_of_closingBrace? h).unique hleast]

/-! ### Partners -/

/-- The brace at `start` opens a block and the brace at `close` closes it: what stands between them
is balanced. -/
structure Partners (text : List Char) (start close : Nat) : Prop where
  opening : text[start]? = some '\x7b'
  closing : text[close]? = some '\x7d'
  start_lt : start < close
  balanced : Balanced (range text (start + 1) close)

theorem drop_eq_cons_of_getElem? {k : Nat} {x : Char} (h : text[k]? = some x) :
    text.drop k = x :: text.drop (k + 1) := by
  obtain ⟨hlt, rfl⟩ := List.getElem?_eq_some_iff.1 h
  exact List.drop_eq_getElem_cons hlt

/-- The text around and between two partners. -/
theorem Partners.exists_split (h : Partners text start close) :
    ∃ pre body t, text = pre ++ '\x7b' :: (body ++ '\x7d' :: t) ∧ start = pre.length ∧
      close = pre.length + 1 + body.length ∧ Balanced body := by
  have hlt : close < text.length := (List.getElem?_eq_some_iff.1 h.closing).1
  have hstart := h.start_lt
  have hbehind : (text.drop (start + 1)).drop (close - (start + 1)) = text.drop close := by
    rw [List.drop_drop, Nat.add_sub_cancel' hstart]
  have hbody : range text (start + 1) close ++ '\x7d' :: text.drop (close + 1) =
      text.drop (start + 1) := by
    rw [← drop_eq_cons_of_getElem? h.closing, ← hbehind, range, List.take_append_drop]
  refine ⟨text.take start, _, text.drop (close + 1), ?_, ?_, ?_, h.balanced⟩
  · rw [hbody, ← drop_eq_cons_of_getElem? h.opening, List.take_append_drop]
  · rw [List.length_take]
    omega
  · rw [range, List.length_take, List.length_take, List.length_drop]
    omega

/-- The block from one partner up to the other. -/
theorem Partners.range_eq (h : Partners text start close) :
    range text start (close + 1) = '\x7b' :: (range text (start + 1) close ++ ['\x7d']) := by
  obtain ⟨n, rfl⟩ := Nat.exists_eq_add_of_le h.start_lt
  have hclosing : (text.drop (start + 1))[n]? = some '\x7d' := by
    rw [List.getElem?_drop, h.closing]
  have hlength : start + 1 + n + 1 - start = n + 1 + 1 := by omega
  rw [range, range, drop_eq_cons_of_getElem? h.opening, hlength, Nat.add_sub_cancel_left,
    List.take_succ_cons, List.take_add_one, hclosing, Option.toList_some]

/-- Before the block is closed, each of its beginnings opens more than it closes. -/
theorem Partners.count_lt (h : Partners text start close) {u v : List Char}
    (huv : range text start (close + 1) = u ++ v) (hu : u ≠ []) (hv : v ≠ []) :
    u.count '\x7d' < u.count '\x7b' := by
  obtain ⟨x, u, rfl⟩ := List.exists_cons_of_ne_nil hu
  obtain ⟨v, y, rfl⟩ := (List.eq_nil_or_concat v).resolve_left hv
  rw [h.range_eq, List.cons_append, List.concat_eq_append, ← List.append_assoc] at huv
  obtain ⟨rfl, hrest⟩ := List.cons.inj huv
  -- what follows the opening brace is a beginning of the body
  obtain ⟨hbody, -⟩ := List.append_inj' hrest rfl
  have := h.balanced.closed_le_opened u v hbody
  rw [List.count_cons_self, List.count_cons_of_ne (by decide)]
  omega

/-- **From an opening brace on, the search finds its partner.** -/
theorem closingBrace?_eq_some_iff_partners (hopen : text[start]? = some '\x7b') :
    closingBrace? text start = some close ↔ Partners text start close := by
  constructor
  · intro h
    obtain ⟨hlt, hbalanced⟩ := balanced_of_closingBrace? (drop_eq_cons_of_getElem? hopen) h
    exact ⟨hopen, (closingBrace?_bounds h).2.2, hlt, hbalanced⟩
  · intro h
    obtain ⟨pre, body, t, rfl, rfl, rfl, hbody⟩ := h.exists_split
    exact closingBrace?_block hbody pre t

end

/-- **What the search for a closing brace returns.**  From any position on it finds the first
closing brace up to which as many blocks are opened as closed, and fails if there is none.  From an
opening brace on this is the partner of that brace, and each beginning of the block opens more than
it closes. -/
theorem closingBrace_exact (text : List Char) (start : Nat) :
    closingBraceFrom text start = .ok ((closingBrace? text start).map fun pos => (pos : Int)) ∧
      (∀ close, closingBrace? text start = some close ↔
        IsLeast {c | ClosesAll text start c} close) ∧
      (closingBrace? text start = none ↔ ∀ c, ¬ ClosesAll text start c) ∧
      (text[start]? = some '\x7b' → ∀ close,
        (closingBrace? text start = some close ↔ Partners text start close) ∧
          (closingBrace? text start = some close → ∀ u v, range text start (close + 1) = u ++ v →
            u ≠ [] → v ≠ [] → u.count '\x7d' < u.count '\x7b')) := by
  have hstart : ¬ (start : Int) < 0 := Int.not_lt.2 (Int.natCast_nonneg start)
  refine ⟨by rw [closingBraceFrom, if_neg hstart, Int.toNat_natCast],
    fun close => closingBrace?_eq_some_iff, closingBrace?_eq_none_iff, fun hopen close => ?_⟩
  have hpartners : closingBrace? text start = some close ↔ Partners text start close :=
    closingBrace?_eq_some_iff_partners hopen
  exact ⟨hpartners, fun h u v huv hu hv => (hpartners.1 h).count_lt huv hu hv⟩

-- the count falls below zero before it comes back
example : closingBrace? "\x7d\x7b\x7b\x7d\x7d".toList 0 = some 3 := by decide

end Text

end SourceOutline
