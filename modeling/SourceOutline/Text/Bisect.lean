/-
**Bisection of a sorted array.**

A test that holds on a first part of an array and fails on the rest has one boundary, and halving
the interval finds it.  Two searches of the library are instances: the number of line breaks before
an offset, and the range of a code-point table that could hold a character.

Main definitions:

* `Text.bisect`, `Text.boundary` — the boundary of a test on an array.

Main results:

* `Text.boundary_le_size` — the boundary is an index of the array or its size.
-/

set_option autoImplicit false

namespace SourceOutline.Text

/-- The boundary of `test` between `lo` and `hi`: the interval is halved, and the half that still
holds the boundary is kept. -/
def bisect {α : Type} (test : α → Bool) (items : Array α) (lo hi : Nat) (bound : hi ≤ items.size) :
    Nat :=
  if h : lo < hi then
    let mid := (lo + hi) / 2
    have inside : mid < items.size := by omega
    if test items[mid] then
      bisect test items (mid + 1) hi bound
    else
      bisect test items lo mid (Nat.le_of_lt inside)
  else
    lo
termination_by hi - lo

/-- The number of leading items that pass `test`, for an array on which no item that passes stands
after one that fails. -/
def boundary {α : Type} (test : α → Bool) (items : Array α) : Nat :=
  bisect test items 0 items.size (Nat.le_refl _)

theorem bisect_le {α : Type} (test : α → Bool) (items : Array α) (lo hi : Nat)
    (bound : hi ≤ items.size) (h : lo ≤ hi) : bisect test items lo hi bound ≤ hi := by
  fun_induction bisect test items lo hi bound with
  | case1 lo hi bound hlt mid inside pass ih => exact ih (by omega)
  | case2 lo hi bound hlt mid inside fail ih => have := ih (by omega); omega
  | case3 lo hi bound hge => exact h

theorem boundary_le_size {α : Type} (test : α → Bool) (items : Array α) :
    boundary test items ≤ items.size :=
  bisect_le test items 0 items.size (Nat.le_refl _) (Nat.zero_le _)

end SourceOutline.Text
