/-
**Positions of records.**

A record says where it was found twice: as a range of characters and as a range of lines.

Main definitions:

* `Span`, `Span.contains` — characters from `start` up to but not including `stop`;
* `Extent` — lines from `first` to `last`, both included, counted from one.

Main results:

* `Span.contains_iff` — a span holds its start and not its stop.
-/

set_option autoImplicit false

namespace SourceOutline

/-- A range of characters; `stop` is not included. -/
structure Span where
  start : Int
  stop : Int
  deriving DecidableEq, Repr

/-- Whether an offset lies in the span. -/
def Span.contains (span : Span) (offset : Int) : Bool :=
  decide (span.start ≤ offset) && decide (offset < span.stop)

theorem Span.contains_iff {span : Span} {offset : Int} :
    span.contains offset = true ↔ span.start ≤ offset ∧ offset < span.stop := by
  simp [Span.contains]

/-- A range of lines, counted from one; both ends are included. -/
structure Extent where
  first : Nat
  last : Nat
  deriving DecidableEq, Repr

end SourceOutline
