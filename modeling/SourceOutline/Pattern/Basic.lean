/-
**Backtracking patterns.**

A pattern is tried at a place of a text and has a list of outcomes, the preferred one first: what it
found, and the place where it ended.  Repetition prefers to go on, an alternative prefers its left
side, and the outcomes of a sequence are those of its second part after each outcome of the first.
The first outcome is the match; the others are what backtracking would try next.

Main definitions:

* `Pattern` — patterns, with a `Monad` instance for sequences and `<|>` for alternatives;
* `Pattern.outcomes` — the outcomes of a pattern at a place;
* `Pattern.first?` — the preferred outcome.

Main results:

* `Pattern.outcomes_bind`, `Pattern.outcomes_orElse`, … — the outcomes of each construct;
* `Pattern.mem_outcomes_bind` — an outcome of a sequence goes through an outcome of its first part.
-/

import SourceOutline.Pattern.Cursor

set_option autoImplicit false

namespace SourceOutline

open Pattern (Cursor Capture)

/-- Patterns that find an `α`. -/
inductive Pattern : Type → Type 1 where
  /-- Finds `a` here. -/
  | done {α : Type} (a : α) : Pattern α
  /-- Finds what the second pattern finds after the first. -/
  | andThen {α β : Type} (p : Pattern α) (next : α → Pattern β) : Pattern β
  /-- Finds what `p` finds, or else what `q` finds. -/
  | either {α : Type} (p q : Pattern α) : Pattern α
  /-- One character that passes the test. -/
  | one (test : Char → Bool) : Pattern Char
  /-- A given word. -/
  | exactly (word : List Char) : Pattern Unit
  /-- Characters that pass the test, as many as possible. -/
  | many (test : Char → Bool) : Pattern Unit
  /-- Characters that pass the test, at least one and as few as possible. -/
  | fewest (test : Char → Bool) : Pattern Unit
  /-- All characters before the next occurrence of a word, which must have one. -/
  | upTo (word : List Char) : Pattern Unit
  /-- Repetitions of a pattern, as many as possible. -/
  | star {α : Type} (p : Pattern α) : Pattern Unit
  /-- Finds the text that a pattern covers. -/
  | captured {α : Type} (p : Pattern α) : Pattern Capture
  /-- Covers nothing; tests the characters before and after this place. -/
  | edge (test : Option Char → Option Char → Bool) : Pattern Unit
  /-- Covers nothing; a given pattern must not match here. -/
  | notAhead {α : Type} (p : Pattern α) : Pattern Unit

namespace Pattern

/-! ### Outcomes -/

/-- The places after as many steps as possible, then after fewer, down to none; at most `fuel`
steps are made. -/
def repeated (step : Cursor → List Cursor) : (fuel : Nat) → Cursor → List Cursor
  | 0, c => [c]
  | fuel + 1, c => (step c).flatMap (repeated step fuel) ++ [c]

/-- What a pattern finds at a place and where it ends, the preferred outcome first.  A repetition
makes no more steps than there are characters left. -/
def outcomes : {α : Type} → Pattern α → Cursor → List (α × Cursor)
  | _, .done a, c => [(a, c)]
  | _, .andThen p next, c => (outcomes p c).flatMap fun found => outcomes (next found.1) found.2
  | _, .either p q, c => outcomes p c ++ outcomes q c
  | _, .one test, c =>
    match c.rest with
    | [] => []
    | x :: rest => if test x then [(x, ⟨some x, rest⟩)] else []
  | _, .exactly word, c => (c.skip? word).toList.map fun stop => ((), stop)
  | _, .many test, c => (Cursor.runs test [] c.before c.rest).map fun stop => ((), stop)
  | _, .fewest test, c =>
    (Cursor.runs test [] c.before c.rest).reverse.tail.map fun stop => ((), stop)
  | _, .upTo word, c => (Cursor.seek? word c.before c.rest).toList.map fun stop => ((), stop)
  | _, .star p, c =>
    (repeated (fun here => (outcomes p here).map Prod.snd) c.rest.length c).map
      fun stop => ((), stop)
  | _, .captured p, c => (outcomes p c).map fun found => (⟨c, found.2⟩, found.2)
  | _, .edge test, c => if test c.before c.rest.head? then [((), c)] else []
  | _, .notAhead p, c => if (outcomes p c).isEmpty then [((), c)] else []

/-- The preferred outcome. -/
def first? {α : Type} (p : Pattern α) (c : Cursor) : Option (α × Cursor) :=
  (p.outcomes c).head?

instance : Monad Pattern where
  pure := .done
  bind := .andThen

instance {α : Type} : OrElse (Pattern α) where
  orElse p q := .either p (q ())

/-! ### The outcomes of each construct -/

section
variable {α β : Type}

@[simp]
theorem outcomes_pure (a : α) (c : Cursor) : (pure a : Pattern α).outcomes c = [(a, c)] := rfl

@[simp]
theorem outcomes_bind (p : Pattern α) (next : α → Pattern β) (c : Cursor) :
    (p >>= next).outcomes c =
      (p.outcomes c).flatMap fun found => (next found.1).outcomes found.2 := rfl

@[simp]
theorem outcomes_map (f : α → β) (p : Pattern α) (c : Cursor) :
    (f <$> p).outcomes c = (p.outcomes c).map fun found => (f found.1, found.2) :=
  List.map_eq_flatMap.symm

@[simp]
theorem outcomes_orElse (p q : Pattern α) (c : Cursor) :
    (p <|> q).outcomes c = p.outcomes c ++ q.outcomes c := rfl

theorem outcomes_one_cons (test : Char → Bool) (before : Option Char) (x : Char)
    (rest : List Char) :
    (one test).outcomes ⟨before, x :: rest⟩ = if test x then [(x, ⟨some x, rest⟩)] else [] := rfl

@[simp]
theorem outcomes_one_nil (test : Char → Bool) (before : Option Char) :
    (one test).outcomes ⟨before, []⟩ = [] := rfl

theorem outcomes_exactly (word : List Char) (c : Cursor) :
    (exactly word).outcomes c = (c.skip? word).toList.map fun stop => ((), stop) := rfl

theorem outcomes_many (test : Char → Bool) (c : Cursor) :
    (many test).outcomes c =
      (Cursor.runs test [] c.before c.rest).map fun stop => ((), stop) := rfl

theorem outcomes_edge (test : Option Char → Option Char → Bool) (c : Cursor) :
    (edge test).outcomes c = if test c.before c.rest.head? then [((), c)] else [] := rfl

theorem outcomes_captured (p : Pattern α) (c : Cursor) :
    p.captured.outcomes c = (p.outcomes c).map fun found => (⟨c, found.2⟩, found.2) := rfl

theorem outcomes_notAhead (p : Pattern α) (c : Cursor) :
    p.notAhead.outcomes c = if (p.outcomes c).isEmpty then [((), c)] else [] := rfl

/-- An outcome of a sequence goes through an outcome of its first part. -/
theorem mem_outcomes_bind {p : Pattern α} {next : α → Pattern β} {c : Cursor}
    {found : β × Cursor} :
    found ∈ (p >>= next).outcomes c ↔
      ∃ mid ∈ p.outcomes c, found ∈ (next mid.1).outcomes mid.2 := by
  simp

end

end Pattern

end SourceOutline
