/-
**Cursors.**

A cursor is a place between two characters of a text: it knows the character just before it, if any,
and all that follows.  Whether a pattern matches depends on nothing else, so a match does not change
when the text is moved to another offset.

Main definitions:

* `Pattern.Cursor`, `Pattern.Cursor.ofText` — a place in a text, and the place before its first
  character;
* `Pattern.Cursor.skip?` — the place after a given word;
* `Pattern.Cursor.runs` — the places after the runs of characters that pass a test, longest first;
* `Pattern.Cursor.seek?` — the next place where a given word stands;
* `Pattern.Capture`, `Pattern.Capture.text` — two places in one text, and what stands between them.

Main results:

* `Pattern.Cursor.skip?_eq_some_iff` — skipping a word is reading that word;
* `Pattern.Cursor.runs_append` — the accumulated runs stay at the end.
-/

import SourceOutline.Text.Basic

set_option autoImplicit false

namespace SourceOutline.Pattern

/-- A place in a text: the character before it and the characters after it. -/
structure Cursor where
  before : Option Char
  rest : List Char
  deriving DecidableEq, Repr

namespace Cursor

/-- The place before the first character. -/
def ofText (text : List Char) : Cursor :=
  ⟨none, text⟩

/-- The place after `word`, if that is what follows. -/
def skip? : List Char → Cursor → Option Cursor
  | [], c => some c
  | w :: word, ⟨_, x :: rest⟩ => if w == x then skip? word ⟨some x, rest⟩ else none
  | _ :: _, ⟨_, []⟩ => none

/-- The places after zero, one, two … characters that pass `test`, the last place first; `nearer`
holds the places before this one. -/
def runs (test : Char → Bool) (nearer : List Cursor) : Option Char → List Char → List Cursor
  | before, [] => ⟨before, []⟩ :: nearer
  | before, x :: rest =>
    if test x then
      runs test (⟨before, x :: rest⟩ :: nearer) (some x) rest
    else
      ⟨before, x :: rest⟩ :: nearer

/-- The first place, here or later, where `word` stands. -/
def seek? (word : List Char) : Option Char → List Char → Option Cursor
  | before, [] => if word.isEmpty then some ⟨before, []⟩ else none
  | before, x :: rest =>
    if word.isPrefixOf (x :: rest) then some ⟨before, x :: rest⟩ else seek? word (some x) rest

/-- How many characters lie between two places of one text. -/
def gap (start stop : Cursor) : Nat :=
  start.rest.length - stop.rest.length

@[simp]
theorem skip?_nil (c : Cursor) : skip? [] c = some c := rfl

theorem skip?_cons (w : Char) (word : List Char) (before : Option Char) (x : Char)
    (rest : List Char) :
    skip? (w :: word) ⟨before, x :: rest⟩ = if w == x then skip? word ⟨some x, rest⟩ else none :=
  rfl

/-- A word is skipped exactly where it stands. -/
theorem skip?_eq_some_iff {word : List Char} {c c' : Cursor} :
    skip? word c = some c' ↔
      c.rest = word ++ c'.rest ∧ c'.before = (word.getLast?).or c.before := by
  induction word generalizing c with
  | nil =>
      obtain ⟨before, rest⟩ := c
      obtain ⟨before', rest'⟩ := c'
      simp only [skip?_nil, Option.some.injEq, mk.injEq, List.nil_append, List.getLast?_nil,
        Option.none_or]
      exact ⟨fun ⟨h, h'⟩ => ⟨h', h.symm⟩, fun ⟨h, h'⟩ => ⟨h'.symm, h⟩⟩
  | cons w word ih =>
      obtain ⟨before, rest⟩ := c
      cases rest with
      | nil => simp [skip?]
      | cons x rest =>
          by_cases h : w = x
          · subst h
            rw [skip?_cons, if_pos (by simp), ih]
            cases word with
            | nil => simp
            | cons v word => simp [List.getLast?_cons]
          · have h' : ¬ x = w := fun e => h e.symm
            simp [skip?_cons, h, h']

theorem runs_append (test : Char → Bool) (nearer more : List Cursor) (before : Option Char)
    (rest : List Char) :
    runs test (nearer ++ more) before rest = runs test nearer before rest ++ more := by
  induction rest generalizing nearer before with
  | nil => rfl
  | cons x rest ih =>
      simp only [runs]
      split
      · exact ih (⟨before, x :: rest⟩ :: nearer) (some x)
      · rfl

/-- The longest run comes first, and this place itself last. -/
theorem runs_cons (test : Char → Bool) (before : Option Char) (x : Char) (rest : List Char) :
    runs test [] before (x :: rest) =
      (if test x then runs test [] (some x) rest else []) ++ [⟨before, x :: rest⟩] := by
  simp only [runs]
  split
  · exact runs_append test [] _ (some x) rest
  · rfl

end Cursor

/-- Two places of one text. -/
structure Capture where
  start : Cursor
  stop : Cursor
  deriving DecidableEq, Repr

/-- The characters between the two places. -/
def Capture.text (c : Capture) : List Char :=
  c.start.rest.take (c.start.gap c.stop)

theorem Capture.text_of_rest_eq {c : Capture} {between : List Char}
    (h : c.start.rest = between ++ c.stop.rest) : c.text = between := by
  simp [Capture.text, Cursor.gap, h]

end SourceOutline.Pattern
