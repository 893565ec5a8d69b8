/-
**Texts as lists of characters.**

A source file is a list of characters, and an offset into it counts characters.  This module has
the operations that do not depend on any pattern: trimming, splitting and cutting out a range.

Main definitions:

* `Text.trimLeft`, `Text.trimRight`, `Text.trim` — drop the blanks at the ends of a text;
* `Text.splitOn` — the pieces between the occurrences of a character;
* `Text.words`, `Text.collapse` — the words of a text, and the words joined by single spaces;
* `Text.range` — the part of a text between two positions;
* `Text.clamp`, `Text.slice` — the same where the positions may count from the end of the text;
* `Text.dropPrefix?` — the rest of a text after a given beginning.

Main results:

* `Text.splitOn_ne_nil` — there is always a piece;
* `Text.slice_natCast` — positions within the text mean themselves.
-/

import SourceOutline.Text.Blank

set_option autoImplicit false

namespace SourceOutline.Text

/-! ### Trimming -/

/-- The text without the blanks it begins with. -/
def trimLeft (text : List Char) : List Char :=
  text.dropWhile isBlank

/-- The text without the blanks it ends with. -/
def trimRight (text : List Char) : List Char :=
  (text.reverse.dropWhile isBlank).reverse

/-- The text without the blanks at either end. -/
def trim (text : List Char) : List Char :=
  trimRight (trimLeft text)

@[simp]
theorem trim_nil : trim [] = [] := rfl

/-! ### Splitting -/

/-- The pieces of a text between the occurrences of `sep`; a text without any is its only piece. -/
def splitOn (sep : Char) : List Char → List (List Char)
  | [] => [[]]
  | c :: rest =>
    if c == sep then
      [] :: splitOn sep rest
    else
      match splitOn sep rest with
      | [] => [[c]]
      | piece :: pieces => (c :: piece) :: pieces

theorem splitOn_ne_nil (sep : Char) (text : List Char) : splitOn sep text ≠ [] := by
  cases text with
  | nil => simp [splitOn]
  | cons c rest =>
      simp only [splitOn]
      split
      · simp
      · split <;> simp

/-- The words of `rest`, where `word` holds the characters of a word that has begun, the last
first. -/
def wordsAfter (word : List Char) : List Char → List (List Char)
  | [] => if word.isEmpty then [] else [word.reverse]
  | c :: rest =>
    if isBlank c then
      if word.isEmpty then wordsAfter [] rest else word.reverse :: wordsAfter [] rest
    else
      wordsAfter (c :: word) rest

/-- The maximal runs of characters that are not blank. -/
def words (text : List Char) : List (List Char) :=
  wordsAfter [] text

/-- The words of a text with one space between them. -/
def collapse (text : List Char) : List Char :=
  [' '].intercalate (words text)

/-! ### Ranges -/

/-- The position that an index means in a sequence of `length` items: a negative one counts from
the end, and one beyond an end means that end. -/
def clamp (length : Nat) (index : Int) : Nat :=
  if index < 0 then (index + length).toNat else min index.toNat length

/-- The items from position `start` up to position `stop`. -/
def range {α : Type} (items : List α) (start stop : Nat) : List α :=
  (items.drop start).take (stop - start)

/-- The items from `start` up to `stop`, by the positions that the two indices mean. -/
def slice {α : Type} (items : List α) (start stop : Int) : List α :=
  range items (clamp items.length start) (clamp items.length stop)

theorem clamp_natCast (length index : Nat) : clamp length (index : Int) = min index length := by
  have h : ¬ (index : Int) < 0 := by omega
  simp [clamp, h]

theorem range_eq_drop_take {α : Type} (items : List α) (start stop : Nat) :
    range items start stop = (items.take stop).drop start := by
  simp [range, List.drop_take]

theorem slice_natCast {α : Type} (items : List α) (start stop : Nat) (h : start ≤ items.length)
    (h' : stop ≤ items.length) : slice items (start : Int) (stop : Int) = range items start stop := by
  simp [slice, clamp_natCast, Nat.min_eq_left h, Nat.min_eq_left h']

/-! ### Beginnings -/

/-- What follows `head` in a text that begins with it. -/
def dropPrefix? : (head text : List Char) → Option (List Char)
  | [], text => some text
  | _ :: _, [] => none
  | h :: head, c :: text => if h == c then dropPrefix? head text else none

theorem dropPrefix?_eq_some_iff {head text rest : List Char} :
    dropPrefix? head text = some rest ↔ text = head ++ rest := by
  induction head generalizing text with
  | nil => simp [dropPrefix?]
  | cons h head ih =>
      cases text with
      | nil => simp [dropPrefix?]
      | cons c text =>
          by_cases hc : h = c
          · subst hc
            simp [dropPrefix?, ih]
          · simp [dropPrefix?, hc, Ne.symm hc]

end SourceOutline.Text
