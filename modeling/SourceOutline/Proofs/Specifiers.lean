/-
**Lists of names are read entry by entry.**

What stands between the braces of an import or export is cut at its commas, and each piece is read by
itself.  So a list reads as its two halves do, and a list that is written with one space around each
entry gives back the entries it was written from.

Main definitions:

* `Printed.Name` — an identifier;
* `Printed.Entry`, `Printed.Entry.text` — an entry of a list, with or without a second name;
* `Printed.entryList` — what stands between the braces.

Main results:

* `Specifier.entries_append_comma` — a list reads as its two halves;
* `Specifier.entries_padded` — blanks around an entry do not count;
* `Specifier.entry_name`, `Specifier.entry_alias` — the two kinds of entry;
* `Printed.entries_entryList` — a written list is read back.
-/

import SourceOutline.Proofs.Characters
import SourceOutline.Specifier

set_option autoImplicit false

namespace SourceOutline

/-! ### Splitting, trimming and words -/

namespace Text

/-- A separator splits a text into the pieces before it and the pieces after it. -/
theorem splitOn_append_sep (sep : Char) (s t : List Char) :
    splitOn sep (s ++ sep :: t) = splitOn sep s ++ splitOn sep t := by
  induction s with
  | nil => simp [splitOn]
  | cons c s ih =>
      by_cases hc : c = sep
      · subst hc
        simp [splitOn, ih]
      · obtain ⟨piece, pieces, h⟩ := List.exists_cons_of_ne_nil (splitOn_ne_nil sep s)
        simp [splitOn, ih, hc, h]

theorem splitOn_of_not_mem {sep : Char} {s : List Char} (h : sep ∉ s) : splitOn sep s = [s] := by
  induction s with
  | nil => rfl
  | cons c s ih =>
      have hc : ¬ c = sep := fun e => h (e ▸ List.mem_cons_self)
      have ih' := ih fun hmem => h (List.mem_cons_of_mem c hmem)
      simp [splitOn, hc, ih']

theorem trimLeft_append_of_isBlank {p : List Char} (hp : ∀ x ∈ p, isBlank x = true)
    (s : List Char) : trimLeft (p ++ s) = trimLeft s :=
  List.dropWhile_append_of_pos hp

theorem trimRight_append_of_isBlank {q : List Char} (hq : ∀ x ∈ q, isBlank x = true)
    (s : List Char) : trimRight (s ++ q) = trimRight s := by
  have hrev : ∀ x ∈ q.reverse, isBlank x = true := fun x hx => hq x (List.mem_reverse.1 hx)
  rw [trimRight, List.reverse_append, List.dropWhile_append_of_pos hrev, trimRight]

theorem trimLeft_cons {x : Char} (hx : isBlank x = false) (s : List Char) :
    trimLeft (x :: s) = x :: s := by
  simp [trimLeft, hx]

theorem trimRight_concat {x : Char} (hx : isBlank x = false) (s : List Char) :
    trimRight (s ++ [x]) = s ++ [x] := by
  simp [trimRight, hx]

/-- A text that does not end with a blank has nothing to be trimmed there. -/
theorem trimRight_eq_self {s : List Char} {x : Char} (h : s.getLast? = some x)
    (hx : isBlank x = false) : trimRight s = s := by
  obtain ⟨init, rfl⟩ := List.getLast?_eq_some_iff.1 h
  exact trimRight_concat hx init

/-- A text whose first and last characters are no blanks is what remains between blanks. -/
theorem trim_between {p s q : List Char} (hp : ∀ x ∈ p, isBlank x = true)
    (hq : ∀ x ∈ q, isBlank x = true) (hhead : ∀ x ∈ s.head?, isBlank x = false)
    (hlast : ∀ x ∈ s.getLast?, isBlank x = false) (hs : s ≠ []) : trim (p ++ s ++ q) = s := by
  obtain ⟨x, more, rfl⟩ := List.exists_cons_of_ne_nil hs
  obtain ⟨init, y, hinit⟩ : ∃ init y, x :: more = init ++ [y] :=
    ⟨_, _, (List.dropLast_concat_getLast hs).symm⟩
  have hx : isBlank x = false := hhead x rfl
  have hy : isBlank y = false := hlast y (by rw [hinit]; simp)
  rw [trim, List.append_assoc, trimLeft_append_of_isBlank hp, List.cons_append, trimLeft_cons hx,
    ← List.cons_append, trimRight_append_of_isBlank hq, hinit, trimRight_concat hy]

theorem wordsAfter_append {w : List Char} (hw : ∀ x ∈ w, isBlank x = false) (begun t : List Char) :
    wordsAfter begun (w ++ t) = wordsAfter (w.reverse ++ begun) t := by
  induction w generalizing begun with
  | nil => rfl
  | cons x w ih =>
      have hx : isBlank x = false := hw x List.mem_cons_self
      have ih' := ih (fun y hy => hw y (List.mem_cons_of_mem x hy)) (x :: begun)
      simp [wordsAfter, hx, ih']

/-- Blanks before the first word do not count. -/
theorem words_append_of_isBlank {u : List Char} (hu : ∀ x ∈ u, isBlank x = true) (t : List Char) :
    words (u ++ t) = words t := by
  induction u with
  | nil => rfl
  | cons x u ih =>
      have hx : isBlank x = true := hu x List.mem_cons_self
      have ih' := ih fun y hy => hu y (List.mem_cons_of_mem x hy)
      rw [words, List.cons_append, wordsAfter, if_pos hx, if_pos (by rfl)]
      exact ih'

/-- The first word ends where blanks follow. -/
theorem words_append_gap {w u : List Char} (hw : ∀ x ∈ w, isBlank x = false) (hne : w ≠ [])
    (hu : ∀ x ∈ u, isBlank x = true) (hgap : u ≠ []) (t : List Char) :
    words (w ++ (u ++ t)) = w :: words t := by
  obtain ⟨x, u, rfl⟩ := List.exists_cons_of_ne_nil hgap
  have hx : isBlank x = true := hu x List.mem_cons_self
  have hrest := words_append_of_isBlank (fun y hy => hu y (List.mem_cons_of_mem x hy)) t
  rw [words, wordsAfter_append hw, List.append_nil, List.cons_append, wordsAfter, if_pos hx,
    if_neg (by simpa using hne), List.reverse_reverse, ← words, hrest]

theorem words_singleton {w : List Char} (hw : ∀ x ∈ w, isBlank x = false) (hne : w ≠ []) :
    words w = [w] := by
  have h := wordsAfter_append hw [] []
  rw [List.append_nil, List.append_nil] at h
  rw [words, h, wordsAfter, if_neg (by simpa using hne), List.reverse_reverse]

end Text

open Text

/-! ### Entries -/

namespace Specifier

/-- A list reads as its two halves. -/
theorem entries_append_comma (s t : List Char) : entries (s ++ ',' :: t) = entries s ++ entries t := by
  simp [entries, splitOn_append_sep]

/-- Blanks around an entry do not count. -/
theorem entries_padded {p s q : List Char} (hp : ∀ x ∈ p, isBlank x = true)
    (hq : ∀ x ∈ q, isBlank x = true) (hhead : ∀ x ∈ s.head?, isBlank x = false)
    (hlast : ∀ x ∈ s.getLast?, isBlank x = false) (hs : s ≠ []) (hcomma : ',' ∉ s) :
    entries (p ++ s ++ q) = [entry s] := by
  have hno : ',' ∉ p ++ s ++ q := by
    simp only [List.mem_append, not_or]
    exact ⟨⟨fun h => absurd (hp _ h) (by decide), hcomma⟩, fun h => absurd (hq _ h) (by decide)⟩
  rw [entries, splitOn_of_not_mem hno, List.map_singleton, trim_between hp hq hhead hlast hs]
  simp [hs]

/-- Only identifiers are renamed, and only to identifiers. -/
theorem isIdent_of_aliased? {part : List Char} {names : List Char × List Char}
    (h : aliased? part = some names) : isIdent names.1 = true ∧ isIdent names.2 = true := by
  rw [aliased?] at h
  split at h
  · split at h
    · rename_i hwords
      simp only [Bool.and_eq_true] at hwords
      rw [← Option.some.inj h]
      exact ⟨hwords.1.2, hwords.2⟩
    · exact absurd h (by simp)
  · exact absurd h (by simp)

theorem entry_name {n : List Char} (hn : isIdent n = true) : entry n = (n, n) := by
  have hblank : ∀ x ∈ n, isBlank x = false := fun x hx =>
    isBlank_eq_false_of_isIdentPart (isIdentPart_of_mem hn x hx)
  simp [entry, aliased?, words_singleton hblank (ne_nil_of_isIdent hn)]

/-- Any blanks may stand around the keyword of an entry that renames. -/
theorem entry_alias {n m u v : List Char} (hn : isIdent n = true) (hm : isIdent m = true)
    (hu : ∀ x ∈ u, isBlank x = true) (hu' : u ≠ []) (hv : ∀ x ∈ v, isBlank x = true)
    (hv' : v ≠ []) : entry (n ++ (u ++ ("as".toList ++ (v ++ m)))) = (n, m) := by
  have hblank : ∀ {w : List Char}, isIdent w = true → ∀ x ∈ w, isBlank x = false := fun hw x hx =>
    isBlank_eq_false_of_isIdentPart (isIdentPart_of_mem hw x hx)
  have hwords : words (n ++ (u ++ ("as".toList ++ (v ++ m)))) = [n, "as".toList, m] := by
    rw [words_append_gap (hblank hn) (ne_nil_of_isIdent hn) hu hu',
      words_append_gap (by simp [isBlank]) (by simp) hv hv',
      words_singleton (hblank hm) (ne_nil_of_isIdent hm)]
  rw [entry, aliased?, hwords]
  simp [hn, hm]

end Specifier

/-! ### Written lists -/

namespace Printed

/-- An identifier. -/
structure Name where
  text : List Char
  isIdent_text : isIdent text = true

namespace Name

theorem isBlank_of_mem (name : Name) : ∀ x ∈ name.text, isBlank x = false := fun x hx =>
  isBlank_eq_false_of_isIdentPart (isIdentPart_of_mem name.isIdent_text x hx)

/-- What begins with a name does not begin with a blank. -/
theorem isBlank_head?_append (name : Name) (t : List Char) :
    ∀ x ∈ (name.text ++ t).head?, isBlank x = false := by
  obtain ⟨c, rest, hname, hc, -⟩ := isIdent_iff.1 name.isIdent_text
  simp [hname, isBlank_eq_false_of_isIdentStart hc]

/-- What ends with a name does not end with a blank. -/
theorem isBlank_getLast?_append (s : List Char) (name : Name) :
    ∀ x ∈ (s ++ name.text).getLast?, isBlank x = false := by
  obtain ⟨y, hy⟩ := Option.isSome_iff_exists.1
    (List.getLast?_isSome.2 (ne_nil_of_isIdent name.isIdent_text))
  intro x hx
  rw [List.getLast?_append, hy, Option.some_or, ← hy] at hx
  exact name.isBlank_of_mem x (List.mem_of_mem_getLast? hx)

end Name

/-- An entry of a list: a name, and perhaps the name it is given. -/
structure Entry where
  name : Name
  newName : Option Name

namespace Entry

/-- The entry as it is written: `n` or `n as m`. -/
def text (entry : Entry) : List Char :=
  match entry.newName with
  | none => entry.name.text
  | some newName => entry.name.text ++ (" as ".toList ++ newName.text)

/-- The name before and the name after renaming. -/
def names (entry : Entry) : List Char × List Char :=
  (entry.name.text, (entry.newName.getD entry.name).text)

theorem entry_text (entry : Entry) : Specifier.entry entry.text = entry.names := by
  obtain ⟨name, newName⟩ := entry
  cases newName with
  | none => exact Specifier.entry_name name.isIdent_text
  | some newName =>
      exact Specifier.entry_alias (u := [' ']) (v := [' ']) name.isIdent_text newName.isIdent_text
        (by simp [isBlank]) (by simp) (by simp [isBlank]) (by simp)

theorem text_ne_nil (entry : Entry) : entry.text ≠ [] := by
  obtain ⟨name, newName⟩ := entry
  have hname := ne_nil_of_isIdent name.isIdent_text
  cases newName <;> simp [text, hname]

/-- An entry begins with a character of a name. -/
theorem isBlank_head?_text (entry : Entry) : ∀ x ∈ entry.text.head?, isBlank x = false := by
  obtain ⟨name, newName⟩ := entry
  cases newName with
  | none => simpa [text] using name.isBlank_head?_append []
  | some newName => exact name.isBlank_head?_append _

/-- An entry ends with a character of a name. -/
theorem isBlank_getLast?_text (entry : Entry) : ∀ x ∈ entry.text.getLast?, isBlank x = false := by
  obtain ⟨name, newName⟩ := entry
  cases newName with
  | none => exact name.isBlank_getLast?_append []
  | some newName => simpa [text] using newName.isBlank_getLast?_append (name.text ++ " as ".toList)

/-- Only letters, digits, the marks of names and spaces stand in an entry. -/
theorem not_mem_text (entry : Entry) {mark : Char} (hpart : isIdentPart mark = false)
    (hspace : mark ≠ ' ') : mark ∉ entry.text := by
  obtain ⟨name, newName⟩ := entry
  have hno : ∀ name : Name, mark ∉ name.text := fun name => not_mem_of_isIdent name.isIdent_text hpart
  have has : mark ∉ " as ".toList := by
    have hletters : ∀ x ∈ " as ".toList, (x == ' ' || isIdentPart x) = true :=
      List.all_eq_true.1 (by decide)
    intro h
    rcases Bool.or_eq_true_iff.1 (hletters mark h) with h | h
    · exact hspace (beq_iff_eq.1 h)
    · rw [hpart] at h
      exact absurd h (by decide)
  cases newName with
  | none => exact hno name
  | some newName => simp only [text, List.mem_append, not_or]; exact ⟨hno name, has, hno newName⟩

end Entry

/-- What stands between the braces of a list: nothing, or the entries with a comma and a space
between them and a space at either end. -/
def entryList : List Entry → List Char
  | [] => []
  | [entry] => ' ' :: entry.text ++ [' ']
  | entry :: next :: more => ' ' :: entry.text ++ ',' :: entryList (next :: more)

/-- A written list is read back. -/
theorem entries_entryList (entries : List Entry) :
    Specifier.entries (entryList entries) = entries.map Entry.names := by
  induction entries with
  | nil => rfl
  | cons entry more ih =>
      have hcomma : ',' ∉ entry.text := entry.not_mem_text (by decide) (by decide)
      have hone : ∀ q : List Char, (∀ x ∈ q, isBlank x = true) →
          Specifier.entries ([' '] ++ entry.text ++ q) = [entry.names] := by
        intro q hq
        rw [Specifier.entries_padded (by simp [isBlank]) hq entry.isBlank_head?_text
          entry.isBlank_getLast?_text entry.text_ne_nil hcomma, entry.entry_text]
      cases more with
      | nil => exact hone [' '] (by simp [isBlank])
      | cons next more =>
          have hfirst := hone [] (by simp)
          rw [List.append_nil, List.singleton_append] at hfirst
          rw [entryList, Specifier.entries_append_comma, ih, hfirst]
          rfl

/-- No brace and no line feed stands in a written list. -/
theorem not_mem_entryList (entries : List Entry) {mark : Char} (hpart : isIdentPart mark = false)
    (hspace : mark ≠ ' ') (hcomma : mark ≠ ',') : mark ∉ entryList entries := by
  induction entries with
  | nil => simp [entryList]
  | cons entry more ih =>
      have hentry := entry.not_mem_text hpart hspace
      cases more with
      | nil => simp [entryList, hentry, hspace]
      | cons next more => simp [entryList, hentry, hspace, hcomma, ih]

end Printed

end SourceOutline
