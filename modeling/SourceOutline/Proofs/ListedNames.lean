/-
**Names that stand in a list.**

Whatever stands between the braces of an import or export is cut at its commas, so no comma is left in
a piece.  Blanks are trimmed from each piece and empty pieces are dropped.  A piece of three words, the
second of them `as` and the others identifiers, gives two names.  Any other piece is both names, even
if it is no identifier.

Main definitions:

* `Specifier.ListedName`, `Specifier.Listed` — a name that can come out of a list, and an entry's two;
* `Pattern.Yields` — all that a pattern finds has a property.

Main results:

* `Specifier.listed_of_mem_entries` — **every entry of a list without a closing brace is listed**;
* `Pattern.yields_identifier`, `Pattern.yields_braceList` — what names and lists are found to be.
-/

import SourceOutline.Proofs.Faithful
import SourceOutline.Proofs.WrittenHeads

set_option autoImplicit false

namespace SourceOutline

/-! ### Pieces of a text -/

namespace Text

/-- A piece between two separators holds none and takes its characters from the text. -/
theorem not_mem_and_subset_of_mem_splitOn {sep : Char} {text piece : List Char}
    (h : piece ∈ splitOn sep text) : sep ∉ piece ∧ piece ⊆ text := by
  induction text generalizing piece with
  | nil =>
      obtain rfl : piece = [] := by simpa [splitOn] using h
      exact ⟨List.not_mem_nil, List.Subset.refl _⟩
  | cons c text ih =>
      by_cases hc : c = sep
      · subst hc
        have hpieces : splitOn c (c :: text) = [] :: splitOn c text := by simp [splitOn]
        rw [hpieces] at h
        rcases List.mem_cons.1 h with rfl | h
        · exact ⟨List.not_mem_nil, List.nil_subset _⟩
        · obtain ⟨hsep, hsub⟩ := ih h
          exact ⟨hsep, fun x hx => List.mem_cons_of_mem c (hsub hx)⟩
      · obtain ⟨first, more, hfirst⟩ := List.exists_cons_of_ne_nil (splitOn_ne_nil sep text)
        have hpieces : splitOn sep (c :: text) = (c :: first) :: more := by
          simp [splitOn, hc, hfirst]
        rw [hpieces] at h
        rcases List.mem_cons.1 h with rfl | h
        · obtain ⟨hsep, hsub⟩ := ih (hfirst ▸ List.mem_cons_self)
          constructor
          · intro hmem
            rcases List.mem_cons.1 hmem with rfl | hmem
            · exact hc rfl
            · exact hsep hmem
          · exact List.cons_subset_cons c hsub
        · obtain ⟨hsep, hsub⟩ := ih (hfirst ▸ List.mem_cons_of_mem first h)
          exact ⟨hsep, fun x hx => List.mem_cons_of_mem c (hsub hx)⟩

theorem trim_subset (s : List Char) : trim s ⊆ s := fun _ hx =>
  List.dropWhile_subset isBlank ((trimRight_begins _).subset hx)

/-- A trimmed text does not begin with a blank. -/
theorem isBlank_of_mem_head?_trim {s : List Char} {x : Char} (h : x ∈ (trim s).head?) :
    isBlank x = false := by
  obtain ⟨more, hmore⟩ := List.head?_eq_some_iff.1 h
  obtain ⟨t, ht⟩ := trimRight_begins (trimLeft s)
  rw [← trim, hmore] at ht
  have hnot := List.head?_dropWhile_not isBlank s
  rw [← trimLeft, ← ht] at hnot
  exact hnot

end Text

open Text

/-! ### Entries -/

namespace Specifier

/-- A name that can come out of a list: the commas are where the list is cut, and the brace ends it. -/
structure ListedName (name : List Char) : Prop where
  ne_nil : name ≠ []
  isBlank_head : ∀ x ∈ name.head?, isBlank x = false
  isBlank_last : ∀ x ∈ name.getLast?, isBlank x = false
  comma_not_mem : ',' ∉ name
  brace_not_mem : '\x7d' ∉ name

/-- The two names of an entry; only an identifier gives a new name, and only to an identifier. -/
structure Listed (name newName : List Char) : Prop where
  listedName_name : ListedName name
  listedName_newName : ListedName newName
  isIdent_of_ne : name ≠ newName → isIdent name = true ∧ isIdent newName = true

theorem listedName_of_isIdent {name : List Char} (h : isIdent name = true) : ListedName name where
  ne_nil := ne_nil_of_isIdent h
  isBlank_head := fun x hx =>
    isBlank_eq_false_of_isIdentPart (isIdentPart_of_mem h x (List.mem_of_mem_head? hx))
  isBlank_last := fun x hx =>
    isBlank_eq_false_of_isIdentPart (isIdentPart_of_mem h x (List.mem_of_mem_getLast? hx))
  comma_not_mem := not_mem_of_isIdent h (by decide)
  brace_not_mem := not_mem_of_isIdent h (by decide)

theorem listed_entry {part : List Char} (h : ListedName part) :
    Listed (entry part).1 (entry part).2 := by
  cases halias : aliased? part with
  | none =>
      rw [entry, halias, Option.getD_none]
      exact ⟨h, h, fun hne => absurd rfl hne⟩
  | some names =>
      obtain ⟨hname, hnew⟩ := isIdent_of_aliased? halias
      rw [entry, halias, Option.getD_some]
      exact ⟨listedName_of_isIdent hname, listedName_of_isIdent hnew, fun _ => ⟨hname, hnew⟩⟩

/-- **Every entry of a list without a closing brace is listed.** -/
theorem listed_of_mem_entries {text : List Char} (hbrace : '\x7d' ∉ text)
    {names : List Char × List Char} (h : names ∈ entries text) : Listed names.1 names.2 := by
  obtain ⟨part, hpart, rfl⟩ := List.mem_map.1 h
  obtain ⟨hpart, hne⟩ := List.mem_filter.1 hpart
  obtain ⟨piece, hpiece, rfl⟩ := List.mem_map.1 hpart
  obtain ⟨hcomma, hsub⟩ := not_mem_and_subset_of_mem_splitOn hpiece
  refine listed_entry ⟨by simpa using hne, fun x => isBlank_of_mem_head?_trim,
    fun x => isBlank_of_mem_getLast?_trimRight, ?_, ?_⟩
  · intro hmem
    exact hcomma (trim_subset piece hmem)
  · intro hmem
    exact hbrace (hsub (trim_subset piece hmem))

/-- An entry that does not rename may hold blanks and need not be an identifier. -/
example : entries "a b, as c".toList = [("a b".toList, "a b".toList), ("as c".toList, "as c".toList)] := by
  decide

end Specifier

/-! ### What is found -/

namespace Pattern

variable {α β : Type} {P : α → Prop} {Q : β → Prop}

/-- All that the pattern finds has the property. -/
def Yields (p : Pattern α) (P : α → Prop) : Prop :=
  ∀ c, ∀ found ∈ p.outcomes c, P found.1

/-- The second part of a sequence may rely on what the first part finds. -/
theorem Yields.bind {p : Pattern α} {next : α → Pattern β} (h : Yields p P)
    (h' : ∀ a, P a → Yields (next a) Q) : Yields (p >>= next) Q := by
  intro c found hfound
  obtain ⟨mid, hmid, hfound⟩ := mem_outcomes_bind.1 hfound
  exact h' mid.1 (h c mid hmid) mid.2 found hfound

theorem yields_bind {p : Pattern α} {next : α → Pattern β} (h : ∀ a, Yields (next a) Q) :
    Yields (p >>= next) Q := by
  intro c found hfound
  obtain ⟨mid, -, hfound⟩ := mem_outcomes_bind.1 hfound
  exact h mid.1 mid.2 found hfound

theorem yields_pure {a : α} (h : P a) : Yields (pure a) P := by
  intro c found hfound
  rw [outcomes_pure, List.mem_singleton] at hfound
  subst hfound
  exact h

theorem Yields.orElse {p q : Pattern α} (h : Yields p P) (h' : Yields q P) :
    Yields (p <|> q) P := by
  intro c found hfound
  rcases List.mem_append.1 hfound with hfound | hfound
  · exact h c found hfound
  · exact h' c found hfound

theorem Yields.optional {p : Pattern α} (h : Yields p P) :
    Yields (optional p) fun found => ∀ a ∈ found, P a := by
  intro c found hfound a ha
  rcases mem_outcomes_optional.1 hfound with ⟨b, hb, hmem⟩ | rfl
  · rw [hb, Option.mem_some] at ha
    subst ha
    exact h c (b, found.2) hmem
  · exact absurd ha (by simp)

theorem yields_identifier : Yields identifier fun name => isIdent name.text = true := by
  intro c found hfound
  obtain ⟨name, htext, -⟩ := exists_name hfound
  rw [htext]
  exact name.isIdent_text

/-- A list goes on to the first closing brace. -/
theorem yields_braceList : Yields braceList fun names => '\x7d' ∉ names.text := by
  refine yields_bind fun _ => Yields.bind (P := fun names => '\x7d' ∉ names.text) ?_ fun names hnames =>
    yields_bind fun _ => yields_pure hnames
  intro c found hfound
  obtain ⟨hcapture, a, hmany⟩ := mem_outcomes_captured.1 hfound
  obtain ⟨s, hs, hreads⟩ := reads_of_mem_outcomes_many hmany
  have htext : found.1.text = s := by
    rw [hcapture]
    exact hreads.text_eq
  rw [htext]
  intro hmem
  exact absurd (hs _ hmem) (by simp)

end Pattern

end SourceOutline
