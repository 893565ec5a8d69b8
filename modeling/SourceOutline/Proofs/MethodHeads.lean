/-
**Heads of methods.**

The head of a method can be read in one way only: its parentheses and its brace show where its parts
end, and the name is the last word before the parentheses.  So two searches that come upon a head at
the same place of a text find the same method, even if they see different parts of the text behind
it.

Main definitions:

* `Written.MethodHead` — the head of a method, with its blanks.

Main results:

* `exists_methodHead` — **what the head of a method reads**, and what is found in it;
* `Written.MethodHead.text_unique`, `Written.MethodHead.name_unique` — **a text begins with at most
  one head of a method**;
* `Written.MethodHead.not_begins_of_brace` — no head of a method begins within the head of a class.
-/

import SourceOutline.Proofs.Calm
import SourceOutline.Proofs.DefaultExports

set_option autoImplicit false

namespace SourceOutline

open Text Pattern

namespace Written

open Printed (Name)
open Declaration (Modifier)

/-! ### The parts of a head -/

/-- The head of a method. -/
structure MethodHead where
  isStatic : Option Gap
  modifier : Option (Modifier × Gap)
  star : Option Blanks
  name : Name
  parameters : ParameterList

namespace MethodHead

/-- A modifier and the blanks behind it, or nothing. -/
def modifierText (modifier : Option (Modifier × Gap)) : List Char :=
  modifier.elim [] fun m => m.1.label.toList ++ m.2.text

/-- A star and the blanks behind it, or nothing. -/
def starText (star : Option Blanks) : List Char :=
  star.elim [] fun b => '*' :: b.text

/-- What stands before the name. -/
def words (head : MethodHead) : List Char :=
  keywordText "static" head.isStatic ++ (modifierText head.modifier ++ starText head.star)

/-- The head up to its first parenthesis. -/
def front (head : MethodHead) : List Char :=
  head.words ++ (head.name.text ++ head.parameters.before.text)

/-- The head from its parameters on. -/
def tail (head : MethodHead) : List Char :=
  head.parameters.inner ++ ')' :: (head.parameters.behind.text ++ ['\x7b'])

/-- The head as it is written. -/
def text (head : MethodHead) : List Char :=
  head.front ++ '(' :: head.tail

/-! ### A text begins with at most one head -/

variable (head : MethodHead)

theorem text_ne_nil : head.text ≠ [] := by
  simp [text]

/-- Before its parameters a head holds neither a parenthesis nor a brace. -/
theorem not_mem_front {mark : Char} (hmark : mark = '(' ∨ mark = '\x7b') : mark ∉ head.front := by
  have hblank : isBlank mark = false := by rcases hmark with rfl | rfl <;> decide
  have hpart : isIdentPart mark = false := by rcases hmark with rfl | rfl <;> decide
  have hstatic : mark ∉ "static".toList := not_mem_of_isIdent (by decide) hpart
  have hlabel : ∀ m : Modifier, mark ∉ m.label.toList := fun m =>
    not_mem_of_isIdent (by cases m <;> decide) hpart
  have hstar : mark ≠ '*' := by rcases hmark with rfl | rfl <;> decide
  have hmodifier : mark ∉ modifierText head.modifier := by
    cases head.modifier with
    | none => simp [modifierText]
    | some m => simp [modifierText, hlabel, m.2.not_mem hblank]
  have hstarText : mark ∉ starText head.star := by
    cases head.star with
    | none => simp [starText]
    | some b => simp [starText, hstar, b.not_mem hblank]
  simp only [front, words, List.mem_append, not_or]
  exact ⟨⟨not_mem_keywordText hstatic hblank _, hmodifier, hstarText⟩,
    not_mem_of_isIdent head.name.isIdent_text hpart, head.parameters.before.not_mem hblank⟩

/-- What stands before the name does not end like a name. -/
theorem stops_reverse_words : Stops isIdentPart head.words.reverse := by
  have hends : ∀ {u v : List Char}, v ≠ [] → (∀ x ∈ v, isIdentPart x = false) →
      Stops isIdentPart (u ++ v).reverse := by
    intro u v hne hv
    rw [List.reverse_append]
    refine Stops.append (fun x hx => ?_) (by simpa using hne) _
    exact hv x (List.mem_reverse.1 (List.mem_of_head? hx))
  have hblank : ∀ b : Blanks, ∀ x ∈ b.text, isIdentPart x = false := fun b x hx =>
    isIdentPart_eq_false_of_isBlank (b.isBlank_of_mem x hx)
  have happend : ∀ {s t : List Char}, Stops isIdentPart s → Stops isIdentPart t →
      Stops isIdentPart (s ++ t) := by
    intro s t hs ht
    cases s with
    | nil => exact ht
    | cons x s => exact hs.append (by simp) t
  have hstatic : Stops isIdentPart (keywordText "static" head.isStatic).reverse := by
    cases head.isStatic with
    | none => exact stops_nil _
    | some g => exact hends g.ne_nil (hblank g.toBlanks)
  have hmodifier : Stops isIdentPart (modifierText head.modifier).reverse := by
    cases head.modifier with
    | none => exact stops_nil _
    | some m => exact hends m.2.ne_nil (hblank m.2.toBlanks)
  have hstar : Stops isIdentPart (starText head.star).reverse := by
    cases head.star with
    | none => exact stops_nil _
    | some b =>
        refine hends (u := []) (by simp) fun x hx => ?_
        rcases List.mem_cons.1 hx with rfl | hx
        · decide
        · exact hblank b x hx
  rw [words, List.reverse_append, List.reverse_append, List.append_assoc]
  exact happend hstar (happend hmodifier hstatic)

/-- **A text begins with at most one head of a method.** -/
theorem text_unique {head head' : MethodHead} {t t' : List Char}
    (h : head.text ++ t = head'.text ++ t') :
    head.front = head'.front ∧ head.text = head'.text := by
  simp only [text, tail, List.append_assoc, List.cons_append] at h
  obtain ⟨hfront, h⟩ :=
    cut_unique (head.not_mem_front (.inl rfl)) (head'.not_mem_front (.inl rfl)) h
  obtain ⟨hinner, h⟩ :=
    cut_unique head.parameters.paren_not_mem head'.parameters.paren_not_mem h
  obtain ⟨hbehind, -⟩ := cut_unique (head.parameters.behind.not_mem (by decide))
    (head'.parameters.behind.not_mem (by decide)) h
  exact ⟨hfront, by rw [text, text, tail, tail, hfront, hinner, hbehind]⟩

/-- The name is the last word before the parentheses. -/
theorem name_unique {head head' : MethodHead} (h : head.front = head'.front) :
    head.name.text = head'.name.text := by
  -- read backwards: blanks, the name, and what cannot belong to it
  let back (head : MethodHead) : Blanks :=
    ⟨head.parameters.before.text.reverse, fun x hx =>
      head.parameters.before.isBlank_of_mem x (List.mem_reverse.1 hx)⟩
  have hback : ∀ head : MethodHead,
      head.front.reverse = (back head).text ++ (head.name.text.reverse ++ head.words.reverse) := by
    intro head
    simp [front, back]
  have hparts : ∀ head : MethodHead, ∀ x ∈ head.name.text.reverse, isIdentPart x = true :=
    fun head x hx => isIdentPart_of_mem head.name.isIdent_text x (List.mem_reverse.1 hx)
  have hstops : ∀ head : MethodHead,
      Stops isBlank (head.name.text.reverse ++ head.words.reverse) := by
    intro head
    refine Stops.append (fun x hx => ?_) (by simpa using ne_nil_of_isIdent head.name.isIdent_text) _
    exact isBlank_eq_false_of_isIdentPart (hparts head x (List.mem_of_head? hx))
  have hsame := blanks_unique ((hback head).symm.trans ((congrArg List.reverse h).trans
    (hback head'))) (hstops head) (hstops head')
  refine List.reverse_injective ?_
  rw [← head.stops_reverse_words.takeWhile_append (hparts head), hsame,
    head'.stops_reverse_words.takeWhile_append (hparts head')]

/-- No head of a method begins within the head of a class: there a brace comes before any
parenthesis. -/
theorem not_begins_of_brace {s t t' : List Char} (hs : '(' ∉ s)
    (h : s ++ '\x7b' :: t = head.text ++ t') : False := by
  rw [text, List.append_assoc, List.cons_append] at h
  rcases List.append_eq_append_iff.1 h with ⟨more, hfront, hmore⟩ | ⟨more, rfl, hmore⟩
  · cases more with
    | nil => exact absurd (List.cons.inj hmore).1 (by decide)
    | cons x more =>
        obtain ⟨rfl, -⟩ := List.cons.inj hmore
        exact head.not_mem_front (.inr rfl) (by simp [hfront])
  · cases more with
    | nil => exact absurd (List.cons.inj hmore).1 (by decide)
    | cons x more =>
        obtain ⟨rfl, -⟩ := List.cons.inj hmore
        exact hs (by simp)

end MethodHead

end Written

/-! ### What the pattern reads -/

theorem exists_modifier {c : Cursor} {found : Option Declaration.Modifier × Cursor}
    (h : found ∈ (optional Declaration.modifier).outcomes c) :
    ∃ m, c.Reads (Written.MethodHead.modifierText m) found.2 := by
  rcases mem_outcomes_optional.1 h with ⟨_, -, h⟩ | rfl
  · obtain ⟨⟨m, mid⟩, hword, h⟩ := mem_outcomes_bind.1 h
    have hlabel : c.Reads m.label.toList mid := by
      simp only [outcomes_orElse, List.mem_append] at hword
      rcases hword with hword | hword | hword <;>
      · obtain ⟨_, hread, hmid⟩ := mem_outcomes_bind.1 hword
        rw [outcomes_pure, List.mem_singleton, Prod.mk.injEq] at hmid
        obtain ⟨rfl, rfl⟩ := hmid
        exact reads_of_mem_outcomes_word hread
    obtain ⟨_, hgap, h⟩ := mem_outcomes_bind.1 h
    obtain ⟨g, hg⟩ := exists_gap hgap
    rw [outcomes_pure, List.mem_singleton, Prod.mk.injEq] at h
    rw [h.2]
    exact ⟨some (m, g), hlabel.append hg⟩
  · exact ⟨none, Cursor.Reads.nil c⟩

theorem exists_star {c : Cursor} {found : Option Unit × Cursor}
    (h : found ∈ (optional do word "*"; blanks).outcomes c) :
    ∃ star, c.Reads (Written.MethodHead.starText star) found.2 := by
  rcases mem_outcomes_optional.1 h with ⟨_, -, h⟩ | rfl
  · obtain ⟨_, hstar, h⟩ := mem_outcomes_bind.1 h
    obtain ⟨b, hb⟩ := exists_blanks h
    exact ⟨some b, (reads_of_mem_outcomes_word hstar).append hb⟩
  · exact ⟨none, Cursor.Reads.nil c⟩

/-- **What the head of a method reads**, and what is found in it. -/
theorem exists_methodHead {c : Cursor} {found : Declaration.MethodHead × Cursor}
    (h : found ∈ Declaration.methodHead.outcomes c) :
    ∃ head : Written.MethodHead, c.Reads head.text found.2 ∧
      found.1.name.text = head.name.text := by
  obtain ⟨_, hstatic, h⟩ := mem_outcomes_bind.1 h
  obtain ⟨isStatic, hstatic⟩ := exists_optionalKeyword hstatic
  obtain ⟨_, hmodifier, h⟩ := mem_outcomes_bind.1 h
  obtain ⟨modifier, hmodifier⟩ := exists_modifier hmodifier
  obtain ⟨_, hstar, h⟩ := mem_outcomes_bind.1 h
  obtain ⟨star, hstar⟩ := exists_star hstar
  obtain ⟨_, hname, h⟩ := mem_outcomes_bind.1 h
  obtain ⟨name, hnameText, hname⟩ := exists_name hname
  obtain ⟨_, hlist, h⟩ := mem_outcomes_bind.1 h
  obtain ⟨list, -, hlist⟩ := exists_parameterList hlist
  rw [outcomes_pure, List.mem_singleton] at h
  subst h
  refine ⟨⟨isStatic, modifier, star, name, list⟩, ?_, hnameText⟩
  have hall := hstatic.append (hmodifier.append (hstar.append (hname.append hlist)))
  simpa [Written.MethodHead.text, Written.MethodHead.front, Written.MethodHead.words,
    Written.MethodHead.tail, Written.ParameterList.text] using hall

end SourceOutline
