/-
**Classes are nested or apart.**

The ends of two classes are found by two searches that begin at different braces and know nothing of
each other.  The classes are nested or apart nevertheless: their blocks are, their heads do not
overlap, and no brace stands in a head before its last character.

Main definitions:

* `Span.Apart`, `Span.Within` — two ranges of characters that share none, and a part of a range;
* `Element.InBodyOf` — an element that lies strictly between the braces of another.

Main results:

* `SourceFile.classes_eq_filterMap` — the classes of an outline are what the heads of classes give;
* `Declaration.apart_or_inside` — **of two classes the first ends before the second begins, or it
  holds the second**;
* `classes_laminar` — **the classes of an outline are a laminar family**.
-/

import SourceOutline.Proofs.Blocks
import SourceOutline.Proofs.Grouping

set_option autoImplicit false

namespace SourceOutline

open Text Pattern

/-! ### Ranges -/

/-- No character lies in both ranges. -/
def Span.Apart (a b : Span) : Prop :=
  a.stop ≤ b.start ∨ b.stop ≤ a.start

/-- The first range is a part of the second. -/
def Span.Within (a b : Span) : Prop :=
  b.start ≤ a.start ∧ a.stop ≤ b.stop

/-- The element lies strictly between the braces of another. -/
def Element.InBodyOf (e outer : Element) : Prop :=
  outer.bodyStart ≤ e.span.start ∧ e.span.stop < outer.span.stop

instance (a b : Span) : Decidable (a.Apart b) :=
  inferInstanceAs (Decidable (_ ∨ _))

instance (a b : Span) : Decidable (a.Within b) :=
  inferInstanceAs (Decidable (_ ∧ _))

instance (e outer : Element) : Decidable (e.InBodyOf outer) :=
  inferInstanceAs (Decidable (_ ∧ _))

theorem Element.start_le_bodyStart (e : Element) : e.span.start ≤ e.bodyStart := by
  rw [bodyStart]
  omega

/-! ### Two classes -/

/-- A character of a head is one of the text. -/
theorem Pattern.Find.Placed.getElem?_head {α : Type} {p : Pattern α} {text : List Char}
    {find : Find (Declaration.Header α)} (h : find.Placed p text) {s : List Char}
    (hreads : find.value.start.Reads s find.stop) {i : Nat} (hi : i < s.length) :
    s[i]? = text[find.headOffset + i]? := by
  rw [← List.getElem?_drop, h.drop_eq hreads, List.getElem?_append_left hi]

namespace Declaration

section
variable {text : List Char} {f g : Find (Header Capture)} {close close' : Nat}

/-- No brace of another block stands in the head of a class. -/
theorem lt_headOffset_of_lt_brace (hg : g.Placed classHead text)
    (hbrace : text[close]? = some '\x7d') (hlt : close < g.stopOffset - 1) :
    close < g.headOffset := by
  obtain ⟨head, hreads, -⟩ := exists_classHead hg.mem_outcomes
  have hstop := hg.stopOffset_eq _ hreads
  rw [Written.ClassHead.text, List.length_append, List.length_singleton] at hstop
  refine Nat.lt_of_not_le fun hle => ?_
  have hfront : close - g.headOffset < head.front.length := by omega
  have hhead := hg.getElem?_head hreads (i := close - g.headOffset)
    (by rw [Written.ClassHead.text, List.length_append]; omega)
  rw [Written.ClassHead.text, List.getElem?_append_left hfront, Nat.add_sub_cancel' hle,
    hbrace] at hhead
  exact head.not_mem_front (by decide) (by decide) (List.mem_of_getElem? hhead)

/-- **Of two classes the first ends before the second begins, or it holds the second.** -/
theorem apart_or_inside (hf : f.Placed classHead text) (hg : g.Placed classHead text)
    (hlt : f.stopOffset ≤ g.headOffset) (hclose : bodyEnd? text f = some close)
    (hclose' : bodyEnd? text g = some close') : close < g.headOffset ∨ close' < close := by
  obtain ⟨hpos, hopen⟩ := hf.exists_last endsWith_classHead
  obtain ⟨hpos', hopen'⟩ := hg.exists_last endsWith_classHead
  have hbraces : f.stopOffset - 1 < g.stopOffset - 1 := by omega
  rcases closingBrace?_nested hbraces hopen hopen' hclose hclose' with hapart | hinside
  · exact Or.inl (lt_headOffset_of_lt_brace hg (closingBrace?_bounds hclose).2.2 hapart)
  · exact Or.inr hinside

end

/-- The record of a class whose head was found, if its body ends. -/
def classRecord? (file : SourceFile) (find : Find (Header Capture)) : Option Element :=
  (bodyEnd? file.text find).map (classElement file find)

section
variable {file : SourceFile} {f g : Find (Header Capture)} {e e' : Element}

/-- The braces of a class match. -/
theorem braces_of_classRecord? (hf : f ∈ findAll (header classHead) file.text)
    (he : classRecord? file f = some e) :
    ∃ opening closing : Nat, e.bodyStart = opening + 1 ∧ e.span.stop = closing + 1 ∧
      file.text[opening]? = some '\x7b' ∧ closingBrace? file.text opening = some closing := by
  obtain ⟨close, hclose, rfl⟩ := Option.map_eq_some_iff.1 he
  obtain ⟨hpos, hopen⟩ := (placed_of_mem_findAll hf).exists_last endsWith_classHead
  refine ⟨f.stopOffset - 1, close, ?_, rfl, ?_, hclose⟩
  · rw [bodyStart_classElement hf hclose]
    omega
  · rw [← List.head?_drop, hopen, List.head?_cons]

/-- Two classes that were found one after the other. -/
theorem nested_of_classRecord? (hf : f ∈ findAll (header classHead) file.text)
    (hg : g ∈ findAll (header classHead) file.text) (hlt : f.stopOffset ≤ g.offset)
    (he : classRecord? file f = some e) (he' : classRecord? file g = some e') :
    e.span.start < e'.span.start ∧ e'.span.start < e'.span.stop ∧
      (e.span.stop ≤ e'.span.start ∨ e'.InBodyOf e) := by
  obtain ⟨close, hclose, rfl⟩ := Option.map_eq_some_iff.1 he
  obtain ⟨close', hclose', rfl⟩ := Option.map_eq_some_iff.1 he'
  have hplaced := placed_of_mem_findAll hf
  have hplaced' := placed_of_mem_findAll hg
  have hhead : f.headOffset < f.stopOffset := (hplaced.exists_last endsWith_classHead).1
  have hhead' : g.headOffset < g.stopOffset := (hplaced'.exists_last endsWith_classHead).1
  have hoffset := g.offset_le_headOffset
  have hbounds := (closingBrace?_bounds hclose').1
  have hstart : (classElement file f close).span.start = f.headOffset := rfl
  have hstart' : (classElement file g close').span.start = g.headOffset := rfl
  have hstop : (classElement file f close).span.stop = close + 1 := rfl
  have hstop' : (classElement file g close').span.stop = close' + 1 := rfl
  refine ⟨by omega, by omega, ?_⟩
  rcases apart_or_inside hplaced hplaced' (by omega) hclose hclose' with hapart | hinside
  · exact Or.inl (by omega)
  · refine Or.inr ⟨?_, by omega⟩
    rw [bodyStart_classElement hf hclose]
    omega

end

end Declaration

/-! ### The classes of an outline -/

/-- Of a group only the class itself is a class. -/
theorem ClassGroup.WellPlaced.filter_elements {file : SourceFile} {g : ClassGroup}
    (h : g.WellPlaced file) : g.elements.filter (·.kind == .classDecl) = [g.owner] := by
  have hmethods : g.methods.filter (·.kind == .classDecl) = [] := by
    refine List.filter_eq_nil_iff.2 fun m hm => ?_
    rw [h.kind_method m hm]
    decide
  rw [ClassGroup.elements, List.filter_cons_of_pos (by rw [h.kind_owner]; rfl), hmethods]

/-- Functions are no classes. -/
theorem OrderedFunctions.filter_classes {classes functions : List Element}
    (h : OrderedFunctions classes functions) : functions.filter (·.kind == .classDecl) = [] := by
  refine List.filter_eq_nil_iff.2 fun f hf => ?_
  rw [h.kind_eq f hf]
  decide

/-- The classes of an outline are what the heads of classes give. -/
theorem SourceFile.classes_eq_filterMap (file : SourceFile) :
    file.outline.value.classes =
      (findAll (Declaration.header Declaration.classHead) file.text).filterMap
        (Declaration.classRecord? file) := by
  have hfunctions := orderedFunctions file (file.groups.flatMap ClassGroup.elements) file.exports
  have hgroups : (file.groups.flatMap ClassGroup.elements).filter (·.kind == .classDecl) =
      file.groups.map ClassGroup.owner := by
    rw [List.filter_flatMap, List.map_eq_flatMap]
    exact List.flatMap_congr fun g hg => (wellPlaced_of_mem_groups hg).filter_elements
  rw [Outline.classes, Outline.ofKind, file.elements_eq, List.filter_append, hgroups,
    hfunctions.filter_classes, List.append_nil, groups, List.map_filterMap]
  refine List.filterMap_congr fun find _ => ?_
  rw [Declaration.group?, Declaration.classRecord?, Option.map_map]
  rfl

theorem SourceFile.mem_classes_iff {file : SourceFile} {e : Element} :
    e ∈ file.outline.value.classes ↔
      ∃ find ∈ findAll (Declaration.header Declaration.classHead) file.text,
        Declaration.classRecord? file find = some e := by
  rw [classes_eq_filterMap, List.mem_filterMap]

/-- **The classes of an outline are a laminar family.**  The braces of each class match.  Of any two
classes the spans share no character or one is a part of the other, and then the inner class lies
strictly between the braces of the outer one. -/
theorem classes_laminar (path : String) (text : List Char) :
    let outline := (SourceFile.ofText path text).outline.value
    (∀ e ∈ outline.classes, ∃ opening closing : Nat,
      e.bodyStart = opening + 1 ∧ e.span.stop = closing + 1 ∧
        text[opening]? = some '\x7b' ∧ closingBrace? text opening = some closing) ∧
    outline.classes.Pairwise fun e f =>
      (e.span.Apart f.span ∨ e.span.Within f.span ∨ f.span.Within e.span) ∧
        (e.span.Within f.span → e.InBodyOf f) ∧ (f.span.Within e.span → f.InBodyOf e) := by
  intro outline
  rw [show outline.classes = _ from SourceFile.classes_eq_filterMap _]
  refine ⟨fun e he => ?_, List.pairwise_filterMap.2 ?_⟩
  · obtain ⟨find, hfind, hrecord⟩ := List.mem_filterMap.1 he
    exact Declaration.braces_of_classRecord? hfind hrecord
  · refine (pairwise_findAll _ _).imp_of_mem fun {f g} hf hg hlt e he e' he' => ?_
    obtain ⟨hstart, hpos, hnested⟩ := Declaration.nested_of_classRecord? hf hg hlt.2 he he'
    have hbody : e.span.start ≤ e.bodyStart := e.start_le_bodyStart
    refine ⟨?_, fun hwithin => ?_, fun hwithin => ?_⟩
    · rcases hnested with hapart | ⟨hfirst, hlast⟩
      · exact Or.inl (Or.inl hapart)
      · exact Or.inr (Or.inr ⟨by omega, by omega⟩)
    · have := hwithin.1
      omega
    · rcases hnested with hapart | hinside
      · have := hwithin.2
        omega
      · exact hinside

end SourceOutline
