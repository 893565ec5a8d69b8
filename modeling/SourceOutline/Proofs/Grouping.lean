/-
**The order of records.**

The elements of an outline are groups, one for each class, and then the functions.  A group is a
class and the methods of its body, which stand inside the class, one behind the other.  Three things
work together here: finds do not overlap, the search for methods goes on behind a method's closing
brace, and offsets in a body are moved by where the body begins.

Main definitions:

* `Element.bodyStart` — where the body of a class begins;
* `ClassGroup.WellPlaced` — how a class and its methods lie;
* `OrderedFunctions` — how functions lie, among themselves and to the classes.

Main results:

* `pairwise_methods` — the methods of one body lie one behind the other;
* `Declaration.wellPlaced_of_group?` — every class that is recorded has its methods inside;
* `outline_ordered` — **the records of an outline are ordered and grouped**.
-/

import SourceOutline.Proofs.HeadRecords

set_option autoImplicit false

namespace SourceOutline

open Text Pattern

/-! ### Methods of one body -/

/-- Behind a method the search goes on where the method ends. -/
theorem resumeOffset_eq {body : List Char} {find : Find (Declaration.Header Declaration.MethodHead)}
    {close : Nat}
    (hname : Declaration.isControlWord (.ofList find.value.parts.name.text) = false)
    (hclose : Declaration.bodyEnd? body find = some close) :
    Declaration.resumeOffset body find = close + 1 := by
  simp [Declaration.resumeOffset, hname, hclose]

/-- **The methods of one body lie one behind the other.** -/
theorem pairwise_methods (file : SourceFile) (className : String) (start stop : Int) :
    (Finding.records (file.methodFindings className start stop)).Pairwise fun m n =>
      m.span.stop ≤ n.span.start := by
  rw [SourceFile.records_methodFindings]
  refine List.pairwise_filterMap.2 ((pairwise_scan 0 0 none _).imp fun {f g} hfg m hm n hn => ?_)
  obtain ⟨hname, close, hclose, rfl⟩ := Declaration.methodRecord?_eq_some_iff.1 hm
  obtain ⟨-, close', -, rfl⟩ := Declaration.methodRecord?_eq_some_iff.1 hn
  have hresume := hfg.2
  rw [resumeOffset_eq hname hclose] at hresume
  have hhead : g.offset ≤ g.offsetOf g.value.start := g.offset_le_headOffset
  simp only [Declaration.methodElement]
  omega

/-- A method of a body lies in the body. -/
theorem method_in_body {file : SourceFile} {className : String} {base stop : Nat} {m : Element}
    (hbase : base ≤ file.text.length) (hstop : stop ≤ file.text.length)
    (h : m ∈ Finding.records (file.methodFindings className base stop)) :
    m.kind = .method ∧ m.className = some className ∧
      Declaration.isControlWord m.name = false ∧
        (base : Int) ≤ m.span.start ∧ m.span.start < m.span.stop ∧ m.span.stop ≤ stop := by
  rw [SourceFile.records_methodFindings, slice_natCast _ _ _ hbase hstop, List.mem_filterMap] at h
  obtain ⟨find, hfind, h⟩ := h
  obtain ⟨hname, close, hclose, rfl⟩ := Declaration.methodRecord?_eq_some_iff.1 h
  have hhead : find.offsetOf find.value.start < find.stopOffset :=
    ((placed_of_mem_methodFinds hfind).exists_last endsWith_methodHead).1
  obtain ⟨hle, hlt, -⟩ := closingBrace?_bounds hclose
  rw [range, List.length_take] at hlt
  refine ⟨rfl, rfl, hname, ?_, ?_, ?_⟩ <;> simp only [Declaration.methodElement] <;> omega

/-! ### Groups -/

/-- The offset behind the first opening brace of an element. -/
def Element.bodyStart (e : Element) : Int :=
  e.span.start + (e.snippet.toList.takeWhile (· != '\x7b')).length + 1

/-- The methods are those of the body of the class; they bear its name, lie inside it one behind the
other, and none is called like a statement. -/
structure ClassGroup.WellPlaced (file : SourceFile) (g : ClassGroup) : Prop where
  kind_owner : g.owner.kind = .classDecl
  methods_eq : g.methods =
    Finding.records (file.methodFindings g.owner.name g.owner.bodyStart (g.owner.span.stop - 1))
  kind_method : ∀ m ∈ g.methods, m.kind = .method
  className_method : ∀ m ∈ g.methods, m.className = some g.owner.name
  not_isControlWord : ∀ m ∈ g.methods, Declaration.isControlWord m.name = false
  inside : ∀ m ∈ g.methods, g.owner.span.start < m.span.start ∧ m.span.start < m.span.stop ∧
    m.span.stop < g.owner.span.stop
  apart : g.methods.Pairwise fun m n => m.span.stop ≤ n.span.start

namespace Declaration

/-- The body of a class begins behind the brace that ends its head. -/
theorem bodyStart_classElement {file : SourceFile} {find : Find (Header Capture)} {close : Nat}
    (hfind : find ∈ findAll (header classHead) file.text)
    (hclose : bodyEnd? file.text find = some close) :
    (classElement file find close).bodyStart = find.stopOffset := by
  have hplaced := placed_of_mem_findAll hfind
  obtain ⟨head, hhead, -⟩ := exists_classHead hplaced.mem_outcomes
  have hstop := hplaced.stopOffset_eq _ hhead
  rw [Written.ClassHead.text, List.length_append, List.length_singleton] at hstop
  -- the snippet goes at least up to the brace, before which there is no other
  have hle := (closingBrace?_bounds hclose).1
  obtain ⟨more, hsnippet⟩ := hplaced.range_eq hhead (by omega : find.stopOffset ≤ close + 1)
  rw [Written.ClassHead.text, List.append_assoc] at hsnippet
  have hfront : ∀ x ∈ head.front, (x != '\x7b') = true := by
    intro x hx
    rw [bne_iff_ne]
    rintro rfl
    exact head.brace_not_mem_front hx
  have hbefore : (range file.text find.headOffset (close + 1)).takeWhile (· != '\x7b') =
      head.front := by
    rw [hsnippet]
    exact Stops.takeWhile_append (by simp) hfront
  simp only [Element.bodyStart, classElement, String.toList_ofList]
  rw [← Find.headOffset, hbefore, hstop]
  omega

/-- **Every class that is recorded has its methods inside.** -/
theorem wellPlaced_of_group? {file : SourceFile} {find : Find (Header Capture)} {g : ClassGroup}
    (hfind : find ∈ findAll (header classHead) file.text) (h : group? file find = some g) :
    g.WellPlaced file := by
  obtain ⟨close, hclose, rfl⟩ := Option.map_eq_some_iff.1 h
  have hhead : find.offsetOf find.value.start < find.stopOffset :=
    ((placed_of_mem_findAll hfind).exists_last endsWith_classHead).1
  obtain ⟨hle, hlt, -⟩ := closingBrace?_bounds hclose
  have hbase : find.stopOffset ≤ file.text.length := by omega
  have hstop : close ≤ file.text.length := Nat.le_of_lt hlt
  have hmethod := fun m =>
    @method_in_body file (.ofList find.value.parts.text) find.stopOffset close m hbase hstop
  refine ⟨rfl, ?_, fun m hm => (hmethod m hm).1, fun m hm => (hmethod m hm).2.1,
    fun m hm => (hmethod m hm).2.2.1, fun m hm => ?_, pairwise_methods _ _ _ _⟩
  · rw [bodyStart_classElement hfind hclose]
    simp [classElement]
  · obtain ⟨-, -, -, hfirst, hspan, hlast⟩ := hmethod m hm
    simp only [classElement]
    omega

theorem owner_of_group? {file : SourceFile} {find : Find (Header Capture)} {g : ClassGroup}
    (h : group? file find = some g) : g.owner.span.start = find.headOffset := by
  obtain ⟨close, -, rfl⟩ := Option.map_eq_some_iff.1 h
  rfl

end Declaration

/-! ### Functions -/

/-- Functions in the order of the text, none of which begins inside one of the classes. -/
structure OrderedFunctions (classes functions : List Element) : Prop where
  kind_eq : ∀ f ∈ functions, f.kind = .function
  inOrder : functions.Pairwise fun f g => f.span.start < g.span.start
  outside : ∀ f ∈ functions, ∀ e ∈ classes, e.kind = .classDecl →
    e.span.contains f.span.start = false

theorem orderedFunctions (file : SourceFile) (classes : List Element) (exports : List ExportEdge) :
    OrderedFunctions classes
      ((findAll (Declaration.header Declaration.functionHead) file.text).filterMap
        (Declaration.functionRecord? file classes exports)) := by
  refine ⟨fun f hf => ?_, ?_, fun f hf => ?_⟩
  · obtain ⟨find, -, h⟩ := List.mem_filterMap.1 hf
    obtain ⟨-, -, close, -, rfl⟩ := Declaration.functionRecord?_eq_some_iff.1 h
    rfl
  · have hfinds := pairwise_headFinds endsWith_functionHead file.text
    refine List.pairwise_filterMap.2 (hfinds.imp fun {find find'} hlt f hf g hg => ?_)
    obtain ⟨-, -, close, -, rfl⟩ := Declaration.functionRecord?_eq_some_iff.1 hf
    obtain ⟨-, -, close', -, rfl⟩ := Declaration.functionRecord?_eq_some_iff.1 hg
    exact Int.ofNat_lt.2 hlt
  · obtain ⟨find, -, h⟩ := List.mem_filterMap.1 hf
    obtain ⟨hout, -, close, -, rfl⟩ := Declaration.functionRecord?_eq_some_iff.1 h
    exact hout

/-! ### Elements by kind -/

namespace SourceFile

variable {file : SourceFile} {e : Element}

theorem wellPlaced_of_mem_groups {g : ClassGroup} (h : g ∈ file.groups) : g.WellPlaced file := by
  obtain ⟨find, hfind, hg⟩ := List.mem_filterMap.1 h
  exact Declaration.wellPlaced_of_group? hfind hg

/-- The functions among the elements are what the heads of functions give. -/
theorem function_of_mem_elements (he : e ∈ file.outline.value.elements) (hkind : e.kind = .function) :
    ∃ find ∈ findAll (Declaration.header Declaration.functionHead) file.text,
      Declaration.functionRecord? file (file.groups.flatMap ClassGroup.elements) file.exports find =
        some e := by
  rw [file.elements_eq] at he
  rcases List.mem_append.1 he with he | he
  · obtain ⟨g, hg, he⟩ := List.mem_flatMap.1 he
    have hplaced := wellPlaced_of_mem_groups hg
    rcases List.mem_cons.1 he with rfl | hmethod
    · rw [hplaced.kind_owner] at hkind
      exact absurd hkind (by decide)
    · rw [hplaced.kind_method e hmethod] at hkind
      exact absurd hkind (by decide)
  · exact List.mem_filterMap.1 he

/-- The classes among the elements are those whose closing brace was found. -/
theorem class_of_mem_elements (he : e ∈ file.outline.value.elements) (hkind : e.kind = .classDecl) :
    ∃ find ∈ findAll (Declaration.header Declaration.classHead) file.text,
      ∃ close, Declaration.bodyEnd? file.text find = some close ∧
        e = Declaration.classElement file find close := by
  rw [file.elements_eq] at he
  rcases List.mem_append.1 he with he | he
  · obtain ⟨g, hg, he⟩ := List.mem_flatMap.1 he
    have hplaced := wellPlaced_of_mem_groups hg
    rcases List.mem_cons.1 he with rfl | hmethod
    · obtain ⟨find, hfind, h⟩ := List.mem_filterMap.1 hg
      obtain ⟨close, hclose, rfl⟩ := Option.map_eq_some_iff.1 h
      exact ⟨find, hfind, close, hclose, rfl⟩
    · rw [hplaced.kind_method e hmethod] at hkind
      exact absurd hkind (by decide)
  · rw [(orderedFunctions file _ _).kind_eq e he] at hkind
    exact absurd hkind (by decide)

end SourceFile

/-! ### The whole outline -/

/-- **The records of an outline are ordered and grouped.**  Imports and exports come in the order of
the text, each in a line of its own; the elements are one group for each class, in order, and then
the functions. -/
theorem outline_ordered (path : String) (text : List Char) :
    let file := SourceFile.ofText path text
    let outline := file.outline.value
    (outline.imports.Pairwise fun a b =>
        a.span.start < b.span.start ∧ a.extent.first < b.extent.first) ∧
      (outline.exports.Pairwise fun a b =>
        a.span.start < b.span.start ∧ a.extent.first < b.extent.first) ∧
      ∃ (groups : List ClassGroup) (functions : List Element),
        outline.elements = groups.flatMap ClassGroup.elements ++ functions ∧
          (∀ g ∈ groups, g.WellPlaced file) ∧
          (groups.Pairwise fun g g' => g.owner.span.start < g'.owner.span.start) ∧
          OrderedFunctions outline.elements functions := by
  intro file outline
  have hfunctions := orderedFunctions file (file.groups.flatMap ClassGroup.elements) file.exports
  refine ⟨pairwise_imports file, pairwise_exports file, file.groups, _, file.elements_eq,
    fun g hg => SourceFile.wellPlaced_of_mem_groups hg, ?_, hfunctions.kind_eq, hfunctions.inOrder,
    fun f hf e he hkind => ?_⟩
  · have hfinds := pairwise_headFinds endsWith_classHead file.text
    refine List.pairwise_filterMap.2 (hfinds.imp fun {find find'} hlt g hg g' hg' => ?_)
    rw [Declaration.owner_of_group? hg, Declaration.owner_of_group? hg']
    exact Int.ofNat_lt.2 hlt
  · -- an element that is a class stands in a group, since functions are none
    rw [show outline.elements = _ from file.elements_eq] at he
    rcases List.mem_append.1 he with hclass | hfunction
    · exact hfunctions.outside f hf e hclass hkind
    · rw [hfunctions.kind_eq e hfunction] at hkind
      exact absurd hkind (by decide)

end SourceOutline
