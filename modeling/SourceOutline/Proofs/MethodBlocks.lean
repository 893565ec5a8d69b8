/-
**Methods always close.**

The body of a class is balanced, so every block that opens in it closes in it.  A search for the end
of a method sees the body only, and it finds what a search in the whole text finds.  Hence a class
that is recorded never loses a method, and no warning is about one.

Main definitions:

* `Declaration.classBody` — the text between the braces of a class;
* `Declaration.IsMethodOf` — the record of a method head of a class.

Main results:

* `Declaration.exists_bodyEnd?` — **the search for the end of a method succeeds**, and agrees with
  the search in the whole text;
* `Declaration.exists_methodFindings` — every head that is not that of a statement gives one record;
* `methods_close` — **no method is lost and no warning is about a method**.
-/

import Mathlib.Data.List.Forall2
import SourceOutline.Proofs.Blocks
import SourceOutline.Proofs.HeadRecords

set_option autoImplicit false

namespace SourceOutline

open Text Pattern

namespace Declaration

/-- The text between the brace that ends the head of a class and the one at `close`. -/
def classBody (text : List Char) (cls : Find (Header Capture)) (close : Nat) : List Char :=
  slice text cls.stopOffset close

/-- Whether a head found in the body of a class is that of a method and not of a statement. -/
def namesMethod (head : Find (Header MethodHead)) : Bool :=
  !isControlWord (.ofList head.value.parts.name.text)

/-- The element is the record of a head in the body of a class that ends at `close`. -/
def IsMethodOf (file : SourceFile) (cls : Find (Header Capture)) (close : Nat)
    (head : Find (Header MethodHead)) (m : Element) : Prop :=
  ∃ stop, bodyEnd? (classBody file.text cls close) head = some stop ∧
    m = methodElement file (.ofList cls.value.parts.text) cls.stopOffset head stop

/-! ### One method -/

section
variable {file : SourceFile} {cls : Find (Header Capture)} {close : Nat}

/-- The body of a class is what stands between two matching braces. -/
theorem classBody_eq (hcls : cls ∈ findAll (header classHead) file.text)
    (hclose : bodyEnd? file.text cls = some close) :
    classBody file.text cls close = range file.text (cls.stopOffset - 1 + 1) close := by
  obtain ⟨hhead, -⟩ := (placed_of_mem_findAll hcls).exists_last endsWith_classHead
  obtain ⟨hle, hlt, -⟩ := closingBrace?_bounds hclose
  rw [classBody, slice_natCast _ _ _ (by omega) (Nat.le_of_lt hlt),
    Nat.sub_add_cancel (Nat.lt_of_le_of_lt (Nat.zero_le _) hhead)]

theorem classBody_eq_range (hcls : cls ∈ findAll (header classHead) file.text)
    (hclose : bodyEnd? file.text cls = some close) :
    classBody file.text cls close = range file.text cls.stopOffset close := by
  have hpos := ((placed_of_mem_findAll hcls).exists_last endsWith_classHead).1
  rw [classBody_eq hcls hclose, Nat.sub_add_cancel (by omega)]

/-- **The search for the end of a method succeeds**, and agrees with the search in the whole text. -/
theorem exists_bodyEnd? (hcls : cls ∈ findAll (header classHead) file.text)
    (hclose : bodyEnd? file.text cls = some close) {head : Find (Header MethodHead)}
    (hhead : head.Placed methodHead (classBody file.text cls close)) :
    file.text[cls.stopOffset + (head.stopOffset - 1)]? = some '\x7b' ∧
      ∃ stop, bodyEnd? (classBody file.text cls close) head = some stop ∧
        closingBrace? file.text (cls.stopOffset + (head.stopOffset - 1)) =
          some (cls.stopOffset + stop) := by
  obtain ⟨hpos, hopen⟩ := (placed_of_mem_findAll hcls).exists_last endsWith_classHead
  have hbase : cls.stopOffset - 1 + 1 = cls.stopOffset := by omega
  have hbrace := (hhead.exists_last endsWith_methodHead).2
  rw [classBody_eq hcls hclose] at hbrace ⊢
  obtain ⟨stop, hbody, hwhole⟩ := exists_closingBrace?_inside hopen hclose hbrace
  have hget : (range file.text (cls.stopOffset - 1 + 1) close)[head.stopOffset - 1]? =
      some '\x7b' := by
    rw [← List.head?_drop, hbrace]
    rfl
  rw [range, List.getElem?_take] at hget
  split at hget
  · rw [List.getElem?_drop, hbase] at hget
    rw [hbase] at hwhole
    exact ⟨hget, stop, hbody, hwhole⟩
  · exact absurd hget (by simp)

/-! ### All methods of a class -/

/-- A head that is not that of a statement gives one record, and one that is gives nothing. -/
theorem exists_methodFinding (hcls : cls ∈ findAll (header classHead) file.text)
    (hclose : bodyEnd? file.text cls = some close) {head : Find (Header MethodHead)}
    (hhead : head ∈ methodFinds (classBody file.text cls close)) :
    if namesMethod head then
      ∃ m, methodFinding file (.ofList cls.value.parts.text) cls.stopOffset
          (classBody file.text cls close) head = [.record m] ∧ IsMethodOf file cls close head m
    else
      methodFinding file (.ofList cls.value.parts.text) cls.stopOffset
        (classBody file.text cls close) head = [] := by
  obtain ⟨-, stop, hstop, -⟩ := exists_bodyEnd? hcls hclose (placed_of_mem_methodFinds hhead)
  by_cases hname : isControlWord (.ofList head.value.parts.name.text) = true
  · simp [namesMethod, methodFinding, hname]
  · rw [if_pos (by simpa [namesMethod] using hname)]
    exact ⟨_, by simp [methodFinding, hname, hstop], stop, hstop, rfl⟩

/-- Every head that is not that of a statement gives one record, in order, and nothing else is
given. -/
theorem exists_methodFindings (hcls : cls ∈ findAll (header classHead) file.text)
    (hclose : bodyEnd? file.text cls = some close) :
    ∃ methods : List Element,
      file.methodFindings (.ofList cls.value.parts.text) cls.stopOffset close =
          methods.map .record ∧
        List.Forall₂ (IsMethodOf file cls close)
          ((methodFinds (classBody file.text cls close)).filter namesMethod) methods := by
  have hone := fun head =>
    @exists_methodFinding file cls close hcls hclose head
  rw [SourceFile.methodFindings, ← classBody]
  generalize methodFinds (classBody file.text cls close) = heads at hone ⊢
  induction heads with
  | nil => exact ⟨[], rfl, List.Forall₂.nil⟩
  | cons head heads ih =>
      obtain ⟨methods, hrest, hmethods⟩ := ih fun h hh => hone h (List.mem_cons_of_mem _ hh)
      have hhead := hone head List.mem_cons_self
      simp only [List.flatMap_cons, hrest, List.filter_cons]
      split at hhead
      · rename_i hname
        obtain ⟨m, hm, hrecord⟩ := hhead
        rw [hm, if_pos hname]
        exact ⟨m :: methods, rfl, List.Forall₂.cons hrecord hmethods⟩
      · rename_i hname
        rw [hhead, if_neg hname]
        exact ⟨methods, rfl, hmethods⟩

end

end Declaration

/-! ### Warnings -/

/-- The warning says that the block of a class or function of the file never closes. -/
def Warning.IsOfBlock (path : String) (w : Warning) : Prop :=
  ∃ block, (w = .skipped path block ∨ w = .headerOnly path block) ∧
    (block.kind = "class" ∨ block.kind = "function")

theorem isOfBlock_of_mem_export {file : SourceFile} {w : Warning}
    (h : w ∈ Finding.warnings file.exportFindings) : w.IsOfBlock file.path := by
  rw [SourceFile.exportFindings, Finding.warnings_flatMap, List.mem_flatMap] at h
  obtain ⟨find, -, h⟩ := h
  cases hfirst : Export.statement.first? find.value with
  | none => simp [hfirst] at h
  | some found =>
      obtain ⟨form, stop⟩ := found
      simp only [hfirst] at h
      cases form with
      | whole kind items source => simp [Export.findings] at h
      | line kind item => simp [Export.findings] at h
      | block kind keyword item =>
          simp only [Export.findings] at h
          split at h
          · simp at h
          · simp only [Finding.warnings_warning_cons, Finding.warnings_record_cons,
              Finding.warnings_nil, List.mem_singleton] at h
            refine ⟨_, Or.inr h, ?_⟩
            cases keyword with
            | function => exact Or.inr rfl
            | classDecl => exact Or.inl rfl

theorem isOfBlock_of_mem_class {file : SourceFile} {w : Warning}
    (h : w ∈ Finding.warnings file.classFindings) : w.IsOfBlock file.path := by
  rw [SourceFile.classFindings, Finding.warnings_flatMap, List.mem_flatMap] at h
  obtain ⟨cls, hcls, h⟩ := h
  simp only [Declaration.classFinding] at h
  split at h
  · simp only [Finding.warnings_warning_cons, Finding.warnings_nil, List.mem_singleton] at h
    exact ⟨_, Or.inl h, Or.inl rfl⟩
  · -- the class is recorded, and so are all its methods
    rename_i close hclose
    obtain ⟨methods, hmethods, -⟩ := Declaration.exists_methodFindings hcls hclose
    rw [hmethods, Finding.warnings_record_cons, Finding.warnings_map_record] at h
    exact absurd h List.not_mem_nil

theorem isOfBlock_of_mem_function {file : SourceFile} {classes : List Element}
    {exports : List ExportEdge} {w : Warning}
    (h : w ∈ Finding.warnings (file.functionFindings classes exports)) :
    w.IsOfBlock file.path := by
  rw [SourceFile.functionFindings, Finding.warnings_flatMap, List.mem_flatMap] at h
  obtain ⟨find, -, h⟩ := h
  simp only [Declaration.functionFinding] at h
  split at h
  · simp at h
  · split at h
    · simp at h
    · split at h
      · simp only [Finding.warnings_warning_cons, Finding.warnings_nil, List.mem_singleton] at h
        exact ⟨_, Or.inl h, Or.inr rfl⟩
      · simp at h

/-! ### The whole outline -/

/-- **No method is lost and no warning is about a method.**  In a class whose closing brace is found,
the end of every method head is found in the body, at the place where a search in the whole text
finds it; the class gives its record and one for each head that is not that of a statement; and all
warnings are about classes and functions. -/
theorem methods_close (path : String) (text : List Char) :
    let file := SourceFile.ofText path text
    (∀ cls ∈ findAll (Declaration.header Declaration.classHead) text, ∀ close,
      Declaration.bodyEnd? text cls = some close →
        let body := Declaration.classBody text cls close
        (∀ head : Find (Declaration.Header Declaration.MethodHead),
          head.start.StandsAt body head.offset →
          (Declaration.header Declaration.methodHead).first? head.start =
            some (head.value, head.stop) →
          text[cls.stopOffset + (head.stopOffset - 1)]? = some '\x7b' ∧
            ∃ stop, closingBrace? body (head.stopOffset - 1) = some stop ∧
              closingBrace? text (cls.stopOffset + (head.stopOffset - 1)) =
                some (cls.stopOffset + stop)) ∧
        ∃ methods : List Element,
          Declaration.classFinding file cls =
              .record (Declaration.classElement file cls close) :: methods.map .record ∧
            List.Forall₂ (Declaration.IsMethodOf file cls close)
              ((Declaration.methodFinds body).filter Declaration.namesMethod) methods) ∧
      ∀ w ∈ file.outline.warnings, w.IsOfBlock path := by
  intro file
  refine ⟨fun cls hcls close hclose => ⟨fun head hplace hfirst => ?_, ?_⟩, fun w hw => ?_⟩
  · have hhead := Find.placed hplace (List.mem_of_head? hfirst)
    exact @Declaration.exists_bodyEnd? file cls close hcls hclose head hhead
  · obtain ⟨methods, hmethods, hrecords⟩ :=
      @Declaration.exists_methodFindings file cls close hcls hclose
    refine ⟨methods, ?_, hrecords⟩
    rw [Declaration.classFinding, ← hmethods, show Declaration.bodyEnd? file.text cls = _ from hclose]
  · rcases List.mem_append.1 hw with hw | hw
    · rcases List.mem_append.1 hw with hw | hw
      · exact isOfBlock_of_mem_export hw
      · exact isOfBlock_of_mem_class hw
    · exact isOfBlock_of_mem_function hw

/-- A method with a pattern among its parameters and a statement in its body. -/
theorem methods_close_nested :
    let text := "class A \x7b\n  m(\x7ba\x7d) \x7b\n    if (a) \x7b \x7d\n  \x7d\n\x7d\n".toList
    let file := SourceFile.ofText "p.js" text
    ∃ cls ∈ findAll (Declaration.header Declaration.classHead) text,
      Declaration.bodyEnd? text cls = some 40 ∧
        ∃ methods : List Element,
          Declaration.classFinding file cls =
              .record (Declaration.classElement file cls 40) :: methods.map .record ∧
            methods.length = 1 := by
  intro text file
  obtain ⟨cls, hcls, hclose, hheads⟩ :
      ∃ cls ∈ findAll (Declaration.header Declaration.classHead) text,
        Declaration.bodyEnd? text cls = some 40 ∧
          ((Declaration.methodFinds (Declaration.classBody text cls 40)).filter
            Declaration.namesMethod).length = 1 := by
    decide +kernel
  obtain ⟨-, methods, hfinding, hmethods⟩ := (methods_close "p.js" text).1 cls hcls 40 hclose
  exact ⟨cls, hcls, hclose, methods, hfinding, hmethods.length_eq ▸ hheads⟩

end SourceOutline
