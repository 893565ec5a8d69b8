/-
**What heads give.**

The head of a class, of a function or of a method was found at the head of a line, and ends with the
brace of its body.  If the body ends, the head gives a record, or in the case of a class a group of
records: the class and the methods of its body.

Main definitions:

* `Pattern.Find.headOffset`, `Pattern.Find.Placed` — where a head stands, and what is known of it;
* `ClassGroup` — a class with its methods;
* `Declaration.methodRecord?`, `Declaration.functionRecord?`, `Declaration.group?` — what a head gives.

Main results:

* `placed_of_mem_findAll`, `placed_of_mem_methodFinds` — every head that was found is placed;
* `Declaration.lt_resumeOffset` — where the search goes on behind the head of a method;
* `Declaration.functionRecord?_eq_some_iff` — when the head of a function gives a record;
* `SourceFile.elements_eq` — the elements of an outline are the groups, then the functions.
-/

import SourceOutline.Outline
import SourceOutline.Proofs.StatementOrder
import SourceOutline.Proofs.WrittenHeads

set_option autoImplicit false

namespace SourceOutline

open Text Pattern

/-! ### Where heads stand -/

namespace Pattern.Find

variable {α : Type}

/-- The offset of the head that was found, behind its comment and indentation. -/
def headOffset (find : Find (Declaration.Header α)) : Nat :=
  find.offsetOf find.value.start

theorem offset_le_headOffset (find : Find (Declaration.Header α)) :
    find.offset ≤ find.headOffset :=
  Nat.le_add_right _ _

/-- What is known of a head that was found in a text. -/
structure Placed (p : Pattern α) (text : List Char) (find : Find (Declaration.Header α)) :
    Prop where
  mem_outcomes : (find.value.parts, find.stop) ∈ p.outcomes find.value.start
  stopOffset_eq : ∀ s, find.value.start.Reads s find.stop →
    find.stopOffset = find.headOffset + s.length
  headsLine : find.value.start.HeadsLine text find.headOffset

/-- An outcome of the pattern of heads is placed. -/
theorem placed {p : Pattern α} {text : List Char} {find : Find (Declaration.Header α)}
    (hplace : find.start.StandsAt text find.offset)
    (hmem : (find.value, find.stop) ∈ (Declaration.header p).outcomes find.start) :
    find.Placed p text := by
  obtain ⟨line, hcomment, hbefore, pad, hpadding, hpad, hparts⟩ := mem_outcomes_header hmem
  obtain ⟨comment, hreads⟩ := reaches_of_mem_outcomes _ _ _ hcomment
  have hoffset : find.headOffset = find.offset + comment.length + pad.length := by
    rw [headOffset, offsetOf, (hreads.append hpad).gap_eq, List.length_append, Nat.add_assoc]
  refine ⟨hparts, fun s hs => ?_, line, _, pad, hplace.reads hreads, hbefore, hpadding, hpad,
    hoffset⟩
  rw [stopOffset, ((hreads.append hpad).append hs).gap_eq, hoffset]
  simp only [List.length_append]
  omega

/-- The text from the head on. -/
theorem Placed.drop_eq {p : Pattern α} {text : List Char} {find : Find (Declaration.Header α)}
    (h : find.Placed p text) {s : List Char} (hs : find.value.start.Reads s find.stop) :
    text.drop find.headOffset = s ++ find.stop.rest :=
  h.headsLine.standsAt.rest_eq.symm.trans hs.1

/-- The text of a declaration that goes beyond its head begins with the head. -/
theorem Placed.range_eq {p : Pattern α} {text : List Char} {find : Find (Declaration.Header α)}
    (h : find.Placed p text) {s : List Char} (hs : find.value.start.Reads s find.stop) {stop : Nat}
    (hle : find.stopOffset ≤ stop) : ∃ more, range text find.headOffset stop = s ++ more := by
  have hstop := h.stopOffset_eq _ hs
  obtain ⟨n, hn⟩ : ∃ n, stop - find.headOffset = s.length + n :=
    ⟨stop - find.headOffset - s.length, by omega⟩
  exact ⟨find.stop.rest.take n, by rw [range, h.drop_eq hs, hn, List.take_length_add_append]⟩

/-- A head that ends with a given character. -/
theorem Placed.exists_last {p : Pattern α} {x : Char} (hp : EndsWith p x) {text : List Char}
    {find : Find (Declaration.Header α)} (h : find.Placed p text) :
    find.headOffset < find.stopOffset ∧ text.drop (find.stopOffset - 1) = x :: find.stop.rest := by
  obtain ⟨s, hs⟩ := hp _ _ h.mem_outcomes
  have hstop := h.stopOffset_eq _ hs
  rw [List.length_append, List.length_singleton] at hstop
  refine ⟨by omega, ?_⟩
  rw [show find.stopOffset - 1 = find.headOffset + s.length by omega, ← List.drop_drop,
    h.drop_eq hs, List.append_assoc, List.drop_left]
  rfl

end Pattern.Find

theorem placed_of_mem_findAll {α : Type} {p : Pattern α} {text : List Char}
    {find : Find (Declaration.Header α)} (h : find ∈ findAll (Declaration.header p) text) :
    find.Placed p text := by
  obtain ⟨hplace, hmem⟩ := mem_findAll h
  exact Find.placed hplace hmem

theorem mem_methodFinds {body : List Char}
    {find : Find (Declaration.Header Declaration.MethodHead)}
    (h : find ∈ Declaration.methodFinds body) :
    find.start.StandsAt body find.offset ∧
      (find.value, find.stop) ∈ (Declaration.header Declaration.methodHead).outcomes find.start := by
  obtain ⟨-, hplace, hfirst⟩ := mem_scan (Cursor.standsAt_ofText _) h
  exact ⟨hplace, List.mem_of_head? hfirst⟩

theorem placed_of_mem_methodFinds {body : List Char}
    {find : Find (Declaration.Header Declaration.MethodHead)}
    (h : find ∈ Declaration.methodFinds body) : find.Placed Declaration.methodHead body := by
  obtain ⟨hplace, hmem⟩ := mem_methodFinds h
  exact Find.placed hplace hmem

/-- Heads are found in order. -/
theorem pairwise_headFinds {α : Type} {p : Pattern α} {x : Char} (hp : EndsWith p x)
    (text : List Char) :
    (findAll (Declaration.header p) text).Pairwise fun f g => f.headOffset < g.headOffset := by
  refine (pairwise_findAll _ text).imp_of_mem fun {f g} hf _ hfg => ?_
  have hstop := ((placed_of_mem_findAll hf).exists_last hp).1
  have := g.offset_le_headOffset
  omega

/-! ### Methods and functions -/

namespace Declaration

/-- **The search for methods goes on further behind**: behind the head, and not beyond the body. -/
theorem lt_resumeOffset {body : List Char} {find : Find (Header MethodHead)}
    (hplace : find.start.StandsAt body find.offset)
    (hfirst : (header methodHead).first? find.start = some (find.value, find.stop)) :
    find.offset < resumeOffset body find ∧ resumeOffset body find ≤ body.length := by
  have hmem := List.mem_of_head? hfirst
  have hlt := ((Find.placed hplace hmem).exists_last endsWith_methodHead).1
  have hle := find.offset_le_headOffset
  have hlength := (Find.standsAt_stopOffset hplace hmem).le_length
  rw [resumeOffset]
  split
  · exact ⟨by omega, hlength⟩
  · cases hclose : bodyEnd? body find with
    | none => exact ⟨by simp only; omega, hlength⟩
    | some close =>
        obtain ⟨hbound, hlt', -⟩ := closingBrace?_bounds hclose
        exact ⟨by simp only; omega, hlt'⟩

/-- The record of a method whose head was found in a body. -/
def methodRecord? (file : SourceFile) (className : String) (base : Int) (body : List Char)
    (find : Find (Header MethodHead)) : Option Element :=
  if isControlWord (.ofList find.value.parts.name.text) then none
  else (bodyEnd? body find).map (methodElement file className base find)

/-- The record of a function whose head was found. -/
def functionRecord? (file : SourceFile) (classes : List Element) (exports : List ExportEdge)
    (find : Find (Header FunctionHead)) : Option Element :=
  if classes.any fun e => e.kind == .classDecl && e.span.contains find.headOffset then none
  else if exports.any (isDefaultFunction (file.lineOf find.headOffset)) then none
  else (bodyEnd? file.text find).map (functionElement file find)

theorem records_methodFinding (file : SourceFile) (className : String) (base : Int)
    (body : List Char) (find : Find (Header MethodHead)) :
    Finding.records (methodFinding file className base body find) =
      (methodRecord? file className base body find).toList := by
  simp only [methodFinding, methodRecord?]
  split
  · rfl
  · cases bodyEnd? body find <;> rfl

theorem records_functionFinding (file : SourceFile) (classes : List Element)
    (exports : List ExportEdge) (find : Find (Header FunctionHead)) :
    Finding.records (functionFinding file classes exports find) =
      (functionRecord? file classes exports find).toList := by
  rw [functionRecord?]
  by_cases hclass : (classes.any fun e =>
      e.kind == .classDecl && e.span.contains find.headOffset) = true
  · rw [if_pos hclass, show functionFinding file classes exports find = [] from if_pos hclass]
    rfl
  · rw [if_neg hclass]
    by_cases hexport : exports.any (isDefaultFunction (file.lineOf find.headOffset)) = true
    · rw [if_pos hexport, show functionFinding file classes exports find = [] from
        (if_neg hclass).trans (if_pos hexport)]
      rfl
    · rw [if_neg hexport, functionFinding]
      refine (congrArg Finding.records ((if_neg hclass).trans (if_neg hexport))).trans ?_
      cases bodyEnd? file.text find <;> rfl

theorem methodRecord?_eq_some_iff {file : SourceFile} {className : String} {base : Int}
    {body : List Char} {find : Find (Header MethodHead)} {m : Element} :
    methodRecord? file className base body find = some m ↔
      isControlWord (.ofList find.value.parts.name.text) = false ∧
        ∃ close, bodyEnd? body find = some close ∧
          methodElement file className base find close = m := by
  rw [methodRecord?]
  split
  · simp_all
  · simp_all [Option.map_eq_some_iff]

/-- The head of a function gives a record if no class holds it, it is not the default export, and
its body ends. -/
theorem functionRecord?_eq_some_iff {file : SourceFile} {classes : List Element}
    {exports : List ExportEdge} {find : Find (Header FunctionHead)} {f : Element} :
    functionRecord? file classes exports find = some f ↔
      (∀ e ∈ classes, e.kind = .classDecl → e.span.contains find.headOffset = false) ∧
        exports.any (isDefaultFunction (file.lineOf find.headOffset)) = false ∧
          ∃ close, bodyEnd? file.text find = some close ∧ functionElement file find close = f := by
  have hclass : (classes.any fun e => e.kind == .classDecl && e.span.contains find.headOffset) =
      false ↔ ∀ e ∈ classes, e.kind = .classDecl → e.span.contains find.headOffset = false := by
    simp [List.any_eq_false]
  rw [functionRecord?, ← hclass]
  split
  · rename_i hin
    simp [hin]
  · rename_i hout
    split
    · rename_i hexport
      simp [hexport]
    · rename_i hexport
      rw [Bool.not_eq_true] at hout hexport
      simp only [hout, hexport, Option.map_eq_some_iff, true_and]

end Declaration

/-- The functions of an outline are what the heads of functions give. -/
theorem SourceFile.records_functionFindings (file : SourceFile) (classes : List Element)
    (exports : List ExportEdge) :
    Finding.records (file.functionFindings classes exports) =
      (findAll (Declaration.header Declaration.functionHead) file.text).filterMap
        (Declaration.functionRecord? file classes exports) := by
  rw [functionFindings, Finding.records_flatMap, List.filterMap_eq_flatMap_toList]
  exact List.flatMap_congr fun find _ => Declaration.records_functionFinding _ _ _ find

theorem SourceFile.records_methodFindings (file : SourceFile) (className : String)
    (start stop : Int) :
    Finding.records (file.methodFindings className start stop) =
      (Declaration.methodFinds (slice file.text start stop)).filterMap
        (Declaration.methodRecord? file className start (slice file.text start stop)) := by
  rw [methodFindings, Finding.records_flatMap, List.filterMap_eq_flatMap_toList]
  exact List.flatMap_congr fun find _ => Declaration.records_methodFinding _ _ _ _ find

/-! ### Classes -/

/-- A class and the methods that follow it. -/
structure ClassGroup where
  owner : Element
  methods : List Element

/-- The class, then its methods. -/
def ClassGroup.elements (g : ClassGroup) : List Element :=
  g.owner :: g.methods

namespace Declaration

/-- The class whose head was found, with the methods of its body, if the body ends. -/
def group? (file : SourceFile) (find : Find (Header Capture)) : Option ClassGroup :=
  (bodyEnd? file.text find).map fun close =>
    { owner := classElement file find close
      methods := Finding.records
        (file.methodFindings (.ofList find.value.parts.text) find.stopOffset close) }

theorem records_classFinding (file : SourceFile) (find : Find (Header Capture)) :
    Finding.records (classFinding file find) =
      (group? file find).toList.flatMap ClassGroup.elements := by
  simp only [classFinding, group?]
  cases bodyEnd? file.text find with
  | none => rfl
  | some close => simp [ClassGroup.elements]

end Declaration

/-- The classes of a file with their methods. -/
def SourceFile.groups (file : SourceFile) : List ClassGroup :=
  (findAll (Declaration.header Declaration.classHead) file.text).filterMap
    (Declaration.group? file)

theorem SourceFile.records_classFindings (file : SourceFile) :
    Finding.records file.classFindings = file.groups.flatMap ClassGroup.elements := by
  rw [classFindings, Finding.records_flatMap, groups, List.filterMap_eq_flatMap_toList,
    List.flatMap_assoc]
  exact List.flatMap_congr fun find _ => Declaration.records_classFinding file find

/-- The elements of an outline are the groups, then the functions. -/
theorem SourceFile.elements_eq (file : SourceFile) :
    file.outline.value.elements =
      file.groups.flatMap ClassGroup.elements ++
        (findAll (Declaration.header Declaration.functionHead) file.text).filterMap
          (Declaration.functionRecord? file (file.groups.flatMap ClassGroup.elements)
            file.exports) := by
  rw [outline_elements, records_functionFindings, records_classFindings]

end SourceOutline
