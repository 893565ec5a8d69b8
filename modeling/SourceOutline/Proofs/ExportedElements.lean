/-
**Exported declarations have export records.**

Declarations and export statements are found by two passes with patterns of their own.  A class or
function that begins with `export` is seen by both: whatever blanks its head is written with, one of
the forms of an export statement takes it, at the same offset.  Which form that is depends on the word
behind `export` alone.

Main definitions:

* `Text.secondWord` — the word behind the first one of a text.

Main results:

* `secondWord_of_default`, `secondWord_ne_default` — when `default` follows `export`;
* `exists_record_of_function`, `exists_record_of_class` — the record of an exported head;
* `exported_elements_recorded` — **every exported class or function has one export record**, of the
  kind that its second word says, and a function has it under its own name.
-/

import SourceOutline.Proofs.ExportSpans

set_option autoImplicit false

namespace SourceOutline

open Text Pattern

/-! ### The word behind `export` -/

/-- The word behind the first word of a text and the blanks that follow this. -/
def Text.secondWord (s : List Char) : List Char :=
  (dropWord s).takeWhile isIdentPart

theorem secondWord_of_default (g d : Written.Gap) (s : List Char) :
    secondWord ("export".toList ++ (g.text ++ ("default".toList ++ (d.text ++ s)))) =
      "default".toList := by
  have hblank : Stops isBlank ("default".toList ++ (d.text ++ s)) := stops_cons.2 (by decide)
  have hletters : ∀ x ∈ "default".toList, isIdentPart x = true := List.all_eq_true.1 (by decide)
  have hgap : Stops isIdentPart (d.text ++ s) :=
    d.stops (fun _ h => isIdentPart_eq_false_of_isBlank h) s
  rw [secondWord, dropWord_append "export" (by decide) g hblank, hgap.takeWhile_append hletters]

theorem secondWord_ne_default (g : Written.Gap) {s : List Char} (hblank : Stops isBlank s)
    (hletter : Stops (· == 'd') s) :
    secondWord ("export".toList ++ (g.text ++ s)) ≠ "default".toList := by
  rw [secondWord, dropWord_append "export" (by decide) g hblank]
  intro hword
  obtain ⟨more, hmore⟩ : "default".toList <+: s := hword ▸ List.takeWhile_prefix isIdentPart
  rw [← hmore] at hletter
  exact absurd (stops_cons.1 hletter) (by decide)

/-! ### The record of an exported head -/

section
variable {file : SourceFile}

/-- The text of a declaration that closes begins with its head. -/
theorem Pattern.Find.Placed.exists_snippet {α : Type} {p : Pattern α}
    {find : Find (Declaration.Header α)} (hplaced : find.Placed p file.text) {close : Nat}
    (hclose : Declaration.bodyEnd? file.text find = some close) {s : List Char}
    (hreads : find.value.start.Reads s find.stop) :
    ∃ more, range file.text find.headOffset (close + 1) = s ++ more := by
  have hle := (closingBrace?_bounds hclose).1
  exact hplaced.range_eq hreads (by omega)

/-- **A head that is an export statement has one record** at its offset. -/
theorem exists_single_record {α : Type} {p : Pattern α} {find : Find (Declaration.Header α)}
    (hplaced : find.Placed p file.text) {g : Written.Gap} {covered s t : List Char}
    {Q : Export.Form → Prop} (hbegins : covered = "export".toList ++ (g.text ++ s))
    (hdrop : file.text.drop find.headOffset = covered ++ t)
    (htakes : Takes Export.statement covered t Q) :
    ∃ form, Q form ∧ file.exports.filter (·.span.start == (find.headOffset : Int)) =
      [Export.recordOf file find.headOffset (find.headOffset + covered.length) covered form] := by
  obtain ⟨form, hform, hmem⟩ := exists_export_record hplaced hbegins hdrop htakes
  refine ⟨form, hform, ?_⟩
  rw [← filter_exports_eq hmem, Export.recordOf_start]

/-- **An exported function that is an element has its record**, a declaration under its name. -/
theorem exists_record_of_function {find : Find (Declaration.Header Declaration.FunctionHead)}
    (hplaced : find.Placed Declaration.functionHead file.text) {head : Written.FunctionHead}
    (hreads : find.value.start.Reads head.text find.stop) {g : Written.Gap}
    (hexported : head.exported = some g) (hdefaulted : head.defaulted = none) :
    ∃ x, file.exports.filter (·.span.start == (find.headOffset : Int)) = [x] ∧
      x.kind = .declaration ∧ x.items = [⟨.ofList head.name.text, .ofList head.name.text⟩] := by
  have hdrop := hplaced.drop_eq hreads
  rw [head.text_append, hexported, hdefaulted] at hdrop
  obtain ⟨_, rfl, hone⟩ := exists_single_record hplaced rfl
    (hdrop.trans (by simp [Written.keywordText])) (head.takes_declaration g ('\x7b' :: find.stop.rest))
  exact ⟨_, hone, rfl, rfl⟩

/-- **An exported class has its record**, a declaration unless it is the default. -/
theorem exists_record_of_class {find : Find (Declaration.Header Capture)}
    (hplaced : find.Placed Declaration.classHead file.text) {head : Written.ClassHead}
    (hreads : find.value.start.Reads head.text find.stop) {g : Written.Gap}
    (hexported : head.exported = some g) :
    ∃ x, file.exports.filter (·.span.start == (find.headOffset : Int)) = [x] ∧
      x.kind = if head.defaulted.isSome then .defaultExpression else .declaration := by
  have hdrop := hplaced.drop_eq hreads
  rw [head.text_append, hexported] at hdrop
  cases hdefaulted : head.defaulted with
  | none =>
      have hname : head.tail = head.tail.takeWhile isIdentPart ++ head.tail.dropWhile isIdentPart :=
        List.takeWhile_append_dropWhile.symm
      rw [hdefaulted, hname] at hdrop
      simp only [Written.keywordText, Option.elim_some, Option.elim_none, List.nil_append,
        ← List.append_assoc] at hdrop
      obtain ⟨_, ⟨item, rfl⟩, hone⟩ := exists_single_record hplaced rfl
        (hdrop.trans (by simp only [List.append_assoc])) (head.takes_declaration g find.stop.rest)
      exact ⟨_, hone, rfl⟩
  | some d =>
      rw [hdefaulted] at hdrop
      -- a name that runs into `extends` is read as an expression, which is a default export too
      cases hwhole : head.isWhole with
      | true =>
          obtain ⟨_, ⟨item, rfl⟩, hone⟩ := exists_single_record hplaced rfl
            (hdrop.trans (by simp [Written.keywordText]))
            (head.takes_default hwhole g d find.stop.rest)
          exact ⟨_, hone, rfl⟩
      | false =>
          obtain ⟨_, ⟨item, rfl⟩, hone⟩ := exists_single_record hplaced rfl
            (hdrop.trans (by simp [Written.keywordText]))
            (head.takes_default_cut hwhole g d find.stop.rest)
          exact ⟨_, hone, rfl⟩

end

/-! ### Which word follows `export` in a head -/

namespace Written

theorem FunctionHead.secondWord_text (head : FunctionHead) {g : Gap}
    (hexported : head.exported = some g) (hdefaulted : head.defaulted = none) (more : List Char) :
    secondWord (head.text ++ more) ≠ "default".toList := by
  have hreserved := head.reserved_words (head.parameters.text ++ '\x7b' :: more)
  rw [head.text_append, hexported, hdefaulted]
  simp only [keywordText, Option.elim_some, Option.elim_none, List.nil_append, List.append_assoc]
  exact secondWord_ne_default g (hreserved.stops (by decide) (by decide) (by decide))
    (hreserved.stops (by decide) (by decide) (by decide))

theorem ClassHead.secondWord_text_iff (head : ClassHead) {g : Gap}
    (hexported : head.exported = some g) (more : List Char) :
    secondWord (head.text ++ more) = "default".toList ↔ head.defaulted.isSome = true := by
  rw [head.text_append, hexported]
  cases head.defaulted with
  | none =>
      simp only [keywordText, Option.elim_some, Option.elim_none, List.nil_append,
        List.append_assoc, Option.isSome_none, Bool.false_eq_true, iff_false]
      exact secondWord_ne_default g (stops_cons.2 (by decide)) (stops_cons.2 (by decide))
  | some d =>
      simp only [keywordText, Option.elim_some, List.append_assoc, Option.isSome_some, iff_true]
      exact secondWord_of_default g d _

end Written

/-! ### Exported elements -/

/-- **Every exported class or function has one export record**, at its own offset.  It is a default
expression if the word behind `export` is `default` and a declaration otherwise, and that of a
function exports its name under this name. -/
theorem exported_elements_recorded (path : String) (text : List Char) :
    let outline := (SourceFile.ofText path text).outline.value
    ∀ e ∈ outline.elements, e.kind ≠ .method → "export".toList <+: e.snippet.toList →
      ∃ x, outline.exports.filter (·.span.start == e.span.start) = [x] ∧
        (x.kind = if secondWord e.snippet.toList = "default".toList then .defaultExpression
          else .declaration) ∧
        (e.kind = .function → x.items = [⟨e.name, e.name⟩]) := by
  intro outline e he hmethod hbegins
  cases hkind : e.kind with
  | method => exact absurd hkind hmethod
  | function =>
      obtain ⟨find, hfind, hrecord⟩ := SourceFile.function_of_mem_elements he hkind
      obtain ⟨-, hnone, close, hclose, rfl⟩ := Declaration.functionRecord?_eq_some_iff.1 hrecord
      have hplaced := placed_of_mem_findAll hfind
      obtain ⟨head, hreads, hname, -⟩ := exists_functionHead hplaced.mem_outcomes
      obtain ⟨more, hmore⟩ := hplaced.exists_snippet hclose hreads
      have hsnippet : (Declaration.functionElement _ find close).snippet.toList = head.text ++ more :=
        String.toList_ofList.trans hmore
      rw [hsnippet] at hbegins ⊢
      obtain ⟨g, hexported⟩ := head.exported_of_begins hbegins
      have hdefaulted := defaulted_eq_none_of_function hplaced hnone hreads hexported
      obtain ⟨x, hone, hdeclaration, hitems⟩ :=
        exists_record_of_function hplaced hreads hexported hdefaulted
      refine ⟨x, hone, ?_, fun _ => ?_⟩
      · rw [hdeclaration, if_neg (head.secondWord_text hexported hdefaulted more)]
      · rw [hitems, ← hname, Declaration.functionElement]
  | classDecl =>
      obtain ⟨find, hfind, close, hclose, rfl⟩ := SourceFile.class_of_mem_elements he hkind
      have hplaced := placed_of_mem_findAll hfind
      obtain ⟨head, hreads, -⟩ := exists_classHead hplaced.mem_outcomes
      obtain ⟨more, hmore⟩ := hplaced.exists_snippet hclose hreads
      have hsnippet : (Declaration.classElement _ find close).snippet.toList = head.text ++ more :=
        String.toList_ofList.trans hmore
      rw [hsnippet] at hbegins ⊢
      obtain ⟨g, hexported⟩ := head.exported_of_begins hbegins
      obtain ⟨x, hone, hrecord⟩ := exists_record_of_class hplaced hreads hexported
      refine ⟨x, hone, ?_, fun hfunction => absurd hfunction (by decide)⟩
      rw [hrecord]
      simp only [head.secondWord_text_iff hexported more]

/-- A class and a generator that are exported, with a line feed behind `export`. -/
theorem exported_elements_recorded_once :
    let text := "export default class A extends B \x7b\x7d\nexport\nasync function* f(a) \x7b\x7d\n"
    let outline := (SourceFile.ofText "p.js" text.toList).outline.value
    (∃ e ∈ outline.elements, e.kind = .classDecl ∧ "export".toList <+: e.snippet.toList ∧
      ∃ x, outline.exports.filter (·.span.start == e.span.start) = [x] ∧
        x.kind = .defaultExpression) ∧
    ∃ e ∈ outline.elements, e.kind = .function ∧ "export".toList <+: e.snippet.toList ∧
      ∃ x, outline.exports.filter (·.span.start == e.span.start) = [x] ∧
        x.kind = .declaration ∧ x.items = [⟨"f", "f"⟩] := by
  intro text outline
  obtain ⟨e, he, hkind, hbegins, hword⟩ : ∃ e ∈ outline.elements, e.kind = .classDecl ∧
      "export".toList <+: e.snippet.toList ∧ secondWord e.snippet.toList = "default".toList := by
    decide +kernel
  obtain ⟨e', he', hkind', hbegins', hword', hname⟩ : ∃ e ∈ outline.elements, e.kind = .function ∧
      "export".toList <+: e.snippet.toList ∧ secondWord e.snippet.toList ≠ "default".toList ∧
        e.name = "f" := by
    decide +kernel
  obtain ⟨x, hx, hclass, -⟩ :=
    exported_elements_recorded _ _ e he (by rw [hkind]; decide) hbegins
  obtain ⟨x', hx', hfunction, hitems⟩ :=
    exported_elements_recorded _ _ e' he' (by rw [hkind']; decide) hbegins'
  rw [if_pos hword] at hclass
  rw [if_neg hword'] at hfunction
  rw [hname] at hitems
  exact ⟨⟨e, he, hkind, hbegins, x, hx, hclass⟩,
    e', he', hkind', hbegins', x', hx', hfunction, hitems hkind'⟩

end SourceOutline
