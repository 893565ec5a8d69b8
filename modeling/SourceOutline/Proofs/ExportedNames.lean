/-
**What an export makes public.**

The kind of an export decides the names it gives.  A star has one name or none.  A default name is a
chain of identifiers in front of which no reserved word ends; a declaration and a default expression
have one name, and a list has those of its entries.  The form of the statement says which kind it is,
also where the statement is not well formed and a later form takes it.

Main definitions:

* `ExportKind.Allows` — the names that a kind of export can have;
* `Export.WellFormed` — these names, and a module exactly if its exports are passed on.

Main results:

* `Pattern.exists_chain` — a dotted name reads a chain of identifiers;
* `Export.yields_defaultNameForm` — **no default name begins with a reserved word**;
* `Export.yields_statement` — one step for each form of statement;
* `exports_wellFormed` — **the names of every export are well formed.**
-/

import SourceOutline.Proofs.ListedNames
import SourceOutline.Proofs.ModuleLiterals

set_option autoImplicit false

namespace SourceOutline

open Text Pattern

/-! ### The names of a kind -/

/-- The names that a kind of export can have. -/
def ExportKind.Allows : ExportKind → List ExportedItem → Prop
  | .reExportAll, items =>
    ∃ name, items = [⟨name, "*"⟩] ∧ (isIdent name.toList = true ∨ name = "*")
  | .reExportNamed, items | .namedList, items =>
    ∀ item ∈ items, Specifier.Listed item.localName.toList item.publicName.toList
  | .default, items =>
    ∃ x : Printed.Chain, items = [⟨"default", .ofList x.text⟩] ∧ ¬ Export.BeginsReserved x.text
  | .declaration, items => ∃ name, items = [⟨name, name⟩] ∧ isIdent name.toList = true
  | .defaultExpression, items => ∃ name, items = [⟨"default", name⟩] ∧ isIdent name.toList = true

/-- The names are those of the kind, and a module is named exactly if its exports are passed on. -/
structure Export.WellFormed (kind : ExportKind) (items : List ExportedItem) (source : Option String) :
    Prop where
  isSome_source_iff : source.isSome ↔ kind = .reExportNamed ∨ kind = .reExportAll
  allows : kind.Allows items

/-! ### Chains -/

namespace Pattern

/-- **A dotted name reads a chain of identifiers.** -/
theorem exists_chain {c : Cursor} {found : Capture × Cursor} (h : found ∈ dottedName.outcomes c) :
    ∃ x : Printed.Chain, found.1.text = x.text ∧ c.Reads x.text found.2 := by
  obtain ⟨hcapture, first, more, hreads⟩ := exists_names h
  refine ⟨⟨first, more⟩, ?_, hreads⟩
  rw [hcapture]
  exact hreads.text_eq

end Pattern

namespace Export

/-- A reserved word goes on being one if no word character follows the text. -/
theorem BeginsReserved.append {s t : List Char} (h : BeginsReserved s) (ht : Stops isWord t) :
    BeginsReserved (s ++ t) := by
  obtain ⟨w, hw, more, rfl, hmore⟩ := h
  refine ⟨w, hw, more ++ t, List.append_assoc _ _ _, ?_⟩
  cases more with
  | nil => exact ht
  | cons y more => exact hmore.append (by simp) t

/-- Behind spaces and tabs stands what stops a word, or nothing. -/
theorem stops_isWord_padding {padding t : List Char} (h : ∀ x ∈ padding, isPadding x = true)
    (ht : Stops isWord t) : Stops isWord (padding ++ t) := by
  cases padding with
  | nil => exact ht
  | cons x padding =>
      have hx := isBlank_of_isPadding (h x List.mem_cons_self)
      exact stops_cons.2 (isWord_eq_false_of_isBlank hx)

/-! ### What a statement says -/

/-- The names that the first words of a statement give. -/
def Form.items : Form → List ExportedItem
  | .whole _ items _ => items
  | .block _ _ item => [item]
  | .line _ item => [item]

theorem recordOf_items {file : SourceFile} {offset stop : Nat} {covered : List Char} (form : Form) :
    (recordOf file offset stop covered form).items = form.items := by
  cases form <;> rfl

/-- What a statement says is well formed. -/
def Form.WellFormed (form : Form) : Prop :=
  Export.WellFormed form.kind form.items form.source

theorem listed_of_mem_exports {text : List Char} (hbrace : '\x7d' ∉ text) :
    ∀ item ∈ Specifier.exports text,
      Specifier.Listed item.localName.toList item.publicName.toList := by
  intro item hitem
  obtain ⟨names, hnames, rfl⟩ := List.mem_map.1 hitem
  rw [String.toList_ofList, String.toList_ofList]
  exact Specifier.listed_of_mem_entries hbrace hnames

theorem yields_allForm : Yields allForm Form.WellFormed := by
  have hname : Yields (do word "as"; gap; let newName ← identifier; gap; return newName)
      fun name => isIdent name.text = true :=
    yields_bind fun _ => yields_bind fun _ => yields_identifier.bind fun _ h => yields_bind fun _ =>
      yields_pure h
  refine yields_bind fun _ => yields_bind fun _ => yields_bind fun _ => yields_bind fun _ =>
    hname.optional.bind fun name h => yields_bind fun _ => yields_pure ?_
  refine ⟨by simp [Form.source, Form.kind], _, rfl, ?_⟩
  cases name with
  | none => exact Or.inr rfl
  | some name =>
      left
      rw [Option.map_some, Option.getD_some, String.toList_ofList]
      exact h name rfl

theorem yields_namedForm : Yields namedForm Form.WellFormed := by
  refine yields_bind fun _ => yields_bind fun _ => yields_braceList.bind fun names hbrace =>
    yields_bind fun source => yields_bind fun _ => ?_
  cases source with
  | some source =>
      exact yields_pure ⟨by simp [Form.source, Form.kind], listed_of_mem_exports hbrace⟩
  | none => exact yields_pure ⟨by simp [Form.source, Form.kind], listed_of_mem_exports hbrace⟩

/-- **No default name begins with a reserved word.** -/
theorem yields_defaultNameForm : Yields defaultNameForm Form.WellFormed := by
  have hchain : Yields defaultName fun name => ∃ x : Printed.Chain, name.text = x.text := by
    refine yields_bind fun _ => yields_bind fun _ => yields_bind fun _ => yields_bind fun _ =>
      yields_bind fun _ => Yields.bind (P := fun name => ∃ x : Printed.Chain, name.text = x.text) ?_
        fun name h => yields_bind fun _ => yields_pure h
    intro c found hfound
    obtain ⟨x, htext, -⟩ := exists_chain hfound
    exact ⟨x, htext⟩
  intro c found hfound
  rw [outcomes_defaultNameForm, lineEnd, mem_outcomes_defaultNameUntil] at hfound
  obtain ⟨name, hname, hform, hend⟩ := hfound
  obtain ⟨x, htext⟩ := hchain _ _ hname
  obtain ⟨d, hd, -, hrefuses⟩ := exists_defaultName hname
  -- a semicolon or the end of the line stands behind the name and the blanks
  have hstops : Stops isWord name.2.rest := by
    rcases hend with hread | ⟨-, htest⟩
    · rw [hread.1, List.singleton_append, stops_cons]
      decide
    · intro y hy
      rw [Option.mem_def.1 hy, Option.all_some, beq_iff_eq] at htest
      rw [htest]
      decide
  have hreserved := (outcomes_reservedWord_eq_nil_iff none _).1 (hrefuses none)
  rw [← hd, htext] at hreserved
  rw [hform, htext]
  refine ⟨by simp [nameForm, Form.source, Form.kind], x, rfl, ?_⟩
  intro hbegins
  exact hreserved (hbegins.append (stops_isWord_padding d.isPadding_of_mem hstops))

theorem yields_declarationForm : Yields declarationForm Form.WellFormed := by
  refine yields_bind fun _ => yields_bind fun _ => yields_bind fun _ => yields_bind fun keyword =>
    yields_bind fun _ => yields_identifier.bind fun name hname => ?_
  have hident : isIdent (String.ofList name.text).toList = true := by
    rw [String.toList_ofList, hname]
  cases keyword with
  | some keyword => exact yields_pure ⟨by simp [Form.source, Form.kind], _, rfl, hident⟩
  | none => exact yields_pure ⟨by simp [Form.source, Form.kind], _, rfl, hident⟩

/-- A name that is found, or a given one. -/
theorem isIdent_getD {name : Option Capture} {other : String}
    (h : ∀ a ∈ name, isIdent a.text = true) (hother : isIdent other.toList = true) :
    isIdent ((name.map fun name => String.ofList name.text).getD other).toList = true := by
  cases name with
  | none => exact hother
  | some name =>
      rw [Option.map_some, Option.getD_some, String.toList_ofList]
      exact h name rfl

theorem yields_inlineFunction : Yields inlineFunction Form.WellFormed := by
  refine yields_bind fun _ => yields_bind fun _ => yields_bind fun _ => yields_bind fun _ =>
    yields_bind fun _ => yields_bind fun _ => yields_identifier.optional.bind fun name h =>
      yields_bind fun _ => yields_bind fun _ => yields_pure ?_
  exact ⟨by simp [Form.source, Form.kind], _, rfl, isIdent_getD h (by decide)⟩

theorem yields_inlineClass : Yields inlineClass Form.WellFormed := by
  have hname : Yields (do gap; identifier) fun name => isIdent name.text = true :=
    yields_bind fun _ => yields_identifier
  refine yields_bind fun _ => yields_bind fun _ => hname.optional.bind fun name h =>
    yields_bind fun _ => yields_bind fun _ => yields_bind fun _ => yields_pure ?_
  exact ⟨by simp [Form.source, Form.kind], _, rfl, isIdent_getD h (by decide)⟩

theorem yields_inlineExpression : Yields inlineExpression Form.WellFormed :=
  yields_bind fun _ => yields_pure ⟨by simp [Form.source, Form.kind], _, rfl, by decide⟩

theorem yields_statement : Yields statement Form.WellFormed := by
  refine yields_allForm.orElse (yields_namedForm.orElse (yields_defaultNameForm.orElse
    (yields_declarationForm.orElse ?_)))
  exact yields_bind fun _ => yields_bind fun _ => yields_bind fun _ => yields_bind fun _ =>
    yields_inlineFunction.orElse (yields_inlineClass.orElse yields_inlineExpression)

end Export

/-! ### The exports of a file -/

/-- **The names of every export are well formed.** -/
theorem exports_wellFormed (path : String) (text : List Char) (e : ExportEdge)
    (h : e ∈ (SourceFile.ofText path text).exports) :
    Export.WellFormed e.kind e.items e.source := by
  obtain ⟨find, -, hrecord⟩ := SourceFile.mem_exports_iff.1 h
  obtain ⟨⟨form, stop⟩, hfirst, rfl⟩ := Option.map_eq_some_iff.1 hrecord
  rw [Export.recordOf_kind, Export.recordOf_items, Export.recordOf_source]
  exact Export.yields_statement _ _ (List.mem_of_mem_head? hfirst)

/-- A name that only begins like a reserved word is exported as a name. -/
theorem wellFormed_default_newest :
    let file := SourceFile.ofText "p.js" "export default newest.a\n".toList
    let e : ExportEdge := ⟨"export default newest.a", .default, [⟨"default", "newest.a"⟩], "p.js",
      ⟨1, 1⟩, ⟨0, 23⟩, none⟩
    e ∈ file.exports ∧ Export.WellFormed e.kind e.items e.source := by
  intro file e
  have hmem : e ∈ file.exports := by decide +kernel
  exact ⟨hmem, exports_wellFormed "p.js" _ e hmem⟩

end SourceOutline
