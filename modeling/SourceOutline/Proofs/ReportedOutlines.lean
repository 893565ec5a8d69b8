/-
**What a report of an outline tells.**

The JSON of an outline shows every field of every record.  A field without a value is left out, and
the keys of the fields that follow it tell that it is: no two fields of a record have one key.  The
report of a kind is its name, and that of a position is a number; so the same holds where kinds may
have any name and positions may be any whole numbers.

Main definitions:

* `Shown.Range`, `Shown.Element`, `Shown.Specifier`, `Shown.Import`, `Shown.Export`,
  `Shown.Outline` — records as a report shows them, with any names and any numbers;
* `Outline.shown` — an outline as such a record.

Main results:

* `Json.optionalField_append_inj` — leaving out a field loses nothing;
* `Shown.Outline.toJson_injective` — the fields of an object tell the record;
* `Outline.toJson_shown`, `Outline.shown_injective` — an outline is reported as it is shown, and is
  known by that;
* `Outline.report_injective` — **the printed text tells the outline**.
-/

import SourceOutline.CommandLine
import SourceOutline.Proofs.JsonTexts

set_option autoImplicit false

namespace SourceOutline

/-! ### Fields that are left out -/

/-- A field that is left out is missed, if no later field has its key. -/
theorem Json.optionalField_append_inj {key : String} {a b : Option String}
    {rest rest' : List (String × Json)} (hrest : ∀ field ∈ rest, field.1 ≠ key)
    (hrest' : ∀ field ∈ rest', field.1 ≠ key)
    (h : optionalField key a ++ rest = optionalField key b ++ rest') : a = b ∧ rest = rest' := by
  cases a with
  | none =>
      cases b with
      | none => exact ⟨rfl, h⟩
      | some y =>
          obtain rfl : rest = (key, string y) :: rest' := h
          exact absurd rfl (hrest (key, string y) List.mem_cons_self)
  | some x =>
      cases b with
      | none =>
          obtain rfl : rest' = (key, string x) :: rest := h.symm
          exact absurd rfl (hrest' (key, string x) List.mem_cons_self)
      | some y => simpa [optionalField] using h

theorem Json.ne_key_of_mem_optionalField {key key' : String} {value : Option String}
    (hkey : key ≠ key') : ∀ field ∈ optionalField key value, field.1 ≠ key' := by
  intro field hfield
  cases value with
  | none => simp [optionalField] at hfield
  | some s =>
      obtain rfl : field = (key, .string s) := by simpa [optionalField] using hfield
      exact hkey

/-- A field that is left out at the end of a record. -/
theorem Json.optionalField_injective (key : String) : Function.Injective (optionalField key) := by
  intro a b h
  have happend : optionalField key a ++ [] = optionalField key b ++ [] := by simpa using h
  exact (optionalField_append_inj (by simp) (by simp) happend).1

/-! ### Records as they are shown -/

namespace Shown

open Json

/-- A range of lines or of characters. -/
structure Range where
  start : Int
  stop : Int

/-- A declaration. -/
structure Element where
  kind : String
  name : String
  path : String
  signature : String
  snippet : String
  extent : Range
  span : Range
  summary : Option String
  className : Option String

/-- A binding of an import statement. -/
structure Specifier where
  kind : String
  importedName : Option String
  localName : Option String

/-- An import statement. -/
structure Import where
  raw : String
  source : String
  specifiers : List Specifier
  path : String
  extent : Range
  span : Range

/-- An export statement. -/
structure Export where
  raw : String
  kind : String
  items : List ExportedItem
  path : String
  extent : Range
  span : Range
  source : Option String

/-- The records of a file. -/
structure Outline where
  elements : List Element
  imports : List Import
  exports : List Export

def Range.toJson (r : Range) : Json :=
  .object [("start", .number r.start), ("end", .number r.stop)]

def Element.toJson (e : Element) : Json :=
  .object <|
    [("kind", .string e.kind), ("name", .string e.name), ("path", .string e.path),
      ("signature", .string e.signature), ("snippet", .string e.snippet),
      ("extent", e.extent.toJson), ("span", e.span.toJson)] ++
    optionalField "summary" e.summary ++ optionalField "class_name" e.className

def Specifier.toJson (s : Specifier) : Json :=
  .object <|
    [("kind", .string s.kind)] ++ optionalField "imported_name" s.importedName ++
      optionalField "local_name" s.localName

def Import.toJson (i : Import) : Json :=
  .object
    [("raw", .string i.raw), ("source", .string i.source),
      ("specifiers", .array (i.specifiers.map Specifier.toJson)), ("path", .string i.path),
      ("extent", i.extent.toJson), ("span", i.span.toJson)]

def Export.toJson (x : Export) : Json :=
  .object <|
    [("raw", .string x.raw), ("kind", .string x.kind),
      ("exported_items", .array (x.items.map ExportedItem.toJson)), ("path", .string x.path),
      ("extent", x.extent.toJson), ("span", x.span.toJson)] ++
    optionalField "source" x.source

def Outline.toJson (o : Outline) : Json :=
  .object
    [("elements", .array (o.elements.map Element.toJson)),
      ("imports", .array (o.imports.map Import.toJson)),
      ("exports", .array (o.exports.map Export.toJson))]

theorem Range.toJson_injective : Function.Injective Range.toJson := by
  rintro ⟨start, stop⟩ ⟨start', stop'⟩ h
  simpa [Range.toJson] using h

theorem Element.toJson_injective : Function.Injective Element.toJson := by
  rintro ⟨kind, name, path, signature, snippet, extent, span, summary, className⟩
    ⟨kind', name', path', signature', snippet', extent', span', summary', className'⟩ h
  simp only [Element.toJson, object.injEq, List.cons_append, List.nil_append, List.cons.injEq,
    Prod.mk.injEq, string.injEq, true_and] at h
  obtain ⟨rfl, rfl, rfl, rfl, rfl, hextent, hspan, hoptional⟩ := h
  obtain rfl := Range.toJson_injective hextent
  obtain rfl := Range.toJson_injective hspan
  obtain ⟨rfl, hclass⟩ := optionalField_append_inj (ne_key_of_mem_optionalField (by decide))
    (ne_key_of_mem_optionalField (by decide)) hoptional
  obtain rfl := optionalField_injective _ hclass
  rfl

theorem Specifier.toJson_injective : Function.Injective Specifier.toJson := by
  rintro ⟨kind, importedName, localName⟩ ⟨kind', importedName', localName'⟩ h
  simp only [Specifier.toJson, object.injEq, List.cons_append, List.nil_append, List.cons.injEq,
    Prod.mk.injEq, string.injEq, true_and] at h
  obtain ⟨rfl, hoptional⟩ := h
  obtain ⟨rfl, hlocal⟩ := optionalField_append_inj (ne_key_of_mem_optionalField (by decide))
    (ne_key_of_mem_optionalField (by decide)) hoptional
  obtain rfl := optionalField_injective _ hlocal
  rfl

theorem Import.toJson_injective : Function.Injective Import.toJson := by
  rintro ⟨raw, source, specifiers, path, extent, span⟩
    ⟨raw', source', specifiers', path', extent', span'⟩ h
  simp only [Import.toJson, object.injEq, List.cons.injEq, Prod.mk.injEq, string.injEq,
    array.injEq, true_and, and_true] at h
  obtain ⟨rfl, rfl, hspecifiers, rfl, hextent, hspan⟩ := h
  obtain rfl := Specifier.toJson_injective.list_map hspecifiers
  obtain rfl := Range.toJson_injective hextent
  obtain rfl := Range.toJson_injective hspan
  rfl

theorem exportedItem_toJson_injective : Function.Injective ExportedItem.toJson := by
  rintro ⟨publicName, localName⟩ ⟨publicName', localName'⟩ h
  simpa [ExportedItem.toJson] using h

theorem Export.toJson_injective : Function.Injective Export.toJson := by
  rintro ⟨raw, kind, items, path, extent, span, source⟩
    ⟨raw', kind', items', path', extent', span', source'⟩ h
  simp only [Export.toJson, object.injEq, List.cons_append, List.nil_append, List.cons.injEq,
    Prod.mk.injEq, string.injEq, array.injEq, true_and] at h
  obtain ⟨rfl, rfl, hitems, rfl, hextent, hspan, hsource⟩ := h
  obtain rfl := exportedItem_toJson_injective.list_map hitems
  obtain rfl := Range.toJson_injective hextent
  obtain rfl := Range.toJson_injective hspan
  obtain rfl := optionalField_injective _ hsource
  rfl

/-- **The fields of an object tell the record.** -/
theorem Outline.toJson_injective : Function.Injective Outline.toJson := by
  rintro ⟨elements, imports, exports⟩ ⟨elements', imports', exports'⟩ h
  simp only [Outline.toJson, object.injEq, List.cons.injEq, Prod.mk.injEq, array.injEq, true_and,
    and_true] at h
  obtain ⟨helements, himports, hexports⟩ := h
  obtain rfl := Element.toJson_injective.list_map helements
  obtain rfl := Import.toJson_injective.list_map himports
  obtain rfl := Export.toJson_injective.list_map hexports
  rfl

end Shown

/-! ### Outlines -/

def Extent.shown (extent : Extent) : Shown.Range := ⟨extent.first, extent.last⟩

def Span.shown (span : Span) : Shown.Range := ⟨span.start, span.stop⟩

def Element.shown (e : Element) : Shown.Element :=
  ⟨e.kind.label, e.name, e.path, e.signature, e.snippet, e.extent.shown, e.span.shown, e.summary,
    e.className⟩

def ImportSpecifier.shown (s : ImportSpecifier) : Shown.Specifier :=
  ⟨s.label, s.importedName?, s.bindingName?⟩

def ImportEdge.shown (e : ImportEdge) : Shown.Import :=
  ⟨e.raw, e.source, e.specifiers.map ImportSpecifier.shown, e.path, e.extent.shown, e.span.shown⟩

def ExportEdge.shown (e : ExportEdge) : Shown.Export :=
  ⟨e.raw, e.kind.label, e.items, e.path, e.extent.shown, e.span.shown, e.source⟩

/-- An outline as a report shows it. -/
def Outline.shown (o : Outline) : Shown.Outline :=
  ⟨o.elements.map Element.shown, o.imports.map ImportEdge.shown, o.exports.map ExportEdge.shown⟩

/-- An outline is reported as it is shown. -/
theorem Outline.toJson_shown (o : Outline) : o.shown.toJson = o.toJson := by
  have hspecifiers : Shown.Specifier.toJson ∘ ImportSpecifier.shown = ImportSpecifier.toJson := rfl
  have himport : ∀ e : ImportEdge, e.shown.toJson = e.toJson := by
    intro e
    simp [ImportEdge.shown, Shown.Import.toJson, ImportEdge.toJson, hspecifiers, Extent.shown,
      Span.shown, Shown.Range.toJson, Extent.toJson, Span.toJson]
  have helements : Shown.Element.toJson ∘ Element.shown = Element.toJson := rfl
  have hexports : Shown.Export.toJson ∘ ExportEdge.shown = ExportEdge.toJson := rfl
  have himports : Shown.Import.toJson ∘ ImportEdge.shown = ImportEdge.toJson := funext himport
  simp [Outline.shown, Shown.Outline.toJson, Outline.toJson, helements, himports, hexports]

theorem Extent.shown_injective : Function.Injective Extent.shown := by
  rintro ⟨first, last⟩ ⟨first', last'⟩ h
  simpa [Extent.shown] using h

theorem Span.shown_injective : Function.Injective Span.shown := by
  rintro ⟨start, stop⟩ ⟨start', stop'⟩ h
  simpa [Span.shown] using h

theorem Element.shown_injective : Function.Injective Element.shown := by
  rintro ⟨kind, name, path, signature, snippet, extent, span, summary, className⟩
    ⟨kind', name', path', signature', snippet', extent', span', summary', className'⟩ h
  simp only [Element.shown, Shown.Element.mk.injEq] at h
  obtain ⟨hkind, rfl, rfl, rfl, rfl, hextent, hspan, rfl, rfl⟩ := h
  obtain rfl := ElementKind.label_injective hkind
  obtain rfl := Extent.shown_injective hextent
  obtain rfl := Span.shown_injective hspan
  rfl

/-- The names of the kinds keep apart a module as a whole and its default export, which are both
bound to one name. -/
theorem ImportSpecifier.shown_injective : Function.Injective ImportSpecifier.shown := by
  intro a b h
  cases a <;> cases b <;>
    simp_all [ImportSpecifier.shown, ImportSpecifier.label, ImportSpecifier.importedName?,
      ImportSpecifier.bindingName?]

theorem ImportEdge.shown_injective : Function.Injective ImportEdge.shown := by
  rintro ⟨raw, source, specifiers, path, extent, span⟩
    ⟨raw', source', specifiers', path', extent', span'⟩ h
  simp only [ImportEdge.shown, Shown.Import.mk.injEq] at h
  obtain ⟨rfl, rfl, hspecifiers, rfl, hextent, hspan⟩ := h
  obtain rfl := ImportSpecifier.shown_injective.list_map hspecifiers
  obtain rfl := Extent.shown_injective hextent
  obtain rfl := Span.shown_injective hspan
  rfl

theorem ExportKind.label_injective : Function.Injective ExportKind.label := by
  intro a b h
  cases a <;> cases b <;> simp_all [ExportKind.label]

theorem ExportEdge.shown_injective : Function.Injective ExportEdge.shown := by
  rintro ⟨raw, kind, items, path, extent, span, source⟩
    ⟨raw', kind', items', path', extent', span', source'⟩ h
  simp only [ExportEdge.shown, Shown.Export.mk.injEq] at h
  obtain ⟨rfl, hkind, rfl, rfl, hextent, hspan, rfl⟩ := h
  obtain rfl := ExportKind.label_injective hkind
  obtain rfl := Extent.shown_injective hextent
  obtain rfl := Span.shown_injective hspan
  rfl

theorem Outline.shown_injective : Function.Injective Outline.shown := by
  rintro ⟨elements, imports, exports⟩ ⟨elements', imports', exports'⟩ h
  simp only [Outline.shown, Shown.Outline.mk.injEq] at h
  obtain ⟨helements, himports, hexports⟩ := h
  obtain rfl := Element.shown_injective.list_map helements
  obtain rfl := ImportEdge.shown_injective.list_map himports
  obtain rfl := ExportEdge.shown_injective.list_map hexports
  rfl

theorem CommandLine.printed_injective : Function.Injective CommandLine.printed := by
  intro a b h
  exact Json.render_injective (String.append_left_inj _ |>.mp h)

/-- **The printed text tells the outline**: the records as they are shown by the text alone, and an
outline by what the command prints, of which the text and a line feed are all. -/
theorem Outline.report_injective :
    Function.Injective (fun r : Shown.Outline => r.toJson.render) ∧
      (∀ o : Outline, o.shown.toJson = o.toJson) ∧
      Function.Injective (fun o : Outline => CommandLine.printed o.toJson) := by
  have hshown : Function.Injective (fun r : Shown.Outline => r.toJson.render) :=
    Json.render_injective.comp Shown.Outline.toJson_injective
  refine ⟨hshown, Outline.toJson_shown, ?_⟩
  intro a b h
  have hjson : a.toJson = b.toJson := CommandLine.printed_injective h
  rw [← Outline.toJson_shown a, ← Outline.toJson_shown b] at hjson
  exact Outline.shown_injective (Shown.Outline.toJson_injective hjson)

end SourceOutline
