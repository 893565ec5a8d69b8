/-
**Reports.**

Records are reported as JSON or as tables and lines for a terminal.

Main definitions:

* `Element.toJson`, `ImportEdge.toJson`, `ExportEdge.toJson`, `Outline.toJson` — records as JSON;
* `Display` — what a terminal shows;
* `Outline.display`, `Element.displayAll` — records on a terminal.
-/

import SourceOutline.Json
import SourceOutline.Outline

set_option autoImplicit false

namespace SourceOutline

/-! ### JSON -/

/-- A range of lines as JSON. -/
def Extent.toJson (extent : Extent) : Json :=
  .object [("start", .number extent.first), ("end", .number extent.last)]

/-- A range of characters as JSON. -/
def Span.toJson (span : Span) : Json :=
  .object [("start", .number span.start), ("end", .number span.stop)]

/-- A declaration as JSON. -/
def Element.toJson (e : Element) : Json :=
  .object <|
    [("kind", .string e.kind.label), ("name", .string e.name), ("path", .string e.path),
      ("signature", .string e.signature), ("snippet", .string e.snippet),
      ("extent", e.extent.toJson), ("span", e.span.toJson)] ++
    Json.optionalField "summary" e.summary ++ Json.optionalField "class_name" e.className

/-- A binding as JSON. -/
def ImportSpecifier.toJson (s : ImportSpecifier) : Json :=
  .object <|
    [("kind", .string s.label)] ++ Json.optionalField "imported_name" s.importedName? ++
      Json.optionalField "local_name" s.bindingName?

/-- An import statement as JSON. -/
def ImportEdge.toJson (e : ImportEdge) : Json :=
  .object
    [("raw", .string e.raw), ("source", .string e.source),
      ("specifiers", .array (e.specifiers.map ImportSpecifier.toJson)), ("path", .string e.path),
      ("extent", e.extent.toJson), ("span", e.span.toJson)]

/-- A public name as JSON. -/
def ExportedItem.toJson (i : ExportedItem) : Json :=
  .object [("public_name", .string i.publicName), ("local_name", .string i.localName)]

/-- An export statement as JSON. -/
def ExportEdge.toJson (e : ExportEdge) : Json :=
  .object <|
    [("raw", .string e.raw), ("kind", .string e.kind.label),
      ("exported_items", .array (e.items.map ExportedItem.toJson)), ("path", .string e.path),
      ("extent", e.extent.toJson), ("span", e.span.toJson)] ++
    Json.optionalField "source" e.source

/-- An outline as JSON. -/
def Outline.toJson (o : Outline) : Json :=
  .object
    [("elements", .array (o.elements.map Element.toJson)),
      ("imports", .array (o.imports.map ImportEdge.toJson)),
      ("exports", .array (o.exports.map ExportEdge.toJson))]

/-- A declaration under the name of its kind. -/
def Element.toLabelledJson (e : Element) : Json :=
  .object [(e.kind.label, e.toJson)]

/-- Where a declaration is. -/
def Element.toLocationJson (e : Element) : Json :=
  .object
    [("kind", .string e.kind.label), ("path", .string e.path), ("extent", e.extent.toJson)]

/-! ### Terminals -/

/-- What a terminal shows. -/
inductive Display where
  | line (text : String)
  | table (title : Option String) (columns : List String) (rows : List (List String))
  deriving DecidableEq, Repr

/-- A range of lines, as tables show it. -/
def Extent.display (extent : Extent) : String :=
  toString extent.first ++ "-" ++ toString extent.last

/-- The signature of a declaration; a method's has its class in front. -/
def Element.fullSignature (e : Element) : String :=
  match e.className with
  | some "" => e.signature
  | some owner => owner ++ "." ++ e.signature
  | none => e.signature

/-- The row of a declaration in the table of an outline. -/
def Element.outlineRow (e : Element) : List String :=
  [e.kind.label, e.fullSignature, e.extent.display, e.summary.getD ""]

/-- The line of an import statement. -/
def ImportEdge.display (e : ImportEdge) : Display :=
  .line ("import [bold]" ++ e.source ++ "[/bold] (line " ++ toString e.extent.first ++ ")")

/-- The line of an export statement. -/
def ExportEdge.display (e : ExportEdge) : Display :=
  .line ("export " ++ e.kind.label ++ ": " ++ ", ".intercalate (e.items.map (·.publicName)) ++
    " (line " ++ toString e.extent.first ++ ")")

/-- An outline: a table of its elements, then its imports and exports. -/
def Outline.display (o : Outline) (title : String) : List Display :=
  .table title ["Kind", "Signature", "Extent", "Summary"] (o.elements.map Element.outlineRow) ::
    (o.imports.map ImportEdge.display ++ o.exports.map ExportEdge.display)

/-- A table that shows where declarations are. -/
def Element.displayAll (elements : List Element) : Display :=
  .table none ["Kind", "Path", "Extent"]
    (elements.map fun e => [e.kind.label, e.path, e.extent.display])

end SourceOutline
