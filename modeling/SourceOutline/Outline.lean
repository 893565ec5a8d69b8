/-
**Outlines.**

The outline of a file: its classes with their methods, its functions, imports and exports.

Main definitions:

* `Outline` — an outline, with the elements of each kind;
* `Reported` — a result and what was reported on the way;
* `SourceFile.outline` — the outline of a file.

Main results:

* `SourceFile.outline_elements` — classes with their methods come first, then functions.
-/

import SourceOutline.Declaration.Class
import SourceOutline.Declaration.Function
import SourceOutline.Export
import SourceOutline.Import

set_option autoImplicit false

namespace SourceOutline

/-- What a file declares, imports and exports. -/
structure Outline where
  elements : List Element
  imports : List ImportEdge
  exports : List ExportEdge
  deriving DecidableEq, Repr

namespace Outline

/-- The elements of one kind, in order. -/
def ofKind (outline : Outline) (kind : ElementKind) : List Element :=
  outline.elements.filter (·.kind == kind)

/-- The classes of an outline. -/
def classes (outline : Outline) : List Element :=
  outline.ofKind .classDecl

/-- The functions of an outline. -/
def functions (outline : Outline) : List Element :=
  outline.ofKind .function

/-- The methods of an outline. -/
def methods (outline : Outline) : List Element :=
  outline.ofKind .method

end Outline

/-- A result and what was reported on the way. -/
structure Reported (α : Type) where
  value : α
  warnings : List Warning

/-- The outline of a file, with the warnings of its passes: exports, classes, functions. -/
def SourceFile.outline (file : SourceFile) : Reported Outline :=
  let exports := file.exportFindings
  let classes := file.classFindings
  let functions :=
    file.functionFindings (Finding.records classes) (Finding.records exports)
  { value :=
      { elements := Finding.records classes ++ Finding.records functions
        imports := file.imports
        exports := Finding.records exports }
    warnings :=
      Finding.warnings exports ++ Finding.warnings classes ++ Finding.warnings functions }

/-- The elements of an outline are the classes with their methods, then the functions. -/
theorem SourceFile.outline_elements (file : SourceFile) :
    file.outline.value.elements =
      Finding.records file.classFindings ++
        Finding.records
          (file.functionFindings (Finding.records file.classFindings) file.exports) := rfl

end SourceOutline
