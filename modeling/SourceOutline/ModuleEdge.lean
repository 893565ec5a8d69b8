/-
**Import and export records.**

An import binds names of another module, an export makes names of this module public.  Both are
edges of the graph of modules.

Main definitions:

* `ImportSpecifier`, `ImportEdge` — one binding, and a statement with its bindings;
* `ExportedItem`, `ExportKind`, `ExportEdge` — one public name, the form of a statement, and a
  statement with its names.
-/

import SourceOutline.Position

set_option autoImplicit false

namespace SourceOutline

/-! ### Imports -/

/-- What an import statement binds. -/
inductive ImportSpecifier where
  /-- The module's default export, under a name of this file. -/
  | defaultExport (binding : String)
  /-- All exports of the module, as one object. -/
  | allExports (binding : String)
  /-- One export, under its own or another name. -/
  | named (imported binding : String)
  /-- Nothing: the module is only run. -/
  | sideEffect
  deriving DecidableEq, Repr

namespace ImportSpecifier

/-- The name of the kind of binding. -/
def label : ImportSpecifier → String
  | defaultExport _ => "default"
  | allExports _ => "namespace"
  | named _ _ => "named"
  | sideEffect => "side-effect"

/-- The name in the other module, where the statement gives one. -/
def importedName? : ImportSpecifier → Option String
  | named imported _ => some imported
  | _ => none

/-- The name in this file. -/
def bindingName? : ImportSpecifier → Option String
  | defaultExport binding => some binding
  | allExports binding => some binding
  | named _ binding => some binding
  | sideEffect => none

end ImportSpecifier

/-- An import statement. -/
structure ImportEdge where
  /-- The statement's text. -/
  raw : String
  /-- The module that is imported. -/
  source : String
  specifiers : List ImportSpecifier
  /-- The file, as the caller names it. -/
  path : String
  extent : Extent
  span : Span
  deriving DecidableEq, Repr

/-! ### Exports -/

/-- A name that an export makes public, and the name it has in the file. -/
structure ExportedItem where
  publicName : String
  localName : String
  deriving DecidableEq, Repr

/-- The form of an export statement. -/
inductive ExportKind where
  /-- All exports of another module. -/
  | reExportAll
  /-- Some exports of another module. -/
  | reExportNamed
  /-- A list of names of this file. -/
  | namedList
  /-- A name of this file, as the default export. -/
  | default
  /-- A declaration. -/
  | declaration
  /-- An expression, or a function or class written in place, as the default export. -/
  | defaultExpression
  deriving DecidableEq, Repr

/-- The name of a form. -/
def ExportKind.label : ExportKind → String
  | .reExportAll => "re-export_all"
  | .reExportNamed => "re-export_named"
  | .namedList => "named_list"
  | .default => "default"
  | .declaration => "declaration"
  | .defaultExpression => "default_expression"

/-- An export statement. -/
structure ExportEdge where
  /-- The statement's text. -/
  raw : String
  kind : ExportKind
  items : List ExportedItem
  /-- The file, as the caller names it. -/
  path : String
  extent : Extent
  span : Span
  /-- The module whose exports are passed on, if any. -/
  source : Option String
  deriving DecidableEq, Repr

end SourceOutline
