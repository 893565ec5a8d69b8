/-
**Declared elements.**

The classes, functions and methods that an outline lists.

Main definitions:

* `ElementKind`, `ElementKind.label` — the three kinds and their names;
* `Element` — one declaration.
-/

import SourceOutline.Position

set_option autoImplicit false

namespace SourceOutline

/-- What is declared. -/
inductive ElementKind where
  | classDecl
  | function
  | method
  deriving DecidableEq, Repr

/-- The name of a kind, as records and tables show it. -/
def ElementKind.label : ElementKind → String
  | .classDecl => "class"
  | .function => "function"
  | .method => "method"

theorem ElementKind.label_injective {a b : ElementKind} (h : a.label = b.label) : a = b := by
  cases a <;> cases b <;> simp_all [label]

/-- A declaration found in a file. -/
structure Element where
  kind : ElementKind
  name : String
  /-- The file, as the caller names it. -/
  path : String
  /-- The declaration's head in one line. -/
  signature : String
  /-- The declaration's text, from its first keyword to its closing brace. -/
  snippet : String
  extent : Extent
  span : Span
  /-- What the comment just above says, if there is one. -/
  summary : Option String
  /-- The class of a method. -/
  className : Option String
  deriving DecidableEq, Repr

end SourceOutline
