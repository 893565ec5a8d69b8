/-
**Functions.**

Functions are searched for in the whole file.  One that stands inside a class is left out, and so is
one that is the default export, because the export record already stands for it.

Main definitions:

* `Declaration.FunctionHead`, `Declaration.functionHead` — the head of a function;
* `Declaration.isDefaultFunction` — the export of a function as the default;
* `Declaration.functionElement` — the record of a function;
* `SourceFile.functionFindings` — the functions of a file outside the given classes and exports.
-/

import SourceOutline.Declaration.Method
import SourceOutline.Export

set_option autoImplicit false

namespace SourceOutline

open Text Pattern

namespace Declaration

/-- The head of a function. -/
structure FunctionHead where
  name : Capture
  parameters : Capture

/-- The head of a function, up to the brace of its body. -/
def functionHead : Pattern FunctionHead := do
  let _ ← optionalKeyword "export"
  let _ ← optionalKeyword "default"
  let _ ← optionalKeyword "async"
  word "function"
  Export.starOrGap
  let name ← identifier
  let parameters ← parameters
  return ⟨name, parameters⟩

/-- `export default function`, perhaps with `async`. -/
def defaultFunction : Pattern Unit := do
  word "export"
  gap
  word "default"
  gap
  let _ ← optionalKeyword "async"
  word "function"
  wordEdge

/-- Whether an export is that of a function as the default, in a given line. -/
def isDefaultFunction (line : Nat) (edge : ExportEdge) : Bool :=
  edge.kind == .defaultExpression && edge.extent.first == line &&
    (defaultFunction.first? (Cursor.ofText edge.raw.toList)).isSome

/-- The record of a function that ends at `close`. -/
def functionElement (file : SourceFile) (find : Find (Header FunctionHead)) (close : Nat) :
    Element :=
  let name := String.ofList find.value.parts.name.text
  let start := find.offsetOf find.value.start
  { kind := .function
    name := name
    path := file.path
    signature := "function " ++ name ++ "(" ++
      .ofList (collapse find.value.parts.parameters.text) ++ ")"
    snippet := .ofList (range file.text start (close + 1))
    extent := file.extent start close
    span := ⟨start, close + 1⟩
    summary := find.value.summary?
    className := none }

/-- What the head of a function gives. -/
def functionFinding (file : SourceFile) (classes : List Element) (exports : List ExportEdge)
    (find : Find (Header FunctionHead)) : List (Finding Element) :=
  let name := String.ofList find.value.parts.name.text
  let start := find.offsetOf find.value.start
  let line := file.lineOf start
  if classes.any fun e => e.kind == .classDecl && e.span.contains start then
    []
  else if exports.any (isDefaultFunction line) then
    -- the export record stands for this function
    []
  else
    match bodyEnd? file.text find with
    | none => [.warning (.skipped file.path ⟨"function", name, line⟩)]
    | some close => [.record (functionElement file find close)]

end Declaration

/-- The functions of a file in order, apart from those inside `classes` and those that `exports`
already records as the default export. -/
def SourceFile.functionFindings (file : SourceFile) (classes : List Element)
    (exports : List ExportEdge) : List (Finding Element) :=
  (findAll (Declaration.header Declaration.functionHead) file.text).flatMap
    (Declaration.functionFinding file classes exports)

end SourceOutline
