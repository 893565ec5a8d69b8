/-
**Classes.**

Main definitions:

* `Declaration.classHead` — the head of a class;
* `Declaration.classElement` — the record of a class;
* `SourceFile.classFindings` — the classes of a file, each followed by its methods.
-/

import SourceOutline.Declaration.Method

set_option autoImplicit false

namespace SourceOutline

open Text Pattern

namespace Declaration

/-- The head of a class, up to the brace of its body; finds the name. -/
def classHead : Pattern Capture := do
  let _ ← optionalKeyword "export"
  let _ ← optionalKeyword "default"
  word "class"
  gap
  let name ← identifier
  blanks
  let _ ← optional do
    word "extends"
    gap
    let _ ← one isIdentStart
    many fun c => isIdentPart c || c == '.'
  blanks
  word "\x7b"
  return name

/-- The record of a class that ends at `close`. -/
def classElement (file : SourceFile) (find : Find (Header Capture)) (close : Nat) : Element :=
  let name := String.ofList find.value.parts.text
  let start := find.offsetOf find.value.start
  { kind := .classDecl
    name := name
    path := file.path
    signature := "class " ++ name ++ " \x7b ... \x7d"
    snippet := .ofList (range file.text start (close + 1))
    extent := file.extent start close
    span := ⟨start, close + 1⟩
    summary := find.value.summary?
    className := none }

/-- What the head of a class gives: the class and its methods, or a warning. -/
def classFinding (file : SourceFile) (find : Find (Header Capture)) : List (Finding Element) :=
  let name := String.ofList find.value.parts.text
  match bodyEnd? file.text find with
  | none =>
    let line := file.lineOf (find.offsetOf find.value.start)
    [.warning (.skipped file.path ⟨"class", name, line⟩)]
  | some close =>
    .record (classElement file find close) :: file.methodFindings name find.stopOffset close

end Declaration

/-- The classes of a file in order, each followed by its methods. -/
def SourceFile.classFindings (file : SourceFile) : List (Finding Element) :=
  (findAll (Declaration.header Declaration.classHead) file.text).flatMap
    (Declaration.classFinding file)

end SourceOutline
