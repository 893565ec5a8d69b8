/-
**Methods.**

The body of a class is searched for heads of methods.  After a method the search goes on behind its
closing brace, so what its body holds is not taken for further methods.  A statement such as
`if (x)` with a block looks like a method; such names are passed over.

Main definitions:

* `Declaration.MethodHead`, `Declaration.methodHead` — the head of a method;
* `Declaration.isControlWord` — words that are no method names;
* `Declaration.methodFinds` — the heads that the search comes upon;
* `Declaration.methodElement` — the record of a method;
* `SourceFile.methodFindings` — the methods between two offsets of a file.
-/

import SourceOutline.Declaration.Header
import SourceOutline.Element
import SourceOutline.Finding
import SourceOutline.Pattern.Scan
import SourceOutline.SourceFile
import SourceOutline.Text.Braces

set_option autoImplicit false

namespace SourceOutline

open Text Pattern

namespace Declaration

/-- The words that change what a method is. -/
inductive Modifier where
  | async
  | get
  | set
  deriving DecidableEq, Repr

/-- The word of a modifier. -/
def Modifier.label : Modifier → String
  | async => "async"
  | get => "get"
  | set => "set"

/-- The head of a method. -/
structure MethodHead where
  isStatic : Bool
  modifier : Option Modifier
  name : Capture
  parameters : Capture

/-- A modifier with blanks after it. -/
def modifier : Pattern Modifier := do
  let found ←
    (do word "async"; return .async) <|>
    (do word "get"; return .get) <|>
    (do word "set"; return Modifier.set)
  gap
  return found

/-- The head of a method, up to the brace of its body. -/
def methodHead : Pattern MethodHead := do
  let isStatic ← optionalKeyword "static"
  let modifier ← optional modifier
  let _ ← optional do
    word "*"
    blanks
  let name ← identifier
  let parameters ← parameters
  return ⟨isStatic, modifier, name, parameters⟩

/-- The head of a method in one line. -/
def MethodHead.signature (head : MethodHead) : String :=
  (if head.isStatic then "static " else "") ++
    ((head.modifier.map fun m => m.label ++ " ").getD "") ++
    .ofList head.name.text ++ "(" ++ .ofList (collapse head.parameters.text) ++ ")"

/-- Words that begin a statement and are no method names. -/
def controlWords : List String :=
  ["if", "for", "while", "switch", "catch", "with", "function", "return"]

/-- Whether a head is that of a statement. -/
def isControlWord (name : String) : Bool :=
  controlWords.contains name

/-- The closing brace of the body whose opening brace ends the find. -/
def bodyEnd? {α : Type} (text : List Char) (find : Find α) : Option Nat :=
  closingBrace? text (find.stopOffset - 1)

/-- Where the search goes on: behind a method, or behind a head that gives none. -/
def resumeOffset (body : List Char) (find : Find (Header MethodHead)) : Nat :=
  if isControlWord (.ofList find.value.parts.name.text) then
    find.stopOffset
  else
    match bodyEnd? body find with
    | some close => close + 1
    | none => find.stopOffset

/-- The heads of methods in the body of a class. -/
def methodFinds (body : List Char) : List (Find (Header MethodHead)) :=
  scan (header methodHead) (resumeOffset body) 0 0 none body

/-- The record of a method that ends at `close` in a body that has offset `base` in the file. -/
def methodElement (file : SourceFile) (className : String) (base : Int)
    (find : Find (Header MethodHead)) (close : Nat) : Element :=
  let start := base + find.offsetOf find.value.start
  let stop := base + close
  { kind := .method
    name := .ofList find.value.parts.name.text
    path := file.path
    signature := find.value.parts.signature
    snippet := .ofList (slice file.text start (stop + 1))
    extent := file.extent start stop
    span := ⟨start, stop + 1⟩
    summary := find.value.summary?
    className := some className }

/-- What a head found in the body gives, where the body has offset `base` in the file. -/
def methodFinding (file : SourceFile) (className : String) (base : Int) (body : List Char)
    (find : Find (Header MethodHead)) : List (Finding Element) :=
  let name := String.ofList find.value.parts.name.text
  if isControlWord name then
    []
  else
    match bodyEnd? body find with
    | none =>
      let line := file.lineOf (base + find.offsetOf find.value.start)
      [.warning (.skippedMethod file.path className ⟨"method", name, line⟩)]
    | some close => [.record (methodElement file className base find close)]

end Declaration

/-- The methods of the class body between two offsets, and the heads whose body never closes. -/
def SourceFile.methodFindings (file : SourceFile) (className : String) (start stop : Int) :
    List (Finding Element) :=
  let body := slice file.text start stop
  (Declaration.methodFinds body).flatMap (Declaration.methodFinding file className start body)

end SourceOutline
