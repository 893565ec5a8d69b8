/-
**Import statements.**

Every `import` that begins a line, indented or not, is looked at.  Five forms of statement are tried
there in a fixed order, and the first that matches is recorded.

Main definitions:

* `keywordAtLineStart` — a keyword that begins a line;
* `Import.statement` — the five forms;
* `SourceFile.imports` — the import records of a file.
-/

import SourceOutline.Pattern.Derived
import SourceOutline.Pattern.Scan
import SourceOutline.SourceFile
import SourceOutline.Specifier

set_option autoImplicit false

namespace SourceOutline

open Text Pattern

/-- A keyword that is the first word of its line; finds the place before it. -/
def keywordAtLineStart (keyword : String) : Pattern Cursor := do
  lineStart
  padding
  let start ← here
  word keyword
  wordEdge
  return start

/-- The semicolon that may end a statement, with spaces and tabs before it. -/
def optionalSemicolon : Pattern Unit := do
  let _ ← optional do
    padding
    word ";"

/-- A list of names between braces. -/
def braceList : Pattern Capture := do
  word "\x7b"
  let names ← captured (many (· != '\x7d'))
  word "\x7d"
  return names

namespace Import

/-- What a statement says: the module and the bindings. -/
structure Clause where
  source : String
  specifiers : List ImportSpecifier

/-- `from` and a module, then perhaps a semicolon. -/
def fromModule : Pattern String := do
  word "from"
  blanks
  let source ← literal
  optionalSemicolon
  return .ofList source.text

/-- `* as` and a name. -/
def starBinding : Pattern Capture := do
  word "*"
  blanks
  word "as"
  gap
  identifier

/-- `import name from 'module'` -/
def defaultForm : Pattern Clause := do
  word "import"
  gap
  let binding ← identifier
  gap
  let source ← fromModule
  return ⟨source, [.defaultExport (.ofList binding.text)]⟩

/-- What may follow a default binding and a comma. -/
def moreBindings : Pattern (List ImportSpecifier) :=
  (do
    let names ← braceList
    return Specifier.imports names.text) <|>
  (do
    let binding ← starBinding
    return [.allExports (.ofList binding.text)])

/-- `import name, ⋯ from 'module'` -/
def defaultAndMoreForm : Pattern Clause := do
  word "import"
  gap
  let binding ← identifier
  blanks
  word ","
  blanks
  let more ← moreBindings
  blanks
  let source ← fromModule
  return ⟨source, .defaultExport (.ofList binding.text) :: more⟩

/-- `import * as name from 'module'` -/
def namespaceForm : Pattern Clause := do
  word "import"
  blanks
  let binding ← starBinding
  gap
  let source ← fromModule
  return ⟨source, [.allExports (.ofList binding.text)]⟩

/-- `import ⋯ from 'module'` with a list between braces. -/
def namedForm : Pattern Clause := do
  word "import"
  blanks
  let names ← braceList
  blanks
  let source ← fromModule
  return ⟨source, Specifier.imports names.text⟩

/-- `import 'module'` -/
def sideEffectForm : Pattern Clause := do
  word "import"
  blanks
  let source ← literal
  optionalSemicolon
  return ⟨.ofList source.text, [.sideEffect]⟩

/-- An import statement; the forms are tried in this order. -/
def statement : Pattern Clause :=
  defaultForm <|> defaultAndMoreForm <|> namespaceForm <|> namedForm <|> sideEffectForm

/-- The record of a statement that begins at `offset` and covers `covered`. -/
def edge (file : SourceFile) (offset : Nat) (covered : List Char) (clause : Clause) : ImportEdge :=
  let raw := trimRight covered
  { raw := .ofList raw
    source := clause.source
    specifiers := clause.specifiers
    path := file.path
    extent := file.extent offset (offset + raw.length - 1)
    span := ⟨offset, offset + raw.length⟩ }

end Import

/-- The import statements of a file, in order. -/
def SourceFile.imports (file : SourceFile) : List ImportEdge :=
  (findAll (keywordAtLineStart "import") file.text).filterMap fun find =>
    (Import.statement.first? find.value).map fun (clause, stop) =>
      Import.edge file (find.offsetOf find.value) (Capture.text ⟨find.value, stop⟩) clause

end SourceOutline
