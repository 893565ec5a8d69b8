/-
**Export statements.**

Every `export` that begins a line, indented or not, is looked at.  Five forms of statement are tried
there in a fixed order.  The first three say all in their own words.  A declaration or a default
expression goes on after its first words: a function or class up to its closing brace, anything else
up to a semicolon or the end of the line.

Main definitions:

* `Export.Form`, `Export.statement` — what the first words of a statement say, and their patterns;
* `Export.blockEnd?`, `Export.lineStatement` — where the rest of a statement ends;
* `Export.findings` — the record of a statement, with a warning if its block never closes;
* `SourceFile.exportFindings`, `SourceFile.exports` — the export records of a file.
-/

import SourceOutline.Finding
import SourceOutline.Import
import SourceOutline.Text.Braces

set_option autoImplicit false

namespace SourceOutline

open Text Pattern

namespace Export

/-! ### The forms -/

/-- Declarations that end with a block. -/
inductive BlockKind where
  | function
  | classDecl
  deriving DecidableEq, Repr

/-- The keyword of a block. -/
def BlockKind.label : BlockKind → String
  | function => "function"
  | classDecl => "class"

/-- What the first words of a statement say. -/
inductive Form where
  /-- The statement ends here. -/
  | whole (kind : ExportKind) (items : List ExportedItem) (source : Option String)
  /-- The statement goes on to the closing brace of a block. -/
  | block (kind : ExportKind) (keyword : BlockKind) (item : ExportedItem)
  /-- The statement goes on to a semicolon or the end of the line. -/
  | line (kind : ExportKind) (item : ExportedItem)

/-- `export * from 'module'`, perhaps under one name -/
def allForm : Pattern Form := do
  word "export"
  blanks
  word "*"
  blanks
  let newName ← optional do
    word "as"
    gap
    let newName ← identifier
    gap
    return newName
  let source ← Import.fromModule
  let publicName := (newName.map fun name => String.ofList name.text).getD "*"
  return .whole .reExportAll [⟨publicName, "*"⟩] (some source)

/-- `export` and a list between braces, perhaps of another module -/
def namedForm : Pattern Form := do
  word "export"
  blanks
  let names ← braceList
  let source ← optional do
    blanks
    word "from"
    blanks
    literal
  optionalSemicolon
  let items := Specifier.exports names.text
  match source with
  | some source => return .whole .reExportNamed items (some (.ofList source.text))
  | none => return .whole .namedList items none

/-- Words that begin an expression and are no name. -/
def reservedWord : Pattern Unit := do
  word "function" <|> word "class" <|> word "new" <|> word "async"
  wordEdge

/-- `export default` and a name, which ends the line or is followed by a semicolon -/
def defaultNameForm : Pattern Form := do
  word "export"
  gap
  word "default"
  gap
  notAhead reservedWord
  let name ← dottedName
  padding
  word ";" <|> lineEnd
  return .whole .default [⟨"default", .ofList name.text⟩] none

/-- The keyword of a declaration; finds the kind of its block, if it has one. -/
def declarationKeyword : Pattern (Option BlockKind) :=
  (do
    word "const" <|> word "let" <|> word "var"
    return none) <|>
  (do
    word "function"
    return some .function) <|>
  (do
    word "class"
    return some .classDecl)

/-- What stands between a keyword and a name: blanks, or a star with or without blanks. -/
def starOrGap : Pattern Unit :=
  (do blanks; word "*"; blanks) <|> gap

/-- `export` and a declaration -/
def declarationForm : Pattern Form := do
  word "export"
  gap
  let _ ← optional do
    word "async"
    gap
  let keyword ← declarationKeyword
  starOrGap
  let name ← identifier
  let item : ExportedItem := ⟨.ofList name.text, .ofList name.text⟩
  match keyword with
  | some keyword => return .block .declaration keyword item
  | none => return .line .declaration item

/-- A function written in place, up to the parenthesis of its parameters. -/
def inlineFunction : Pattern Form := do
  let _ ← optional do
    word "async"
    gap
  word "function"
  wordEdge
  blanks
  let _ ← optional (word "*")
  blanks
  let name ← optional identifier
  blanks
  word "("
  let localName := (name.map fun name => String.ofList name.text).getD "anonymous_function"
  return .block .defaultExpression .function ⟨"default", localName⟩

/-- A class written in place, up to the brace of its body. -/
def inlineClass : Pattern Form := do
  word "class"
  wordEdge
  let name ← optional do
    gap
    identifier
  let _ ← optional do
    gap
    word "extends"
    gap
    oneOrMore fun c => isIdentPart c || c == '.'
  blanks
  word "\x7b"
  let localName := (name.map fun name => String.ofList name.text).getD "anonymous_class"
  return .block .defaultExpression .classDecl ⟨"default", localName⟩

/-- Any other expression: something follows that is neither blank nor a semicolon. -/
def inlineExpression : Pattern Form := do
  Pattern.edge fun _ next => next.any fun c => !isBlank c && c != ';'
  return .line .defaultExpression ⟨"default", "anonymous_expression"⟩

/-- `export default` and an expression -/
def defaultExpressionForm : Pattern Form := do
  word "export"
  gap
  word "default"
  gap
  inlineFunction <|> inlineClass <|> inlineExpression

/-- An export statement; the forms are tried in this order. -/
def statement : Pattern Form :=
  allForm <|> namedForm <|> defaultNameForm <|> declarationForm <|> defaultExpressionForm

/-! ### Where a statement ends -/

/-- The closing brace of the first block that opens at `start` or later. -/
def blockEnd? (text : List Char) (start : Nat) : Option Nat := do
  let ahead ← (text.drop start).findIdx? (· == '\x7b')
  closingBrace? text (start + ahead)

/-- The text of a statement that ends with a semicolon, which is included, or with its line. -/
def lineStatement : List Char → List Char
  | [] => []
  | c :: rest =>
    if c == '\n' then [] else if c == ';' then [c] else c :: lineStatement rest

/-- The record of a statement that begins at `offset` and covers `covered`. -/
def edge (file : SourceFile) (offset : Nat) (covered : List Char) (kind : ExportKind)
    (items : List ExportedItem) (source : Option String) : ExportEdge :=
  let raw := trimRight covered
  { raw := .ofList raw
    kind := kind
    items := items
    path := file.path
    extent := file.extent offset (offset + raw.length - 1)
    span := ⟨offset, offset + raw.length⟩
    source := source }

/-- What a statement at `offset` gives, whose first words end at `stop` and cover `covered`.  A
block that never closes ends the statement with its first words. -/
def findings (file : SourceFile) (offset stop : Nat) (covered : List Char) :
    Form → List (Finding ExportEdge)
  | .whole kind items source => [.record (edge file offset covered kind items source)]
  | .line kind item =>
    let text := lineStatement (file.text.drop offset)
    [.record (edge file offset text kind [item] none)]
  | .block kind keyword item =>
    match blockEnd? file.text (stop - 1) with
    | some close =>
      let text := range file.text offset (close + 1)
      [.record (edge file offset text kind [item] none)]
    | none =>
      [.warning (.headerOnly file.path ⟨keyword.label, item.localName, file.lineOf offset⟩),
        .record (edge file offset covered kind [item] none)]

end Export

/-- What the export statements of a file give, in order. -/
def SourceFile.exportFindings (file : SourceFile) : List (Finding ExportEdge) :=
  (findAll (keywordAtLineStart "export") file.text).flatMap fun find =>
    match Export.statement.first? find.value with
    | some (form, stop) =>
      let covered : Capture := ⟨find.value, stop⟩
      Export.findings file (find.offsetOf find.value) (find.offsetOf stop) covered.text form
    | none => []

/-- The export statements of a file, in order. -/
def SourceFile.exports (file : SourceFile) : List ExportEdge :=
  Finding.records file.exportFindings

end SourceOutline
