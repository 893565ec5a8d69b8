/-
**Declarations as they are written.**

Classes with their methods, and functions, each written at the head of a line: a head that ends with
an opening brace, the body in lines of its own, and a closing brace that fills the last line.  A name
may be any identifier, also one that is a keyword elsewhere; only a method is not called like a
statement.  What may stand in a body is restricted by its braces, its comments and the first words of
its lines.

Main definitions:

* `Printed.Parameters`, `Printed.Body` — parameters and bodies;
* `Printed.Method`, `Printed.ClassDeclaration`, `Printed.FunctionDeclaration` — declarations, with
  their `head` and their `text`;
* `Printed.TopLevel`, `Printed.program` — a class or a function, and a list of them as one text;
* `Printed.Method.element`, … — the record that a declaration should give.

Main results:

* `Printed.IsHead` and its lemmas — a head is a line that ends with the brace it opens;
* `Printed.closingBrace?_code` — a declaration ends with the brace of its body;
* `Printed.calm_text` — nothing but its head can be found in a declaration.
-/

import SourceOutline.Proofs.Balance
import SourceOutline.Proofs.Heads

set_option autoImplicit false

namespace SourceOutline.Printed

open Text Pattern

/-! ### Parts of declarations -/

/-- What stands between the parentheses of a head: text in one line without braces, closing
parentheses and slashes. -/
structure Parameters where
  text : List Char
  marks_not_mem : ∀ mark ∈ [')', '\x7b', '\x7d', '\n', '/'], mark ∉ text

/-- A body: its braces balance, no block comment opens in it, and none of its lines begins with a
word of declarations. -/
structure Body where
  text : List Char
  balanced : Balanced text
  blockComment_not_infix : ¬ ['/', '*'] <:+: text
  firstWord_not_mem : ∀ line ∈ splitOn '\n' text, firstWord line ∉ declarationWords

/-- A keyword with a space behind it, or nothing. -/
def keywordText (keyword : String) (present : Bool) : List Char :=
  if present then keyword.toList ++ [' '] else []

/-- Parameters between parentheses, and the brace that opens the body. -/
def Parameters.list (p : Parameters) : List Char :=
  "(".toList ++ (p.text ++ (")".toList ++ ([' '] ++ "\x7b".toList)))

/-- A head and a body between braces; the body has its own lines. -/
def block (head body : List Char) : List Char :=
  head ++ '\n' :: (body ++ ['\n', '\x7d'])

/-! ### Methods -/

/-- A method. -/
structure Method where
  isStatic : Bool
  modifier : Option Declaration.Modifier
  isGenerator : Bool
  name : Name
  parameters : Parameters
  body : Body
  not_isControlWord : Declaration.isControlWord (.ofList name.text) = false

/-- A modifier with a space behind it, or nothing. -/
def modifierText (modifier : Option Declaration.Modifier) : List Char :=
  modifier.elim [] fun m => m.label.toList ++ [' ']

/-- The star of a generator, or nothing. -/
def generatorText (isGenerator : Bool) : List Char :=
  if isGenerator then ['*'] else []

namespace Method

/-- The head of a method behind its words, as in `*name(⋯) {`. -/
def tail (m : Method) : List Char :=
  generatorText m.isGenerator ++ (m.name.text ++ m.parameters.list)

/-- The head of a method, as in `static async *name(⋯) {`. -/
def head (m : Method) : List Char :=
  keywordText "static" m.isStatic ++ (modifierText m.modifier ++ m.tail)

/-- The method without the line feed behind it. -/
def code (m : Method) : List Char :=
  block m.head m.body.text

/-- The method as it is written. -/
def text (m : Method) : List Char :=
  m.code ++ ['\n']

/-- The head in one line, without the star and with single spaces among the parameters. -/
def signature (m : Method) : String :=
  (if m.isStatic then "static " else "") ++ (m.modifier.elim "" fun x => x.label ++ " ") ++
    .ofList m.name.text ++ "(" ++ .ofList (collapse m.parameters.text) ++ ")"

/-- The record of a method that begins at `offset` in line `line`. -/
def element (path className : String) (offset line : Nat) (m : Method) : Element :=
  { kind := .method
    name := .ofList m.name.text
    path := path
    signature := m.signature
    snippet := .ofList m.code
    extent := ⟨line, line + m.code.count '\n'⟩
    span := ⟨offset, offset + m.code.length⟩
    summary := none
    className := some className }

end Method

/-! ### Classes -/

/-- The class that another one extends: names with points between them. -/
structure Base where
  first : Name
  more : List Name

/-- The names with their points. -/
def Base.text (base : Base) : List Char :=
  base.first.text ++ base.more.flatMap fun name => '.' :: name.text

/-- A class with its methods. -/
structure ClassDeclaration where
  name : Name
  base : Option Base
  methods : List Method

/-- What a class extends, or nothing. -/
def baseText (base : Option Base) : List Char :=
  base.elim [] fun b => "extends".toList ++ ([' '] ++ (b.text ++ [' ']))

/-- What the items `s` of a text give where they stand: `give offset line s` says what one gives
that begins at `offset` in line `line`. -/
def along {σ β : Type} (text : σ → List Char) (give : Nat → Nat → σ → List β) :
    (offset line : Nat) → List σ → List β
  | _, _, [] => []
  | offset, line, s :: more =>
    give offset line s ++
      along text give (offset + (text s).length) (line + (text s).count '\n') more

namespace ClassDeclaration

/-- The head of a class, as in `class Name extends a.Base {`. -/
def head (c : ClassDeclaration) : List Char :=
  "class".toList ++ ([' '] ++ (c.name.text ++ ([' '] ++ (baseText c.base ++ "\x7b".toList))))

/-- The methods, one behind the other. -/
def body (c : ClassDeclaration) : List Char :=
  c.methods.flatMap Method.text

/-- The class without the line feed behind it. -/
def code (c : ClassDeclaration) : List Char :=
  block c.head c.body

/-- The class as it is written. -/
def text (c : ClassDeclaration) : List Char :=
  c.code ++ ['\n']

/-- The record of a class that begins at `offset` in line `line`. -/
def element (path : String) (offset line : Nat) (c : ClassDeclaration) : Element :=
  { kind := .classDecl
    name := .ofList c.name.text
    path := path
    signature := "class " ++ .ofList c.name.text ++ " \x7b ... \x7d"
    snippet := .ofList c.code
    extent := ⟨line, line + c.code.count '\n'⟩
    span := ⟨offset, offset + c.code.length⟩
    summary := none
    className := none }

/-- The records of the methods of a class. -/
def methodElements (path : String) (offset line : Nat) (c : ClassDeclaration) : List Element :=
  along Method.text (fun o l m => [m.element path (.ofList c.name.text) o l])
    (offset + c.head.length + 1) (line + 1) c.methods

end ClassDeclaration

/-! ### Functions -/

/-- A function. -/
structure FunctionDeclaration where
  isExported : Bool
  isAsync : Bool
  isGenerator : Bool
  name : Name
  parameters : Parameters
  body : Body

namespace FunctionDeclaration

/-- The words of a function's head, up to its name. -/
def words (f : FunctionDeclaration) : List Char :=
  keywordText "async" f.isAsync ++ ("function".toList ++ ((generatorText f.isGenerator ++ [' ']) ++
    f.name.text))

/-- The head of a function, as in `export async function* name(⋯) {`. -/
def head (f : FunctionDeclaration) : List Char :=
  keywordText "export" f.isExported ++ (f.words ++ f.parameters.list)

/-- The function without the line feed behind it. -/
def code (f : FunctionDeclaration) : List Char :=
  block f.head f.body.text

/-- The function as it is written. -/
def text (f : FunctionDeclaration) : List Char :=
  f.code ++ ['\n']

/-- The record of a function that begins at `offset` in line `line`. -/
def element (path : String) (offset line : Nat) (f : FunctionDeclaration) : Element :=
  { kind := .function
    name := .ofList f.name.text
    path := path
    signature := "function " ++ .ofList f.name.text ++ "(" ++
      .ofList (collapse f.parameters.text) ++ ")"
    snippet := .ofList f.code
    extent := ⟨line, line + f.code.count '\n'⟩
    span := ⟨offset, offset + f.code.length⟩
    summary := none
    className := none }

end FunctionDeclaration

/-! ### Programs -/

/-- A declaration of a program. -/
inductive TopLevel where
  | classDecl (c : ClassDeclaration)
  | function (f : FunctionDeclaration)

namespace TopLevel

/-- The declaration as it is written. -/
def text : TopLevel → List Char
  | classDecl c => c.text
  | function f => f.text

/-- The records of a class and its methods; a function has none of them. -/
def classElements (path : String) (offset line : Nat) : TopLevel → List Element
  | classDecl c => c.element path offset line :: c.methodElements path offset line
  | function _ => []

/-- The record of a function; a class has none. -/
def functionElements (path : String) (offset line : Nat) : TopLevel → List Element
  | classDecl _ => []
  | function f => [f.element path offset line]

end TopLevel

/-- Declarations one behind the other. -/
def program (declarations : List TopLevel) : List Char :=
  declarations.flatMap TopLevel.text

/-! ### Heads -/

/-- The marks that no head holds before its last character. -/
def headMarks : List Char :=
  ['\x7b', '\x7d', '\n', '/']

/-- None of these marks stands in the text. -/
def NoMarks (s : List Char) : Prop :=
  ∀ mark ∈ headMarks, mark ∉ s

/-- A head ends with an opening brace and holds no other brace, no line feed and no slash. -/
def IsHead (head : List Char) : Prop :=
  ∃ front, head = front ++ ['\x7b'] ∧ NoMarks front

theorem NoMarks.append {s t : List Char} (hs : NoMarks s) (ht : NoMarks t) : NoMarks (s ++ t) := by
  intro mark hmark hmem
  rcases List.mem_append.1 hmem with hmem | hmem
  · exact hs mark hmark hmem
  · exact ht mark hmark hmem

/-- Of a given text it can be decided. -/
theorem noMarks_of_all {s : List Char} (h : s.all (fun c => !headMarks.contains c) = true) :
    NoMarks s := by
  intro mark hmark hmem
  have := List.all_eq_true.1 h mark hmem
  simp [hmark] at this

theorem IsHead.append {s head : List Char} (hs : NoMarks s) (h : IsHead head) :
    IsHead (s ++ head) := by
  obtain ⟨front, rfl, hfront⟩ := h
  exact ⟨s ++ front, by rw [List.append_assoc], hs.append hfront⟩

theorem Name.noMarks (name : Name) : NoMarks name.text := by
  have hparts : ∀ mark ∈ headMarks, (!isIdentPart mark) = true := List.all_eq_true.1 (by decide)
  intro mark hmark
  exact not_mem_of_isIdent name.isIdent_text (by simpa using hparts mark hmark)

theorem noMarks_keywordText {keyword : String} {present : Bool}
    (h : keyword.toList.all (fun c => !headMarks.contains c) = true) :
    NoMarks (keywordText keyword present) := by
  cases present with
  | true => exact (noMarks_of_all h).append (noMarks_of_all (by decide))
  | false => exact noMarks_of_all rfl

theorem noMarks_generatorText (isGenerator : Bool) : NoMarks (generatorText isGenerator) := by
  refine noMarks_of_all ?_
  cases isGenerator <;> decide

theorem noMarks_modifierText (modifier : Option Declaration.Modifier) :
    NoMarks (modifierText modifier) := by
  refine noMarks_of_all ?_
  cases modifier with
  | none => rfl
  | some modifier => cases modifier <;> decide

theorem noMarks_baseText (base : Option Base) : NoMarks (baseText base) := by
  have hspace : NoMarks [' '] := noMarks_of_all (by decide)
  have hpoint : NoMarks ['.'] := noMarks_of_all (by decide)
  cases base with
  | none => exact noMarks_of_all rfl
  | some base =>
      have hmore : NoMarks (base.more.flatMap fun name => '.' :: name.text) := by
        intro mark hmark hmem
        obtain ⟨name, -, hmem⟩ := List.mem_flatMap.1 hmem
        exact hpoint.append name.noMarks mark hmark hmem
      exact (noMarks_of_all (by decide)).append
        (hspace.append ((base.first.noMarks.append hmore).append hspace))

theorem Parameters.isHead_list (p : Parameters) : IsHead p.list := by
  have htext : NoMarks p.text := fun mark hmark =>
    p.marks_not_mem mark (List.mem_cons_of_mem ')' hmark)
  refine IsHead.append (noMarks_of_all (by decide)) (IsHead.append htext ?_)
  exact IsHead.append (noMarks_of_all (by decide)) ⟨[' '], rfl, noMarks_of_all (by decide)⟩

theorem Method.isHead_head (m : Method) : IsHead m.head :=
  IsHead.append (noMarks_keywordText (by decide)) (IsHead.append (noMarks_modifierText _)
    (IsHead.append (noMarks_generatorText _) (IsHead.append m.name.noMarks m.parameters.isHead_list)))

theorem FunctionDeclaration.isHead_head (f : FunctionDeclaration) : IsHead f.head := by
  have hspace : NoMarks (generatorText f.isGenerator ++ [' ']) :=
    (noMarks_generatorText _).append (noMarks_of_all (by decide))
  have hwords : NoMarks f.words :=
    (noMarks_keywordText (by decide)).append
      ((noMarks_of_all (by decide)).append (hspace.append f.name.noMarks))
  exact IsHead.append (noMarks_keywordText (by decide))
    (IsHead.append hwords f.parameters.isHead_list)

theorem ClassDeclaration.isHead_head (c : ClassDeclaration) : IsHead c.head := by
  have hspace : NoMarks [' '] := noMarks_of_all (by decide)
  refine IsHead.append (noMarks_of_all (by decide)) (IsHead.append hspace ?_)
  refine IsHead.append c.name.noMarks (IsHead.append hspace ?_)
  exact IsHead.append (noMarks_baseText _) ⟨[], rfl, noMarks_of_all rfl⟩

/-! ### Bodies between braces -/

/-- What follows a head: the body in lines of its own, the closing brace and a line feed. -/
def closing (body : List Char) : List Char :=
  '\n' :: (body ++ ['\n', '\x7d', '\n'])

theorem block_append (head body : List Char) : block head body ++ ['\n'] = head ++ closing body := by
  simp [block, closing]

theorem length_block (head body : List Char) :
    (block head body).length = head.length + body.length + 3 := by
  simp only [block, List.length_append, List.length_cons, List.length_nil]
  omega

theorem getLast?_closing (body : List Char) : (closing body).getLast? = some '\n' := by
  simp [closing, List.getLast?_cons, List.getLast?_append]

/-- A body within its lines is balanced if the body is. -/
theorem balanced_lines {body : List Char} (h : Balanced body) :
    Balanced ('\n' :: (body ++ ['\n'])) :=
  (balanced_of_not_mem (by simp) (by simp) : Balanced ['\n']).append
    (h.append (balanced_of_not_mem (by simp) (by simp)))

theorem IsHead.balanced {head body : List Char} (h : IsHead head) (hbody : Balanced body) :
    Balanced (head ++ closing body) := by
  obtain ⟨front, rfl, hfront⟩ := h
  have hfront' : Balanced front :=
    balanced_of_not_mem (hfront _ (by simp [headMarks])) (hfront _ (by simp [headMarks]))
  have hline : Balanced ['\n'] := balanced_of_not_mem (by simp) (by simp)
  have := hfront'.append ((balanced_lines hbody).block.append hline)
  simpa [closing] using this

/-- A declaration ends with the brace that closes its body. -/
theorem closingBrace?_code {head body : List Char} (hhead : IsHead head) (hbody : Balanced body)
    (pre t : List Char) :
    closingBrace? (pre ++ (head ++ closing body ++ t)) (pre.length + head.length - 1) =
      some (pre.length + (block head body).length - 1) := by
  obtain ⟨front, rfl, -⟩ := hhead
  have hclose := closingBrace?_block (balanced_lines hbody) (pre ++ front) ('\n' :: t)
  have htext : pre ++ (front ++ ['\x7b'] ++ closing body ++ t) =
      (pre ++ front) ++ '\x7b' :: ('\n' :: (body ++ ['\n']) ++ '\x7d' :: '\n' :: t) := by
    simp [closing]
  have hstart : pre.length + (front ++ ['\x7b']).length - 1 = (pre ++ front).length := by
    simp only [List.length_append, List.length_singleton]
    omega
  rw [htext, hstart, hclose, length_block]
  simp only [List.length_append, List.length_cons, List.length_nil]
  congr 1
  omega

/-- The first block that opens behind the words of a head is the body. -/
theorem blockEnd?_code {words marks body : List Char} (hwords : words ≠ []) (hmarks : marks ≠ [])
    (hhead : IsHead (words ++ marks)) (hbody : Balanced body) (pre t : List Char) :
    Export.blockEnd? (pre ++ (words ++ (marks ++ (closing body ++ t))))
        (pre.length + words.length - 1) =
      some (pre.length + (block (words ++ marks) body).length - 1) := by
  obtain ⟨front, hfront, hmarksFront⟩ := hhead
  obtain ⟨words, x, rfl⟩ := (List.eq_nil_or_concat' words).resolve_left hwords
  obtain ⟨marks, y, rfl⟩ := (List.eq_nil_or_concat' marks).resolve_left hmarks
  rw [← List.append_assoc] at hfront
  obtain ⟨rfl, hy⟩ := List.append_inj' hfront rfl
  obtain rfl : y = '\x7b' := by simpa using hy
  have hopen : '\x7b' ∉ x :: marks := fun h =>
    hmarksFront '\x7b' (by simp [headMarks]) (by simpa using List.mem_append_right words h)
  have hclose := Export.blockEnd?_block hopen (balanced_lines hbody) (pre ++ words) ('\n' :: t)
  have htext : pre ++ (words ++ [x] ++ (marks ++ ['\x7b'] ++ (closing body ++ t))) =
      (pre ++ words) ++
        (x :: marks ++ '\x7b' :: ('\n' :: (body ++ ['\n']) ++ '\x7d' :: '\n' :: t)) := by
    simp [closing]
  have hstart : pre.length + (words ++ [x]).length - 1 = (pre ++ words).length := by
    simp only [List.length_append, List.length_singleton]
    omega
  rw [htext, hstart, hclose, length_block]
  simp only [List.length_append, List.length_cons, List.length_nil]
  congr 1
  omega

theorem ClassDeclaration.balanced_body (c : ClassDeclaration) : Balanced c.body := by
  rw [body]
  induction c.methods with
  | nil => exact balanced_of_not_mem List.not_mem_nil List.not_mem_nil
  | cons m more ih =>
      rw [List.flatMap_cons, Method.text, Method.code, block_append]
      exact (m.isHead_head.balanced m.body.balanced).append ih

theorem Method.text_eq (m : Method) : m.text = m.head ++ closing m.body.text :=
  block_append _ _

theorem ClassDeclaration.text_eq (c : ClassDeclaration) : c.text = c.head ++ closing c.body :=
  block_append _ _

theorem FunctionDeclaration.text_eq (f : FunctionDeclaration) :
    f.text = f.head ++ closing f.body.text :=
  block_append _ _

/-! ### Calm declarations -/

section
variable {Q : List Char → Prop}

theorem endsPlain_append_closing (head body : List Char) : EndsPlain (head ++ closing body) := by
  refine ⟨head ++ '\n' :: (body ++ ['\n']), ['\x7d'], by simp [closing], by simp, by simp, ?_⟩
  simp [List.getLast?_append, List.getLast?_cons]

/-- What follows a head is calm if the lines of the body are. -/
theorem calm_closing (hQ : ∀ r, firstWord r ∉ declarationWords → Q r) {body t : List Char}
    (hbody : ∀ u, Calm Q (some '\n') (body ++ ['\n']) u) :
    Calm Q (some '\x7b') (closing body) t := by
  have hclosing : closing body = '\n' :: ((body ++ ['\n']) ++ ['\x7d', '\n']) := by simp [closing]
  rw [hclosing]
  refine calm_newline_cons (fun h => absurd h (by decide)) (calm_append_iff.2 ⟨hbody _, ?_⟩)
  rw [List.getLast?_concat]
  -- the closing brace has a line of its own
  refine calm_append_iff (s := ['\x7d']).2 ⟨calm_of_not_mem (by simp) (by simp) fun _ => hQ _ ?_,
    calm_newline_cons (fun h => absurd h (by decide)) trivial⟩
  rw [List.cons_append, firstWord_cons (by decide) (by decide)]
  exact nil_not_mem_declarationWords

/-- A whole declaration is calm if its head is no head that is looked for. -/
theorem calm_text (hQ : ∀ r, firstWord r ∉ declarationWords → Q r) {head body t : List Char}
    (hhead : IsHead head) (hbody : ∀ u, Calm Q (some '\n') (body ++ ['\n']) u)
    (h : Q (head ++ (closing body ++ t))) (before : Option Char) :
    Calm Q before (head ++ closing body) t := by
  obtain ⟨front, rfl, hfront⟩ := hhead
  have hline : '\n' ∉ front ++ ['\x7b'] := by simpa using hfront '\n' (by simp [headMarks])
  have hslash : '/' ∉ front ++ ['\x7b'] := by simpa using hfront '/' (by simp [headMarks])
  refine calm_append_iff.2 ⟨calm_of_not_mem hline hslash fun _ => h, ?_⟩
  rw [List.getLast?_concat]
  exact calm_closing hQ hbody

theorem Body.calm (hQ : ∀ r, firstWord r ∉ declarationWords → Q r) (b : Body) (u : List Char) :
    Calm Q (some '\n') (b.text ++ ['\n']) u :=
  calm_lines hQ b.text u b.blockComment_not_infix b.firstWord_not_mem

/-- The methods of a class are calm if none of their heads is a head that is looked for. -/
theorem ClassDeclaration.calm_body (hQ : ∀ r, firstWord r ∉ declarationWords → Q r)
    (hmethod : ∀ (m : Method) u, Q (m.head ++ u)) (c : ClassDeclaration) (u : List Char) :
    Calm Q (some '\n') (c.body ++ ['\n']) u := by
  rw [body]
  induction c.methods with
  | nil =>
      refine calm_newline_cons (fun _ => hQ _ ?_) trivial
      rw [firstWord_cons (by decide) (by decide)]
      exact nil_not_mem_declarationWords
  | cons m more ih =>
      have hlast : (m.head ++ closing m.body.text).getLast?.or (some '\n') = some '\n' := by
        rw [List.getLast?_append, getLast?_closing]
        rfl
      rw [List.flatMap_cons, m.text_eq, List.append_assoc]
      refine calm_append_iff.2 ⟨calm_text hQ m.isHead_head (m.body.calm hQ) (hmethod m _) _, ?_⟩
      rw [hlast]
      exact ih

end

end SourceOutline.Printed
