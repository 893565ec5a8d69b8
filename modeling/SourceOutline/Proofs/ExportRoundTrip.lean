/-
**Export statements are read back.**

Five forms of export statements, each with one space between its words and a semicolon at its end:
all exports of a module, perhaps under one name, a list between braces, perhaps of another module,
and a variable with its value.  The forms are told apart by what follows the keyword.  A list may be
followed by `from` in a later line, but not across the semicolon; the end of a variable's value is
found by a search of its own.  A page of such statements is read back statement by statement, and
nothing is reported.

Main definitions:

* `Printed.ExportStatement`, `Printed.ExportStatement.text` — statements, and their text;
* `Printed.ExportStatement.edge` — the record that a statement should give.

Main results:

* `Printed.takes_exportStatement` — the pattern of statements takes the first words of each;
* `Printed.exportFindings_page` — what a page gives;
* `Printed.exports_page` — **a page of export statements is read back**, without warnings.
-/

import SourceOutline.Proofs.ImportRoundTrip

set_option autoImplicit false

namespace SourceOutline.Printed

open Text Pattern

/-! ### Statements -/

/-- The keywords that declare variables. -/
inductive VariableKeyword where
  | constKeyword
  | letKeyword
  | varKeyword
  deriving DecidableEq, Repr

/-- The word of a keyword. -/
def VariableKeyword.label : VariableKeyword → String
  | constKeyword => "const"
  | letKeyword => "let"
  | varKeyword => "var"

/-- The value of a variable: any text in one line, up to a semicolon. -/
structure Value where
  text : List Char
  semicolon_not_mem : ';' ∉ text
  newline_not_mem : '\n' ∉ text

/-- An export statement. -/
inductive ExportStatement where
  /-- `export * from 'm';` -/
  | all (source : ModuleName)
  /-- `export * as x from 'm';` -/
  | allAs (name : Name) (source : ModuleName)
  /-- `export { ⋯ };` -/
  | list (entries : List Entry)
  /-- `export { ⋯ } from 'm';` -/
  | listFrom (entries : List Entry) (source : ModuleName)
  /-- `export const x = ⋯;` -/
  | declared (keyword : VariableKeyword) (name : Name) (value : Value)

namespace ExportStatement

/-- The words that tell the form of the statement, behind the keyword and a space. -/
def body : ExportStatement → List Char
  | all source => "*".toList ++ ([' '] ++ fromText source true)
  | allAs name source =>
    "*".toList ++ ([' '] ++ (("as".toList ++ ([' '] ++ (name.text ++ [' ']))) ++
      fromText source true))
  | list entries => braces entries ++ ending true
  | listFrom entries source =>
    braces entries ++ (([' '] ++ ("from".toList ++ ([' '] ++ source.text))) ++ ending true)
  | declared keyword name _ => keyword.label.toList ++ ([' '] ++ name.text)

/-- What the statement goes on with. -/
def rest : ExportStatement → List Char
  | declared _ _ value => " = ".toList ++ (value.text ++ [';'])
  | _ => []

/-- The words that the pattern of statements takes. -/
def front (s : ExportStatement) : List Char :=
  "export".toList ++ ([' '] ++ s.body)

/-- The statement as it is written. -/
def text (s : ExportStatement) : List Char :=
  s.front ++ s.rest

/-- The form of a statement. -/
def kind : ExportStatement → ExportKind
  | all _ | allAs _ _ => .reExportAll
  | list _ => .namedList
  | listFrom _ _ => .reExportNamed
  | declared _ _ _ => .declaration

/-- The names that a statement makes public, in the order in which they are written. -/
def items : ExportStatement → List ExportedItem
  | all _ => [⟨"*", "*"⟩]
  | allAs name _ => [⟨.ofList name.text, "*"⟩]
  | list entries | listFrom entries _ =>
    entries.map fun entry => ⟨.ofList entry.names.2, .ofList entry.names.1⟩
  | declared _ name _ => [⟨.ofList name.text, .ofList name.text⟩]

/-- The module whose exports a statement passes on. -/
def source? : ExportStatement → Option String
  | all source | allAs _ source | listFrom _ source => some (.ofList source.content)
  | list _ | declared _ _ _ => none

/-- What the first words of a statement say. -/
def form : ExportStatement → Export.Form
  | declared _ name _ => .line .declaration ⟨.ofList name.text, .ofList name.text⟩
  | s => .whole s.kind s.items s.source?

/-- The record of a statement that begins at `offset` and is all of the line `line`. -/
def edge (path : String) (offset line : Nat) (s : ExportStatement) : ExportEdge :=
  { raw := .ofList s.text
    kind := s.kind
    items := s.items
    path := path
    extent := ⟨line, line⟩
    span := ⟨offset, offset + s.text.length⟩
    source := s.source? }

theorem front_eq (s : ExportStatement) : s.front = "export".toList ++ ([' '] ++ s.body) := rfl

theorem front_append (s : ExportStatement) (t : List Char) :
    s.front ++ t = "export".toList ++ ' ' :: (s.body ++ t) := by
  simp [front_eq]

end ExportStatement

/-! ### The forms take their statements -/

theorem exports_entryList (entries : List Entry) :
    Specifier.exports (entryList entries) =
      entries.map fun entry => ⟨.ofList entry.names.2, .ofList entry.names.1⟩ := by
  simp [Specifier.exports, entries_entryList]

section
variable {t : List Char}

/-- `export *` and a module; the name may be absent. -/
theorem takes_allForm {name : List Char} {newName : Option (List Char)} (source : ModuleName)
    (ht : Stops (· != '\n') t) (hblank : ∀ u, Stops isBlank (name ++ ('f' :: u)))
    (hname : ∀ u, Takes
      (optional do
        word "as"
        gap
        let newName ← identifier
        gap
        return newName)
      name ('f' :: u) (fun found => found.map Capture.text = newName)) :
    Takes Export.allForm
      ("export".toList ++ ([' '] ++ ("*".toList ++ ([' '] ++ (name ++ fromText source true))))) t
      (· = .whole .reExportAll [⟨(newName.map String.ofList).getD "*", "*"⟩]
        (some (.ofList source.content))) := by
  have hfrom : ∀ u, fromText source true ++ u = 'f' :: ((fromText source true).tail ++ u) := by
    intro u
    simp [fromText_eq]
  refine (takes_word _ _).bind fun _ _ => ?_
  refine (takes_blanks_space (by simp [isBlank])).bind fun _ _ => ?_
  refine (takes_word _ _).bind fun _ _ => ?_
  refine (takes_blanks_space ?_).bind fun _ _ => ?_
  · rw [List.append_assoc, hfrom]
    exact hblank _
  refine Takes.bind (by rw [hfrom]; exact hname _) fun found hfound => ?_
  refine (takes_fromModule source true ht).map fun _ h => ?_
  rw [h, ← hfound, Option.map_map]
  rfl

theorem takes_allName_none (u : List Char) :
    Takes
      (optional do
        word "as"
        gap
        let newName ← identifier
        gap
        return newName)
      [] ('f' :: u) (fun found => found.map Capture.text = none) := by
  have hrefuses : Refuses (do word "as"; gap; let newName ← identifier; gap; return newName)
      ('f' :: u) := (refuses_word_of_head 'a' rfl (by simp)).bind
  exact hrefuses.optional.mono fun found h => by rw [h, Option.map_none]

theorem takes_allName_some (name : Name) (u : List Char) :
    Takes
      (optional do
        word "as"
        gap
        let newName ← identifier
        gap
        return newName)
      ("as".toList ++ ([' '] ++ (name.text ++ [' ']))) ('f' :: u)
      (fun found => found.map Capture.text = some name.text) := by
  have htakes : Takes (do word "as"; gap; let newName ← identifier; gap; return newName)
      ("as".toList ++ ([' '] ++ (name.text ++ [' ']))) ('f' :: u) (·.text = name.text) := by
    refine (takes_word _ _).bind fun _ _ => ?_
    refine (takes_gap_space ?_).bind fun _ _ => ?_
    · rw [List.append_assoc]
      exact stops_isBlank_of_isIdent name.isIdent_text _
    refine (takes_identifier name.isIdent_text (stops_isIdentPart_space _)).bind
      fun capture hcapture => ?_
    exact (takes_gap_space (by simp [isBlank])).map fun _ _ => hcapture
  refine htakes.optional.mono ?_
  rintro _ ⟨capture, rfl, hcapture⟩
  rw [Option.map_some, hcapture]

/-- A list that a semicolon follows is of this file. -/
theorem takes_namedForm_here (entries : List Entry) (ht : Stops (· != '\n') t) :
    Takes Export.namedForm ("export".toList ++ ([' '] ++ (braces entries ++ ending true))) t
      (· = .whole .namedList (ExportStatement.items (.list entries)) none) := by
  refine (takes_word _ _).bind fun _ _ => ?_
  refine (takes_blanks_space (by simp [braces, isBlank])).bind fun _ _ => ?_
  refine (takes_braces entries _).bind fun capture hcapture => ?_
  have hrefuses : Refuses (do blanks; word "from"; blanks; literal) (ending true ++ t) :=
    refuses_blanks_bind_nil (by simp [ending, isBlank])
      (refuses_word_of_head 'f' rfl (by simp [ending])).bind
  refine hrefuses.optional.bind_nil ?_
  rintro _ rfl
  refine (takes_optionalSemicolon true ht).map fun _ _ => ?_
  rw [hcapture, exports_entryList]
  rfl

theorem takes_namedForm_from (entries : List Entry) (source : ModuleName)
    (ht : Stops (· != '\n') t) :
    Takes Export.namedForm
      ("export".toList ++ ([' '] ++ (braces entries ++
        (([' '] ++ ("from".toList ++ ([' '] ++ source.text))) ++ ending true)))) t
      (· = .whole .reExportNamed (ExportStatement.items (.list entries))
        (some (.ofList source.content))) := by
  refine (takes_word _ _).bind fun _ _ => ?_
  refine (takes_blanks_space (by simp [braces, isBlank])).bind fun _ _ => ?_
  refine (takes_braces entries _).bind fun capture hcapture => ?_
  have hsource : Takes (do blanks; word "from"; blanks; literal)
      ([' '] ++ ("from".toList ++ ([' '] ++ source.text))) (ending true ++ t)
      (·.text = source.content) := by
    refine (takes_blanks_space (by simp [isBlank])).bind fun _ _ => ?_
    refine (takes_word _ _).bind fun _ _ => ?_
    refine (takes_blanks_space (source.stops_isBlank_text _)).bind fun _ _ => ?_
    exact source.takes_text _
  refine hsource.optional.bind ?_
  rintro _ ⟨literal, rfl, hliteral⟩
  refine (takes_optionalSemicolon true ht).map fun _ _ => ?_
  rw [hcapture, hliteral, exports_entryList]
  rfl

theorem takes_declarationKeyword (keyword : VariableKeyword) :
    Takes Export.declarationKeyword keyword.label.toList t (· = none) := by
  have hword : Takes (word "const" <|> word "let" <|> word "var") keyword.label.toList t
      fun _ => True := by
    cases keyword with
    | constKeyword => exact Takes.orElse_left (takes_word _ _)
    | letKeyword =>
        exact Takes.orElse_right (refuses_word_of_head 'c' rfl (by simp [VariableKeyword.label]))
          (Takes.orElse_left (takes_word _ _))
    | varKeyword =>
        exact Takes.orElse_right (refuses_word_of_head 'c' rfl (by simp [VariableKeyword.label]))
          (Takes.orElse_right (refuses_word_of_head 'l' rfl (by simp [VariableKeyword.label]))
            (takes_word _ _))
  exact Takes.orElse_left (hword.map fun _ _ => rfl)

theorem takes_declarationKeyword_block (kind : Export.BlockKind) :
    Takes Export.declarationKeyword kind.label.toList t (· = some kind) := by
  have hvariable : Refuses (word "const" <|> word "let" <|> word "var")
      (kind.label.toList ++ t) := by
    cases kind <;> exact (refuses_word (by simp [Export.BlockKind.label])).orElse
      ((refuses_word (by simp [Export.BlockKind.label])).orElse
        (refuses_word (by simp [Export.BlockKind.label])))
  refine Takes.orElse_right hvariable.bind ?_
  cases kind with
  | function => exact Takes.orElse_left ((takes_word _ _).map fun _ _ => rfl)
  | classDecl =>
      exact Takes.orElse_right (refuses_word (by simp [Export.BlockKind.label])).bind
        ((takes_word _ _).map fun _ _ => rfl)

/-- Between a keyword and a name stands one space and no star. -/
theorem takes_starOrGap_space {name : List Char} (hname : isIdent name = true) :
    Takes Export.starOrGap [' '] (name ++ t) fun _ => True := by
  have hblank := stops_isBlank_of_isIdent hname t
  have hstar : Stops (· == '*') (name ++ t) := by
    obtain ⟨c, more, rfl, hc, -⟩ := isIdent_iff.1 hname
    have hne : c ≠ '*' := ne_of_isIdentPart (isIdentPart_of_isIdentStart hc) (by decide)
    simpa using hne
  refine Takes.orElse_right ?_ (takes_gap_space hblank)
  exact refuses_blanks_bind_space hblank (refuses_word_of_head '*' rfl (by simp)).bind
    (refuses_word_of_head '*' rfl hstar).bind

theorem takes_declarationForm (keyword : VariableKeyword) (name : Name)
    (ht : Stops isIdentPart t) :
    Takes Export.declarationForm
      ("export".toList ++ ([' '] ++ (keyword.label.toList ++ ([' '] ++ name.text)))) t
      (· = .line .declaration ⟨.ofList name.text, .ofList name.text⟩) := by
  have hlabel : ∀ u, Stops isBlank (keyword.label.toList ++ u) ∧
      Stops (· == 'a') (keyword.label.toList ++ u) := by
    intro u
    cases keyword <;> simp [VariableKeyword.label, isBlank]
  refine (takes_word _ _).bind fun _ _ => ?_
  refine (takes_gap_space ?_).bind fun _ _ => ?_
  · rw [List.append_assoc]
    exact (hlabel _).1
  have hasync : Refuses (do word "async"; gap)
      (keyword.label.toList ++ ([' '] ++ name.text) ++ t) := by
    rw [List.append_assoc]
    exact (refuses_word_of_head 'a' rfl (hlabel _).2).bind
  refine hasync.optional.bind_nil fun _ _ => ?_
  refine (takes_declarationKeyword keyword).bind ?_
  rintro _ rfl
  refine (takes_starOrGap_space name.isIdent_text).bind fun _ _ => ?_
  exact (takes_identifier name.isIdent_text ht).map fun _ h => by rw [h]

end

/-! ### Whole statements -/

/-- A form that wants a mark refuses a statement whose body begins with something else. -/
theorem refuses_export_mark {β : Type} {p : Pattern β} {rest : List Char}
    (hblank : Stops isBlank rest) (hspace : Refuses p (' ' :: rest)) (h : Refuses p rest) :
    Refuses (word "export" >>= fun _ => blanks >>= fun _ => p) ("export".toList ++ ' ' :: rest) :=
  refuses_word_bind (refuses_blanks_bind_space hblank hspace h)

theorem refuses_allForm {rest : List Char} (hblank : Stops isBlank rest)
    (h : Stops (· == '*') rest) : Refuses Export.allForm ("export".toList ++ ' ' :: rest) :=
  refuses_export_mark hblank (refuses_word_of_head '*' rfl (by simp)).bind
    (refuses_word_of_head '*' rfl h).bind

theorem refuses_namedForm {rest : List Char} (hblank : Stops isBlank rest)
    (h : Stops (· == '\x7b') rest) : Refuses Export.namedForm ("export".toList ++ ' ' :: rest) :=
  refuses_export_mark hblank (refuses_braceList (by simp)).bind (refuses_braceList h).bind

theorem refuses_defaultNameForm {rest : List Char} (hblank : Stops isBlank rest)
    (h : Stops (· == 'd') rest) :
    Refuses Export.defaultNameForm ("export".toList ++ ' ' :: rest) :=
  refuses_word_bind (refuses_gap_bind_space hblank (refuses_word_of_head 'd' rfl h).bind)

/-- **The pattern of export statements takes the first words of a statement**, and finds its
form. -/
theorem takes_exportStatement (s : ExportStatement) {t : List Char} (ht : Stops (· != '\n') t) :
    Takes Export.statement s.front (s.rest ++ t) (· = s.form) := by
  cases s with
  | all source =>
      exact Takes.orElse_left (takes_allForm source ht (by simp [isBlank]) takes_allName_none)
  | allAs name source =>
      exact Takes.orElse_left (takes_allForm source ht (by simp [isBlank])
        (takes_allName_some name))
  | list entries =>
      refine Takes.orElse_right ?_ (Takes.orElse_left (takes_namedForm_here entries ht))
      rw [ExportStatement.front_append]
      exact refuses_allForm (by simp [ExportStatement.body, braces, isBlank])
        (by simp [ExportStatement.body, braces])
  | listFrom entries source =>
      refine Takes.orElse_right ?_ (Takes.orElse_left (takes_namedForm_from entries source ht))
      rw [ExportStatement.front_append]
      exact refuses_allForm (by simp [ExportStatement.body, braces, isBlank])
        (by simp [ExportStatement.body, braces])
  | declared keyword name value =>
      have hstops : ∀ test : Char → Bool, test 'c' = false → test 'l' = false → test 'v' = false →
          ∀ u, Stops test ((ExportStatement.declared keyword name value).body ++ u) := by
        intro test hc hl hv u
        cases keyword <;> simp [ExportStatement.body, VariableKeyword.label, hc, hl, hv]
      have hblank := hstops isBlank (by decide) (by decide) (by decide)
      refine Takes.orElse_right ?_ (Takes.orElse_right ?_ (Takes.orElse_right ?_
        (Takes.orElse_left (takes_declarationForm keyword name ?_))))
      · rw [ExportStatement.front_append]
        exact refuses_allForm (hblank _) (hstops _ (by decide) (by decide) (by decide) _)
      · rw [ExportStatement.front_append]
        exact refuses_namedForm (hblank _) (hstops _ (by decide) (by decide) (by decide) _)
      · rw [ExportStatement.front_append]
        exact refuses_defaultNameForm (hblank _) (hstops _ (by decide) (by decide) (by decide) _)
      · simp only [ExportStatement.rest, String.reduceToList, List.cons_append, stops_cons]
        decide

/-! ### Where a statement ends -/

namespace ExportStatement

theorem newline_not_mem_text (s : ExportStatement) : '\n' ∉ s.text := by
  cases s with
  | all source => simp [text, front_eq, body, rest, newline_not_mem_fromText]
  | allAs name source =>
      simp [text, front_eq, body, rest, newline_not_mem_fromText, newline_not_mem_name]
  | list entries => simp [text, front_eq, body, rest, newline_not_mem_braces, ending]
  | listFrom entries source =>
      simp [text, front_eq, body, rest, newline_not_mem_braces, source.newline_not_mem_text, ending]
  | declared keyword name value =>
      have hlabel : '\n' ∉ keyword.label.toList := by cases keyword <;> decide
      simp [text, front_eq, body, rest, hlabel, newline_not_mem_name, value.newline_not_mem]

/-- Every statement ends with a semicolon. -/
theorem getLast?_text (s : ExportStatement) : s.text.getLast? = some ';' := by
  cases s <;>
    simp [text, front_eq, body, rest, fromText_eq, ending, List.getLast?_append, List.getLast?_cons]

/-- A variable's statement goes on up to its semicolon. -/
theorem lineStatement_declared (keyword : VariableKeyword) (name : Name) (value : Value)
    (t : List Char) :
    Export.lineStatement ((declared keyword name value).text ++ t) =
      (declared keyword name value).text := by
  have hname : ';' ∉ name.text := not_mem_of_isIdent name.isIdent_text (by decide)
  have hlabel : ';' ∉ keyword.label.toList := by cases keyword <;> decide
  let front := (declared keyword name value).front ++ (" = ".toList ++ value.text)
  have htext : (declared keyword name value).text = front ++ [';'] := by
    simp [front, text, rest]
  have hsemicolon : ';' ∉ front := by
    simp [front, front_eq, body, hname, hlabel, value.semicolon_not_mem]
  have hline : '\n' ∉ front := fun h =>
    newline_not_mem_text (declared keyword name value) (by rw [htext]; simp [h])
  rw [htext, List.append_assoc, Export.lineStatement_word hsemicolon hline]
  rfl

end ExportStatement

/-! ### Pages -/

/-- What a statement gives where it stands in a file. -/
theorem exportFindings_eq {file : SourceFile} {pre t : List Char} (s : ExportStatement) (stop : Nat)
    (hfile : file.text = pre ++ (s.text ++ t)) :
    Export.findings file pre.length stop s.front s.form =
      [.record (s.edge file.path pre.length (pre.count '\n' + 1))] := by
  have hne : s.text ≠ [] := by
    intro h
    have := s.getLast?_text
    rw [h] at this
    exact absurd this (by decide)
  have htrim : trimRight s.text = s.text := trimRight_eq_self s.getLast?_text (by decide)
  have hextent := extent_line hfile s.newline_not_mem_text hne
  have hdrop : file.text.drop pre.length = s.text ++ t := by rw [hfile, List.drop_left]
  cases s with
  | declared keyword name value =>
      simp only [ExportStatement.form, Export.findings, hdrop,
        ExportStatement.lineStatement_declared]
      simp only [Export.edge, htrim, hextent]
      rfl
  | _ =>
      -- the other forms end with the words that were taken
      simp only [ExportStatement.text, ExportStatement.rest, List.append_nil] at htrim hextent
      simp only [ExportStatement.form, Export.findings, Export.edge, htrim, hextent,
        ExportStatement.edge, ExportStatement.text, ExportStatement.rest, List.append_nil]

/-- What a page of export statements gives. -/
theorem exportFindings_page (path : String) (ended : Bool) (statements : List ExportStatement) :
    (SourceFile.ofText path (page ended (statements.map ExportStatement.text))).exportFindings =
      (gather ExportStatement.text (fun offset line s => [s.edge path offset line]) 0 1
        statements).map .record := by
  rw [SourceFile.exportFindings, map_gather]
  refine flatMap_findAll_page "export" (by decide) (by decide)
    (fun s => ⟨s.body ++ s.rest, by simp [ExportStatement.text, ExportStatement.front_eq]⟩)
    ExportStatement.newline_not_mem_text statements fun pre t s stop hwhole ht => ?_
  have hsplit : s.text ++ t = s.front ++ (s.rest ++ t) := by
    rw [ExportStatement.text, List.append_assoc]
  obtain ⟨form, rfl, hfirst⟩ := takes_exportStatement s ht pre.getLast?
  have hcovered : Capture.text ⟨⟨pre.getLast?, s.text ++ t⟩,
      ⟨s.front.getLast?.or pre.getLast?, s.rest ++ t⟩⟩ = s.front := by
    rw [hsplit]
    exact Capture.text_of_rest_eq rfl
  have hoffset : Find.offsetOf ⟨pre.length, ⟨pre.getLast?, s.text ++ t⟩, stop,
      (⟨pre.getLast?, s.text ++ t⟩ : Cursor)⟩ ⟨pre.getLast?, s.text ++ t⟩ = pre.length := by
    simp [Find.offsetOf, Cursor.gap]
  rw [← hsplit] at hfirst
  simp only [hfirst, hcovered, hoffset]
  exact exportFindings_eq s _ hwhole

/-- **A page of export statements is read back**: nothing is reported, and there is one record for
each statement, in order, with the statement's line, text, form, module and names. -/
theorem exports_page (path : String) (ended : Bool) (statements : List ExportStatement) :
    let file := SourceFile.ofText path (page ended (statements.map ExportStatement.text))
    Finding.warnings file.exportFindings = [] ∧
      file.exports =
        gather ExportStatement.text (fun offset line s => [s.edge path offset line]) 0 1
          statements := by
  intro file
  have hfindings := exportFindings_page path ended statements
  constructor
  · rw [hfindings, Finding.warnings_map_record]
  · rw [SourceFile.exports, hfindings, Finding.records_map_record]

end SourceOutline.Printed
