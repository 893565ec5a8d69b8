/-
**Import statements are read back.**

An import statement in its usual form, with one space between its words, is one of six clauses, a
module and perhaps a semicolon.  Five overlapping patterns are tried on it in a fixed order; here it
is shown that the right one takes the whole statement and that those before it refuse it, whatever
the names and the module are.  A page of such statements is therefore read back statement by
statement.

Main definitions:

* `Printed.ImportClause`, `Printed.ImportStatement` — statements, and their text;
* `Printed.ImportStatement.edge` — the record that a statement should give.

Main results:

* `Printed.takes_importStatement` — the pattern of statements takes exactly one statement;
* `Printed.imports_page` — **a page of import statements is read back**.
-/

import Mathlib.Data.List.Basic
import SourceOutline.Proofs.Statements

set_option autoImplicit false

namespace SourceOutline.Printed

open Text Pattern

/-! ### Statements -/

/-- What an import statement binds. -/
inductive ImportClause where
  /-- `import 'm'` -/
  | nothing
  /-- `import x from 'm'` -/
  | defaultExport (binding : Name)
  /-- `import * as x from 'm'` -/
  | allExports (binding : Name)
  /-- `import { ⋯ } from 'm'` -/
  | named (entries : List Entry)
  /-- `import x, { ⋯ } from 'm'` -/
  | defaultAndNamed (binding : Name) (entries : List Entry)
  /-- `import x, * as y from 'm'` -/
  | defaultAndAll (binding all : Name)

/-- A list of entries between braces. -/
def braces (entries : List Entry) : List Char :=
  "\x7b".toList ++ (entryList entries ++ "\x7d".toList)

/-- `* as` and a name. -/
def starText (binding : Name) : List Char :=
  "*".toList ++ ([' '] ++ ("as".toList ++ ([' '] ++ binding.text)))

/-- The bindings of a list. -/
def namedSpecifiers (entries : List Entry) : List ImportSpecifier :=
  entries.map fun entry => .named (.ofList entry.names.1) (.ofList entry.names.2)

/-- The bindings of a clause, in the order in which they are written. -/
def ImportClause.specifiers : ImportClause → List ImportSpecifier
  | nothing => [.sideEffect]
  | defaultExport binding => [.defaultExport (.ofList binding.text)]
  | allExports binding => [.allExports (.ofList binding.text)]
  | named entries => namedSpecifiers entries
  | defaultAndNamed binding entries =>
    .defaultExport (.ofList binding.text) :: namedSpecifiers entries
  | defaultAndAll binding all =>
    [.defaultExport (.ofList binding.text), .allExports (.ofList all.text)]

/-- An import statement. -/
structure ImportStatement where
  clause : ImportClause
  source : ModuleName
  semicolon : Bool

namespace ImportStatement

/-- What follows the keyword and the space behind it. -/
def body (s : ImportStatement) : List Char :=
  match s.clause with
  | .nothing => s.source.text ++ ending s.semicolon
  | .defaultExport binding => binding.text ++ ([' '] ++ fromText s.source s.semicolon)
  | .allExports binding => starText binding ++ ([' '] ++ fromText s.source s.semicolon)
  | .named entries => braces entries ++ ([' '] ++ fromText s.source s.semicolon)
  | .defaultAndNamed binding entries =>
    binding.text ++ (",".toList ++ ([' '] ++ (braces entries ++
      ([' '] ++ fromText s.source s.semicolon))))
  | .defaultAndAll binding all =>
    binding.text ++ (",".toList ++ ([' '] ++ (starText all ++
      ([' '] ++ fromText s.source s.semicolon))))

/-- The statement as it is written. -/
def text (s : ImportStatement) : List Char :=
  "import".toList ++ ([' '] ++ s.body)

/-- The record of a statement that begins at `offset` and is all of the line `line`. -/
def edge (path : String) (offset line : Nat) (s : ImportStatement) : ImportEdge :=
  { raw := .ofList s.text
    source := .ofList s.source.content
    specifiers := s.clause.specifiers
    path := path
    extent := ⟨line, line⟩
    span := ⟨offset, offset + s.text.length⟩ }

end ImportStatement

/-! ### Parts of clauses -/

theorem closing_not_mem_entryList (entries : List Entry) : '\x7d' ∉ entryList entries :=
  not_mem_entryList entries (by decide) (by decide) (by decide)

theorem newline_not_mem_name (name : Name) : '\n' ∉ name.text :=
  not_mem_of_isIdent name.isIdent_text (by decide)

theorem newline_not_mem_braces (entries : List Entry) : '\n' ∉ braces entries := by
  have h : '\n' ∉ entryList entries :=
    not_mem_entryList entries (by decide) (by decide) (by decide)
  simp [braces, h]

theorem newline_not_mem_starText (binding : Name) : '\n' ∉ starText binding := by
  simp [starText, newline_not_mem_name]

theorem takes_braces (entries : List Entry) (t : List Char) :
    Takes braceList (braces entries) t (·.text = entryList entries) :=
  takes_braceList (closing_not_mem_entryList entries) t

theorem imports_entryList (entries : List Entry) :
    Specifier.imports (entryList entries) = namedSpecifiers entries := by
  simp [Specifier.imports, entries_entryList, namedSpecifiers]

theorem takes_starBinding (binding : Name) {t : List Char} (ht : Stops isIdentPart t) :
    Takes Import.starBinding (starText binding) t (·.text = binding.text) := by
  refine (takes_word _ _).bind fun _ _ => ?_
  refine (takes_blanks_space (by simp [isBlank])).bind fun _ _ => ?_
  refine (takes_word _ _).bind fun _ _ => ?_
  refine (takes_gap_space (stops_isBlank_of_isIdent binding.isIdent_text t)).bind fun _ _ => ?_
  exact takes_identifier binding.isIdent_text ht

theorem stops_isIdentPart_space (t : List Char) : Stops isIdentPart (' ' :: t) := by
  simp only [stops_cons]
  decide

/-! ### The forms take their statements -/

section
variable (source : ModuleName) (semicolon : Bool) {t : List Char}

theorem takes_defaultForm (binding : Name) (ht : Stops (· != '\n') t) :
    Takes Import.defaultForm
      ("import".toList ++ ([' '] ++ (binding.text ++ ([' '] ++ fromText source semicolon)))) t
      (· = ⟨.ofList source.content, [.defaultExport (.ofList binding.text)]⟩) := by
  refine (takes_word _ _).bind fun _ _ => ?_
  refine (takes_gap_space ?_).bind fun _ _ => ?_
  · rw [List.append_assoc]
    exact stops_isBlank_of_isIdent binding.isIdent_text _
  refine (takes_identifier binding.isIdent_text (stops_isIdentPart_space _)).bind
    fun capture hcapture => ?_
  refine (takes_gap_space (stops_fromText (by decide) _ _ _)).bind fun _ _ => ?_
  exact (takes_fromModule source semicolon ht).map fun _ h => by rw [h, hcapture]

theorem takes_moreBindings_named (entries : List Entry) :
    Takes Import.moreBindings (braces entries) t (· = namedSpecifiers entries) :=
  Takes.orElse_left ((takes_braces entries t).map fun _ h => by rw [h, imports_entryList])

theorem takes_moreBindings_all (all : Name) (ht : Stops isIdentPart t) :
    Takes Import.moreBindings (starText all) t (· = [.allExports (.ofList all.text)]) := by
  refine Takes.orElse_right ?_ ((takes_starBinding all ht).map fun _ h => by rw [h])
  exact (refuses_word_of_head '\x7b' rfl (by simp [starText])).bind.bind

/-- Behind a default binding and a comma, either kind of further bindings may follow. -/
theorem takes_defaultAndMoreForm (binding : Name) {more : List Char}
    {specifiers : List ImportSpecifier} (ht : Stops (· != '\n') t)
    (hblank : ∀ u, Stops isBlank (more ++ u))
    (hmore : ∀ u, Takes Import.moreBindings more (' ' :: u) (· = specifiers)) :
    Takes Import.defaultAndMoreForm
      ("import".toList ++ ([' '] ++ (binding.text ++ (",".toList ++ ([' '] ++ (more ++
        ([' '] ++ fromText source semicolon))))))) t
      (· = ⟨.ofList source.content, .defaultExport (.ofList binding.text) :: specifiers⟩) := by
  refine (takes_word _ _).bind fun _ _ => ?_
  refine (takes_gap_space ?_).bind fun _ _ => ?_
  · rw [List.append_assoc]
    exact stops_isBlank_of_isIdent binding.isIdent_text _
  refine (takes_identifier binding.isIdent_text ?_).bind fun capture hcapture => ?_
  · simp only [String.reduceToList, List.cons_append, stops_cons]
    decide
  refine (takes_blanks_nil (by simp [isBlank])).bind_nil fun _ _ => ?_
  refine (takes_word _ _).bind fun _ _ => ?_
  refine (takes_blanks_space ?_).bind fun _ _ => ?_
  · rw [List.append_assoc]
    exact hblank _
  refine (hmore _).bind fun found hfound => ?_
  refine (takes_blanks_space (stops_fromText (by decide) _ _ _)).bind fun _ _ => ?_
  exact (takes_fromModule source semicolon ht).map fun _ h => by rw [h, hcapture, hfound]

theorem takes_namespaceForm (binding : Name) (ht : Stops (· != '\n') t) :
    Takes Import.namespaceForm
      ("import".toList ++ ([' '] ++ (starText binding ++ ([' '] ++ fromText source semicolon)))) t
      (· = ⟨.ofList source.content, [.allExports (.ofList binding.text)]⟩) := by
  refine (takes_word _ _).bind fun _ _ => ?_
  refine (takes_blanks_space (by simp [starText, isBlank])).bind fun _ _ => ?_
  refine (takes_starBinding binding (stops_isIdentPart_space _)).bind fun capture hcapture => ?_
  refine (takes_gap_space (stops_fromText (by decide) _ _ _)).bind fun _ _ => ?_
  exact (takes_fromModule source semicolon ht).map fun _ h => by rw [h, hcapture]

theorem takes_namedForm (entries : List Entry) (ht : Stops (· != '\n') t) :
    Takes Import.namedForm
      ("import".toList ++ ([' '] ++ (braces entries ++ ([' '] ++ fromText source semicolon)))) t
      (· = ⟨.ofList source.content, namedSpecifiers entries⟩) := by
  refine (takes_word _ _).bind fun _ _ => ?_
  refine (takes_blanks_space (by simp [braces, isBlank])).bind fun _ _ => ?_
  refine (takes_braces entries _).bind fun capture hcapture => ?_
  refine (takes_blanks_space (stops_fromText (by decide) _ _ _)).bind fun _ _ => ?_
  exact (takes_fromModule source semicolon ht).map fun _ h => by
    rw [h, hcapture, imports_entryList]

theorem takes_sideEffectForm (ht : Stops (· != '\n') t) :
    Takes Import.sideEffectForm
      ("import".toList ++ ([' '] ++ (source.text ++ ending semicolon))) t
      (· = ⟨.ofList source.content, [.sideEffect]⟩) := by
  refine (takes_word _ _).bind fun _ _ => ?_
  refine (takes_blanks_space ?_).bind fun _ _ => ?_
  · rw [List.append_assoc]
    exact source.stops_isBlank_text _
  refine (source.takes_text _).bind fun capture hcapture => ?_
  exact (takes_optionalSemicolon semicolon ht).map fun _ _ => by rw [hcapture]

end

/-! ### The forms refuse the statements of later forms -/

/-- A form that wants a name refuses a statement whose body begins with something else. -/
theorem refuses_name_form {β : Type} {next : Capture → Pattern β} {rest : List Char}
    (hblank : Stops isBlank rest) (hstart : Stops isIdentStart rest) :
    Refuses (word "import" >>= fun _ => gap >>= fun _ => identifier >>= next)
      ("import".toList ++ ' ' :: rest) :=
  refuses_word_bind (refuses_gap_bind_space hblank (refuses_identifier hstart).bind)

/-- A form that wants a mark refuses a statement whose body begins with something else. -/
theorem refuses_mark_form {α β : Type} {p : Pattern α} {next : α → Pattern β} {rest : List Char}
    (hblank : Stops isBlank rest) (hspace : Refuses p (' ' :: rest)) (h : Refuses p rest) :
    Refuses (word "import" >>= fun _ => blanks >>= fun _ => p >>= next)
      ("import".toList ++ ' ' :: rest) :=
  refuses_word_bind (refuses_blanks_bind_space hblank hspace.bind h.bind)

/-- A default binding with a comma behind it is not followed by `from`. -/
theorem refuses_defaultForm_comma (binding : Name) (t : List Char) :
    Refuses Import.defaultForm ("import".toList ++ ' ' :: (binding.text ++ ',' :: t)) := by
  refine refuses_word_bind (refuses_gap_bind_space
    (stops_isBlank_of_isIdent binding.isIdent_text _) ?_)
  refine refuses_identifier_bind binding.isIdent_text
    (by simp only [stops_cons]; decide) fun capture rest hrest => ?_
  -- the name may be cut short, but then another part of it follows, and no blank
  exact (refuses_gap (stops_of_name_or_rest (by simp [isBlank])
    (fun x hx => isBlank_eq_false_of_isIdentPart hx) hrest)).bind

theorem refuses_starBinding {rest : List Char} (h : Stops (· == '*') rest) :
    Refuses Import.starBinding rest :=
  (refuses_word_of_head '*' rfl h).bind

theorem refuses_braceList {rest : List Char} (h : Stops (· == '\x7b') rest) :
    Refuses braceList rest :=
  (refuses_word_of_head '\x7b' rfl h).bind

/-! ### Whole statements -/

theorem ImportStatement.text_eq (s : ImportStatement) :
    s.text = "import".toList ++ ([' '] ++ s.body) := rfl

theorem ImportStatement.text_append (s : ImportStatement) (t : List Char) :
    s.text ++ t = "import".toList ++ ' ' :: (s.body ++ t) := by
  simp [text_eq]

/-- A body that begins with a mark is refused by the two forms that want a name. -/
theorem takes_importStatement_of_mark (s : ImportStatement) {t : List Char}
    {found : Import.Clause → Prop} (hblank : Stops isBlank (s.body ++ t))
    (hstart : Stops isIdentStart (s.body ++ t))
    (h : Takes (Import.namespaceForm <|> Import.namedForm <|> Import.sideEffectForm) s.text t
      found) :
    Takes Import.statement s.text t found := by
  refine Takes.orElse_right ?_ (Takes.orElse_right ?_ h)
  · rw [s.text_append]
    exact refuses_name_form hblank hstart
  · rw [s.text_append]
    exact refuses_name_form hblank hstart

/-- **The pattern of import statements takes exactly the statement**, and finds what it says. -/
theorem takes_importStatement (s : ImportStatement) {t : List Char} (ht : Stops (· != '\n') t) :
    Takes Import.statement s.text t (· = ⟨.ofList s.source.content, s.clause.specifiers⟩) := by
  obtain ⟨clause, source, semicolon⟩ := s
  cases clause with
  | defaultExport binding =>
      exact Takes.orElse_left (takes_defaultForm source semicolon binding ht)
  | defaultAndNamed binding entries =>
      refine Takes.orElse_right ?_ (Takes.orElse_left ?_)
      · rw [ImportStatement.text_append, ImportStatement.body, List.append_assoc]
        exact refuses_defaultForm_comma binding _
      · exact takes_defaultAndMoreForm source semicolon binding ht (by simp [braces, isBlank])
          fun _ => takes_moreBindings_named entries
  | defaultAndAll binding all =>
      refine Takes.orElse_right ?_ (Takes.orElse_left ?_)
      · rw [ImportStatement.text_append, ImportStatement.body, List.append_assoc]
        exact refuses_defaultForm_comma binding _
      · exact takes_defaultAndMoreForm source semicolon binding ht (by simp [starText, isBlank])
          fun _ => takes_moreBindings_all all (stops_isIdentPart_space _)
  | allExports binding =>
      refine takes_importStatement_of_mark _ (by simp [ImportStatement.body, starText, isBlank])
        (by simp [ImportStatement.body, starText, isIdentStart]) (Takes.orElse_left ?_)
      exact takes_namespaceForm source semicolon binding ht
  | named entries =>
      refine takes_importStatement_of_mark _ (by simp [ImportStatement.body, braces, isBlank])
        (by simp [ImportStatement.body, braces, isIdentStart])
        (Takes.orElse_right ?_ (Takes.orElse_left ?_))
      · rw [ImportStatement.text_append]
        exact refuses_mark_form (by simp [ImportStatement.body, braces, isBlank])
          (refuses_starBinding (by simp))
          (refuses_starBinding (by simp [ImportStatement.body, braces]))
      · exact takes_namedForm source semicolon entries ht
  | nothing =>
      have hstops : ∀ test : Char → Bool, (∀ x, isQuote x = true → test x = false) →
          Stops test (source.text ++ ending semicolon ++ t) := fun test htest => by
        rw [List.append_assoc]
        exact source.stops_text_of_isQuote _ htest
      have hmark : ∀ mark : Char, isQuote mark = false → ∀ x, isQuote x = true →
          (x == mark) = false := by
        intro mark hmark x hx
        simp only [beq_eq_false_iff_ne, ne_eq]
        rintro rfl
        rw [hmark] at hx
        exact absurd hx (by decide)
      have hblank : Stops isBlank (source.text ++ ending semicolon ++ t) := by
        rw [List.append_assoc]
        exact source.stops_isBlank_text _
      refine takes_importStatement_of_mark _ hblank (hstops _ ?_)
        (Takes.orElse_right ?_ (Takes.orElse_right ?_ ?_))
      · intro x hx
        simp only [isQuote, Bool.or_eq_true, beq_iff_eq] at hx
        rcases hx with rfl | rfl <;> decide
      · rw [ImportStatement.text_append]
        exact refuses_mark_form hblank (refuses_starBinding (by simp))
          (refuses_starBinding (hstops _ (hmark '*' (by decide))))
      · rw [ImportStatement.text_append]
        exact refuses_mark_form hblank (refuses_braceList (by simp))
          (refuses_braceList (hstops _ (hmark '\x7b' (by decide))))
      · exact takes_sideEffectForm source semicolon ht

/-! ### Pages -/

theorem ImportStatement.newline_not_mem_text (s : ImportStatement) : '\n' ∉ s.text := by
  obtain ⟨clause, source, semicolon⟩ := s
  have hfrom := newline_not_mem_fromText source semicolon
  have hsource := source.newline_not_mem_text
  have hending := newline_not_mem_ending semicolon
  cases clause <;>
    simp [text_eq, body, hfrom, hsource, hending, newline_not_mem_name, newline_not_mem_braces,
      newline_not_mem_starText]

/-- A statement has no blanks to be trimmed. -/
theorem ImportStatement.trimRight_text (s : ImportStatement) : trimRight s.text = s.text := by
  obtain ⟨clause, source, semicolon⟩ := s
  have h := fun front => trimRight_append_ending front source semicolon
  cases clause with
  | nothing => simpa [text_eq, body] using h ("import".toList ++ [' '])
  | defaultExport binding =>
      simpa [text_eq, body, fromText_eq] using
        h ("import ".toList ++ (binding.text ++ " from ".toList))
  | allExports binding =>
      simpa [text_eq, body, fromText_eq] using
        h ("import ".toList ++ (starText binding ++ " from ".toList))
  | named entries =>
      simpa [text_eq, body, fromText_eq] using
        h ("import ".toList ++ (braces entries ++ " from ".toList))
  | defaultAndNamed binding entries =>
      simpa [text_eq, body, fromText_eq] using
        h ("import ".toList ++ (binding.text ++ (", ".toList ++ (braces entries ++ " from ".toList))))
  | defaultAndAll binding all =>
      simpa [text_eq, body, fromText_eq] using
        h ("import ".toList ++ (binding.text ++ (", ".toList ++ (starText all ++ " from ".toList))))

/-- The record of a statement where it stands in a file. -/
theorem importEdge_eq {file : SourceFile} {pre t : List Char} (s : ImportStatement)
    (hfile : file.text = pre ++ (s.text ++ t)) :
    Import.edge file pre.length s.text ⟨.ofList s.source.content, s.clause.specifiers⟩ =
      s.edge file.path pre.length (pre.count '\n' + 1) := by
  have hne : s.text ≠ [] := by simp [ImportStatement.text_eq]
  simp only [Import.edge, ImportStatement.edge, s.trimRight_text,
    extent_line hfile s.newline_not_mem_text hne]

/-- **A page of import statements is read back**: there is one record for each statement, in order,
with the statement's line, text, module and bindings. -/
theorem imports_page (path : String) (ended : Bool) (statements : List ImportStatement) :
    (SourceFile.ofText path (page ended (statements.map ImportStatement.text))).imports =
      gather ImportStatement.text (fun offset line s => [s.edge path offset line]) 0 1 statements := by
  rw [SourceFile.imports, List.filterMap_eq_flatMap_toList]
  refine flatMap_findAll_page "import" (by decide) (by decide)
    (fun s => ⟨s.body, by simp [ImportStatement.text_eq]⟩) ImportStatement.newline_not_mem_text
    statements fun pre t s stop hwhole ht => ?_
  obtain ⟨clause, rfl, hfirst⟩ := takes_importStatement s ht pre.getLast?
  have hcovered : Capture.text ⟨⟨pre.getLast?, s.text ++ t⟩,
      ⟨s.text.getLast?.or pre.getLast?, t⟩⟩ = s.text := Capture.text_of_rest_eq rfl
  have hoffset : Find.offsetOf ⟨pre.length, ⟨pre.getLast?, s.text ++ t⟩, stop,
      (⟨pre.getLast?, s.text ++ t⟩ : Cursor)⟩ ⟨pre.getLast?, s.text ++ t⟩ = pre.length := by
    simp [Find.offsetOf, Cursor.gap]
  simp only [hfirst, Option.map_some, hcovered, hoffset, Option.toList_some]
  exact congrArg (fun edge => [edge]) (importEdge_eq s hwhole)

end SourceOutline.Printed
