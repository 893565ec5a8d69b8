/-
**Default exports of a chain of names.**

In `export default a.b.c;` the chain is a default name unless it begins with a reserved word.  A
reserved word is looked for with the edge of a word behind it, and a dollar sign is no word
character though names may hold it.  So `async$` begins with a reserved word as `async` does, and is
taken for an expression; `asynchronous` and `async_` do not.

Main definitions:

* `Export.reservedWords`, `Export.BeginsReserved` — the reserved words, and a text that begins with
  one of them;
* `Printed.Chain`, `Printed.Chain.statement` — names with points between them, and their default
  export;
* `Printed.Chain.LooksReserved` — the first name is a reserved word up to a dollar sign in it.

Main results:

* `Export.outcomes_reservedWord_eq_nil_iff` — where the pattern of reserved words has no outcome;
* `Pattern.takes_star` — a repetition takes what its pattern takes, one piece after the other;
* `Printed.Chain.beginsReserved_iff` — a chain begins with a reserved word if its first name is one,
  or looks like one;
* `Printed.exports_chain_iff` — **a chain is a default name unless its first name looks
  reserved.**
-/

import SourceOutline.Proofs.DefaultNames

set_option autoImplicit false

namespace SourceOutline

open Text Pattern

/-! ### Repetitions and look-ahead -/

namespace Pattern

variable {α : Type}

/-- A part that must not stand here takes nothing if it does not. -/
theorem takes_notAhead {p : Pattern α} {t : List Char} (h : Refuses p t) :
    Takes (notAhead p) [] t fun _ => True := by
  intro before
  exact ⟨(), trivial, by simp [first?, outcomes_notAhead, h before]⟩

/-- Pieces that are not empty, each of which the pattern takes where it stands. -/
inductive TakesEach (p : Pattern α) (t : List Char) : List (List Char) → Prop where
  | nil : TakesEach p t []
  | cons {piece : List Char} {pieces : List (List Char)} (hne : piece ≠ [])
      (htakes : Takes p piece (pieces.flatten ++ t) fun _ => True)
      (hpieces : TakesEach p t pieces) : TakesEach p t (piece :: pieces)

/-- There are no more pieces than characters. -/
theorem TakesEach.length_le {p : Pattern α} {t : List Char} {pieces : List (List Char)}
    (h : TakesEach p t pieces) : pieces.length ≤ pieces.flatten.length := by
  induction h with
  | nil => exact Nat.le_refl _
  | cons hne htakes hpieces ih =>
      have hpos := List.length_pos_iff.2 hne
      rw [List.length_cons, List.flatten_cons, List.length_append]
      omega

/-- A repetition with enough steps left goes through all the pieces. -/
theorem TakesEach.head?_repeated {p : Pattern α} {t : List Char} {pieces : List (List Char)}
    (h : TakesEach p t pieces) (hend : Refuses p t) {fuel : Nat} (hfuel : pieces.length ≤ fuel)
    (before : Option Char) :
    (repeated (fun here => (p.outcomes here).map Prod.snd) fuel ⟨before, pieces.flatten ++ t⟩).head? =
      some ⟨pieces.flatten.getLast?.or before, t⟩ := by
  induction h generalizing fuel before with
  | nil =>
      cases fuel with
      | zero => rfl
      | succ fuel => simp [repeated, hend before]
  | @cons piece pieces hne htakes hpieces ih =>
      cases fuel with
      | zero => simp at hfuel
      | succ fuel =>
          obtain ⟨a, -, hfirst⟩ := htakes before
          obtain ⟨more, hmore⟩ := List.head?_eq_some_iff.1 hfirst
          have hrest := ih (Nat.le_of_succ_le_succ hfuel) (piece.getLast?.or before)
          rw [getLast?_append_or] at hrest
          rw [List.flatten_cons, List.append_assoc, repeated, hmore]
          simp [List.head?_append, hrest]

/-- **A repetition takes what its pattern takes**, one piece after the other, until it is refused. -/
theorem takes_star {p : Pattern α} {t : List Char} {pieces : List (List Char)}
    (h : TakesEach p t pieces) (hend : Refuses p t) :
    Takes (star p) pieces.flatten t fun _ => True := by
  intro before
  have hlength : pieces.length ≤ (pieces.flatten ++ t).length :=
    Nat.le_trans h.length_le (by simp)
  refine ⟨(), trivial, ?_⟩
  rw [first?, outcomes, List.head?_map, h.head?_repeated hend hlength before, Option.map_some]

end Pattern

/-! ### Reserved words -/

namespace Export

/-- The words that begin an expression and are no name. -/
def reservedWords : List String := ["function", "class", "new", "async"]

/-- The text begins with a reserved word that ends there. -/
def BeginsReserved (rest : List Char) : Prop :=
  ∃ w ∈ reservedWords, ∃ more, rest = w.toList ++ more ∧ Stops isWord more

theorem exists_getLast?_reservedWord {w : String} (h : w ∈ reservedWords) :
    ∃ y, w.toList.getLast? = some y ∧ isWord y = true := by
  simp only [reservedWords, List.mem_cons, List.not_mem_nil, or_false] at h
  rcases h with rfl | rfl | rfl | rfl
  · exact ⟨'n', rfl, by decide⟩
  · exact ⟨'s', rfl, by decide⟩
  · exact ⟨'w', rfl, by decide⟩
  · exact ⟨'c', rfl, by decide⟩

theorem mem_outcomes_reservedWord {c : Cursor} {found : Unit × Cursor} :
    found ∈ reservedWord.outcomes c ↔
      ∃ w ∈ reservedWords, ∃ mid ∈ (word w).outcomes c, found ∈ wordEdge.outcomes mid.2 := by
  simp only [reservedWord, mem_outcomes_bind, outcomes_orElse, List.mem_append, reservedWords,
    List.mem_cons, List.not_mem_nil, or_false]
  constructor
  · rintro ⟨mid, hmid | hmid | hmid | hmid, hedge⟩
    · exact ⟨"function", by simp, mid, hmid, hedge⟩
    · exact ⟨"class", by simp, mid, hmid, hedge⟩
    · exact ⟨"new", by simp, mid, hmid, hedge⟩
    · exact ⟨"async", by simp, mid, hmid, hedge⟩
  · rintro ⟨w, rfl | rfl | rfl | rfl, mid, hmid, hedge⟩
    · exact ⟨mid, Or.inl hmid, hedge⟩
    · exact ⟨mid, Or.inr (Or.inl hmid), hedge⟩
    · exact ⟨mid, Or.inr (Or.inr (Or.inl hmid)), hedge⟩
    · exact ⟨mid, Or.inr (Or.inr (Or.inr hmid)), hedge⟩

/-- **The pattern of reserved words has no outcome where none begins.** -/
theorem outcomes_reservedWord_eq_nil_iff (before : Option Char) (rest : List Char) :
    reservedWord.outcomes ⟨before, rest⟩ = [] ↔ ¬ BeginsReserved rest := by
  rw [List.eq_nil_iff_forall_not_mem]
  constructor
  · rintro h ⟨w, hw, more, rfl, hmore⟩
    obtain ⟨y, hlast, hy⟩ := exists_getLast?_reservedWord hw
    have hword : ((), ⟨some y, more⟩) ∈ (word w).outcomes ⟨before, w.toList ++ more⟩ := by
      obtain ⟨_, -, hfirst⟩ := takes_word w more before
      rw [hlast, Option.some_or] at hfirst
      exact List.mem_of_mem_head? hfirst
    refine h ((), ⟨some y, more⟩) (mem_outcomes_reservedWord.2 ⟨w, hw, _, hword, ?_⟩)
    rw [outcomes_wordEdge hy hmore]
    exact List.mem_singleton_self _
  · intro h found hfound
    obtain ⟨w, hw, mid, hmid, hedge⟩ := mem_outcomes_reservedWord.1 hfound
    obtain ⟨y, hlast, hy⟩ := exists_getLast?_reservedWord hw
    have hreads := reads_of_mem_outcomes_word hmid
    exact h ⟨w, hw, mid.2.rest, hreads.1, stops_of_mem_wordEdge hlast hy hreads hedge⟩

/-- A function written in place ends with a parenthesis, a class with a brace. -/
theorem endsWith_inlineFunction : EndsWith inlineFunction '(' := by
  have hword : EndsWith (word "(") '(' := fun c found h =>
    ⟨[], reads_of_mem_outcomes_word h⟩
  exact .bind fun _ => .bind fun _ => .bind fun _ => .bind fun _ => .bind fun _ => .bind fun _ =>
    .bind fun _ => .bind fun _ => hword.map

theorem endsWith_inlineClass : EndsWith inlineClass '\x7b' := by
  have hword : EndsWith (word "\x7b") '\x7b' := fun c found h =>
    ⟨[], reads_of_mem_outcomes_word h⟩
  exact .bind fun _ => .bind fun _ => .bind fun _ => .bind fun _ => .bind fun _ => hword.map

end Export

theorem Pattern.EndsWith.refuses {α : Type} {p : Pattern α} {x : Char} (h : EndsWith p x)
    {rest : List Char} (hrest : x ∉ rest) : Refuses p rest := by
  intro before
  refine List.eq_nil_iff_forall_not_mem.2 fun found hfound => hrest ?_
  obtain ⟨s, hs⟩ := h _ found hfound
  rw [show rest = s ++ [x] ++ found.2.rest from hs.1]
  simp

/-! ### Chains -/

namespace Printed

/-- Names with points between them. -/
structure Chain where
  first : Name
  more : List Name

namespace Chain

variable (x : Chain)

/-- The points and names behind the first name. -/
def pieces : List (List Char) :=
  x.more.map fun name => '.' :: name.text

/-- The chain as it is written. -/
def text : List Char :=
  x.first.text ++ x.pieces.flatten

/-- The default export of the chain. -/
def statement : List Char :=
  "export".toList ++ ([' '] ++ ("default".toList ++ ([' '] ++ (x.text ++ [';']))))

/-- The record of a default name that is all of a file. -/
def edge (path : String) : ExportEdge :=
  { raw := .ofList x.statement
    kind := .default
    items := [⟨"default", .ofList x.text⟩]
    path := path
    extent := ⟨1, 1⟩
    span := ⟨0, x.statement.length⟩
    source := none }

/-- The record of the same statement where the chain is taken for an expression. -/
def expressionEdge (path : String) : ExportEdge :=
  { x.edge path with kind := .defaultExpression, items := [⟨"default", "anonymous_expression"⟩] }

/-- The first name has a reserved word in front of a dollar sign. -/
def LooksReserved : Prop :=
  ∃ w ∈ Export.reservedWords, w.toList ++ ['$'] <+: x.first.text

instance : Decidable x.LooksReserved :=
  inferInstanceAs (Decidable (∃ w ∈ Export.reservedWords, w.toList ++ ['$'] <+: x.first.text))

/-- What stands behind the first name. -/
theorem stops_pieces {test : Char → Bool} (hpoint : test '.' = false) {t : List Char}
    (ht : Stops test t) : Stops test (x.pieces.flatten ++ t) := by
  cases hmore : x.more with
  | nil => simpa [pieces, hmore] using ht
  | cons name more => simpa [pieces, hmore] using hpoint

/-- **A chain begins with a reserved word if its first name is one or looks like one.** -/
theorem beginsReserved_iff (t : List Char) :
    Export.BeginsReserved (x.text ++ ';' :: t) ↔
      (∃ w ∈ Export.reservedWords, x.first.text = w.toList) ∨ x.LooksReserved := by
  have hbehind : Stops isWord (x.pieces.flatten ++ ';' :: t) :=
    x.stops_pieces (by decide) (by simpa using (by decide : isWord ';' = false))
  have hpart : Stops isIdentPart (x.pieces.flatten ++ ';' :: t) :=
    x.stops_pieces (by decide) (by simpa using (by decide : isIdentPart ';' = false))
  have hletters : ∀ w ∈ Export.reservedWords, ∀ y ∈ w.toList, isIdentPart y = true := by
    intro w hw
    have hall : Export.reservedWords.all (fun w => w.toList.all isIdentPart) = true := by decide
    exact List.all_eq_true.1 (List.all_eq_true.1 hall w hw)
  rw [text, List.append_assoc]
  constructor
  · rintro ⟨w, hw, more, hsplit, hmore⟩
    rcases List.append_eq_append_iff.1 hsplit with ⟨u, hword, hrest⟩ | ⟨u, hname, hrest⟩
    · -- the word is not shorter than the name, and goes no further
      cases u with
      | nil => exact Or.inl ⟨w, hw, by simpa using hword.symm⟩
      | cons y u =>
          rw [hrest, List.cons_append, stops_cons, hletters w hw y (by simp [hword])] at hpart
          exact absurd hpart (by decide)
    · cases u with
      | nil => exact Or.inl ⟨w, hw, by simpa using hname⟩
      | cons y u =>
          -- only a dollar sign continues a name and is no word character
          have hy := isIdentPart_of_mem x.first.isIdent_text y (by simp [hname])
          rw [hrest, List.cons_append, stops_cons] at hmore
          obtain rfl : y = '$' := by simpa [isIdentPart, hmore] using hy
          exact Or.inr ⟨w, hw, u, by simp [hname]⟩
  · rintro (⟨w, hw, hname⟩ | ⟨w, hw, u, hname⟩)
    · exact ⟨w, hw, _, by rw [hname], hbehind⟩
    · refine ⟨w, hw, '$' :: (u ++ (x.pieces.flatten ++ ';' :: t)), by simp [← hname], ?_⟩
      simpa using (by decide : isWord '$' = false)

/-- A dotted name takes the whole chain. -/
theorem takes_dottedName {t : List Char} (ht : Stops isDotted t) :
    Takes dottedName x.text t (·.text = x.text) := by
  have hident : Stops isIdentPart t := ht.mono fun y hy => by simp [isDotted, hy]
  have hpoint : Stops (· == '.') t := ht.mono fun y hy => by simp [isDotted, beq_iff_eq.1 hy]
  have heach : ∀ names : List Name, TakesEach (do word "."; identifier) t
      (names.map fun name => '.' :: name.text) := by
    intro names
    induction names with
    | nil => exact .nil
    | cons name names ih =>
        have hbehind := stops_pieces ⟨name, names⟩ (by decide) hident
        exact .cons (List.cons_ne_nil _ _) ((takes_word "." _).bind fun _ _ =>
          (takes_identifier name.isIdent_text hbehind).mono fun _ _ => trivial) ih
  have hend : Refuses (do word "."; identifier) t := (refuses_word_of_head '.' rfl hpoint).bind
  have hname := takes_identifier x.first.isIdent_text (x.stops_pieces (by decide) hident)
  exact (hname.bind fun _ _ => takes_star (heach x.more) hend).captured

/-! ### The statement -/

theorem statement_eq : x.statement =
    "export".toList ++ ([' '] ++ ("default".toList ++ ([' '] ++ (x.text ++ [';'])))) := rfl

theorem statement_append (t : List Char) :
    x.statement ++ t =
      "export".toList ++ ' ' :: ("default".toList ++ ' ' :: (x.text ++ ';' :: t)) := by
  simp [statement_eq]

/-- A chain begins with a letter, so no blank stands there, and no mark. -/
theorem stops_text {test : Char → Bool} (htest : ∀ y, isIdentStart y = true → test y = false)
    (t : List Char) : Stops test (x.text ++ t) := by
  rw [text, List.append_assoc]
  exact Written.stops_name x.first htest _

theorem stops_isBlank_text (t : List Char) : Stops isBlank (x.text ++ t) :=
  x.stops_text (fun _ h => isBlank_eq_false_of_isIdentStart h) t

theorem not_mem_text {mark : Char} (hmark : isIdentPart mark = false) (hpoint : mark ≠ '.') :
    mark ∉ x.text := by
  simp only [text, pieces, List.mem_append, List.mem_flatten, List.mem_map]
  rintro (h | ⟨_, ⟨name, -, rfl⟩, h⟩)
  · exact not_mem_of_isIdent x.first.isIdent_text hmark h
  · rcases List.mem_cons.1 h with h | h
    · exact hpoint h
    · exact not_mem_of_isIdent name.isIdent_text hmark h

section
variable {t : List Char}

/-- Forms that begin with a mark, and declarations, refuse the statement. -/
theorem refuses_otherForms :
    Refuses Export.allForm (x.statement ++ t) ∧ Refuses Export.namedForm (x.statement ++ t) ∧
      Refuses Export.declarationForm (x.statement ++ t) := by
  rw [statement_append]
  refine ⟨refuses_allForm (by simp [isBlank]) (by simp),
    refuses_namedForm (by simp [isBlank]) (by simp), ?_⟩
  exact Written.refuses_declarationForm ⟨⟨[' '], by simp [isBlank]⟩, by simp⟩ _

/-- The statement of a chain that begins with no reserved word is taken whole. -/
theorem takes_statement_name (h : ¬ Export.BeginsReserved (x.text ++ ';' :: t)) :
    Takes Export.statement x.statement t (· = Export.nameForm x.text) := by
  obtain ⟨hall, hnamed, -⟩ := x.refuses_otherForms (t := t)
  have hreserved : Refuses Export.reservedWord (x.text ++ [';'] ++ t) := fun before => by
    rw [List.append_assoc]
    exact (Export.outcomes_reservedWord_eq_nil_iff before _).2 h
  refine Takes.orElse_right hall (Takes.orElse_right hnamed (Takes.orElse_left ?_))
  refine (takes_word _ _).bind fun _ _ => (takes_gap_space (by simp [isBlank])).bind fun _ _ => ?_
  refine (takes_word _ _).bind fun _ _ => (takes_gap_space ?_).bind fun _ _ => ?_
  · rw [List.append_assoc]
    exact x.stops_isBlank_text _
  refine (takes_notAhead hreserved).bind_nil fun _ _ => ?_
  refine (x.takes_dottedName (by simp [isDotted]; decide)).bind fun capture hcapture => ?_
  refine Takes.bind_nil (takes_many (by simp) (by simp [isPadding])) fun _ _ => ?_
  exact (Takes.orElse_left (takes_word ";" t)).map fun _ _ => by rw [hcapture]; rfl

/-- **A chain that begins with a reserved word is taken for an expression**, if it is the end of the
text. -/
theorem takes_statement_expression (h : Export.BeginsReserved (x.text ++ [';'])) :
    Takes Export.statement ("export".toList ++ ([' '] ++ ("default".toList ++ ([' '] ++ []))))
      (x.text ++ [';']) (· = Export.expressionForm) := by
  obtain ⟨hall, hnamed, hdeclaration⟩ := x.refuses_otherForms (t := [])
  rw [List.append_nil] at hall hnamed hdeclaration
  have hblank := x.stops_isBlank_text [';']
  have hname : Refuses Export.defaultNameForm x.statement := by
    refine refuses_word_bind (refuses_gap_bind_space (by simp [isBlank]) ?_)
    refine refuses_word_bind (refuses_gap_bind_space hblank (refuses_notAhead_bind ?_))
    intro before hnil
    exact (Export.outcomes_reservedWord_eq_nil_iff before _).1 hnil h
  have hparen : '(' ∉ x.text ++ [';'] := by
    simp [x.not_mem_text (by decide : isIdentPart '(' = false) (by decide)]
  have hbrace : '\x7b' ∉ x.text ++ [';'] := by
    simp [x.not_mem_text (by decide : isIdentPart '\x7b' = false) (by decide)]
  have hfunction := Export.endsWith_inlineFunction.refuses hparen
  have hclass := Export.endsWith_inlineClass.refuses hbrace
  have hexpression : Takes Export.inlineExpression [] (x.text ++ [';'])
      (· = Export.expressionForm) := by
    obtain ⟨c, more, hfirst, hc, -⟩ := isIdent_iff.1 x.first.isIdent_text
    have hcblank := isBlank_eq_false_of_isIdentStart hc
    have hsemicolon : c ≠ ';' := ne_of_isIdentPart (isIdentPart_of_isIdentStart hc) (by decide)
    intro before
    refine ⟨Export.expressionForm, rfl, ?_⟩
    simp [Export.inlineExpression, first?, outcomes_edge, text, hfirst, hcblank, hsemicolon,
      Export.expressionForm]
  refine Takes.orElse_right hall (Takes.orElse_right hnamed (Takes.orElse_right hname
    (Takes.orElse_right hdeclaration ?_)))
  refine (takes_word _ _).bind fun _ _ => (takes_gap_space (by simp [isBlank])).bind fun _ _ => ?_
  refine (takes_word _ _).bind fun _ _ => (takes_gap_space ?_).bind fun _ _ => ?_
  · exact hblank
  · exact Takes.orElse_right hfunction (Takes.orElse_right hclass hexpression)

end

/-! ### The record -/

theorem newline_not_mem_statement : '\n' ∉ x.statement := by
  simp [statement_eq, x.not_mem_text (by decide : isIdentPart '\n' = false) (by decide)]

theorem trimRight_statement : trimRight x.statement = x.statement := by
  have hlast : x.statement.getLast? = some ';' := by
    simp [statement_eq, List.getLast?_append, List.getLast?_cons]
  exact trimRight_eq_self hlast (by decide)

/-- Taken for an expression, the statement goes on to its semicolon. -/
theorem lineStatement_statement : Export.lineStatement x.statement = x.statement := by
  let front := "export".toList ++ ([' '] ++ ("default".toList ++ ([' '] ++ x.text)))
  have hsplit : x.statement = front ++ [';'] := by simp [front, statement_eq]
  have hsemicolon : ';' ∉ front := by
    simp [front, x.not_mem_text (by decide : isIdentPart ';' = false) (by decide)]
  have hline : '\n' ∉ front := fun h => x.newline_not_mem_statement (by rw [hsplit]; simp [h])
  rw [hsplit, Export.lineStatement_word hsemicolon hline]
  rfl

theorem extent_statement (path : String) :
    (SourceFile.ofText path x.statement).extent 0 (x.statement.length - 1) = ⟨1, 1⟩ := by
  have h := @extent_line (SourceFile.ofText path x.statement) [] x.statement [] (by simp)
    x.newline_not_mem_statement (by simp [statement_eq])
  simpa using h

/-- The keyword is found once, at the beginning. -/
theorem findAll_statement :
    ∃ stop, findAll (keywordAtLineStart "export") x.statement =
      [⟨0, ⟨none, x.statement⟩, stop, ⟨none, x.statement⟩⟩] := by
  have hhead : "export".toList ++ [' '] <+: x.statement := ⟨_, List.append_assoc _ _ _⟩
  have hletters : ∀ x ∈ "export".toList, isWord x = true ∧ isPadding x = false := by
    intro x hx
    have hall : "export".toList.all (fun x => isWord x && !isPadding x) = true := by decide
    simpa using List.all_eq_true.1 hall x hx
  obtain ⟨y, stop, hy, hscan⟩ := @scan_keyword_line "export" 0 none x.statement [] rfl (by decide)
    hletters hhead x.newline_not_mem_statement
  rw [List.append_nil, scan_text_end (onlyAtLineStart_keywordAtLineStart _) _ _ hy] at hscan
  exact ⟨stop, hscan⟩

/-- What the statement gives, by the form that its first words have. -/
theorem exports_statement {path : String} {form : Export.Form} {stop : Cursor}
    (h : Export.statement.first? ⟨none, x.statement⟩ = some (form, stop)) :
    (SourceFile.ofText path x.statement).exports =
      Finding.records (Export.findings (SourceFile.ofText path x.statement) 0
        (Cursor.gap ⟨none, x.statement⟩ stop) (Capture.text ⟨⟨none, x.statement⟩, stop⟩) form) := by
  obtain ⟨_, hfind⟩ := x.findAll_statement
  simp [SourceFile.exports, SourceFile.exportFindings, hfind, h, Find.offsetOf, Cursor.gap]

theorem exports_of_not_beginsReserved (path : String)
    (h : ¬ Export.BeginsReserved (x.text ++ [';'])) :
    (SourceFile.ofText path x.statement).exports = [x.edge path] := by
  obtain ⟨form, rfl, hfirst⟩ := x.takes_statement_name h none
  rw [List.append_nil] at hfirst
  have hcovered : Capture.text ⟨⟨none, x.statement⟩, ⟨x.statement.getLast?.or none, []⟩⟩ =
      x.statement := Capture.text_of_rest_eq (List.append_nil _).symm
  rw [x.exports_statement hfirst, hcovered]
  simp [Export.nameForm, Export.findings, Export.edge, x.trimRight_statement, x.extent_statement,
    edge]

theorem exports_of_beginsReserved (path : String) (h : Export.BeginsReserved (x.text ++ [';'])) :
    (SourceFile.ofText path x.statement).exports = [x.expressionEdge path] := by
  obtain ⟨form, rfl, hfirst⟩ := x.takes_statement_expression h none
  have hstatement : "export".toList ++ ([' '] ++ ("default".toList ++ ([' '] ++ []))) ++
      (x.text ++ [';']) = x.statement := by simp [statement_eq]
  rw [hstatement] at hfirst
  rw [x.exports_statement hfirst]
  simp [Export.expressionForm, Export.findings, Export.edge, x.lineStatement_statement,
    x.trimRight_statement, x.extent_statement, edge, expressionEdge]

end Chain

/-- **A chain is a default name unless its first name looks reserved.**  Where it does, the
statement is still found, but as the default export of an expression. -/
theorem exports_chain_iff (path : String) (x : Chain)
    (hfirst : ∀ w ∈ Export.reservedWords, x.first.text ≠ w.toList) :
    ((SourceFile.ofText path x.statement).exports = [x.edge path] ↔ ¬ x.LooksReserved) ∧
      (x.LooksReserved →
        (SourceFile.ofText path x.statement).exports = [x.expressionEdge path]) := by
  have hbegins : Export.BeginsReserved (x.text ++ [';']) ↔ x.LooksReserved := by
    rw [x.beginsReserved_iff []]
    constructor
    · rintro (⟨w, hw, hname⟩ | h)
      · exact absurd hname (hfirst w hw)
      · exact h
    · exact Or.inr
  refine ⟨⟨fun h hlooks => ?_, fun h => ?_⟩, fun h => ?_⟩
  · rw [x.exports_of_beginsReserved path (hbegins.2 hlooks)] at h
    have hkind : ExportKind.defaultExpression = ExportKind.default :=
      congrArg ExportEdge.kind (List.cons.inj h).1
    exact absurd hkind (by decide)
  · exact x.exports_of_not_beginsReserved path fun hb => h (hbegins.1 hb)
  · exact x.exports_of_beginsReserved path (hbegins.2 h)

/-- A chain whose names share their beginnings with reserved words, and which is a default name. -/
theorem exports_chain_accented :
    let x : Chain := ⟨⟨"newé$".toList, by decide +kernel⟩, [⟨"class".toList, by decide⟩,
      ⟨"$function".toList, by decide⟩]⟩
    (∀ w ∈ Export.reservedWords, x.first.text ≠ w.toList) ∧ ¬ x.LooksReserved ∧
      x.statement = "export default newé$.class.$function;".toList ∧
      (SourceFile.ofText "a.js" x.statement).exports = [x.edge "a.js"] := by
  intro x
  have hfirst : ∀ w ∈ Export.reservedWords, x.first.text ≠ w.toList := by decide
  have hlooks : ¬ x.LooksReserved := by decide +kernel
  exact ⟨hfirst, hlooks, by decide +kernel, (exports_chain_iff "a.js" x hfirst).1.2 hlooks⟩

/-- **The name `async$` is not reserved, and yet it is no default name.** -/
theorem exports_chain_dollar :
    let x : Chain := ⟨⟨"async$".toList, by decide⟩, []⟩
    (∀ w ∈ Export.reservedWords, x.first.text ≠ w.toList) ∧
      x.statement = "export default async$;".toList ∧
      (SourceFile.ofText "a.js" x.statement).exports ≠ [x.edge "a.js"] ∧
      (SourceFile.ofText "a.js" x.statement).exports =
        [⟨"export default async$;", .defaultExpression, [⟨"default", "anonymous_expression"⟩], "a.js",
          ⟨1, 1⟩, ⟨0, 22⟩, none⟩] := by
  decide +kernel

end Printed

end SourceOutline
