/-
**Default exports of a name.**

A statement such as `export default a.b` ends with a semicolon, or with its line or the text.  Its
text can be read in one way only.  If the end of the line did not count, a name that ends so would
not be one: it would be taken for an expression.

Main definitions:

* `Written.DefaultName` — such a statement as it is written, up to the blanks behind the name;
* `Export.textEnd`, `Export.statementUntil` — the end of the text, and statements in which a default
  name ends in front of a semicolon or a given pattern.

Main results:

* `Export.outcomes_statementUntil_lineEnd` — the end of a line as that pattern gives all statements;
* `Written.DefaultName.unique` — a default name is read in one way;
* `Export.first?_defaultExpressionForm` — a name that is not reserved can be taken for an
  expression;
* `Export.statement_cases` — **what the end of the line decides.**
-/

import SourceOutline.Proofs.Calm
import SourceOutline.Proofs.DefaultExports
import SourceOutline.Proofs.LeadingNewlines

set_option autoImplicit false

namespace SourceOutline

open Text Pattern

/-! ### Dotted names -/

/-- The characters of names with points between them. -/
def Text.isDotted (c : Char) : Bool :=
  isIdentPart c || c == '.'

namespace Pattern

/-- Parts that each begin with a point. -/
theorem exists_pieces {c stop : Cursor}
    (h : Relation.ReflTransGen
      (fun a b => b ∈ ((do word "."; identifier : Pattern Capture).outcomes a).map Prod.snd) c stop) :
    ∃ more : List Printed.Name,
      c.Reads (more.map fun name : Printed.Name => '.' :: name.text).flatten stop := by
  induction h using Relation.ReflTransGen.head_induction_on with
  | refl => exact ⟨[], .nil _⟩
  | head hstep _ ih =>
      obtain ⟨part, hpart, rfl⟩ := List.mem_map.1 hstep
      obtain ⟨_, hpoint, hname⟩ := mem_outcomes_bind.1 hpart
      obtain ⟨name, -, hreads⟩ := exists_name hname
      obtain ⟨more, hmore⟩ := ih
      exact ⟨name :: more, ((reads_of_mem_outcomes_word hpoint).append hreads).append hmore⟩

/-- A dotted name reads identifiers with points between them. -/
theorem exists_names {c : Cursor} {found : Capture × Cursor} (h : found ∈ dottedName.outcomes c) :
    found.1 = ⟨c, found.2⟩ ∧ ∃ (first : Printed.Name) (more : List Printed.Name),
      c.Reads (first.text ++ (more.map fun name : Printed.Name => '.' :: name.text).flatten)
        found.2 := by
  obtain ⟨hcapture, a, ha⟩ := mem_outcomes_captured.1 h
  obtain ⟨mid, hmid, ha⟩ := mem_outcomes_bind.1 ha
  obtain ⟨first, -, hfirst⟩ := exists_name hmid
  obtain ⟨stop, hstop, hfound⟩ := List.mem_map.1 ha
  obtain rfl : stop = found.2 := congrArg Prod.snd hfound
  obtain ⟨more, hmore⟩ := exists_pieces (mem_repeated hstop)
  exact ⟨hcapture, first, more, hfirst.append hmore⟩

theorem reads_of_mem_outcomes_dottedName {c : Cursor} {found : Capture × Cursor}
    (h : found ∈ dottedName.outcomes c) :
    found.1 = ⟨c, found.2⟩ ∧ ∃ x s, isIdentStart x = true ∧ (∀ y ∈ s, isDotted y = true) ∧
      c.Reads (x :: s) found.2 := by
  have hdotted : ∀ name : Printed.Name, ∀ y ∈ name.text, isDotted y = true := by
    intro name y hy
    rw [isDotted, isIdentPart_of_mem name.isIdent_text y hy, Bool.true_or]
  obtain ⟨hcapture, first, more, hreads⟩ := exists_names h
  obtain ⟨x, t, htext, hx, -⟩ := isIdent_iff.1 first.isIdent_text
  rw [htext, List.cons_append] at hreads
  refine ⟨hcapture, x, _, hx, ?_, hreads⟩
  intro y hy
  rcases List.mem_append.1 hy with hy | hy
  · exact hdotted first y (htext ▸ List.mem_cons_of_mem x hy)
  · obtain ⟨piece, hpiece, hy⟩ := List.mem_flatten.1 hy
    obtain ⟨name, -, rfl⟩ := List.mem_map.1 hpiece
    rcases List.mem_cons.1 hy with rfl | hy
    · decide
    · exact hdotted name y hy

end Pattern

/-! ### Statements with a given end -/

namespace Export

/-- The end of the text. -/
def textEnd : Pattern Unit :=
  Pattern.edge fun _ next => next.isNone

/-- A name that is not reserved, with spaces and tabs behind it. -/
def unreservedName : Pattern Capture := do
  notAhead reservedWord
  let name ← dottedName
  padding
  return name

/-- `export default` and such a name -/
def defaultName : Pattern Capture := do
  word "export"
  gap
  word "default"
  gap
  unreservedName

/-- What a default name says. -/
def nameForm (name : List Char) : Form :=
  .whole .default [⟨"default", .ofList name⟩] none

/-- A default name that is followed by a semicolon or a given pattern. -/
def defaultNameUntil (stop : Pattern Unit) : Pattern Form := do
  let name ← defaultName
  word ";" <|> stop
  return nameForm name.text

/-- An export statement in which a default name ends so. -/
def statementUntil (stop : Pattern Unit) : Pattern Form :=
  allForm <|> namedForm <|> defaultNameUntil stop <|> declarationForm <|> defaultExpressionForm

theorem outcomes_defaultNameForm (c : Cursor) :
    defaultNameForm.outcomes c = (defaultNameUntil lineEnd).outcomes c := by
  simp only [defaultNameForm, defaultNameUntil, defaultName, unreservedName, outcomes_bind,
    List.flatMap_assoc, outcomes_pure, List.flatMap_singleton]
  rfl

/-- **The end of a line as that pattern gives all statements.** -/
theorem outcomes_statementUntil_lineEnd (c : Cursor) :
    (statementUntil lineEnd).outcomes c = statement.outcomes c := by
  simp only [statementUntil, statement, outcomes_orElse, outcomes_defaultNameForm]

/-- A default name ends behind a semicolon, or where the pattern says. -/
theorem mem_outcomes_defaultNameUntil {test : Option Char → Option Char → Bool} {c : Cursor}
    {found : Form × Cursor} :
    found ∈ (defaultNameUntil (Pattern.edge test)).outcomes c ↔
      ∃ name ∈ defaultName.outcomes c, found.1 = nameForm name.1.text ∧
        (name.2.Reads [';'] found.2 ∨
          found.2 = name.2 ∧ test name.2.before name.2.rest.head? = true) := by
  simp only [defaultNameUntil, mem_outcomes_bind, outcomes_orElse, List.mem_append,
    outcomes_pure, List.mem_singleton]
  constructor
  · rintro ⟨name, hname, stop, hstop | hstop, rfl⟩
    · exact ⟨name, hname, rfl, Or.inl (reads_of_mem_outcomes_word hstop)⟩
    · obtain ⟨htest, rfl⟩ := mem_outcomes_edge.1 hstop
      exact ⟨name, hname, rfl, Or.inr ⟨rfl, htest⟩⟩
  · rintro ⟨name, hname, hform, hread | ⟨hstop, htest⟩⟩
    · refine ⟨name, hname, ((), found.2), Or.inl ?_, Prod.ext hform rfl⟩
      exact List.mem_map.2 ⟨found.2, Option.mem_toList.2 (Cursor.skip?_eq_some_iff.2 hread), rfl⟩
    · exact ⟨name, hname, ((), name.2), Or.inr (mem_outcomes_edge.2 ⟨htest, rfl⟩),
        Prod.ext hform hstop⟩

end Export

/-! ### Written default names -/

namespace Written

/-- `export default` and a name as they are written, up to the spaces and tabs behind the name. -/
structure DefaultName where
  exportGap : Gap
  defaultGap : Gap
  first : Char
  more : List Char
  padding : List Char
  isIdentStart_first : isIdentStart first = true
  isDotted_of_mem : ∀ y ∈ more, isDotted y = true
  isPadding_of_mem : ∀ y ∈ padding, isPadding y = true

namespace DefaultName

variable (d : DefaultName)

/-- The name. -/
def name : List Char :=
  d.first :: d.more

/-- The statement up to its name. -/
def front : List Char :=
  "export".toList ++ (d.exportGap.text ++ ("default".toList ++ (d.defaultGap.text ++ d.name)))

/-- The statement with what stands behind its name. -/
def text : List Char :=
  d.front ++ d.padding

theorem front_eq : d.front =
    "export".toList ++ (d.exportGap.text ++ ("default".toList ++ (d.defaultGap.text ++ d.name))) :=
  rfl

theorem text_append (t : List Char) :
    d.text ++ t = "export".toList ++ (d.exportGap.text ++ ("default".toList ++
      (d.defaultGap.text ++ (d.name ++ (d.padding ++ t))))) := by
  simp [text, front_eq]

theorem isDotted_of_mem_name : ∀ y ∈ d.name, isDotted y = true := by
  intro y hy
  rcases List.mem_cons.1 hy with rfl | hy
  · rw [isDotted, isIdentPart_of_isIdentStart d.isIdentStart_first, Bool.true_or]
  · exact d.isDotted_of_mem y hy

/-- The name ends the statement with a character that is neither blank nor a semicolon. -/
theorem exists_getLast?_front :
    ∃ y, d.front.getLast? = some y ∧ isBlank y = false ∧ y ≠ ';' := by
  have hne : d.name ≠ [] := List.cons_ne_nil _ _
  have hlast : d.front.getLast? = some (d.name.getLast hne) := by
    simp only [front_eq, List.getLast?_append, List.getLast?_eq_some_getLast hne, Option.some_or]
  have hdotted := d.isDotted_of_mem_name _ (List.getLast_mem hne)
  refine ⟨_, hlast, ?_, ?_⟩
  · rcases Bool.or_eq_true_iff.1 hdotted with h | h
    · exact isBlank_eq_false_of_isIdentPart h
    · rw [beq_iff_eq.1 h]
      decide
  · intro h
    rw [h] at hdotted
    exact absurd hdotted (by decide)

theorem trimRight_text : trimRight d.text = d.front := by
  obtain ⟨y, hy, hblank, -⟩ := d.exists_getLast?_front
  rw [text, trimRight_append_of_isBlank fun x hx => isBlank_of_isPadding (d.isPadding_of_mem x hx),
    trimRight_eq_self hy hblank]

/-- What ends a name and the blanks behind it. -/
def endsName (t : List Char) : Prop :=
  Stops (fun x => isDotted x || isPadding x) t

/-- **A default name is read in one way.** -/
theorem unique {d d' : DefaultName} {t t' : List Char} (ht : endsName t) (ht' : endsName t')
    (h : d.text ++ t = d'.text ++ t') : d.name = d'.name ∧ d.text = d'.text ∧ t = t' := by
  have hname : ∀ (d : DefaultName) (s : List Char), Stops isBlank (d.name ++ s) := by
    intro d s
    rw [name, List.cons_append, stops_cons]
    exact isBlank_eq_false_of_isIdentStart d.isIdentStart_first
  have hbehind : ∀ (d : DefaultName) {t : List Char}, endsName t →
      Stops isDotted (d.padding ++ t) := by
    intro d t ht
    cases hpadding : d.padding with
    | nil => exact ht.mono fun x hx => by rw [hx, Bool.true_or]
    | cons y pad =>
        have hy := d.isPadding_of_mem y (hpadding ▸ List.mem_cons_self)
        rw [List.cons_append, stops_cons]
        rcases Bool.or_eq_true_iff.1 hy with hy | hy <;> rw [beq_iff_eq.1 hy] <;> decide
  have hpadding : ∀ {t : List Char}, endsName t → Stops isPadding t := fun ht =>
    ht.mono fun x hx => by rw [hx, Bool.or_true]
  have htext := h
  rw [text_append, text_append] at h
  have hrest := blanks_unique (List.append_cancel_left (blanks_unique (List.append_cancel_left h)
    (by simp [isBlank]) (by simp [isBlank]))) (hname d _) (hname d' _)
  have hsame : d.name = d'.name := by
    rw [← (hbehind d ht).takeWhile_append d.isDotted_of_mem_name, hrest,
      (hbehind d' ht').takeWhile_append d'.isDotted_of_mem_name]
  rw [hsame] at hrest
  have hrest := List.append_cancel_left hrest
  have hpad : d.padding = d'.padding := by
    rw [← (hpadding ht).takeWhile_append d.isPadding_of_mem, hrest,
      (hpadding ht').takeWhile_append d'.isPadding_of_mem]
  rw [hpad] at hrest
  obtain rfl := List.append_cancel_left hrest
  exact ⟨hsame, List.append_cancel_right htext, rfl⟩

end DefaultName

end Written

namespace Export

open Written

theorem looksAhead_reservedWord : LooksAhead reservedWord := by
  have hword : ∀ s : String, s.toList ≠ [] → LooksAhead (word s) := fun _ hs => looksAhead_word hs
  exact LooksAhead.bind ((hword _ (by decide)).orElse ((hword _ (by decide)).orElse
    ((hword _ (by decide)).orElse (hword _ (by decide))))) _

/-- What a default name covers. -/
theorem exists_defaultName {c : Cursor} {found : Capture × Cursor}
    (h : found ∈ defaultName.outcomes c) :
    ∃ d : DefaultName, found.1.text = d.name ∧ c.Reads d.text found.2 ∧
      Refuses reservedWord (d.name ++ (d.padding ++ found.2.rest)) := by
  obtain ⟨_, hexport, h⟩ := mem_outcomes_bind.1 h
  obtain ⟨_, hgap, h⟩ := mem_outcomes_bind.1 h
  obtain ⟨_, hdefault, h⟩ := mem_outcomes_bind.1 h
  obtain ⟨start, hgap', h⟩ := mem_outcomes_bind.1 h
  obtain ⟨_, hreserved, h⟩ := mem_outcomes_bind.1 h
  obtain ⟨name, hname, h⟩ := mem_outcomes_bind.1 h
  obtain ⟨stop, hpadding, h⟩ := mem_outcomes_bind.1 h
  rw [outcomes_pure, List.mem_singleton] at h
  subst h
  obtain ⟨g, hg⟩ := exists_gap hgap
  obtain ⟨g', hg'⟩ := exists_gap hgap'
  rw [outcomes_notAhead] at hreserved
  split at hreserved
  · rename_i hempty
    rw [List.mem_singleton] at hreserved
    subst hreserved
    obtain ⟨hcapture, x, s, hx, hs, hreads⟩ := reads_of_mem_outcomes_dottedName hname
    obtain ⟨pad, hpad, hreads'⟩ := reads_of_mem_outcomes_many hpadding
    refine ⟨⟨g, g', x, s, pad, hx, hs, hpad⟩, ?_, ?_, ?_⟩
    · rw [hcapture]
      exact hreads.text_eq
    · have hall := (reads_of_mem_outcomes_word hexport).append (hg.append
        ((reads_of_mem_outcomes_word hdefault).append (hg'.append hreads)))
      exact hall.append hreads'
    · intro before
      have hrest : start.2.rest = (x :: s) ++ (pad ++ stop.2.rest) := by
        rw [hreads.1, hreads'.1]
      rw [List.isEmpty_iff] at hempty
      rw [← hempty, looksAhead_reservedWord before start.2.before, DefaultName.name, ← hrest]
  · exact absurd hreserved List.not_mem_nil

/-! ### Names as expressions -/

/-- A word ends where no word character follows. -/
theorem stops_of_mem_wordEdge {keyword : String} {y : Char} {c stop : Cursor}
    {found : Unit × Cursor} (hlast : keyword.toList.getLast? = some y) (hy : isWord y = true)
    (hreads : c.Reads keyword.toList stop) (h : found ∈ wordEdge.outcomes stop) :
    Stops isWord stop.rest := by
  have htest := (mem_outcomes_edge.1 h).1
  rw [hreads.2, hlast, Option.some_or, Option.any_some, hy] at htest
  intro x hx
  rw [Option.mem_def.1 hx, Option.any_some] at htest
  cases hword : isWord x with
  | false => rfl
  | true =>
      rw [hword] at htest
      exact absurd htest (by decide)

/-- A function written in place begins with a reserved word. -/
theorem reserved_of_inlineFunction {c : Cursor} {found : Form × Cursor}
    (h : found ∈ inlineFunction.outcomes c) : Reserved c.rest := by
  obtain ⟨mid, hmid, h⟩ := mem_outcomes_bind.1 h
  rcases mem_outcomes_optional.1 hmid with ⟨_, -, hasync⟩ | rfl
  · obtain ⟨_, hword, hgap⟩ := mem_outcomes_bind.1 hasync
    obtain ⟨g, hg⟩ := exists_gap hgap
    refine ⟨"async", by simp, g.text ++ mid.2.rest, ?_, ?_⟩
    · rw [(reads_of_mem_outcomes_word hword).1, hg.1]
    · exact g.stops (fun _ h => isWord_eq_false_of_isBlank h) _
  · obtain ⟨stop, hword, h⟩ := mem_outcomes_bind.1 h
    obtain ⟨_, hedge, -⟩ := mem_outcomes_bind.1 h
    have hreads := reads_of_mem_outcomes_word hword
    exact ⟨"function", by simp, stop.2.rest, hreads.1,
      stops_of_mem_wordEdge (y := 'n') rfl (by decide) hreads hedge⟩

/-- So does a class. -/
theorem reserved_of_inlineClass {c : Cursor} {found : Form × Cursor}
    (h : found ∈ inlineClass.outcomes c) : Reserved c.rest := by
  obtain ⟨stop, hword, h⟩ := mem_outcomes_bind.1 h
  obtain ⟨_, hedge, -⟩ := mem_outcomes_bind.1 h
  have hreads := reads_of_mem_outcomes_word hword
  exact ⟨"class", by simp, stop.2.rest, hreads.1,
    stops_of_mem_wordEdge (y := 's') rfl (by decide) hreads hedge⟩

/-- What an expression says that is neither a function nor a class. -/
def expressionForm : Form :=
  .line .defaultExpression ⟨"default", "anonymous_expression"⟩

/-- **A name that is not reserved can be taken for an expression.** -/
theorem first?_defaultExpressionForm (d : DefaultName) {t : List Char}
    (hreserved : Refuses reservedWord (d.name ++ (d.padding ++ t))) (before : Option Char) :
    ∃ stop, defaultExpressionForm.first? ⟨before, d.text ++ t⟩ = some (expressionForm, stop) := by
  have hnot : ¬ Reserved (d.name ++ (d.padding ++ t)) := fun h =>
    h.outcomes_ne_nil none (hreserved none)
  have hfunction : Refuses inlineFunction ([] ++ (d.name ++ (d.padding ++ t))) := fun before =>
    List.eq_nil_iff_forall_not_mem.2 fun found hfound => hnot (reserved_of_inlineFunction hfound)
  have hclass : Refuses inlineClass ([] ++ (d.name ++ (d.padding ++ t))) := fun before =>
    List.eq_nil_iff_forall_not_mem.2 fun found hfound => hnot (reserved_of_inlineClass hfound)
  have hblank := isBlank_eq_false_of_isIdentStart d.isIdentStart_first
  have hsemicolon : d.first ≠ ';' := by
    intro h
    exact absurd (h ▸ d.isIdentStart_first) (by decide)
  have hexpression : Takes inlineExpression [] (d.name ++ (d.padding ++ t))
      (· = expressionForm) := by
    intro before
    refine ⟨expressionForm, rfl, ?_⟩
    simp [inlineExpression, first?, outcomes_edge, DefaultName.name, hblank, hsemicolon,
      expressionForm]
  have hbehind := Takes.orElse_right hfunction (Takes.orElse_right hclass hexpression)
  have htakes : Takes defaultExpressionForm ("export".toList ++ (d.exportGap.text ++
      ("default".toList ++ (d.defaultGap.text ++ [])))) (d.name ++ (d.padding ++ t))
        (· = expressionForm) := by
    refine (takes_word _ _).bind fun _ _ => ?_
    refine (d.exportGap.takes (by simp [isBlank])).bind fun _ _ => ?_
    refine (takes_word _ _).bind fun _ _ => (d.defaultGap.takes ?_).bind fun _ _ => hbehind
    exact stops_cons.2 hblank
  obtain ⟨form, rfl, hfirst⟩ := htakes before
  rw [d.text_append]
  exact ⟨_, by simpa using hfirst⟩

/-! ### What the end of the line decides -/

/-- What a default name covers if it ends with a semicolon or with the text. -/
theorem exists_of_mem_textEnd {c : Cursor} {found : Form × Cursor}
    (h : found ∈ (defaultNameUntil textEnd).outcomes c) :
    ∃ (d : DefaultName) (t : List Char), found.1 = nameForm d.name ∧ c.Reads (d.text ++ t) found.2 ∧
      (t = [';'] ∨ t = [] ∧ found.2.rest = []) := by
  obtain ⟨name, hname, hform, hend⟩ := mem_outcomes_defaultNameUntil.1 h
  obtain ⟨d, htext, hreads, -⟩ := exists_defaultName hname
  rw [htext] at hform
  rcases hend with hsemicolon | ⟨hstop, htest⟩
  · exact ⟨d, [';'], hform, hreads.append hsemicolon, Or.inl rfl⟩
  · refine ⟨d, [], hform, ?_, Or.inr ⟨rfl, ?_⟩⟩
    · rw [hstop, List.append_nil]
      exact hreads
    · rw [hstop]
      simpa using htest

theorem endsName_of_textEnd {t : List Char} {stop : Cursor}
    (h : t = [';'] ∨ t = [] ∧ stop.rest = []) : DefaultName.endsName (t ++ stop.rest) := by
  rcases h with rfl | ⟨rfl, hrest⟩
  · exact stops_cons.2 (by decide)
  · rw [hrest]
    exact stops_nil _

/-- Such a default name is the only one. -/
theorem eq_of_mem_textEnd {c : Cursor} {found found' : Form × Cursor}
    (h : found ∈ (defaultNameUntil textEnd).outcomes c)
    (h' : found' ∈ (defaultNameUntil textEnd).outcomes c) : found = found' := by
  obtain ⟨d, t, hform, hreads, ht⟩ := exists_of_mem_textEnd h
  obtain ⟨d', t', hform', hreads', ht'⟩ := exists_of_mem_textEnd h'
  have hboth : d.text ++ (t ++ found.2.rest) = d'.text ++ (t' ++ found'.2.rest) := by
    rw [← List.append_assoc, ← List.append_assoc, ← hreads.1, ← hreads'.1]
  obtain ⟨hname, htext, hrest⟩ := DefaultName.unique (endsName_of_textEnd ht)
    (endsName_of_textEnd ht') hboth
  have hsame : t = t' := by
    rcases ht with rfl | ⟨rfl, hnil⟩ <;> rcases ht' with rfl | ⟨rfl, hnil'⟩
    · rfl
    · simp [hnil'] at hrest
    · simp [hnil] at hrest
    · rfl
  subst hsame
  refine Prod.ext (by rw [hform, hform', hname]) ?_
  have hbefore : found.2.before = found'.2.before := by rw [hreads.2, hreads'.2, htext]
  have hrest' := List.append_cancel_left hrest
  obtain ⟨_, _, _⟩ := found
  obtain ⟨_, _, _⟩ := found'
  simp only at hbefore hrest'
  rw [hbefore, hrest']

/-- A default name that ends with its line excludes one that does not. -/
theorem outcomes_textEnd_eq_nil {c stop : Cursor} {rest : List Char} {d : DefaultName}
    (hreads : c.Reads d.text stop) (hrest : stop.rest = '\n' :: rest) :
    (defaultNameUntil textEnd).outcomes c = [] := by
  refine List.eq_nil_iff_forall_not_mem.2 fun found hfound => ?_
  obtain ⟨d', t, -, hreads', ht⟩ := exists_of_mem_textEnd hfound
  have hends : DefaultName.endsName stop.rest := by
    rw [hrest]
    exact stops_cons.2 (by decide)
  have hboth : d.text ++ stop.rest = d'.text ++ (t ++ found.2.rest) := by
    rw [← List.append_assoc, ← hreads.1, ← hreads'.1]
  have hsame := (DefaultName.unique hends (endsName_of_textEnd ht) hboth).2.2
  rw [hrest] at hsame
  rcases ht with rfl | ⟨rfl, hnil⟩
  · exact absurd (List.cons.inj hsame).1 (by decide)
  · simp [hnil] at hsame

/-- A default name ends with a semicolon or the text, or else with its line. -/
theorem mem_lineEnd_iff {c : Cursor} {found : Form × Cursor} :
    found ∈ (defaultNameUntil lineEnd).outcomes c ↔
      found ∈ (defaultNameUntil textEnd).outcomes c ∨
        ∃ name ∈ defaultName.outcomes c, found = (nameForm name.1.text, name.2) ∧
          ∃ rest, name.2.rest = '\n' :: rest := by
  have hend : ∀ c : Cursor, c.rest.head?.all (· == '\n') = true ↔
      c.rest.head?.isNone = true ∨ ∃ rest, c.rest = '\n' :: rest := by
    intro c
    cases c.rest <;> simp
  rw [lineEnd, mem_outcomes_defaultNameUntil, textEnd, mem_outcomes_defaultNameUntil]
  constructor
  · rintro ⟨name, hname, hform, hread | ⟨hstop, htest⟩⟩
    · exact Or.inl ⟨name, hname, hform, Or.inl hread⟩
    · rcases (hend name.2).1 htest with hnone | hnewline
      · exact Or.inl ⟨name, hname, hform, Or.inr ⟨hstop, hnone⟩⟩
      · exact Or.inr ⟨name, hname, Prod.ext hform hstop, hnewline⟩
  · rintro (⟨name, hname, hform, hread | ⟨hstop, htest⟩⟩ | ⟨name, hname, rfl, hnewline⟩)
    · exact ⟨name, hname, hform, Or.inl hread⟩
    · exact ⟨name, hname, hform, Or.inr ⟨hstop, (hend name.2).2 (Or.inl htest)⟩⟩
    · exact ⟨name, hname, rfl, Or.inr ⟨rfl, (hend name.2).2 (Or.inr hnewline)⟩⟩

/-- The kind of the record that a statement gives. -/
def Form.kind : Form → ExportKind
  | .whole kind _ _ => kind
  | .block kind _ _ => kind
  | .line kind _ => kind

/-- All that the pattern finds has the property. -/
def Finds (p : Pattern Form) (P : Form → Prop) : Prop :=
  ∀ c, ∀ found ∈ p.outcomes c, P found.1

section
variable {α : Type} {p q : Pattern Form} {P Q : Form → Prop}

theorem finds_bind {p : Pattern α} {next : α → Pattern Form} (h : ∀ a, Finds (next a) P) :
    Finds (p >>= next) P := by
  intro c found hfound
  obtain ⟨mid, -, hfound⟩ := mem_outcomes_bind.1 hfound
  exact h _ _ _ hfound

theorem finds_pure {form : Form} (h : P form) : Finds (pure form) P := by
  intro c found hfound
  rw [outcomes_pure, List.mem_singleton] at hfound
  rw [hfound]
  exact h

theorem Finds.orElse (h : Finds p P) (h' : Finds q P) : Finds (p <|> q) P := fun c found hfound =>
  (List.mem_append.1 hfound).elim (h c found) (h' c found)

theorem Finds.mono (h : Finds p P) (himp : ∀ form, P form → Q form) : Finds p Q :=
  fun c found hfound => himp _ (h c found hfound)

end

/-! What each form finds. -/

theorem finds_allForm : Finds allForm (·.kind = .reExportAll) :=
  finds_bind fun _ => finds_bind fun _ => finds_bind fun _ => finds_bind fun _ =>
    finds_bind fun _ => finds_bind fun _ => finds_pure rfl

theorem finds_namedForm :
    Finds namedForm fun form => form.kind = .reExportNamed ∨ form.kind = .namedList := by
  refine finds_bind fun _ => finds_bind fun _ => finds_bind fun _ => finds_bind fun source =>
    finds_bind fun _ => ?_
  cases source with
  | some source => exact finds_pure (Or.inl rfl)
  | none => exact finds_pure (Or.inr rfl)

theorem finds_declarationForm : Finds declarationForm (·.kind = .declaration) := by
  refine finds_bind fun _ => finds_bind fun _ => finds_bind fun _ => finds_bind fun keyword =>
    finds_bind fun _ => finds_bind fun _ => ?_
  cases keyword <;> exact finds_pure rfl

/-- A function or class that is written in place. -/
def Form.isInlineBlock (form : Form) : Prop :=
  ∃ keyword item, form = .block .defaultExpression keyword item

theorem finds_inlineFunction : Finds inlineFunction Form.isInlineBlock :=
  finds_bind fun _ => finds_bind fun _ => finds_bind fun _ => finds_bind fun _ =>
    finds_bind fun _ => finds_bind fun _ => finds_bind fun _ => finds_bind fun _ =>
      finds_bind fun _ => finds_pure ⟨_, _, rfl⟩

theorem finds_inlineClass : Finds inlineClass Form.isInlineBlock :=
  finds_bind fun _ => finds_bind fun _ => finds_bind fun _ => finds_bind fun _ =>
    finds_bind fun _ => finds_bind fun _ => finds_pure ⟨_, _, rfl⟩

theorem finds_inlineExpression : Finds inlineExpression (· = expressionForm) :=
  finds_bind fun _ => finds_pure rfl

theorem finds_defaultExpressionForm :
    Finds defaultExpressionForm (·.kind = .defaultExpression) := by
  have hblock : ∀ form : Form, form.isInlineBlock → form.kind = .defaultExpression := by
    rintro form ⟨keyword, item, rfl⟩
    rfl
  have hexpression : ∀ form : Form, form = expressionForm → form.kind = .defaultExpression := by
    rintro form rfl
    rfl
  exact finds_bind fun _ => finds_bind fun _ => finds_bind fun _ => finds_bind fun _ =>
    (finds_inlineFunction.mono hblock).orElse
      ((finds_inlineClass.mono hblock).orElse (finds_inlineExpression.mono hexpression))

/-- A statement that does not say a default name, or says one that ends with a semicolon or with the
text. -/
def EndsItself (c : Cursor) (form : Form) (stop : Cursor) : Prop :=
  form.kind ≠ .default ∨ ∃ (d : DefaultName) (t : List Char), form = nameForm d.name ∧
    c.Reads (d.text ++ t) stop ∧ (t = [';'] ∨ t = [] ∧ stop.rest = [])

/-- **What the end of the line decides.**  If it did not count, a default name that ends with its
line would be taken for an expression, and nothing else would change. -/
theorem statement_cases (c : Cursor) :
    ((statementUntil textEnd).first? c = statement.first? c ∧
      ∀ form stop, statement.first? c = some (form, stop) → EndsItself c form stop) ∨
    ∃ (d : DefaultName) (stop stop' : Cursor) (rest : List Char),
      statement.first? c = some (nameForm d.name, stop) ∧ c.Reads d.text stop ∧
        stop.rest = '\n' :: rest ∧
        (statementUntil textEnd).first? c = some (expressionForm, stop') := by
  rw [first?, first?, ← outcomes_statementUntil_lineEnd]
  simp only [statementUntil, outcomes_orElse]
  rw [← List.append_assoc (allForm.outcomes c), ← List.append_assoc (allForm.outcomes c)]
  -- the first two forms do not depend on the end of the line
  cases hmarks : allForm.outcomes c ++ namedForm.outcomes c with
  | cons found more =>
      refine Or.inl ⟨by simp only [List.cons_append, List.head?_cons],
        fun form stop hfirst => Or.inl ?_⟩
      have hmem : found ∈ allForm.outcomes c ++ namedForm.outcomes c :=
        hmarks ▸ List.mem_cons_self
      obtain rfl : found = (form, stop) := Option.some.inj hfirst
      have hkind : form.kind = .reExportAll ∨ form.kind = .reExportNamed ∨ form.kind = .namedList :=
        (List.mem_append.1 hmem).imp (finds_allForm c _) (finds_namedForm c _)
      rcases hkind with hkind | hkind | hkind <;> rw [hkind] <;> decide
  | nil =>
      rw [List.nil_append, List.nil_append]
      cases hnames : (defaultNameUntil lineEnd).outcomes c with
      | nil =>
          have htext : (defaultNameUntil textEnd).outcomes c = [] := by
            refine List.eq_nil_iff_forall_not_mem.2 fun found hfound => ?_
            have hmem := mem_lineEnd_iff.2 (Or.inl hfound)
            rw [hnames] at hmem
            exact List.not_mem_nil hmem
          rw [htext]
          refine Or.inl ⟨rfl, fun form stop hfirst => Or.inl ?_⟩
          have hmem : (form, stop) ∈ declarationForm.outcomes c ++ defaultExpressionForm.outcomes c :=
            List.mem_of_head? hfirst
          have hkind : form.kind = .declaration ∨ form.kind = .defaultExpression :=
            (List.mem_append.1 hmem).imp (finds_declarationForm c _)
              (finds_defaultExpressionForm c _)
          rcases hkind with hkind | hkind <;> rw [hkind] <;> decide
      | cons found more =>
          have hfound : found ∈ (defaultNameUntil lineEnd).outcomes c :=
            hnames ▸ List.mem_cons_self
          rcases mem_lineEnd_iff.1 hfound with htext | ⟨name, hname, rfl, rest, hrest⟩
          · obtain ⟨first, others, hfirst⟩ := List.exists_cons_of_ne_nil
              (List.ne_nil_of_mem htext)
            obtain rfl := eq_of_mem_textEnd htext (hfirst ▸ List.mem_cons_self)
            rw [hfirst]
            refine Or.inl ⟨by simp only [List.cons_append, List.head?_cons],
              fun form stop hfirst => Or.inr ?_⟩
            obtain rfl : found = (form, stop) := Option.some.inj hfirst
            exact exists_of_mem_textEnd htext
          · obtain ⟨d, htext, hreads, hreserved⟩ := exists_defaultName hname
            obtain ⟨before, _⟩ := c
            obtain rfl := hreads.1
            obtain ⟨stop', hstop'⟩ := first?_defaultExpressionForm d hreserved before
            have hdeclaration : declarationForm.outcomes ⟨before, d.text ++ name.2.rest⟩ = [] := by
              rw [d.text_append]
              exact refuses_declarationForm _ _ before
            refine Or.inr ⟨d, name.2, stop', rest, ?_, hreads, hrest, ?_⟩
            · rw [htext]
              rfl
            · rw [outcomes_textEnd_eq_nil hreads hrest, hdeclaration]
              exact hstop'

end Export

end SourceOutline
