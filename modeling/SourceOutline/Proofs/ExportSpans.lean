/-
**Where an export and its declaration end.**

A class or function that is exported has two records that begin at one offset.  The declaration ends
at the brace that closes the block behind its head.  The export ends where the first block closes
that opens behind its first words, or with its line if these are not the words of a class or function.
So the two differ in two cases: a brace among the parameters of a function opens a block of its own,
and a default class whose name runs into `extends` is taken for an expression.

Main definitions:

* `Element.plainParameters` — no brace stands among the parameters of a function;
* `Element.wholeName` — the name of a default class is all of its identifier;
* `Element.fillsLine` — a declaration is all that its line holds.

Main results:

* `Export.length_lineStatement_iff` — when a statement in one line is a given text;
* `Export.stop_eq_of_first_block`, `Export.stop_ne_of_first_block` — a statement ends with the first
  block behind its words and with no later one;
* `same_iff_stop` — two faithful records with one start agree if they end at one place;
* `stop_eq_iff_of_function`, `stop_eq_iff_of_class` — when the two ends agree;
* `export_agrees_iff` — **when an export covers what its declaration covers**;
* `export_disagrees` — a function with a brace among its parameters, for which it does not.
-/

import Mathlib.Data.List.TakeWhile
import SourceOutline.Proofs.Blocks
import SourceOutline.Proofs.DefaultExports
import SourceOutline.Proofs.ExportedClasses

set_option autoImplicit false

namespace SourceOutline

open Text Pattern

/-! ### Statements in one line -/

namespace Text

/-- A text is trimmed to nothing if it is blank. -/
theorem trimRight_eq_nil_iff {s : List Char} : trimRight s = [] ↔ ∀ x ∈ s, isBlank x = true := by
  rw [trimRight, List.reverse_eq_nil_iff, List.dropWhile_eq_nil_iff]
  simp

/-- A range ends with its last character. -/
theorem getLast?_range {text : List Char} {start last : Nat} {x : Char} (hle : start ≤ last)
    (hx : text[last]? = some x) : (range text start (last + 1)).getLast? = some x := by
  have hindex : (text.drop start)[last - start]? = some x := by
    rw [List.getElem?_drop, Nat.add_sub_cancel' hle, hx]
  rw [range, show last + 1 - start = last - start + 1 by omega, List.take_add_one, hindex]
  exact List.getLast?_concat

theorem length_range_succ {text : List Char} {start last : Nat} (hlt : last < text.length) :
    (range text start (last + 1)).length = last + 1 - start := by
  rw [range, List.length_take, List.length_drop]
  omega

end Text

namespace Export

theorem newline_not_mem_lineStatement (s : List Char) : '\n' ∉ lineStatement s := by
  induction s with
  | nil => exact List.not_mem_nil
  | cons c s ih =>
      simp only [lineStatement]
      split
      · exact List.not_mem_nil
      · rename_i hline
        split
        · rename_i hsemicolon
          rw [beq_iff_eq.1 hsemicolon]
          decide
        · refine List.not_mem_cons_of_ne_of_not_mem ?_ ih
          rintro rfl
          exact hline rfl

/-- A semicolon ends the statement. -/
theorem getLast?_lineStatement {s : List Char} (h : ';' ∈ lineStatement s) :
    (lineStatement s).getLast? = some ';' := by
  induction s with
  | nil => exact absurd h List.not_mem_nil
  | cons c s ih =>
      simp only [lineStatement] at h ⊢
      split at h
      · exact absurd h List.not_mem_nil
      · rename_i hline
        rw [if_neg hline]
        split at h
        · rename_i hsemicolon
          rw [if_pos hsemicolon, beq_iff_eq.1 hsemicolon]
          rfl
        · rename_i hsemicolon
          rw [if_neg hsemicolon]
          have hmem : ';' ∈ lineStatement s := by
            rcases List.mem_cons.1 h with rfl | h
            · exact absurd rfl hsemicolon
            · exact h
          rw [List.getLast?_cons, ih hmem]
          rfl

/-- A statement that meets its end within a text stays within it. -/
theorem lineStatement_append_begins {s : List Char} (h : '\n' ∈ s ∨ ';' ∈ s) (t : List Char) :
    lineStatement (s ++ t) <+: s := by
  induction s with
  | nil => simp at h
  | cons c s ih =>
      simp only [List.cons_append, lineStatement]
      split
      · exact List.nil_prefix
      · rename_i hline
        split
        · exact ⟨s, rfl⟩
        · rename_i hsemicolon
          refine List.cons_prefix_cons.2 ⟨rfl, ih ?_⟩
          rcases h with h | h
          · refine Or.inl ((List.mem_cons.1 h).resolve_left ?_)
            rintro rfl
            exact hline rfl
          · refine Or.inr ((List.mem_cons.1 h).resolve_left ?_)
            rintro rfl
            exact hsemicolon rfl

/-- The statement is blank if the rest of the line is. -/
theorem lineStatement_blank_iff (s : List Char) :
    (∀ x ∈ lineStatement s, isBlank x = true) ↔
      ∀ x ∈ s.takeWhile (· != '\n'), isBlank x = true := by
  induction s with
  | nil => simp [lineStatement]
  | cons c s ih =>
      by_cases hline : c = '\n'
      · simp [lineStatement, hline]
      · by_cases hsemicolon : c = ';'
        · have hblank : isBlank ';' = false := by decide
          simp [lineStatement, hsemicolon, hblank]
        · simp [lineStatement, hline, hsemicolon, ih]

/-- **When a statement in one line is a given text** that does not end with a blank or a semicolon:
the text holds no end of a statement, and the rest of its line is blank. -/
theorem length_lineStatement_iff {s t : List Char} {x : Char} (hlast : s.getLast? = some x)
    (hblank : isBlank x = false) (hsemicolon : x ≠ ';') :
    (trimRight (lineStatement (s ++ t))).length = s.length ↔
      '\n' ∉ s ∧ ';' ∉ s ∧ ∀ y ∈ t.takeWhile (· != '\n'), isBlank y = true := by
  by_cases hend : '\n' ∈ s ∨ ';' ∈ s
  · have hbegins := lineStatement_append_begins hend t
    constructor
    · -- the statement would be all of the text, but it stops at its end
      intro hlength
      have htrim := (trimRight_begins (lineStatement (s ++ t))).length_le
      have hsame : lineStatement (s ++ t) = s :=
        hbegins.eq_of_length (Nat.le_antisymm hbegins.length_le (by omega))
      rcases hend with hline | hsemi
      · rw [← hsame] at hline
        exact absurd hline (newline_not_mem_lineStatement _)
      · have hsemi' := getLast?_lineStatement (hsame.symm ▸ hsemi)
        rw [hsame, hlast] at hsemi'
        exact absurd (Option.some.inj hsemi') hsemicolon
    · rintro ⟨hline, hsemi, -⟩
      exact absurd hend (by simp [hline, hsemi])
  · rw [not_or] at hend
    rw [lineStatement_word hend.2 hend.1, trimRight_append_of_getLast? hlast hblank,
      List.length_append, ← lineStatement_blank_iff, ← trimRight_eq_nil_iff]
    simp [hend.1, hend.2]

/-! ### Statements with a block -/

section
variable {file : SourceFile} {offset stop : Nat} {covered : List Char} {kind : ExportKind}
  {keyword : BlockKind} {item : ExportedItem}

/-- A statement whose block closes ends behind the closing brace. -/
theorem stop_of_blockEnd? {close : Nat} (hclose : blockEnd? file.text (stop - 1) = some close)
    (hle : offset ≤ close) :
    (recordOf file offset stop covered (.block kind keyword item)).span.stop = close + 1 := by
  obtain ⟨-, hlt, hbrace⟩ := blockEnd?_bounds hclose
  simp only [recordOf, hclose, edge, length_range_succ hlt,
    trimRight_eq_self (getLast?_range hle hbrace) (by decide : isBlank '\x7d' = false)]
  omega

/-- When a statement in one line ends with a closing brace. -/
theorem stop_line_eq_iff {close : Nat} (hle : offset ≤ close) (hlt : close < file.text.length)
    (hbrace : file.text[close]? = some '\x7d') :
    (recordOf file offset stop covered (.line kind item)).span.stop = close + 1 ↔
      '\n' ∉ range file.text offset (close + 1) ∧ ';' ∉ range file.text offset (close + 1) ∧
        ∀ y ∈ (file.text.drop (close + 1)).takeWhile (· != '\n'), isBlank y = true := by
  have hsplit : file.text.drop offset =
      range file.text offset (close + 1) ++ file.text.drop (close + 1) := by
    conv_lhs => rw [← List.take_append_drop (close + 1 - offset) (file.text.drop offset)]
    rw [range, List.drop_drop, Nat.add_sub_cancel' (Nat.le_succ_of_le hle)]
  rw [← length_lineStatement_iff (getLast?_range hle hbrace) (by decide) (by decide), ← hsplit,
    length_range_succ hlt]
  simp only [recordOf, edge]
  omega

/-- A statement whose block never closes ends with its first words. -/
theorem stop_le_of_blockEnd?_eq_none (hnone : blockEnd? file.text (stop - 1) = none) :
    (recordOf file offset stop covered (.block kind keyword item)).span.stop ≤
      offset + covered.length := by
  have hle := (trimRight_begins covered).length_le
  simp only [recordOf, hnone, edge]
  omega

/-- The first block behind the words of a statement opens at the first brace behind them. -/
theorem blockEnd?_behind {text middle rest : List Char} {y : Char}
    (hdrop : text.drop offset = covered ++ (middle ++ '\x7b' :: rest))
    (hlast : covered.getLast? = some y) (hy : y ≠ '\x7b') (hmiddle : '\x7b' ∉ middle) :
    blockEnd? text (offset + covered.length - 1) =
      closingBrace? text (offset + covered.length + middle.length) := by
  obtain ⟨init, rfl⟩ := List.getLast?_eq_some_iff.1 hlast
  have hbehind : text.drop (offset + init.length) = (y :: middle) ++ '\x7b' :: rest := by
    rw [← List.drop_drop, hdrop, List.append_assoc, List.drop_left]
    rfl
  have hhead : '\x7b' ∉ y :: middle := List.not_mem_cons_of_ne_of_not_mem hy.symm hmiddle
  rw [List.length_append, List.length_singleton, ← Nat.add_assoc, Nat.add_sub_cancel,
    blockEnd?_eq hhead hbehind, List.length_cons]
  congr 1
  omega

/-- A statement ends with the block whose brace is the first behind its words. -/
theorem stop_eq_of_first_block {middle rest : List Char} {y : Char} {close : Nat}
    (hdrop : file.text.drop offset = covered ++ (middle ++ '\x7b' :: rest))
    (hlast : covered.getLast? = some y) (hy : y ≠ '\x7b') (hmiddle : '\x7b' ∉ middle)
    (hclose : closingBrace? file.text (offset + covered.length + middle.length) = some close) :
    (recordOf file offset (offset + covered.length) covered (.block kind keyword item)).span.stop =
      close + 1 := by
  have hle := (closingBrace?_bounds hclose).1
  exact stop_of_blockEnd? ((blockEnd?_behind hdrop hlast hy hmiddle).trans hclose) (by omega)

/-- A statement does not end with a block that opens behind that one: either its own block never
closes, or the two close with different braces. -/
theorem stop_ne_of_first_block {middle rest rest' : List Char} {y : Char} {start close : Nat}
    (hdrop : file.text.drop offset = covered ++ (middle ++ '\x7b' :: rest))
    (hlast : covered.getLast? = some y) (hy : y ≠ '\x7b') (hmiddle : '\x7b' ∉ middle)
    (hlt : offset + covered.length + middle.length < start)
    (hopen : file.text.drop start = '\x7b' :: rest')
    (hclose : closingBrace? file.text start = some close) :
    (recordOf file offset (offset + covered.length) covered (.block kind keyword item)).span.stop ≠
      close + 1 := by
  have hle := (closingBrace?_bounds hclose).1
  have hblock := blockEnd?_behind hdrop hlast hy hmiddle
  cases hfirst : closingBrace? file.text (offset + covered.length + middle.length) with
  | none =>
      have hshort := @stop_le_of_blockEnd?_eq_none file offset _ covered kind keyword item
        (hblock.trans hfirst)
      omega
  | some close' =>
      have hbrace : file.text.drop (offset + covered.length + middle.length) = '\x7b' :: rest := by
        rw [Nat.add_assoc, ← List.drop_drop, hdrop, ← List.append_assoc, ← List.length_append,
          List.drop_left]
      rw [stop_eq_of_first_block hdrop hlast hy hmiddle hfirst]
      rcases closingBrace?_nested hlt hbrace hopen hfirst hclose with hapart | hinside
      · omega
      · omega

end

end Export

/-! ### Two records at one place -/

/-- **Two faithful records with one start agree if they end at one place.** -/
theorem same_iff_stop {text : List Char} {e : Element} {x : ExportEdge}
    (he : Covers text e.snippet e.span e.extent) (hx : Covers text x.raw x.span x.extent)
    (hstart : x.span.start = e.span.start) :
    (x.span = e.span ∧ x.raw = e.snippet) ↔ x.span.stop = e.span.stop := by
  constructor
  · rintro ⟨hspan, -⟩
    rw [hspan]
  · intro hstop
    have hspan : x.span = e.span := by
      cases hx : x.span
      cases he : e.span
      simp_all
    refine ⟨hspan, String.toList_injective ?_⟩
    rw [he.content_eq, hx.content_eq, hspan]

/-- One place has one export record. -/
theorem eq_of_mem_exports {file : SourceFile} {x y : ExportEdge} (hx : x ∈ file.exports)
    (hy : y ∈ file.exports) (hstart : x.span.start = y.span.start) : x = y := by
  have hmem : x ∈ file.exports.filter (·.span.start == y.span.start) :=
    List.mem_filter.2 ⟨hx, by simpa using hstart⟩
  rw [filter_exports_eq hy] at hmem
  exact List.mem_singleton.1 hmem

/-- Where an export record begins, the text begins with its keyword. -/
theorem export_begins {file : SourceFile} {x : ExportEdge} (hx : x ∈ file.exports) {start : Nat}
    (hstart : x.span.start = start) : "export".toList <+: file.text.drop start :=
  (faithful_export hx).keyword_begins.trans ((faithful_export hx).covers.begins hstart)

/-- The record of a head that is read as an export statement. -/
theorem eq_recordOf_takes {α : Type} {p : Pattern α} {file : SourceFile} {x : ExportEdge}
    {find : Find (Declaration.Header α)} (hplaced : find.Placed p file.text)
    (hx : x ∈ file.exports) (hstart : x.span.start = find.headOffset) {g : Written.Gap}
    {covered s t : List Char} {Q : Export.Form → Prop}
    (hbegins : covered = "export".toList ++ (g.text ++ s))
    (hdrop : file.text.drop find.headOffset = covered ++ t)
    (htakes : Takes Export.statement covered t Q) :
    ∃ form, Q form ∧
      x = Export.recordOf file find.headOffset (find.headOffset + covered.length) covered form := by
  obtain ⟨form, hform, hmem⟩ := exists_export_record hplaced hbegins hdrop htakes
  refine ⟨form, hform, eq_of_mem_exports hx hmem ?_⟩
  rw [hstart, Export.recordOf_start]

/-- A statement ends with the body of its head if no other brace stands behind its words. -/
theorem Export.stop_eq_of_head {α : Type} {p : Pattern α} {file : SourceFile}
    {find : Find (Declaration.Header α)} (hplaced : find.Placed p file.text) {close : Nat}
    (hclose : Declaration.bodyEnd? file.text find = some close) {covered middle : List Char}
    {y : Char} {kind : ExportKind} {keyword : BlockKind} {item : ExportedItem}
    (hreads : find.value.start.Reads (covered ++ (middle ++ ['\x7b'])) find.stop)
    (hlast : covered.getLast? = some y) (hy : y ≠ '\x7b') (hmiddle : '\x7b' ∉ middle) :
    (recordOf file find.headOffset (find.headOffset + covered.length) covered
      (.block kind keyword item)).span.stop = close + 1 := by
  have hdrop := hplaced.drop_eq hreads
  have hstop := hplaced.stopOffset_eq _ hreads
  simp only [List.length_append, List.length_singleton] at hstop
  rw [Declaration.bodyEnd?, show find.stopOffset - 1 =
    find.headOffset + covered.length + middle.length by omega] at hclose
  exact stop_eq_of_first_block (by simpa using hdrop) hlast hy hmiddle hclose

/-- A name does not end with a brace. -/
theorem exists_getLast?_of_isIdent {name : List Char} (h : isIdent name = true) :
    ∃ y, name.getLast? = some y ∧ y ≠ '\x7b' := by
  obtain ⟨y, hy⟩ := Option.isSome_iff_exists.1 (List.getLast?_isSome.2 (ne_nil_of_isIdent h))
  exact ⟨y, hy, ne_of_isIdentPart (isIdentPart_of_mem h y (List.mem_of_getLast? hy)) (by decide)⟩

/-! ### Functions -/

/-- No brace stands before the parenthesis that ends the parameters. -/
def Element.plainParameters (e : Element) : Prop :=
  '\x7b' ∉ e.snippet.toList.takeWhile (· != ')')

instance (e : Element) : Decidable e.plainParameters :=
  inferInstanceAs (Decidable (_ ∉ _))

namespace Written.FunctionHead

variable (head : FunctionHead)

/-- Up to the end of its parameters, the only braces of a head are among these. -/
theorem brace_mem_takeWhile_iff (more : List Char) :
    '\x7b' ∈ (head.text ++ more).takeWhile (· != ')') ↔ '\x7b' ∈ head.parameters.inner := by
  let opening := keywordText "export" head.exported ++ (keywordText "default" head.defaulted ++
    (head.words ++ (head.parameters.before.text ++ '(' :: head.parameters.inner)))
  have hsplit : head.text ++ more =
      opening ++ ')' :: (head.parameters.behind.text ++ '\x7b' :: more) := by
    simp [text_append, opening, ParameterList.text]
  have hparen : ∀ x ∈ opening, (x != ')') = true := by
    have hnot : ')' ∉ opening := by
      have hblank : isBlank ')' = false := by decide
      simp [opening, not_mem_keywordText, hblank, head.not_mem_words,
        head.parameters.before.not_mem hblank, head.parameters.paren_not_mem]
    intro x hx
    rw [bne_iff_ne]
    rintro rfl
    exact hnot hx
  have hblank : isBlank '\x7b' = false := by decide
  rw [hsplit, Stops.takeWhile_append (by simp) hparen]
  simp [opening, not_mem_keywordText, hblank, head.not_mem_words,
    head.parameters.before.not_mem hblank]

end Written.FunctionHead

section
variable {file : SourceFile} {find : Find (Declaration.Header Declaration.FunctionHead)}
  {close : Nat} {x : ExportEdge}

/-- An exported function that is an element is not the default export. -/
theorem defaulted_eq_none_of_function (hplaced : find.Placed Declaration.functionHead file.text)
    (hnone : file.exports.any (Declaration.isDefaultFunction (file.lineOf find.headOffset)) = false)
    {head : Written.FunctionHead} (hreads : find.value.start.Reads head.text find.stop)
    {g : Written.Gap} (hexported : head.exported = some g) : head.defaulted = none := by
  refine Option.eq_none_iff_forall_ne_some.2 fun d hdefaulted => ?_
  have hbegins : BeginsDefault find.headText := by
    rw [Find.headText, hreads.text_eq]
    exact head.beginsDefault_text_iff.2 ⟨g, d, hexported, hdefaulted⟩
  obtain ⟨y, hy, -, -, -, hdefault⟩ := exists_default_record hplaced hbegins
  rw [List.any_eq_true.2 ⟨y, hy, hdefault⟩] at hnone
  exact absurd hnone (by decide)

/-- The record of an exported function that is an element: its statement is a declaration. -/
theorem eq_record_of_function (hplaced : find.Placed Declaration.functionHead file.text)
    (hnone : file.exports.any (Declaration.isDefaultFunction (file.lineOf find.headOffset)) = false)
    (hx : x ∈ file.exports) (hstart : x.span.start = find.headOffset)
    {head : Written.FunctionHead} (hreads : find.value.start.Reads head.text find.stop) :
    ∃ g covered item, head.exported = some g ∧ head.defaulted = none ∧
      covered = "export".toList ++ (g.text ++ head.words) ∧
      x = Export.recordOf file find.headOffset (find.headOffset + covered.length) covered
        (.block .declaration .function item) := by
  have hdrop := hplaced.drop_eq hreads
  obtain ⟨g, hexported⟩ := head.exported_of_begins (hdrop ▸ export_begins hx hstart)
  have hdefaulted := defaulted_eq_none_of_function hplaced hnone hreads hexported
  rw [head.text_append, hexported, hdefaulted] at hdrop
  obtain ⟨_, rfl, hrecord⟩ := eq_recordOf_takes hplaced hx hstart rfl
    (hdrop.trans (by simp [Written.keywordText])) (head.takes_declaration g ('\x7b' :: find.stop.rest))
  exact ⟨g, _, _, hexported, hdefaulted, rfl, hrecord⟩

theorem plainParameters_functionElement (hplaced : find.Placed Declaration.functionHead file.text)
    (hclose : Declaration.bodyEnd? file.text find = some close) {head : Written.FunctionHead}
    (hreads : find.value.start.Reads head.text find.stop) :
    (Declaration.functionElement file find close).plainParameters ↔
      '\x7b' ∉ head.parameters.inner := by
  have hle := (closingBrace?_bounds hclose).1
  obtain ⟨more, hmore⟩ := hplaced.range_eq hreads (by omega : find.stopOffset ≤ close + 1)
  rw [Element.plainParameters, ← head.brace_mem_takeWhile_iff more, ← hmore,
    Declaration.functionElement, String.toList_ofList, Find.headOffset]

/-- **The export of a function ends with it if no brace stands among its parameters.**  Otherwise the
first block behind the name is another. -/
theorem stop_eq_iff_of_function (hplaced : find.Placed Declaration.functionHead file.text)
    (hclose : Declaration.bodyEnd? file.text find = some close)
    (hnone : file.exports.any (Declaration.isDefaultFunction (file.lineOf find.headOffset)) = false)
    (hx : x ∈ file.exports) (hstart : x.span.start = find.headOffset) :
    x.span.stop = close + 1 ↔ (Declaration.functionElement file find close).plainParameters := by
  obtain ⟨head, hreads, -⟩ := exists_functionHead hplaced.mem_outcomes
  obtain ⟨g, covered, item, hexported, hdefaulted, hcovered, rfl⟩ :=
    eq_record_of_function hplaced hnone hx hstart hreads
  rw [plainParameters_functionElement hplaced hclose hreads]
  have htext : head.text = covered ++ (head.parameters.text ++ ['\x7b']) := by
    rw [← List.append_nil head.text, head.text_append, hexported, hdefaulted, hcovered]
    simp [Written.keywordText]
  rw [htext] at hreads
  obtain ⟨y, hname, hy⟩ := exists_getLast?_of_isIdent head.name.isIdent_text
  have hlast : covered.getLast? = some y := by
    simp only [hcovered, Written.FunctionHead.words, List.getLast?_append, hname, Option.some_or]
  have hbrace : isBlank '\x7b' = false := by decide
  by_cases hinner : '\x7b' ∈ head.parameters.inner
  · -- the first brace among the parameters opens the first block
    obtain ⟨u, v, hsplit, hu⟩ := List.eq_append_cons_of_mem hinner
    let middle := head.parameters.before.text ++ '(' :: u
    have hmiddle : '\x7b' ∉ middle := by
      simp [middle, head.parameters.before.not_mem hbrace, hu]
    have hparameters : head.parameters.text =
        middle ++ '\x7b' :: (v ++ ')' :: head.parameters.behind.text) := by
      simp [middle, Written.ParameterList.text, hsplit]
    rw [hparameters] at hreads
    have hstop := hplaced.stopOffset_eq _ hreads
    simp only [List.length_append, List.length_cons, List.length_nil] at hstop
    have hdrop := hplaced.drop_eq hreads
    simp only [List.append_assoc, List.cons_append] at hdrop
    simpa only [hinner, not_true_eq_false, iff_false] using
      Export.stop_ne_of_first_block hdrop hlast hy hmiddle (by omega)
        (hplaced.exists_last endsWith_functionHead).2 hclose
  · have hmiddle : '\x7b' ∉ head.parameters.text := by
      simp [Written.ParameterList.text, head.parameters.before.not_mem hbrace,
        head.parameters.behind.not_mem hbrace, hinner]
    simp only [hinner, not_false_eq_true, iff_true]
    exact Export.stop_eq_of_head hplaced hclose hreads hlast hy hmiddle

end

/-! ### Classes -/

/-- The text behind its first word and the blanks that follow this. -/
def Text.dropWord (s : List Char) : List Char :=
  (s.dropWhile (!isBlank ·)).dropWhile isBlank

theorem dropWord_append (keyword : String) (hkeyword : keyword.toList.all (!isBlank ·) = true)
    (g : Written.Gap) {s : List Char} (hs : Stops isBlank s) :
    dropWord (keyword.toList ++ (g.text ++ s)) = s := by
  have hgap : (g.text ++ s).dropWhile (!isBlank ·) = g.text ++ s := by
    obtain ⟨y, t, hg⟩ := List.exists_cons_of_ne_nil g.ne_nil
    rw [hg, List.cons_append, List.dropWhile_cons_of_neg]
    simpa using g.isBlank_of_mem y (by simp [hg])
  have hrest : s.dropWhile isBlank = s := by
    cases s with
    | nil => rfl
    | cons y t => exact List.dropWhile_cons_of_neg (by simpa using hs)
  rw [dropWord, List.dropWhile_append_of_pos (List.all_eq_true.1 hkeyword), hgap,
    List.dropWhile_append_of_pos g.isBlank_of_mem, hrest]

/-- The name is all of the identifier that follows three words. -/
def Element.wholeName (e : Element) : Prop :=
  (dropWord (dropWord (dropWord e.snippet.toList))).takeWhile isIdentPart = e.name.toList

instance (e : Element) : Decidable e.wholeName :=
  inferInstanceAs (Decidable (_ = _))

/-- The declaration ends in its line, without a semicolon, and nothing follows it there. -/
def Element.fillsLine (text : List Char) (e : Element) : Prop :=
  '\n' ∉ e.snippet.toList ∧ ';' ∉ e.snippet.toList ∧
    ((text.drop e.span.stop.toNat).takeWhile (· != '\n')).all isBlank = true

instance (text : List Char) (e : Element) : Decidable (e.fillsLine text) :=
  inferInstanceAs (Decidable (_ ∧ _))

namespace Written.ClassHead

variable (head : ClassHead)

theorem text_append (rest : List Char) :
    head.text ++ rest = keywordText "export" head.exported ++
      (keywordText "default" head.defaulted ++
        ("class".toList ++ (head.gap.text ++ (head.tail ++ '\x7b' :: rest)))) := by
  simp [text, front]

/-- A head at which an export begins has that keyword. -/
theorem exported_of_begins {rest : List Char} (h : "export".toList <+: head.text ++ rest) :
    ∃ g, head.exported = some g := by
  rw [text_append] at h
  exact exists_gap_of_begins (stops_cons.2 (by decide)) h

theorem brace_not_mem_tail : '\x7b' ∉ head.tail := by
  have hfront := head.brace_not_mem_front
  simp only [front, List.mem_append, not_or] at hfront
  exact hfront.2.2.2.2

/-- The name of a default class is whole if its identifier ends with it. -/
theorem isWhole_iff {g d : Gap} (hexported : head.exported = some g)
    (hdefaulted : head.defaulted = some d) (more : List Char) :
    (dropWord (dropWord (dropWord (head.text ++ more)))).takeWhile isIdentPart = head.name.text ↔
      head.isWhole = true := by
  have hname : Stops isBlank (head.tail ++ '\x7b' :: more) := by
    rw [tail, List.append_assoc]
    exact stops_isBlank_name head.name _
  have hwords : dropWord (dropWord (dropWord (head.text ++ more))) = head.tail ++ '\x7b' :: more := by
    rw [text_append, hexported, hdefaulted]
    simp only [keywordText, Option.elim_some, List.append_assoc]
    rw [dropWord_append "export" (by decide) g ?_, dropWord_append "default" (by decide) d ?_,
      dropWord_append "class" (by decide) head.gap hname]
    · exact stops_cons.2 (by decide)
    · exact stops_cons.2 (by decide)
  rw [hwords]
  have hpart := isIdentPart_of_mem head.name.isIdent_text
  cases hwhole : head.isWhole with
  | true =>
      rw [tail, List.append_assoc, Stops.takeWhile_append ?_ hpart]
      · simp
      · simpa using head.stops_behind hwhole more
  | false =>
      -- the letters of the keyword follow the name
      obtain ⟨clause, -, htail⟩ := head.exists_clause_of_cut hwhole
      have hletter : isIdentPart 'e' = true := by decide
      rw [htail, List.append_assoc, List.append_assoc, List.takeWhile_append_of_pos hpart]
      simp [hletter]

end Written.ClassHead

section
variable {file : SourceFile} {find : Find (Declaration.Header Capture)} {close : Nat}
  {x : ExportEdge}

theorem wholeName_classElement (hplaced : find.Placed Declaration.classHead file.text)
    (hclose : Declaration.bodyEnd? file.text find = some close) {head : Written.ClassHead}
    (hreads : find.value.start.Reads head.text find.stop)
    (hname : find.value.parts.text = head.name.text) {g d : Written.Gap}
    (hexported : head.exported = some g) (hdefaulted : head.defaulted = some d) :
    (Declaration.classElement file find close).wholeName ↔ head.isWhole = true := by
  have hle := (closingBrace?_bounds hclose).1
  obtain ⟨more, hmore⟩ := hplaced.range_eq hreads (by omega : find.stopOffset ≤ close + 1)
  rw [← head.isWhole_iff hexported hdefaulted more, ← hmore, ← hname, Element.wholeName,
    Declaration.classElement, String.toList_ofList, String.toList_ofList, Find.headOffset]

/-- The export of a class that is not the default ends with it. -/
theorem stop_eq_of_declaration (hplaced : find.Placed Declaration.classHead file.text)
    (hclose : Declaration.bodyEnd? file.text find = some close) (hx : x ∈ file.exports)
    (hstart : x.span.start = find.headOffset) {head : Written.ClassHead}
    (hreads : find.value.start.Reads head.text find.stop) {g : Written.Gap}
    (hexported : head.exported = some g) (hdefaulted : head.defaulted = none) :
    x.kind = .declaration ∧ x.span.stop = close + 1 := by
  let name := head.tail.takeWhile isIdentPart
  let covered := "export".toList ++ (g.text ++ ("class".toList ++ (head.gap.text ++ name)))
  let middle := head.tail.dropWhile isIdentPart
  have htail : head.tail = name ++ middle := List.takeWhile_append_dropWhile.symm
  have htext : head.text = covered ++ (middle ++ ['\x7b']) := by
    rw [← List.append_nil head.text, head.text_append, hexported, hdefaulted, htail]
    simp [covered, Written.keywordText]
  rw [htext] at hreads
  have hmiddle : '\x7b' ∉ middle := fun h =>
    head.brace_not_mem_tail (List.dropWhile_subset _ h)
  obtain ⟨y, hname, hy⟩ := exists_getLast?_of_isIdent head.isIdent_takeWhile_tail
  have hlast : covered.getLast? = some y := by
    simp only [covered, name, List.getLast?_append, hname, Option.some_or]
  have hdrop := hplaced.drop_eq hreads
  simp only [List.append_assoc, List.cons_append] at hdrop
  obtain ⟨_, ⟨item, rfl⟩, rfl⟩ := eq_recordOf_takes hplaced hx hstart rfl hdrop
    (head.takes_declaration g find.stop.rest)
  exact ⟨rfl, Export.stop_eq_of_head hplaced hclose hreads hlast hy hmiddle⟩

/-- The export of a default class ends with it if the name is whole.  Otherwise it ends with its
line, or with the first semicolon there. -/
theorem stop_eq_iff_of_default (hplaced : find.Placed Declaration.classHead file.text)
    (hclose : Declaration.bodyEnd? file.text find = some close) (hx : x ∈ file.exports)
    (hstart : x.span.start = find.headOffset) {head : Written.ClassHead}
    (hreads : find.value.start.Reads head.text find.stop) {g d : Written.Gap}
    (hexported : head.exported = some g) (hdefaulted : head.defaulted = some d) :
    x.kind = .defaultExpression ∧ (x.span.stop = close + 1 ↔
      head.isWhole = true ∨ (Declaration.classElement file find close).fillsLine file.text) := by
  obtain ⟨hle, hlt, hbrace⟩ := closingBrace?_bounds hclose
  obtain ⟨hbefore, hbody⟩ := hplaced.exists_last endsWith_classHead
  have hdrop := hplaced.drop_eq hreads
  have hstop := hplaced.stopOffset_eq _ hreads
  cases hwhole : head.isWhole with
  | true =>
      have htext : head.text = "export".toList ++ (g.text ++ ("default".toList ++ (d.text ++
          ("class".toList ++ (head.gap.text ++ (head.tail ++ "\x7b".toList)))))) := by
        rw [← List.append_nil head.text, head.text_append, hexported, hdefaulted]
        simp [Written.keywordText]
      obtain ⟨_, ⟨item, rfl⟩, rfl⟩ := eq_recordOf_takes hplaced hx hstart htext hdrop
        (htext ▸ head.takes_default hwhole g d find.stop.rest)
      refine ⟨rfl, ?_⟩
      have hblock : Export.blockEnd? file.text (find.headOffset + head.text.length - 1) =
          some close := by
        rw [← hstop, Export.blockEnd?_eq List.not_mem_nil hbody]
        exact hclose
      simp only [true_or, iff_true]
      exact Export.stop_of_blockEnd? hblock (by omega)
  | false =>
      rw [head.text_append, hexported, hdefaulted] at hdrop
      obtain ⟨_, ⟨item, rfl⟩, rfl⟩ := eq_recordOf_takes hplaced hx hstart rfl
        (hdrop.trans (by simp [Written.keywordText]))
        (head.takes_default_cut hwhole g d find.stop.rest)
      refine ⟨rfl, ?_⟩
      rw [Export.stop_line_eq_iff (by omega) hlt hbrace]
      simp [Element.fillsLine, Declaration.classElement, Find.headOffset]

/-- **When the export of a class ends with it.** -/
theorem stop_eq_iff_of_class (hplaced : find.Placed Declaration.classHead file.text)
    (hclose : Declaration.bodyEnd? file.text find = some close) (hx : x ∈ file.exports)
    (hstart : x.span.start = find.headOffset) :
    x.span.stop = close + 1 ↔
      x.kind = .declaration ∨ (Declaration.classElement file find close).wholeName ∨
        (Declaration.classElement file find close).fillsLine file.text := by
  obtain ⟨head, hreads, hname⟩ := exists_classHead hplaced.mem_outcomes
  obtain ⟨g, hexported⟩ := head.exported_of_begins
    (hplaced.drop_eq hreads ▸ export_begins hx hstart)
  cases hdefaulted : head.defaulted with
  | none =>
      obtain ⟨hkind, hstop⟩ :=
        stop_eq_of_declaration hplaced hclose hx hstart hreads hexported hdefaulted
      exact iff_of_true hstop (Or.inl hkind)
  | some d =>
      obtain ⟨hkind, hstop⟩ :=
        stop_eq_iff_of_default hplaced hclose hx hstart hreads hexported hdefaulted
      rw [hstop, wholeName_classElement hplaced hclose hreads hname hexported hdefaulted, hkind]
      simp

end

/-! ### Exports and declarations -/

/-- **When an export covers what its declaration covers.**  A function and its export agree if no
brace stands among the parameters.  A class and its export agree if it is not the default, or its
name is whole, or the class is all that its line holds. -/
theorem export_agrees_iff (path : String) (text : List Char) :
    let outline := (SourceFile.ofText path text).outline.value
    ∀ e ∈ outline.elements, ∀ x ∈ outline.exports, x.span.start = e.span.start →
      (e.kind = .function → (x.span = e.span ∧ x.raw = e.snippet ↔ e.plainParameters)) ∧
      (e.kind = .classDecl → (x.span = e.span ∧ x.raw = e.snippet ↔
        x.kind = .declaration ∨ e.wholeName ∨ e.fillsLine text)) := by
  intro outline e he x hx hstart
  have hsame := same_iff_stop (faithful_element he).covers (faithful_export hx).covers hstart
  refine ⟨fun hkind => ?_, fun hkind => ?_⟩
  · obtain ⟨find, hfind, hrecord⟩ := SourceFile.function_of_mem_elements he hkind
    obtain ⟨-, hnone, close, hclose, rfl⟩ := Declaration.functionRecord?_eq_some_iff.1 hrecord
    rw [hsame]
    exact stop_eq_iff_of_function (placed_of_mem_findAll hfind) hclose hnone hx hstart
  · obtain ⟨find, hfind, close, hclose, rfl⟩ := SourceFile.class_of_mem_elements he hkind
    rw [hsame]
    exact stop_eq_iff_of_class (placed_of_mem_findAll hfind) hclose hx hstart

/-- A class whose name is cut, but which is all that its line holds, and a generator. -/
theorem export_agrees_in_one_line :
    let text :=
      "export default class Aextends B \x7b\x7d \nexport async function* f(a) \x7b\n\x7d\n".toList
    let outline := (SourceFile.ofText "p.js" text).outline.value
    (∃ e ∈ outline.elements, ∃ x ∈ outline.exports, x.span.start = e.span.start ∧
      e.kind = .function ∧ e.plainParameters ∧ x.span = e.span ∧ x.raw = e.snippet) ∧
    ∃ e ∈ outline.elements, ∃ x ∈ outline.exports, x.span.start = e.span.start ∧
      e.kind = .classDecl ∧ e.fillsLine text ∧ x.span = e.span ∧ x.raw = e.snippet := by
  intro text outline
  obtain ⟨e, he, x, hx, hstart, hkind, hplain⟩ : ∃ e ∈ outline.elements, ∃ x ∈ outline.exports,
      x.span.start = e.span.start ∧ e.kind = .function ∧ e.plainParameters := by
    decide +kernel
  obtain ⟨e', he', x', hx', hstart', hkind', hline⟩ : ∃ e ∈ outline.elements,
      ∃ x ∈ outline.exports, x.span.start = e.span.start ∧ e.kind = .classDecl ∧
        e.fillsLine text := by
    decide +kernel
  have hfunction := (export_agrees_iff "p.js" text e he x hx hstart).1 hkind
  have hclass := (export_agrees_iff "p.js" text e' he' x' hx' hstart').2 hkind'
  exact ⟨⟨e, he, x, hx, hstart, hkind, hplain, hfunction.2 hplain⟩,
    e', he', x', hx', hstart', hkind', hline, hclass.2 (Or.inr (Or.inr hline))⟩

/-- A brace among the parameters closes before the body opens, and the export ends there. -/
theorem export_disagrees :
    let outline := (SourceFile.ofText "p.js"
      "export function f(\x7ba\x7d) \x7b\n\x7d\n".toList).outline.value
    ∃ e ∈ outline.elements, ∃ x ∈ outline.exports, x.span.start = e.span.start ∧
      e.kind = .function ∧ e.span = ⟨0, 26⟩ ∧ x.span = ⟨0, 21⟩ ∧
        e.snippet = "export function f(\x7ba\x7d) \x7b\n\x7d" ∧
        x.raw = "export function f(\x7ba\x7d" := by
  decide +kernel

end SourceOutline
