/-
**Outlining never fails.**

Some steps of the passes could fail on a text that does not suit them: reading a character by its
index, searching for a brace from an index, and a block that never closes, which is raised as a
fault where it is found and caught where the block is wanted.  Here the passes are written once more
with these faults.  No index is ever out of range and every unclosed block is caught, so what comes
out is the outline.

Main definitions:

* `Fault` — an index out of range, or a block that never closes;
* `Text.charAt`, `Text.requireClose` — the steps that fail;
* `Export.attempt`, `Declaration.attemptClass`, … — the passes with their faults;
* `SourceFile.attemptOutline` — the outline, if no fault is left.

Main results:

* `Export.attempt_eq`, `Declaration.attemptClass_eq`, … — no pass leaves a fault;
* `outline_faithful` — **every text has an outline, and its records are faithful to the text**.
-/

import SourceOutline.Proofs.Faithful

set_option autoImplicit false

namespace SourceOutline

open Text Pattern

/-- What can go wrong in a pass. -/
inductive Fault where
  | outOfRange
  | unclosed (block : UnclosedBlock)
  deriving DecidableEq, Repr

/-- Goes on with the brace that was found, or with the block that was raised as unclosed; any other
fault stays. -/
def catchUnclosed {α : Type} (search : Except Fault Nat) (found : Nat → Except Fault α)
    (unclosed : UnclosedBlock → Except Fault α) : Except Fault α :=
  match search with
  | .ok close => found close
  | .error (.unclosed block) => unclosed block
  | .error .outOfRange => .error .outOfRange

/-- A pass whose steps all succeed succeeds. -/
theorem mapM_eq_ok {α β : Type} {f : α → Except Fault β} {g : α → β} {items : List α}
    (h : ∀ a ∈ items, f a = .ok (g a)) : items.mapM f = .ok (items.map g) := by
  induction items with
  | nil => rfl
  | cons a items ih =>
      rw [List.mapM_cons, h a List.mem_cons_self,
        ih fun b hb => h b (List.mem_cons_of_mem a hb)]
      rfl

/-! ### Steps that fail -/

namespace Text

/-- The character at an index; a negative index counts from the end. -/
def charAt (text : List Char) (index : Int) : Except Fault Char :=
  let position := if index < 0 then index + text.length else index
  if position < 0 then
    .error .outOfRange
  else
    match text[position.toNat]? with
    | some c => .ok c
    | none => .error .outOfRange

/-- The closing brace of the block that opens at `start`; its absence is raised. -/
def requireClose (text : List Char) (start : Int) (block : UnclosedBlock) : Except Fault Nat :=
  match closingBraceFrom text start with
  | .error _ => .error .outOfRange
  | .ok none => .error (.unclosed block)
  | .ok (some close) => .ok close.toNat

/-- The closing brace of the first block that opens at `start` or later. -/
def requireBlock (text : List Char) (start : Int) (block : UnclosedBlock) : Except Fault Nat :=
  let first := clamp text.length start
  match (text.drop first).findIdx? (· == '\x7b') with
  | some ahead => requireClose text (first + ahead : Nat) block
  | none => .error (.unclosed block)

/-- The text from `start` through the character at `last`, trimmed; a line feed there is left
out. -/
def textThrough (text : List Char) (start last : Int) : Except Fault (List Char) := do
  let c ← charAt text last
  return trimRight (slice text start (if c == '\n' then last else last + 1))

theorem charAt_natCast {text : List Char} {index : Nat} {c : Char} (h : text[index]? = some c) :
    charAt text index = .ok c := by
  have hindex : ¬ (index : Int) < 0 := by omega
  simp only [charAt, if_neg hindex, Int.toNat_natCast, h]

theorem requireClose_natCast (text : List Char) (start : Nat) (block : UnclosedBlock) :
    requireClose text start block =
      match closingBrace? text start with
      | some close => .ok close
      | none => .error (.unclosed block) := by
  have hstart : ¬ (start : Int) < 0 := by omega
  simp only [requireClose, closingBraceFrom, if_neg hstart, Int.toNat_natCast]
  cases closingBrace? text start <;> rfl

theorem requireBlock_natCast {text : List Char} {start : Nat} (h : start ≤ text.length)
    (block : UnclosedBlock) :
    requireBlock text start block =
      match Export.blockEnd? text start with
      | some close => .ok close
      | none => .error (.unclosed block) := by
  have hfirst : clamp text.length start = start := by
    rw [clamp_natCast, Nat.min_eq_left h]
  simp only [requireBlock, hfirst, Export.blockEnd?]
  cases (text.drop start).findIdx? (· == '\x7b') with
  | none => rfl
  | some ahead => exact requireClose_natCast text (start + ahead) block

/-- Within the text the reading succeeds, and the line feed makes no difference. -/
theorem textThrough_natCast {text : List Char} {start last : Nat} (hle : start ≤ last)
    (hlast : last < text.length) :
    textThrough text start last = .ok (trimRight (range text start (last + 1))) := by
  obtain ⟨c, hc⟩ : ∃ c, text[last]? = some c := ⟨_, List.getElem?_eq_getElem hlast⟩
  have hstop : (last : Int) + 1 = (last + 1 : Nat) := by omega
  simp only [textThrough, charAt_natCast hc]
  by_cases hline : c = '\n'
  · subst hline
    have hlength : last + 1 - start = (last - start) + 1 := by omega
    have hrange : range text start (last + 1) = range text start last ++ ['\n'] := by
      rw [range, range, hlength, List.take_add_one, List.getElem?_drop, Nat.add_sub_cancel' hle, hc]
      rfl
    have hslice := slice_natCast text start last (by omega) (by omega)
    rw [hrange, trimRight_append_of_isBlank (by simp [isBlank_newline]), ← hslice]
    rfl
  · have hslice := slice_natCast text start (last + 1) (by omega) (by omega)
    have hchoice : (if c == '\n' then (last : Int) else last + 1) = last + 1 :=
      if_neg (by simpa using hline)
    rw [← hslice, ← hstop]
    exact congrArg (fun stop => Except.ok (trimRight (slice text start stop))) hchoice

end Text

/-! ### Exports -/

namespace Export

/-- The nearer of the next semicolon and the next line feed, or the last character of the text. -/
def statementEnd (text : List Char) (start : Nat) : Int :=
  match (text.drop start).findIdx? fun c => c == ';' || c == '\n' with
  | some ahead => (start + ahead : Nat)
  | none => text.length - 1

/-- What a statement at `offset` gives, whose first words end at `stop` and cover `covered`. -/
def attempt (file : SourceFile) (offset stop : Nat) (covered : List Char) :
    Form → Except Fault (List (Finding ExportEdge))
  | .whole kind items source => .ok [.record (edge file offset covered kind items source)]
  | .line kind item => do
    let raw ← textThrough file.text offset (statementEnd file.text offset)
    return [.record (edge file offset raw kind [item] none)]
  | .block kind keyword item =>
    let block : UnclosedBlock := ⟨keyword.label, item.localName, file.lineOf offset⟩
    catchUnclosed (requireBlock file.text (stop - 1) block)
      (fun close => do
        let raw ← textThrough file.text offset close
        return [.record (edge file offset raw kind [item] none)])
      fun block => do
        let raw ← textThrough file.text offset (stop - 1)
        return [.warning (.headerOnly file.path block),
          .record (edge file offset raw kind [item] none)]

/-- A record is made of trimmed text. -/
theorem edge_trimRight (file : SourceFile) (offset : Nat) (covered : List Char) (kind : ExportKind)
    (items : List ExportedItem) (source : Option String) :
    edge file offset (trimRight covered) kind items source =
      edge file offset covered kind items source := by
  have htrim : trimRight (trimRight covered) = trimRight covered := by
    cases hlast : (trimRight covered).getLast? with
    | none => rw [List.getLast?_eq_none_iff.1 hlast]; rfl
    | some x => exact trimRight_eq_self hlast (isBlank_of_mem_getLast?_trimRight hlast)
  simp only [edge, htrim]

/-- The end that the search finds and the text of a statement in one line agree, but for a line
feed. -/
theorem take_statementEnd (text : List Char) :
    ∃ more, (∀ x ∈ more, isBlank x = true) ∧
      text.take (((text.findIdx? fun c => c == ';' || c == '\n').getD text.length) + 1) =
        lineStatement text ++ more := by
  induction text with
  | nil => exact ⟨[], by simp, rfl⟩
  | cons c rest ih =>
      by_cases hline : c = '\n'
      · subst hline
        exact ⟨['\n'], by simp [isBlank_newline], by simp [List.findIdx?_cons, lineStatement]⟩
      · by_cases hsemicolon : c = ';'
        · subst hsemicolon
          exact ⟨[], by simp, by simp [List.findIdx?_cons, lineStatement]⟩
        · obtain ⟨more, hmore, htake⟩ := ih
          refine ⟨more, hmore, ?_⟩
          simp [List.findIdx?_cons, lineStatement, hline, hsemicolon, htake]

/-- Some character of the statement's line, or of the text, ends the statement. -/
theorem textThrough_statementEnd {text : List Char} {start : Nat} (h : start < text.length) :
    textThrough text start (statementEnd text start) =
      .ok (trimRight (lineStatement (text.drop start))) := by
  obtain ⟨more, hmore, htake⟩ := take_statementEnd (text.drop start)
  rw [← trimRight_append_of_isBlank hmore, ← htake, statementEnd]
  cases hfind : (text.drop start).findIdx? fun c => c == ';' || c == '\n' with
  | some ahead =>
      have hahead : ahead < (text.drop start).length :=
        (List.findIdx?_eq_some_iff_findIdx_eq.1 hfind).1
      rw [List.length_drop] at hahead
      simp only [Option.getD_some]
      rw [textThrough_natCast (by omega) (by omega), range]
      congr 4
      omega
  | none =>
      have hlast : (text.length - 1 : Int) = (text.length - 1 : Nat) := by omega
      have hdrop := List.length_drop (i := start) (l := text)
      simp only [Option.getD_none]
      rw [hlast, textThrough_natCast (by omega) (by omega), range,
        List.take_of_length_le (by omega), List.take_of_length_le (by omega)]

/-- No fault is left of an export statement: its end is always a character of the text. -/
theorem attempt_eq {file : SourceFile} {offset : Nat} {covered : List Char} {form : Form}
    (hcovered : covered <+: file.text.drop offset) (hne : covered ≠ []) :
    attempt file offset (offset + covered.length) covered form =
      .ok (findings file offset (offset + covered.length) covered form) := by
  have hlength := length_le_of_prefix_drop hcovered hne
  have hpos : 0 < covered.length := List.length_pos_iff.2 hne
  have hstop : ((offset + covered.length : Nat) : Int) - 1 = (offset + covered.length - 1 : Nat) := by
    omega
  cases form with
  | whole kind items source => rfl
  | line kind item =>
      simp only [attempt, textThrough_statementEnd (show offset < file.text.length by omega)]
      rw [findings, ← edge_trimRight]
      rfl
  | block kind keyword item =>
      simp only [attempt, findings, hstop]
      rw [requireBlock_natCast (by omega)]
      cases hclose : blockEnd? file.text (offset + covered.length - 1) with
      | some close =>
          obtain ⟨hle, hlt, -⟩ := blockEnd?_bounds hclose
          simp only [catchUnclosed, textThrough_natCast (show offset ≤ close by omega) hlt]
          rw [← edge_trimRight]
          rfl
      | none =>
          have hstart : offset ≤ offset + covered.length - 1 := by omega
          have hend : offset + covered.length - 1 < file.text.length := by omega
          have hrange : range file.text offset (offset + covered.length - 1 + 1) = covered := by
            rw [Nat.sub_add_cancel (by omega)]
            exact range_eq_of_prefix hcovered
          simp only [catchUnclosed, textThrough_natCast hstart hend, hrange]
          rw [← edge_trimRight]
          rfl

end Export

/-- What the keyword of an export gives. -/
def SourceFile.attemptExport (file : SourceFile) (find : Find Cursor) :
    Except Fault (List (Finding ExportEdge)) :=
  match Export.statement.first? find.value with
  | some (form, stop) =>
    let covered : Capture := ⟨find.value, stop⟩
    Export.attempt file (find.offsetOf find.value) (find.offsetOf stop) covered.text form
  | none => .ok []

/-! ### Declarations -/

namespace Declaration

/-- What a head found in the body of a class gives. -/
def attemptMethod (file : SourceFile) (className : String) (base : Int) (body : List Char)
    (find : Find (Header MethodHead)) : Except Fault (List (Finding Element)) :=
  let name := String.ofList find.value.parts.name.text
  if isControlWord name then
    .ok []
  else
    let line := file.lineOf (base + find.offsetOf find.value.start)
    catchUnclosed (requireClose body (find.stopOffset - 1) ⟨"method", name, line⟩)
      (fun close => .ok [.record (methodElement file className base find close)])
      fun block => .ok [.warning (.skippedMethod file.path className block)]

/-- What the head of a class gives. -/
def attemptClass (file : SourceFile) (find : Find (Header Capture)) :
    Except Fault (List (Finding Element)) :=
  let name := String.ofList find.value.parts.text
  let line := file.lineOf (find.offsetOf find.value.start)
  catchUnclosed (requireClose file.text (find.stopOffset - 1) ⟨"class", name, line⟩)
    (fun close => do
      let body := slice file.text find.stopOffset close
      let methods ← (methodFinds body).mapM (attemptMethod file name find.stopOffset body)
      return .record (classElement file find close) :: methods.flatten)
    fun block => .ok [.warning (.skipped file.path block)]

/-- What the head of a function gives. -/
def attemptFunction (file : SourceFile) (classes : List Element) (exports : List ExportEdge)
    (find : Find (Header FunctionHead)) : Except Fault (List (Finding Element)) :=
  let start := find.offsetOf find.value.start
  let line := file.lineOf start
  if classes.any fun e => e.kind == .classDecl && e.span.contains start then
    .ok []
  else if exports.any (isDefaultFunction line) then
    .ok []
  else
    let name := String.ofList find.value.parts.name.text
    catchUnclosed (requireClose file.text (find.stopOffset - 1) ⟨"function", name, line⟩)
      (fun close => .ok [.record (functionElement file find close)])
      fun block => .ok [.warning (.skipped file.path block)]

section
variable {α : Type} {p : Pattern α} {text : List Char} {find : Find (Header α)}

/-- A head is not empty, so the search for its closing brace starts at its last character. -/
theorem requireClose_find (hp : Opens p (!isBlank ·))
    (hmem : (find.value, find.stop) ∈ (header p).outcomes find.start) (block : UnclosedBlock) :
    requireClose text (find.stopOffset - 1) block =
      match bodyEnd? text find with
      | some close => .ok close
      | none => .error (.unclosed block) := by
  obtain ⟨⟨s, hs⟩, hparts⟩ := reads_of_mem_outcomes_header hmem
  obtain ⟨x, t, -, ht⟩ := hp _ _ hparts
  have hpos : 1 ≤ find.stopOffset := by
    simp only [Find.stopOffset, (hs.append ht).gap_eq, List.length_append, List.length_cons]
    omega
  have hlast : (find.stopOffset : Int) - 1 = (find.stopOffset - 1 : Nat) := by omega
  rw [hlast, requireClose_natCast]
  rfl

end

theorem attemptMethod_eq {file : SourceFile} {className : String} {base : Int} {body : List Char}
    {find : Find (Header MethodHead)} (hfind : find ∈ methodFinds body) :
    attemptMethod file className base body find =
      .ok (methodFinding file className base body find) := by
  obtain ⟨-, -, hfirst⟩ := mem_scan (Cursor.standsAt_ofText body) hfind
  simp only [attemptMethod, methodFinding]
  split
  · rfl
  · rw [requireClose_find opens_methodHead (List.mem_of_head? hfirst)]
    cases bodyEnd? body find <;> rfl

theorem attemptClass_eq {file : SourceFile} {find : Find (Header Capture)}
    (hfind : find ∈ findAll (header classHead) file.text) :
    attemptClass file find = .ok (classFinding file find) := by
  simp only [attemptClass, classFinding, requireClose_find opens_classHead (mem_findAll hfind).2]
  cases bodyEnd? file.text find with
  | none => rfl
  | some close =>
      simp only [catchUnclosed, mapM_eq_ok fun _ hmethod => attemptMethod_eq hmethod]
      rfl

theorem attemptFunction_eq {file : SourceFile} {classes : List Element}
    {exports : List ExportEdge} {find : Find (Header FunctionHead)}
    (hfind : find ∈ findAll (header functionHead) file.text) :
    attemptFunction file classes exports find = .ok (functionFinding file classes exports find) := by
  simp only [attemptFunction, functionFinding]
  split
  · rfl
  · split
    · rfl
    · rw [requireClose_find opens_functionHead (mem_findAll hfind).2]
      cases bodyEnd? file.text find <;> rfl

end Declaration

/-! ### Outlines -/

/-- The outline of a file, if no pass leaves a fault. -/
def SourceFile.attemptOutline (file : SourceFile) : Except Fault (Reported Outline) := do
  let exports ← (findAll (keywordAtLineStart "export") file.text).mapM file.attemptExport
  let classes ← (findAll (Declaration.header Declaration.classHead) file.text).mapM
    (Declaration.attemptClass file)
  let functions ← (findAll (Declaration.header Declaration.functionHead) file.text).mapM
    (Declaration.attemptFunction file (Finding.records classes.flatten)
      (Finding.records exports.flatten))
  return {
    value :=
      { elements := Finding.records classes.flatten ++ Finding.records functions.flatten
        imports := file.imports
        exports := Finding.records exports.flatten }
    warnings :=
      Finding.warnings exports.flatten ++ Finding.warnings classes.flatten ++
        Finding.warnings functions.flatten }

theorem SourceFile.attemptExport_eq {file : SourceFile} {find : Find Cursor}
    (hfind : find ∈ findAll (keywordAtLineStart "export") file.text) :
    file.attemptExport find =
      .ok (match Export.statement.first? find.value with
        | some (form, stop) =>
          let covered : Capture := ⟨find.value, stop⟩
          Export.findings file (find.offsetOf find.value) (find.offsetOf stop) covered.text form
        | none => []) := by
  simp only [attemptExport]
  cases hfirst : Export.statement.first? find.value with
  | none => rfl
  | some found =>
      obtain ⟨form, stop⟩ := found
      obtain ⟨hcovered, hhead, hstop⟩ := covered_of_mem_findAll_export hfind hfirst
      have hne : Capture.text ⟨find.value, stop⟩ ≠ [] := by
        intro hempty
        rw [hempty] at hhead
        exact absurd hhead (by decide)
      simp only [hstop]
      exact Export.attempt_eq hcovered hne

theorem SourceFile.attemptOutline_eq (file : SourceFile) :
    file.attemptOutline = .ok file.outline := by
  simp only [attemptOutline, mapM_eq_ok fun _ h => attemptExport_eq h,
    mapM_eq_ok fun _ h => Declaration.attemptClass_eq h,
    mapM_eq_ok fun _ h => Declaration.attemptFunction_eq h]
  rfl

/-- **Every text has an outline, and its records are faithful to the text.** -/
theorem outline_faithful (path : String) (text : List Char) :
    let file := SourceFile.ofText path text
    file.attemptOutline = .ok file.outline ∧
      (∀ e ∈ file.outline.value.elements, e.Faithful text) ∧
      (∀ e ∈ file.outline.value.imports, StatementFaithful text "import" e.raw e.span e.extent) ∧
      ∀ e ∈ file.outline.value.exports, StatementFaithful text "export" e.raw e.span e.extent := by
  intro file
  refine ⟨file.attemptOutline_eq, fun e he => ?_, fun e he => ?_, fun e he => ?_⟩
  · exact faithful_element he
  · exact faithful_import he
  · exact faithful_export he

end SourceOutline
