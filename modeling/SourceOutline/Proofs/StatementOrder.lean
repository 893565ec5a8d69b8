/-
**The order of statements.**

Imports and exports are looked for at the heads of lines.  Every line that begins with the keyword is
looked at once, and none is missed, because what the search finds never leaves its line.  So the
records come in the order of the text, no two of them in one line, and at each place there is at most
one.

Main definitions:

* `Pattern.Cursor.HeadsLine` — the first place of a line behind its indentation;
* `Export.recordOf` — the record of a statement whose first words are known.

Main results:

* `pairwise_keywordFinds` — keywords are found in order, each in a line of its own;
* `mem_findAll_keyword` — every keyword at the head of a line is found;
* `Pattern.Cursor.HeadsLine.unique` — a line has one head;
* `SourceFile.mem_exports_iff` — the export records are those of the statements that were found;
* `pairwise_imports`, `pairwise_exports` — **statements come in order, each in a line of its own**;
* `filter_exports_eq` — one place has one export record.
-/

import SourceOutline.Proofs.FindOrder
import Mathlib.Data.List.Basic

set_option autoImplicit false

namespace SourceOutline

open Text Pattern

/-! ### Keywords at the heads of lines -/

/-- Where a keyword was found: at the head of a line, behind the spaces and tabs that indent it. -/
theorem place_of_mem_findAll_keyword {keyword : String} {text : List Char} {find : Find Cursor}
    (h : find ∈ findAll (keywordAtLineStart keyword) text) :
    find.start.StandsAt text find.offset ∧ find.start.before.all (· == '\n') = true ∧
      ∃ pad, (∀ x ∈ pad, isPadding x = true) ∧ find.start.Reads pad find.value ∧
        find.value.Reads keyword.toList find.stop := by
  obtain ⟨hplace, hmem⟩ := mem_findAll h
  obtain ⟨hbefore, hpad⟩ := mem_outcomes_keywordAtLineStart hmem
  exact ⟨hplace, hbefore, hpad⟩

/-- A place that is not the first of the text and has a line start before it has a line feed before
it. -/
theorem Pattern.Cursor.StandsAt.getLast?_take {c : Cursor} {text : List Char} {offset : Nat}
    (h : c.StandsAt text offset) (hpos : 0 < offset) (hstart : c.before.all (· == '\n') = true) :
    (text.take offset).getLast? = some '\n' := by
  have hne : text.take offset ≠ [] := by
    intro hempty
    have hlength := congrArg List.length hempty
    rw [List.length_take_of_le h.le_length, List.length_nil] at hlength
    omega
  obtain ⟨x, hx⟩ := Option.isSome_iff_exists.1 (List.getLast?_isSome.2 hne)
  have hnewline : x = '\n' := by
    rw [h.before_eq, hx] at hstart
    simpa using hstart
  rw [hx, hnewline]

/-- Keywords are found in order, each in a line of its own. -/
theorem pairwise_keywordFinds {keyword : String} (hne : keyword.toList ≠ []) (text : List Char) :
    (findAll (keywordAtLineStart keyword) text).Pairwise fun f g =>
      f.offsetOf f.value < g.offsetOf g.value ∧
        lineNumber text (f.offsetOf f.value) < lineNumber text (g.offsetOf g.value) := by
  refine (pairwise_findAll _ text).imp_of_mem fun {f g} hf hg hfg => ?_
  obtain ⟨-, -, pad, -, hpad, hword⟩ := place_of_mem_findAll_keyword hf
  obtain ⟨hplace, hstart, -⟩ := place_of_mem_findAll_keyword hg
  have hpos : 0 < keyword.toList.length := List.length_pos_iff.2 hne
  -- the first find ends behind its keyword, and the second begins there or later
  have hbefore : f.offsetOf f.value < g.offset := by
    have hstop := hfg.2
    rw [Find.stopOffset, (hpad.append hword).gap_eq, List.length_append] at hstop
    rw [Find.offsetOf, hpad.gap_eq]
    omega
  have hbehind : g.offset ≤ g.offsetOf g.value := Nat.le_add_right _ _
  have hline := hplace.getLast?_take (by omega) hstart
  exact ⟨by omega, lineNumber_lt_of_lineStart hbefore hbehind hplace.le_length hline⟩

/-- What is found of a keyword lies in one line, so the search leads beyond no head of a line. -/
theorem stopOffset_le_of_lineStart {keyword : String} (hkeyword : '\n' ∉ keyword.toList)
    {text : List Char} {find : Find Cursor}
    (h : find ∈ findAll (keywordAtLineStart keyword) text) {c : Cursor} {offset : Nat}
    (hc : c.StandsAt text offset) (hstart : c.before.all (· == '\n') = true)
    (hlt : find.offset < offset) : find.stopOffset ≤ offset := by
  obtain ⟨hplace, -, pad, hpadding, hpad, hword⟩ := place_of_mem_findAll_keyword h
  have hread := hpad.append hword
  have hline : '\n' ∉ pad ++ keyword.toList := by
    rw [List.mem_append, not_or]
    exact ⟨fun hmem => absurd (hpadding _ hmem) (by decide), hkeyword⟩
  refine Nat.le_of_not_lt fun hbeyond => hline ?_
  rw [Find.stopOffset, hread.gap_eq] at hbeyond
  -- the character before the head of the line would be one of those that were read
  have hnewline : text[offset - 1]? = some '\n' := by
    have hlast := hc.getLast?_take (by omega) hstart
    rw [List.getLast?_eq_getElem?, List.length_take_of_le hc.le_length,
      List.getElem?_take_of_lt (by omega)] at hlast
    exact hlast
  have hindex : (pad ++ keyword.toList)[offset - 1 - find.offset]? = some '\n' := by
    have hrest : text.drop find.offset = (pad ++ keyword.toList) ++ find.stop.rest :=
      hplace.rest_eq.symm.trans hread.1
    have hsame : (pad ++ keyword.toList ++ find.stop.rest)[offset - 1 - find.offset]? =
        (pad ++ keyword.toList)[offset - 1 - find.offset]? :=
      List.getElem?_append_left (by omega)
    rw [← hsame, ← hrest, List.getElem?_drop, ← hnewline]
    congr 1
    omega
  exact List.mem_of_getElem? hindex

/-- **Every keyword at the head of a line is found.** -/
theorem mem_findAll_keyword {keyword : String} (hkeyword : '\n' ∉ keyword.toList)
    {text : List Char} {c value stop : Cursor} {offset : Nat} (hc : c.StandsAt text offset)
    (hfirst : (keywordAtLineStart keyword).first? c = some (value, stop)) :
    ⟨offset, c, stop, value⟩ ∈ findAll (keywordAtLineStart keyword) text := by
  refine mem_scan_of_first? (Cursor.standsAt_ofText text) hc hfirst (Nat.zero_le _)
    fun f hf hlt => ?_
  obtain ⟨hstart, -⟩ := mem_outcomes_keywordAtLineStart (List.mem_of_head? hfirst)
  exact stopOffset_le_of_lineStart hkeyword hf hc hstart hlt

/-! ### Heads of lines -/

namespace Pattern.Cursor

/-- The cursor is the place, at `offset`, behind the spaces and tabs that indent a line. -/
def HeadsLine (c : Cursor) (text : List Char) (offset : Nat) : Prop :=
  ∃ line start pad, StandsAt line text start ∧ line.before.all (· == '\n') = true ∧
    (∀ x ∈ pad, isPadding x = true) ∧ line.Reads pad c ∧ offset = start + pad.length

theorem HeadsLine.standsAt {c : Cursor} {text : List Char} {offset : Nat}
    (h : c.HeadsLine text offset) : c.StandsAt text offset := by
  obtain ⟨line, start, pad, hline, -, -, hpad, rfl⟩ := h
  exact hline.reads hpad

/-- A place where the indentation of its line ends stands in an earlier line than every head of a
line behind it. -/
theorem HeadsLine.lineNumber_lt {c c' : Cursor} {text : List Char} {a b : Nat}
    (h : c'.HeadsLine text b) (hc : c.StandsAt text a) (hstops : Stops isPadding c.rest)
    (hlt : a < b) : lineNumber text a < lineNumber text b := by
  obtain ⟨line, start, pad, hline, hbefore, hpadding, hpad, rfl⟩ := h
  by_cases hin : start ≤ a
  · -- the place would lie in the indentation
    obtain ⟨k, rfl⟩ : ∃ k, a = start + k := ⟨a - start, by omega⟩
    have hrest : c.rest = pad.drop k ++ c'.rest := by
      rw [hc.rest_eq, ← List.drop_drop, ← hline.rest_eq, hpad.1,
        List.drop_append_of_le_length (by omega)]
    obtain ⟨x, more, hx⟩ : ∃ x more, pad.drop k = x :: more := by
      refine List.exists_cons_of_ne_nil fun hnil => ?_
      have := List.drop_eq_nil_iff.1 hnil
      omega
    have hmem : x ∈ pad := List.mem_of_mem_drop (hx ▸ List.mem_cons_self)
    rw [hrest, hx, List.cons_append, stops_cons, hpadding x hmem] at hstops
    exact absurd hstops (by decide)
  · exact lineNumber_lt_of_lineStart (Nat.lt_of_not_le hin) (Nat.le_add_right _ _) hline.le_length
      (hline.getLast?_take (by omega) hbefore)

/-- **A line has one head.** -/
theorem HeadsLine.unique {c c' : Cursor} {text : List Char} {a b : Nat} (h : c.HeadsLine text a)
    (h' : c'.HeadsLine text b) (hstops : Stops isPadding c.rest) (hstops' : Stops isPadding c'.rest)
    (hline : lineNumber text a = lineNumber text b) : a = b := by
  rcases Nat.lt_trichotomy a b with hlt | heq | hgt
  · have := h'.lineNumber_lt h.standsAt hstops hlt
    omega
  · exact heq
  · have := h.lineNumber_lt h'.standsAt hstops' hgt
    omega

end Pattern.Cursor

theorem headsLine_of_mem_findAll_keyword {keyword : String} {text : List Char} {find : Find Cursor}
    (h : find ∈ findAll (keywordAtLineStart keyword) text) :
    find.value.HeadsLine text (find.offsetOf find.value) := by
  obtain ⟨hplace, hbefore, pad, hpadding, hpad, -⟩ := place_of_mem_findAll_keyword h
  exact ⟨find.start, find.offset, pad, hplace, hbefore, hpadding, hpad,
    by rw [Find.offsetOf, hpad.gap_eq]⟩

/-- **Where a keyword heads a line, it is found.** -/
theorem exists_keywordFind {keyword : String} (hne : keyword.toList ≠ [])
    (hkeyword : keyword.toList.all (fun x => isWord x && !isPadding x) = true) {text t : List Char}
    {c : Cursor} {offset : Nat} (hc : c.HeadsLine text offset) (hrest : c.rest = keyword.toList ++ t)
    (ht : Stops isWord t) :
    ∃ find ∈ findAll (keywordAtLineStart keyword) text, find.value = c ∧
      find.offsetOf find.value = offset := by
  obtain ⟨line, start, pad, hline, hbefore, hpadding, hpad, rfl⟩ := hc
  have hletters : ∀ x ∈ keyword.toList, isWord x = true ∧ isPadding x = false := by
    simpa using hkeyword
  have hfirst := first?_keywordAtLineStart_padding hbefore hne hletters hpadding ht
  have hplace : (⟨line.before, pad ++ (keyword.toList ++ t)⟩ : Cursor) = line := by
    rw [← hrest, ← hpad.1]
  have hvalue : (⟨pad.getLast?.or line.before, keyword.toList ++ t⟩ : Cursor) = c := by
    rw [← hrest, ← hpad.2]
  rw [hplace, hvalue] at hfirst
  have hnewline : '\n' ∉ keyword.toList := fun hmem =>
    absurd (hletters _ hmem).1 (by decide)
  refine ⟨_, mem_findAll_keyword hnewline hline hfirst, rfl, ?_⟩
  rw [Find.offsetOf, hpad.gap_eq]

/-! ### The records of exports -/

namespace Export

/-- The record of a statement at `offset` whose first words end at `stop` and cover `covered`. -/
def recordOf (file : SourceFile) (offset stop : Nat) (covered : List Char) : Form → ExportEdge
  | .whole kind items source => edge file offset covered kind items source
  | .line kind item => edge file offset (lineStatement (file.text.drop offset)) kind [item] none
  | .block kind _ item =>
    let text :=
      match blockEnd? file.text (stop - 1) with
      | some close => range file.text offset (close + 1)
      | none => covered
    edge file offset text kind [item] none

/-- A statement gives one record, with a warning or without. -/
theorem records_findings (file : SourceFile) (offset stop : Nat) (covered : List Char)
    (form : Form) :
    Finding.records (findings file offset stop covered form) =
      [recordOf file offset stop covered form] := by
  cases form with
  | whole kind items source => rfl
  | line kind item => rfl
  | block kind keyword item =>
      simp only [findings, recordOf]
      cases blockEnd? file.text (stop - 1) <;> rfl

theorem recordOf_start (file : SourceFile) (offset stop : Nat) (covered : List Char) (form : Form) :
    (recordOf file offset stop covered form).span.start = offset := by
  cases form <;> rfl

theorem recordOf_first (file : SourceFile) (offset stop : Nat) (covered : List Char) (form : Form) :
    (recordOf file offset stop covered form).extent.first = lineNumber file.text offset := by
  rw [← SourceFile.lineOf_natCast]
  cases form <;> rfl

/-- The record of the statement that begins where a keyword was found, if there is one. -/
def record? (file : SourceFile) (find : Find Cursor) : Option ExportEdge :=
  (statement.first? find.value).map fun (form, stop) =>
    recordOf file (find.offsetOf find.value) (find.offsetOf stop)
      (Capture.text ⟨find.value, stop⟩) form

end Export

theorem SourceFile.exports_eq_filterMap (file : SourceFile) :
    file.exports =
      (findAll (keywordAtLineStart "export") file.text).filterMap (Export.record? file) := by
  rw [exports, exportFindings, Finding.records_flatMap, List.filterMap_eq_flatMap_toList]
  refine List.flatMap_congr fun find _ => ?_
  rw [Export.record?]
  cases Export.statement.first? find.value with
  | none => rfl
  | some found => exact Export.records_findings _ _ _ _ _

/-- The export records are those of the statements that were found. -/
theorem SourceFile.mem_exports_iff {file : SourceFile} {x : ExportEdge} :
    x ∈ file.exports ↔
      ∃ find ∈ findAll (keywordAtLineStart "export") file.text,
        Export.record? file find = some x := by
  rw [exports_eq_filterMap, List.mem_filterMap]

theorem Export.position_of_record? {file : SourceFile} {find : Find Cursor} {x : ExportEdge}
    (h : record? file find = some x) :
    x.span.start = find.offsetOf find.value ∧
      x.extent.first = lineNumber file.text (find.offsetOf find.value) := by
  obtain ⟨⟨form, stop⟩, -, rfl⟩ := Option.map_eq_some_iff.1 h
  exact ⟨recordOf_start _ _ _ _ _, recordOf_first _ _ _ _ _⟩

/-! ### Statements come in order -/

/-- **Imports come in the order of the text, each in a line of its own.** -/
theorem pairwise_imports (file : SourceFile) :
    file.imports.Pairwise fun a b =>
      a.span.start < b.span.start ∧ a.extent.first < b.extent.first := by
  have hfinds := @pairwise_keywordFinds "import" (by decide) file.text
  refine List.pairwise_filterMap.2 (hfinds.imp fun {f g} hfg a ha b hb => ?_)
  obtain ⟨_, -, rfl⟩ := Option.map_eq_some_iff.1 ha
  obtain ⟨_, -, rfl⟩ := Option.map_eq_some_iff.1 hb
  simp only [Import.edge, SourceFile.extent, SourceFile.lineOf_natCast]
  exact ⟨Int.ofNat_lt.2 hfg.1, hfg.2⟩

/-- **Exports come in the order of the text, each in a line of its own.** -/
theorem pairwise_exports (file : SourceFile) :
    file.exports.Pairwise fun a b =>
      a.span.start < b.span.start ∧ a.extent.first < b.extent.first := by
  have hfinds := @pairwise_keywordFinds "export" (by decide) file.text
  rw [file.exports_eq_filterMap]
  refine List.pairwise_filterMap.2 (hfinds.imp fun {f g} hfg a ha b hb => ?_)
  obtain ⟨hstart, hfirst⟩ := Export.position_of_record? ha
  obtain ⟨hstart', hfirst'⟩ := Export.position_of_record? hb
  rw [hstart, hstart', hfirst, hfirst']
  exact ⟨Int.ofNat_lt.2 hfg.1, hfg.2⟩

/-- One place has one export record. -/
theorem filter_exports_eq {file : SourceFile} {x : ExportEdge} (hx : x ∈ file.exports) :
    file.exports.filter (·.span.start == x.span.start) = [x] := by
  obtain ⟨before, behind, hsplit⟩ := List.append_of_mem hx
  have hpairwise := pairwise_exports file
  rw [hsplit, List.pairwise_append, List.pairwise_cons] at hpairwise
  obtain ⟨-, ⟨hbehind, -⟩, hbefore⟩ := hpairwise
  have hnone : before.filter (·.span.start == x.span.start) = [] := by
    refine List.filter_eq_nil_iff.2 fun a ha => ?_
    have := (hbefore a ha x List.mem_cons_self).1
    rw [beq_iff_eq]
    omega
  have hnone' : behind.filter (·.span.start == x.span.start) = [] := by
    refine List.filter_eq_nil_iff.2 fun b hb => ?_
    have := (hbehind b hb).1
    rw [beq_iff_eq]
    omega
  rw [hsplit, List.filter_append, List.filter_cons_of_pos (by simp), hnone, hnone', List.nil_append]

end SourceOutline
