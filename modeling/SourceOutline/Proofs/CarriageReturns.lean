/-
**Outlines of a text with carriage returns.**

A carriage return before each line feed changes neither the declarations of a text nor its warnings.
Statements stay what they are as well, apart from two cases.  The default export of a name can end
with its line, but the end of a line is only known by the line feed: with a carriage return in front
of it the statement is taken for an expression.  And an entry of a list that goes over several lines
keeps its line ends in its name.

Main definitions:

* `Element.Agrees`, `ImportEdge.Agrees`, `ExportEdge.Agrees`, `Outline.Agrees` — records that say
  the same, apart from their position in characters and the text they cover;
* `ExportEdge.EndsWithLine` — the default export of a name that ends with its line;
* `ImportEdge.ReadsAlike`, `ExportEdge.ReadsAlike` — statements that do not depend on the line ends.

Main results:

* `SourceFile.classFindings_crlf`, `SourceFile.functionFindings_crlf`, `SourceFile.imports_crlf` —
  the declarations and imports of the text with carriage returns;
* `SourceFile.forall₂_exportFindings_crlf` — its exports;
* `outline_crlf_agrees_iff` — **the outlines agree exactly if no default name ends with its line and
  no entry of a list goes over several lines.**
-/

import SourceOutline.Proofs.MirroredRecords

set_option autoImplicit false

namespace SourceOutline

open Text Pattern

/-! ### Records that agree -/

/-- Two declarations that say the same in the same lines. -/
structure Element.Agrees (e e' : Element) : Prop where
  kind_eq : e'.kind = e.kind
  name_eq : e'.name = e.name
  path_eq : e'.path = e.path
  className_eq : e'.className = e.className
  signature_eq : e'.signature = e.signature
  summary_eq : e'.summary = e.summary
  extent_eq : e'.extent = e.extent

/-- Two import statements that say the same in the same lines. -/
structure ImportEdge.Agrees (e e' : ImportEdge) : Prop where
  source_eq : e'.source = e.source
  specifiers_eq : e'.specifiers = e.specifiers
  path_eq : e'.path = e.path
  extent_eq : e'.extent = e.extent

/-- Two export statements that say the same in the same lines. -/
structure ExportEdge.Agrees (e e' : ExportEdge) : Prop where
  kind_eq : e'.kind = e.kind
  items_eq : e'.items = e.items
  source_eq : e'.source = e.source
  path_eq : e'.path = e.path
  extent_eq : e'.extent = e.extent

/-- Two outlines with as many records in the same order, each of which says the same. -/
structure Outline.Agrees (outline outline' : Outline) : Prop where
  elements : List.Forall₂ Element.Agrees outline.elements outline'.elements
  imports : List.Forall₂ ImportEdge.Agrees outline.imports outline'.imports
  exports : List.Forall₂ ExportEdge.Agrees outline.exports outline'.exports

/-- The default export of a name that no semicolon ends and that is the last thing in its line. -/
def ExportEdge.EndsWithLine (text : List Char) (e : ExportEdge) : Prop :=
  e.kind = .default ∧ e.raw.toList.getLast? ≠ some ';' ∧
    ((text.drop e.span.stop.toNat).dropWhile isPadding).head? = some '\n'

/-- An import statement with no list entry that goes over several lines. -/
def ImportEdge.ReadsAlike (e : ImportEdge) : Prop :=
  ∀ s ∈ e.specifiers, ¬ s.SpansLines

/-- An export statement that does not end with its line, with no such list entry. -/
def ExportEdge.ReadsAlike (text : List Char) (e : ExportEdge) : Prop :=
  ¬ e.EndsWithLine text ∧ ∀ item ∈ e.items, ¬ item.SpansLines

instance : DecidablePred ImportSpecifier.SpansLines
  | .named imported binding =>
    inferInstanceAs (Decidable ('\n' ∈ imported.toList ∨ '\n' ∈ binding.toList))
  | .defaultExport _ | .allExports _ | .sideEffect => inferInstanceAs (Decidable False)

instance : DecidablePred ExportedItem.SpansLines := fun _ =>
  inferInstanceAs (Decidable (_ ∨ _))

instance (text : List Char) : DecidablePred (ExportEdge.EndsWithLine text) := fun _ =>
  inferInstanceAs (Decidable (_ ∧ _ ∧ _))

instance : DecidablePred ImportEdge.ReadsAlike := fun e =>
  inferInstanceAs (Decidable (∀ s ∈ e.specifiers, ¬ s.SpansLines))

instance (text : List Char) : DecidablePred (ExportEdge.ReadsAlike text) := fun e =>
  inferInstanceAs (Decidable (¬ e.EndsWithLine text ∧ ∀ item ∈ e.items, ¬ item.SpansLines))

/-- What becomes of an export statement in the text with carriage returns. -/
inductive ExportEdge.Mirrored (text : List Char) (e : ExportEdge) : ExportEdge → Prop
  | same (h : ¬ e.EndsWithLine text) : Mirrored text e (e.crlf text)
  | expression {e' : ExportEdge} (h : e.EndsWithLine text) (hkind : e'.kind = .defaultExpression) :
    Mirrored text e e'

/-- Records that correspond, or the same warning. -/
inductive Finding.Related {α β : Type} (R : α → β → Prop) : Finding α → Finding β → Prop
  | record {a : α} {b : β} (h : R a b) : Related R (.record a) (.record b)
  | warning (w : Warning) : Related R (.warning w) (.warning w)

section
variable {α β : Type} {R : α → β → Prop}

theorem Finding.forall₂_records {xs : List (Finding α)} {ys : List (Finding β)}
    (h : List.Forall₂ (Finding.Related R) xs ys) : List.Forall₂ R (records xs) (records ys) := by
  induction h with
  | nil => exact .nil
  | cons hxy _ ih =>
      cases hxy with
      | record hab => exact .cons hab ih
      | warning w => exact ih

theorem Finding.warnings_eq_of_forall₂ {xs : List (Finding α)} {ys : List (Finding β)}
    (h : List.Forall₂ (Finding.Related R) xs ys) : warnings ys = warnings xs := by
  induction h with
  | nil => rfl
  | cons hxy _ ih =>
      cases hxy with
      | record hab => exact ih
      | warning w => exact congrArg (w :: ·) ih

/-- Finds that correspond give findings that correspond. -/
theorem forall₂_flatMap {γ δ : Type} {S : γ → δ → Prop} {xs : List α} {ys : List β}
    {F : α → List γ} {G : β → List δ} (h : List.Forall₂ R xs ys)
    (hfind : ∀ x ∈ xs, ∀ y ∈ ys, R x y → List.Forall₂ S (F x) (G y)) :
    List.Forall₂ S (xs.flatMap F) (ys.flatMap G) := by
  induction h with
  | nil => exact .nil
  | @cons x y xs ys hxy _ ih =>
      rw [List.flatMap_cons, List.flatMap_cons]
      exact List.rel_append (hfind x List.mem_cons_self y List.mem_cons_self hxy)
        (ih fun x hx y hy => hfind x (List.mem_cons_of_mem _ hx) y (List.mem_cons_of_mem _ hy))

/-- Where each pair of a list decides by its first member whether it agrees, the whole does. -/
theorem forall₂_iff_forall {S : α → β → Prop} {P : α → Prop} {xs : List α} {ys : List β}
    (h : List.Forall₂ R xs ys) (hpair : ∀ x y, R x y → (S x y ↔ P x)) :
    List.Forall₂ S xs ys ↔ ∀ x ∈ xs, P x := by
  induction h with
  | nil => simp
  | cons hxy _ ih => rw [List.forall₂_cons, ih, hpair _ _ hxy, List.forall_mem_cons]

end

/-! ### Declarations and imports -/

section
variable {keyword : String} {text : List Char} {f g : Find Cursor}
  (hf : f ∈ findAll (keywordAtLineStart keyword) text)
include hf

/-- The place of a keyword and what it reaches move on with their offsets. -/
theorem keywordOffset_crlf (h : f.Mirrored (fun a b => b = a.crlf) text g) {stop : Cursor}
    (hreach : f.value.Reaches stop) :
    g.offsetOf stop.crlf = crlfOffset text (f.offsetOf stop) := by
  obtain ⟨-, pad, -, hpad, -⟩ := mem_outcomes_keywordAtLineStart (mem_findAll hf).2
  exact h.offsetOf_eq (Cursor.Reaches.trans ⟨pad, hpad⟩ hreach)

theorem return_not_mem_keywordFind (hreturn : '\r' ∉ text) : '\r' ∉ f.value.rest := by
  rw [(standsAt_of_mem_findAll_keyword hf).1.rest_eq]
  exact fun h => hreturn (List.mem_of_mem_drop h)

end

namespace SourceFile

variable (file : SourceFile) (hreturn : '\r' ∉ file.text)
include hreturn

/-- **The classes and methods of the text with carriage returns.** -/
theorem classFindings_crlf :
    file.crlf.classFindings =
      file.classFindings.map (Finding.mapRecord (Element.crlf file.text)) := by
  refine flatMap_eq_map_of_forall₂
    (Declaration.forall₂_headFinds_crlf hreturn Declaration.mirrors_classHead opens_classHead) ?_
  intro f hf g _ hsame
  exact Declaration.classFinding_crlf file hreturn hsame (mem_findAll hf).2

/-- **Its functions.** -/
theorem functionFindings_crlf :
    file.crlf.functionFindings (Finding.records file.crlf.classFindings) file.crlf.exports =
      (file.functionFindings (Finding.records file.classFindings) file.exports).map
        (Finding.mapRecord (Element.crlf file.text)) := by
  rw [classFindings_crlf file hreturn, Finding.records_map_mapRecord]
  refine flatMap_eq_map_of_forall₂ (Declaration.forall₂_headFinds_crlf hreturn
    Declaration.mirrors_functionHead opens_functionHead) ?_
  intro f hf g hg hsame
  refine Declaration.functionFinding_crlf file hreturn (fun e he => ?_) hf hg hsame
  exact faithful_element (List.mem_append_left _ he)

/-- **Its imports.** -/
theorem imports_crlf : file.crlf.imports = file.imports.map (ImportEdge.crlf file.text) := by
  rw [imports, imports, List.filterMap_eq_flatMap_toList, List.filterMap_eq_flatMap_toList]
  refine flatMap_eq_map_of_forall₂ (forall₂_keywordFinds_crlf (by decide) hreturn) ?_
  intro f hf g _ hsame
  have hfirst := Import.mirrors_statement.first? (return_not_mem_keywordFind hf hreturn)
  rw [← hsame.value] at hfirst
  cases hstatement : Import.statement.first? f.value with
  | none =>
      rw [hstatement] at hfirst
      rw [eq_none_of_rel_none hfirst]
      rfl
  | some found =>
      obtain ⟨clause, stop⟩ := found
      rw [hstatement] at hfirst
      obtain ⟨⟨_, _⟩, hstatement', rfl, rfl⟩ := exists_of_rel_some hfirst
      obtain ⟨t, ht⟩ := reads_of_mem_outcomes_importStatement (List.mem_of_head? hstatement)
      obtain ⟨hcovered, hhead⟩ := covered_begins (standsAt_of_mem_findAll_keyword hf).1 ht
      have hraw : trimRight (Capture.text ⟨f.value, stop⟩) ≠ [] := by
        obtain ⟨more, hmore⟩ := hhead
        rw [← hmore, trimRight_append_of_getLast? (x := 't') (by decide) (by decide)]
        simp
      have hoffset := keywordOffset_crlf hf hsame (Cursor.Reaches.refl _)
      rw [hstatement']
      simp only [Option.map_some, Option.toList_some, List.map_cons, List.map_nil, hoffset,
        hsame.value, Capture.text_crlf ⟨_, ht⟩, Import.edge_crlf file hcovered hraw clause]

end SourceFile

/-! ### Exports -/

namespace Export

open Written

theorem kind_of_mem_findings {file : SourceFile} {offset stop : Nat} {covered : List Char}
    {form : Form} {e : ExportEdge} (h : .record e ∈ findings file offset stop covered form) :
    e.kind = form.kind := by
  have hmem : e ∈ Finding.records (findings file offset stop covered form) :=
    Finding.mem_records.2 h
  rw [records_findings, List.mem_singleton] at hmem
  rw [hmem]
  cases form <;> rfl

section
variable {file : SourceFile} {offset : Nat} {d : DefaultName} {rest : List Char}
  (hdrop : file.text.drop offset = d.text ++ rest)
include hdrop

/-- What stands behind a default name. -/
theorem head?_behind_name (hrest : Stops isPadding rest) :
    ((file.text.drop (offset + d.front.length)).dropWhile isPadding).head? = rest.head? := by
  rw [← List.drop_drop, hdrop, DefaultName.text, List.append_assoc, List.drop_left,
    List.dropWhile_append_of_pos d.isPadding_of_mem]
  cases rest with
  | nil => rfl
  | cons x rest => rw [List.dropWhile_cons_of_neg (by simp [stops_cons.1 hrest])]

/-- A default name that is followed by a line feed ends with its line, and another one does not. -/
theorem endsWithLine_iff (hrest : Stops isPadding rest) (items : List ExportedItem)
    (source : Option String) :
    (edge file offset d.text .default items source).EndsWithLine file.text ↔
      rest.head? = some '\n' := by
  obtain ⟨y, hlast, -, hsemicolon⟩ := d.exists_getLast?_front
  have hbehind := head?_behind_name hdrop hrest
  have hlength : ((offset : Int) + d.front.length).toNat = offset + d.front.length := by omega
  simp [ExportEdge.EndsWithLine, edge, d.trimRight_text, hlast, hsemicolon, hlength, hbehind]

end

/-- A statement that ends by itself does not end with its line. -/
theorem EndsItself.not_endsWithLine {file : SourceFile} {c stop : Cursor} {offset n : Nat}
    {form : Form} {e : ExportEdge} (h : EndsItself c form stop)
    (hplace : c.StandsAt file.text offset)
    (hmem : .record e ∈ findings file offset n (Capture.text ⟨c, stop⟩) form) :
    ¬ e.EndsWithLine file.text := by
  rcases h with hkind | ⟨d, t, rfl, hreads, ht⟩
  · rw [← kind_of_mem_findings hmem] at hkind
    exact fun h => hkind h.1
  · rw [hreads.text_eq] at hmem
    obtain rfl := Finding.record.inj (List.mem_singleton.1 hmem)
    rcases ht with rfl | ⟨rfl, hrest⟩
    · -- the semicolon is the last character of the statement
      have hraw : trimRight (d.text ++ [';']) = d.text ++ [';'] :=
        trimRight_eq_self (by simp) (by decide : isBlank ';' = false)
      rintro ⟨-, hsemicolon, -⟩
      simp [edge, hraw] at hsemicolon
    · have hdrop : file.text.drop offset = d.text ++ [] := by
        rw [← hplace.rest_eq, hreads.1, hrest, List.append_nil]
      rw [List.append_nil, endsWithLine_iff hdrop (stops_nil _)]
      simp

end Export

namespace SourceFile

variable (file : SourceFile) (hreturn : '\r' ∉ file.text)
include hreturn

/-- **The exports of the text with carriage returns**, with the same warnings. -/
theorem forall₂_exportFindings_crlf :
    List.Forall₂ (Finding.Related (ExportEdge.Mirrored file.text)) file.exportFindings
      file.crlf.exportFindings := by
  refine forall₂_flatMap (forall₂_keywordFinds_crlf (by decide) hreturn) fun f hf g _ hsame => ?_
  have hplace := (standsAt_of_mem_findAll_keyword hf).1
  have hoffset := keywordOffset_crlf hf hsame (Cursor.Reaches.refl _)
  have hfirst := Export.mirrors_statementUntil.first? (return_not_mem_keywordFind hf hreturn)
  rw [← hsame.value, Pattern.first?, Pattern.first?, Export.outcomes_statementUntil_lineEnd,
    ← Pattern.first?, ← Pattern.first?] at hfirst
  rcases Export.statement_cases f.value with ⟨huntil, hends⟩ | ⟨d, stop, stop', rest, hname, hreads,
    hrest, huntil⟩
  · rw [huntil] at hfirst
    cases hstatement : Export.statement.first? f.value with
    | none =>
        rw [hstatement] at hfirst
        rw [eq_none_of_rel_none hfirst]
        exact .nil
    | some found =>
        obtain ⟨form, stop⟩ := found
        rw [hstatement] at hfirst
        obtain ⟨⟨form', _⟩, hstatement', hform, rfl⟩ := exists_of_rel_some hfirst
        have hreach := reaches_of_mem_outcomes _ _ _ (List.mem_of_head? hstatement)
        obtain ⟨hcovered, hhead, hstop⟩ := covered_of_mem_findAll_export hf hstatement
        have hstop' := keywordOffset_crlf hf hsame hreach
        rw [hstatement']
        simp only [hsame.value, hoffset, hstop', hstop, Capture.text_crlf hreach]
        rw [Export.findings_crlf file hcovered hhead hform, List.forall₂_map_right_iff,
          List.forall₂_same]
        rintro (e | w) hmem
        · exact .record (.same ((hends form stop hstatement).not_endsWithLine hplace hmem))
        · exact .warning w
  · rw [huntil] at hfirst
    obtain ⟨⟨_, _⟩, hstatement', hform, -⟩ := exists_of_rel_some hfirst
    have hdrop : file.text.drop (f.offsetOf f.value) = d.text ++ '\n' :: rest := by
      rw [← hplace.rest_eq, hreads.1, hrest]
    rw [hname, hstatement']
    cases hform
    refine .cons (.record (.expression ?_ rfl)) .nil
    rw [hreads.text_eq, Export.endsWithLine_iff hdrop (stops_cons.2 (by decide))]
    rfl

end SourceFile

/-! ### The whole outline -/

namespace SourceFile

variable (file : SourceFile) (hreturn : '\r' ∉ file.text)
include hreturn

theorem elements_crlf :
    file.crlf.outline.value.elements =
      file.outline.value.elements.map (Element.crlf file.text) := by
  rw [outline_elements, outline_elements, functionFindings_crlf file hreturn,
    classFindings_crlf file hreturn, Finding.records_map_mapRecord, Finding.records_map_mapRecord,
    List.map_append]

theorem forall₂_exports_crlf :
    List.Forall₂ (ExportEdge.Mirrored file.text) file.exports file.crlf.exports :=
  Finding.forall₂_records (forall₂_exportFindings_crlf file hreturn)

theorem warnings_crlf : file.crlf.outline.warnings = file.outline.warnings := by
  have hfunctions := functionFindings_crlf file hreturn
  have hexports := Finding.warnings_eq_of_forall₂ (forall₂_exportFindings_crlf file hreturn)
  rw [exports, exports] at hfunctions
  simp only [outline]
  rw [hfunctions, hexports, classFindings_crlf file hreturn, Finding.warnings_map_mapRecord,
    Finding.warnings_map_mapRecord]

end SourceFile

theorem map_eq_self_iff {α : Type} {change : α → α} {xs : List α} :
    xs.map change = xs ↔ ∀ x ∈ xs, change x = x := by
  have h := @List.map_inj_left _ _ xs change id
  simpa using h

theorem Element.agrees_crlf (text : List Char) (e : Element) : e.Agrees (e.crlf text) :=
  ⟨rfl, rfl, rfl, rfl, rfl, rfl, rfl⟩

theorem ImportEdge.agrees_crlf_iff (text : List Char) (e : ImportEdge) :
    e.Agrees (e.crlf text) ↔ e.ReadsAlike := by
  have hnames : e.Agrees (e.crlf text) ↔ e.specifiers.map ImportSpecifier.crlf = e.specifiers :=
    ⟨fun h => h.specifiers_eq, fun h => ⟨rfl, h, rfl, rfl⟩⟩
  simp only [hnames, map_eq_self_iff, ImportSpecifier.crlf_eq_self_iff, ReadsAlike]

/-- A statement that is found again agrees unless its names go over several lines, and one that is
taken for an expression does not. -/
theorem ExportEdge.Mirrored.agrees_iff {text : List Char} {e e' : ExportEdge}
    (h : e.Mirrored text e') : e.Agrees e' ↔ e.ReadsAlike text := by
  cases h with
  | same hline =>
      have hnames : e.Agrees (e.crlf text) ↔ e.items.map ExportedItem.crlf = e.items :=
        ⟨fun h => h.items_eq, fun h => ⟨rfl, h, rfl, rfl, rfl⟩⟩
      simp only [hnames, map_eq_self_iff, ExportedItem.crlf_eq_self_iff, ReadsAlike, hline,
        not_false_eq_true, true_and]
  | expression hline hkind =>
      refine iff_of_false (fun hagrees => ?_) fun halike => halike.1 hline
      rw [hagrees.kind_eq, hline.1] at hkind
      exact absurd hkind (by decide)

/-- **The outlines of a text with and without carriage returns.**  Declarations and warnings are the
same.  An import or export is the same exactly if it does not end with its line and has no name that
goes over several lines, so that the outlines agree exactly if all of them are so. -/
theorem outline_crlf_agrees_iff (path : String) (text : List Char) (hreturn : '\r' ∉ text) :
    let reported := (SourceFile.ofText path text).outline
    let reported' := (SourceFile.ofText path (crlf text)).outline
    let outline := reported.value
    let outline' := reported'.value
    reported'.warnings = reported.warnings ∧
    List.Forall₂ Element.Agrees outline.elements outline'.elements ∧
    List.Forall₂ (fun e e' => e.Agrees e' ↔ e.ReadsAlike) outline.imports outline'.imports ∧
    List.Forall₂ (fun e e' => e.Agrees e' ↔ e.ReadsAlike text) outline.exports outline'.exports ∧
    (outline.Agrees outline' ↔
      (∀ e ∈ outline.imports, e.ReadsAlike) ∧ ∀ e ∈ outline.exports, e.ReadsAlike text) := by
  intro reported reported' outline outline'
  have helements : List.Forall₂ Element.Agrees outline.elements outline'.elements := by
    have hmap : outline'.elements = outline.elements.map (Element.crlf text) :=
      (SourceFile.ofText path text).elements_crlf hreturn
    rw [hmap, List.forall₂_map_right_iff, List.forall₂_same]
    exact fun e _ => e.agrees_crlf text
  have himports : List.Forall₂ (fun e e' => e.Agrees e' ↔ e.ReadsAlike) outline.imports
      outline'.imports := by
    have hmap : outline'.imports = outline.imports.map (ImportEdge.crlf text) :=
      (SourceFile.ofText path text).imports_crlf hreturn
    rw [hmap, List.forall₂_map_right_iff, List.forall₂_same]
    exact fun e _ => e.agrees_crlf_iff text
  have hexports : List.Forall₂ (fun e e' => e.Agrees e' ↔ e.ReadsAlike text) outline.exports
      outline'.exports :=
    ((SourceFile.ofText path text).forall₂_exports_crlf hreturn).imp fun e e' h => h.agrees_iff
  refine ⟨(SourceFile.ofText path text).warnings_crlf hreturn, helements, himports, hexports, ?_⟩
  rw [← forall₂_iff_forall himports fun _ _ h => h, ← forall₂_iff_forall hexports fun _ _ h => h]
  exact ⟨fun h => ⟨h.imports, h.exports⟩, fun h => ⟨helements, h.1, h.2⟩⟩

/-- A list, a comment and parameters over several lines, and a default name with a semicolon. -/
theorem outline_crlf_agrees_semicolon :
    let text := ("import \x7ba,\n b\x7d from 'm';\n/** T\n * u. */\n" ++
      "class P \x7b\n m(x,\n y) \x7b\x7d\n\x7d\nexport default a;\n").toList
    let outline := (SourceFile.ofText "p.js" text).outline.value
    let outline' := (SourceFile.ofText "p.js" (crlf text)).outline.value
    '\r' ∉ text ∧ outline.elements.length = 2 ∧ outline.imports.length = 1 ∧
      outline.exports.length = 1 ∧ outline.Agrees outline' := by
  intro text outline outline'
  have hreturn : '\r' ∉ text := by decide +kernel
  have halike : outline.elements.length = 2 ∧ outline.imports.length = 1 ∧
      outline.exports.length = 1 ∧ (∀ e ∈ outline.imports, e.ReadsAlike) ∧
        ∀ e ∈ outline.exports, e.ReadsAlike text := by
    decide +kernel
  obtain ⟨-, -, -, -, hagrees⟩ := outline_crlf_agrees_iff "p.js" text hreturn
  exact ⟨hreturn, halike.1, halike.2.1, halike.2.2.1, hagrees.2 halike.2.2.2⟩

theorem ExportEdge.map_kind_of_agrees {exports exports' : List ExportEdge}
    (h : List.Forall₂ Agrees exports exports') :
    exports'.map ExportEdge.kind = exports.map ExportEdge.kind := by
  induction h with
  | nil => rfl
  | cons hagrees _ ih => rw [List.map_cons, List.map_cons, hagrees.kind_eq, ih]

/-- **The outlines do not always agree**: the default export of a name that ends with its line is
taken for an expression. -/
theorem outline_crlf_disagrees :
    let text := "export default foo\n".toList
    '\r' ∉ text ∧
      ¬ (SourceFile.ofText "p.js" text).outline.value.Agrees
        (SourceFile.ofText "p.js" (crlf text)).outline.value := by
  intro text
  refine ⟨by decide, fun h => ?_⟩
  have hkinds := ExportEdge.map_kind_of_agrees h.exports
  exact absurd hkinds (by decide +kernel)

end SourceOutline
