/-
**Records of a text with carriage returns.**

A find that is made again in the text with carriage returns gives its record again.  The record says
the same, apart from its position in characters, the text it covers, and the line ends that stand in
the entries of a list.

Main definitions:

* `SourceFile.crlf` — the file with a carriage return before each line feed;
* `Element.crlf`, `ImportEdge.crlf`, `ExportEdge.crlf` — what becomes of the records.

Main results:

* `SourceFile.lineOf_crlf` — lines stay what they are;
* `Declaration.classFinding_crlf`, `Declaration.functionFinding_crlf` — **declarations give the same
  records**;
* `Import.edge_crlf`, `Export.findings_crlf` — **statements give the same records.**
-/

import SourceOutline.Proofs.MirroredFinds

set_option autoImplicit false

namespace SourceOutline

open Text Pattern

/-! ### Records with other line ends -/

/-- The range of characters in the text with carriage returns. -/
def Span.crlf (text : List Char) (span : Span) : Span :=
  ⟨crlfOffset text span.start.toNat, crlfOffset text span.stop.toNat⟩

/-- The declaration in the text with carriage returns. -/
def Element.crlf (text : List Char) (e : Element) : Element :=
  { e with snippet := .ofList (Text.crlf e.snippet.toList), span := e.span.crlf text }

/-- The import statement in the text with carriage returns. -/
def ImportEdge.crlf (text : List Char) (e : ImportEdge) : ImportEdge :=
  { e with
    raw := .ofList (Text.crlf e.raw.toList)
    specifiers := e.specifiers.map ImportSpecifier.crlf
    span := e.span.crlf text }

/-- The export statement in the text with carriage returns. -/
def ExportEdge.crlf (text : List Char) (e : ExportEdge) : ExportEdge :=
  { e with
    raw := .ofList (Text.crlf e.raw.toList)
    items := e.items.map ExportedItem.crlf
    span := e.span.crlf text }

/-- An offset lies in the same ranges. -/
theorem Span.contains_crlf {text : List Char} {span : Span} (hstart : 0 ≤ span.start)
    (hlt : span.start < span.stop) (hstop : span.stop ≤ text.length) (offset : Nat) :
    (span.crlf text).contains (crlfOffset text offset : Nat) = span.contains offset := by
  have hle := crlfOffset_le_iff text (a := span.start.toNat) (b := offset) (by omega)
  have hle' := crlfOffset_le_iff text (a := span.stop.toNat) (b := offset) (by omega)
  rw [Bool.eq_iff_iff, contains_iff, contains_iff]
  simp only [crlf]
  omega

namespace Finding
variable {α : Type}

/-- The finding with its record changed. -/
def mapRecord (change : α → α) : Finding α → Finding α
  | record a => record (change a)
  | warning w => warning w

@[simp]
theorem records_map_mapRecord (change : α → α) (findings : List (Finding α)) :
    records (findings.map (mapRecord change)) = (records findings).map change := by
  rw [records, records, List.filterMap_map, List.map_filterMap]
  exact List.filterMap_congr fun finding _ => by cases finding <;> rfl

@[simp]
theorem warnings_map_mapRecord (change : α → α) (findings : List (Finding α)) :
    warnings (findings.map (mapRecord change)) = warnings findings := by
  rw [warnings, warnings, List.filterMap_map]
  exact List.filterMap_congr fun finding _ => by cases finding <;> rfl

end Finding

/-! ### The file -/

namespace Text

variable (text : List Char)

theorem slice_crlf {start stop : Nat} (hstart : start ≤ text.length) (hstop : stop ≤ text.length) :
    slice (crlf text) (crlfOffset text start : Nat) (crlfOffset text stop : Nat) =
      crlf (slice text start stop) := by
  rw [slice_natCast _ _ _ (crlfOffset_le_length text start) (crlfOffset_le_length text stop),
    slice_natCast _ _ _ hstart hstop, range_crlf]

/-- An offset into a part of the text. -/
theorem crlfOffset_within {text part : List Char} {base n : Nat} (hpart : part <+: text.drop base)
    (hn : n ≤ part.length) :
    crlfOffset text (base + n) = crlfOffset text base + crlfOffset part n := by
  obtain ⟨more, hmore⟩ := hpart
  rw [crlfOffset_add, ← hmore, crlfOffset_append part more hn]

theorem crlfOffset_length (s : List Char) : crlfOffset s s.length = (crlf s).length := by
  rw [crlfOffset, List.take_length]

end Text

namespace SourceFile

/-- The file with a carriage return before each line feed. -/
def crlf (file : SourceFile) : SourceFile :=
  ofText file.path (Text.crlf file.text)

variable (file : SourceFile)

@[simp]
theorem crlf_path : file.crlf.path = file.path := rfl

@[simp]
theorem crlf_text : file.crlf.text = Text.crlf file.text := rfl

/-- Lines stay what they are. -/
theorem lineOf_crlf (offset : Nat) :
    file.crlf.lineOf (crlfOffset file.text offset : Nat) = file.lineOf offset := by
  rw [lineOf_natCast, lineOf_natCast, crlf_text, lineNumber_crlf]

theorem extent_crlf (first last : Nat) :
    file.crlf.extent (crlfOffset file.text first : Nat) (crlfOffset file.text last : Nat) =
      file.extent first last := by
  rw [extent, extent, lineOf_crlf, lineOf_crlf]

end SourceFile

/-! ### Declarations -/

namespace Declaration

section
variable {text : List Char} {close : Nat} (start : Nat)
  (hclose : crlfOffset text (close + 1) = crlfOffset text close + 1)
include hclose

/-- The text of a declaration. -/
theorem range_closing_crlf :
    range (crlf text) (crlfOffset text start) (crlfOffset text close + 1) =
      crlf (range text start (close + 1)) := by
  rw [← hclose, range_crlf]

/-- The characters of a declaration. -/
theorem span_closing_crlf :
    (⟨(crlfOffset text start : Nat), (crlfOffset text close : Nat) + 1⟩ : Span) =
      Span.crlf text ⟨start, close + 1⟩ := by
  simp only [Span.crlf, Int.toNat_natCast, show ((close : Int) + 1).toNat = close + 1 by omega,
    hclose, Int.natCast_add, Int.natCast_one]

end

section
variable (file : SourceFile) (className : String) {base : Nat} {body : List Char}
  {f g : Find (Header MethodHead)}

/-- **A method gives the same record**, where its class has the body. -/
theorem methodElement_crlf (hbody : body <+: file.text.drop base)
    (h : f.Mirrored (Header.Same MethodHead.Same) body g)
    (hmem : (f.value, f.stop) ∈ (header methodHead).outcomes f.start) {close : Nat}
    (hclose : bodyEnd? body f = some close) :
    methodElement file.crlf className (crlfOffset file.text base : Nat) g (crlfOffset body close) =
      (methodElement file className base f close).crlf file.text := by
  obtain ⟨hle, hlt, -⟩ := closingBrace?_bounds hclose
  have hhead := ((Find.placed h.standsAt hmem).exists_last endsWith_methodHead).1
  have hlength := length_le_of_prefix_drop hbody (List.ne_nil_of_length_pos (by omega))
  have hstart : ((crlfOffset file.text base : Nat) : Int) + (g.headOffset : Nat) =
      (crlfOffset file.text (base + f.headOffset) : Nat) := by
    rw [headOffset_crlf h hmem, crlfOffset_within hbody (by omega), Int.natCast_add]
  have hstop : ((crlfOffset file.text base : Nat) : Int) + (crlfOffset body close : Nat) =
      (crlfOffset file.text (base + close) : Nat) := by
    rw [crlfOffset_within hbody (by omega), Int.natCast_add]
  have hclosing : crlfOffset file.text (base + close + 1) =
      crlfOffset file.text (base + close) + 1 := by
    rw [Nat.add_assoc, crlfOffset_within hbody hlt, crlfOffset_closing hclose,
      crlfOffset_within hbody (Nat.le_of_lt hlt), Nat.add_assoc]
  have hsnippet := slice_crlf file.text
    (show base + f.headOffset ≤ file.text.length by omega)
    (show base + close + 1 ≤ file.text.length by omega)
  have hspan := span_closing_crlf (base + f.headOffset) hclosing
  have hextent := file.extent_crlf (base + f.headOffset) (base + close)
  rw [hclosing] at hsnippet
  simp only [Find.headOffset, Int.natCast_add, Int.natCast_one] at hstart hsnippet hspan hextent
  simp only [methodElement, Element.crlf, SourceFile.crlf_path, SourceFile.crlf_text, hstart, hstop,
    hsnippet, hspan, hextent, h.value.parts.name_eq, h.value.parts.signature_eq,
    h.value.summary_eq, String.toList_ofList]

/-- What the head of a method gives. -/
theorem methodFinding_crlf (hbody : body <+: file.text.drop base)
    (h : f.Mirrored (Header.Same MethodHead.Same) body g)
    (hmem : (f.value, f.stop) ∈ (header methodHead).outcomes f.start) :
    methodFinding file.crlf className (crlfOffset file.text base : Nat) (crlf body) g =
      (methodFinding file className base body f).map
        (Finding.mapRecord (Element.crlf file.text)) := by
  simp only [methodFinding, h.value.parts.name_eq, bodyEnd?_crlf h hmem endsWith_methodHead]
  split
  · rfl
  · cases hclose : bodyEnd? body f with
    | none =>
        have hplaced := Find.placed h.standsAt hmem
        have hline := file.lineOf_crlf (base + f.headOffset)
        rw [crlfOffset_within hbody hplaced.headsLine.standsAt.le_length, ← headOffset_crlf h hmem]
          at hline
        simp only [Find.headOffset, Int.natCast_add] at hline
        simp only [Option.map_none, SourceFile.crlf_path, hline]
        rfl
    | some close =>
        simp only [Option.map_some, methodElement_crlf file className hbody h hmem hclose]
        rfl

end

/-- **The methods of a class body give the same records.** -/
theorem methodFindings_crlf (file : SourceFile) (hreturn : '\r' ∉ file.text) (className : String)
    {start stop : Nat} (hstart : start ≤ file.text.length) (hstop : stop ≤ file.text.length) :
    file.crlf.methodFindings className (crlfOffset file.text start : Nat)
        (crlfOffset file.text stop : Nat) =
      (file.methodFindings className start stop).map
        (Finding.mapRecord (Element.crlf file.text)) := by
  have hbody : slice file.text start stop <+: file.text.drop start := by
    rw [slice_natCast _ _ _ hstart hstop]
    exact range_prefix_drop _ _ _
  have hreturn' : '\r' ∉ slice file.text start stop := fun h =>
    hreturn (List.mem_of_mem_drop (hbody.subset h))
  simp only [SourceFile.methodFindings, SourceFile.crlf_text, slice_crlf _ hstart hstop]
  refine flatMap_eq_map_of_forall₂ (forall₂_methodFinds_crlf hreturn') fun f hf g _ hsame => ?_
  obtain ⟨-, -, hfirst⟩ := mem_scan (Cursor.standsAt_ofText _) hf
  exact methodFinding_crlf file className hbody hsame (List.mem_of_head? hfirst)

section
variable (file : SourceFile)

theorem classElement_crlf {f g : Find (Header Capture)}
    (h : f.Mirrored (Header.Same fun a b => b.text = a.text) file.text g)
    (hmem : (f.value, f.stop) ∈ (header classHead).outcomes f.start) {close : Nat}
    (hclose : bodyEnd? file.text f = some close) :
    classElement file.crlf g (crlfOffset file.text close) =
      (classElement file f close).crlf file.text := by
  have hclosing := crlfOffset_closing hclose
  have hhead := headOffset_crlf h hmem
  simp only [Find.headOffset] at hhead
  simp only [classElement, Element.crlf, SourceFile.crlf_path, SourceFile.crlf_text, hhead,
    file.extent_crlf, range_closing_crlf _ hclosing, span_closing_crlf _ hclosing, h.value.parts,
    h.value.summary_eq, String.toList_ofList]

/-- **A class gives the same records**: its own and those of its methods. -/
theorem classFinding_crlf (hreturn : '\r' ∉ file.text) {f g : Find (Header Capture)}
    (h : f.Mirrored (Header.Same fun a b => b.text = a.text) file.text g)
    (hmem : (f.value, f.stop) ∈ (header classHead).outcomes f.start) :
    classFinding file.crlf g =
      (classFinding file f).map (Finding.mapRecord (Element.crlf file.text)) := by
  have hline := file.lineOf_crlf f.headOffset
  rw [← headOffset_crlf h hmem] at hline
  simp only [Find.headOffset] at hline
  simp only [classFinding, SourceFile.crlf_text, bodyEnd?_crlf h hmem endsWith_classHead,
    h.value.parts]
  cases hclose : bodyEnd? file.text f with
  | none =>
      simp only [Option.map_none, SourceFile.crlf_path, hline]
      rfl
  | some close =>
      have hstop := (Find.standsAt_stopOffset h.standsAt hmem).le_length
      have hlt := (closingBrace?_bounds hclose).2.1
      simp only [Option.map_some, List.map_cons, classElement_crlf file h hmem hclose,
        h.stopOffset_eq (reaches_of_mem_outcomes _ _ _ hmem),
        methodFindings_crlf file hreturn _ hstop (Nat.le_of_lt hlt), Finding.mapRecord]

theorem functionElement_crlf {f g : Find (Header FunctionHead)}
    (h : f.Mirrored (Header.Same FunctionHead.Same) file.text g)
    (hmem : (f.value, f.stop) ∈ (header functionHead).outcomes f.start) {close : Nat}
    (hclose : bodyEnd? file.text f = some close) :
    functionElement file.crlf g (crlfOffset file.text close) =
      (functionElement file f close).crlf file.text := by
  have hclosing := crlfOffset_closing hclose
  have hhead := headOffset_crlf h hmem
  simp only [Find.headOffset] at hhead
  simp only [functionElement, Element.crlf, SourceFile.crlf_path, SourceFile.crlf_text, hhead,
    file.extent_crlf, range_closing_crlf _ hclosing, span_closing_crlf _ hclosing,
    h.value.parts.name_eq, h.value.parts.parameters_eq, collapse_crlf, h.value.summary_eq,
    String.toList_ofList]

end

/-! ### Default functions -/

/-- The first words of a default export. -/
def defaultKeywords : Pattern Unit := do
  word "export"
  gap
  word "default"

theorem beginsDefault_iff {s : List Char} :
    BeginsDefault s ↔ (defaultKeywords.first? (Cursor.ofText s)).isSome = true := by
  constructor
  · rintro ⟨g, more, rfl⟩
    have htakes : Takes defaultKeywords ("export".toList ++ (g.text ++ "default".toList)) more
        fun _ => True := by
      refine (takes_word _ _).bind fun _ _ => (g.takes (by simp [isBlank])).bind fun _ _ => ?_
      exact (takes_word _ _).mono fun _ _ => trivial
    obtain ⟨_, -, hfirst⟩ := htakes none
    exact Option.isSome_of_eq_some hfirst
  · intro h
    obtain ⟨found, hfirst⟩ := Option.isSome_iff_exists.1 h
    obtain ⟨_, hexport, hmem⟩ := mem_outcomes_bind.1 (List.mem_of_head? hfirst)
    obtain ⟨_, hgap, hdefault⟩ := mem_outcomes_bind.1 hmem
    obtain ⟨g, hg⟩ := exists_gap hgap
    have hreads := (reads_of_mem_outcomes_word hexport).append
      (hg.append (reads_of_mem_outcomes_word hdefault))
    exact ⟨g, found.2.rest, hreads.1.symm⟩

theorem beginsDefault_crlf {s : List Char} (hreturn : '\r' ∉ s) :
    BeginsDefault (crlf s) ↔ BeginsDefault s := by
  have hmirrors : Mirrors .exact .exact (fun _ _ => True) defaultKeywords defaultKeywords :=
    (mirrors_word (by decide)).bind fun _ _ _ => mirrors_gap.bind fun _ _ _ =>
      mirrors_word (by decide)
  have hfirst := hmirrors.first? (c := Cursor.ofText s) hreturn
  rw [beginsDefault_iff, beginsDefault_iff, ← isSome_eq_of_rel hfirst]
  rfl

/-- A function is left out for an export exactly if its first words say so. -/
theorem any_isDefaultFunction_iff {file : SourceFile} {find : Find (Header FunctionHead)}
    (hplaced : find.Placed functionHead file.text) :
    file.exports.any (isDefaultFunction (file.lineOf find.headOffset)) = true ↔
      BeginsDefault find.headText := by
  constructor
  · intro hany
    by_contra hbegins
    rw [not_isDefaultFunction hplaced hbegins] at hany
    exact absurd hany (by decide)
  · intro hbegins
    obtain ⟨x, hx, -, -, -, hdefault⟩ := exists_default_record hplaced hbegins
    exact List.any_eq_true.2 ⟨x, hx, hdefault⟩

section
variable (file : SourceFile) {f g : Find (Header FunctionHead)}

/-- The same functions are left out for an export. -/
theorem any_isDefaultFunction_crlf (hreturn : '\r' ∉ file.text)
    (hf : f ∈ findAll (header functionHead) file.text)
    (hg : g ∈ findAll (header functionHead) file.crlf.text)
    (h : f.Mirrored (Header.Same FunctionHead.Same) file.text g) :
    file.crlf.exports.any (isDefaultFunction (file.crlf.lineOf g.headOffset)) =
      file.exports.any (isDefaultFunction (file.lineOf f.headOffset)) := by
  have hplaced := placed_of_mem_findAll hf
  obtain ⟨s, hs⟩ := reaches_of_mem_outcomes _ _ _ hplaced.mem_outcomes
  have htext : g.headText = crlf f.headText := by
    rw [Find.headText, Find.headText, h.value.start_eq, h.stop_eq, Capture.text_crlf ⟨s, hs⟩]
  have hreturn' : '\r' ∉ f.headText := by
    rw [Find.headText, hs.text_eq]
    intro hmem
    refine hreturn (List.mem_of_mem_drop (i := f.headOffset) ?_)
    rw [hplaced.drop_eq hs]
    exact List.mem_append_left _ hmem
  rw [Bool.eq_iff_iff, any_isDefaultFunction_iff (placed_of_mem_findAll hg),
    any_isDefaultFunction_iff hplaced, htext, beginsDefault_crlf hreturn']

/-- **A function gives the same record**, or it is left out of both. -/
theorem functionFinding_crlf (hreturn : '\r' ∉ file.text) {classes : List Element}
    (hclasses : ∀ e ∈ classes, e.Faithful file.text)
    (hf : f ∈ findAll (header functionHead) file.text)
    (hg : g ∈ findAll (header functionHead) file.crlf.text)
    (h : f.Mirrored (Header.Same FunctionHead.Same) file.text g) :
    functionFinding file.crlf (classes.map (Element.crlf file.text)) file.crlf.exports g =
      (functionFinding file classes file.exports f).map
        (Finding.mapRecord (Element.crlf file.text)) := by
  have hmem := (mem_findAll hf).2
  have hhead := headOffset_crlf h hmem
  have hline := file.lineOf_crlf f.headOffset
  rw [← hhead] at hline
  have hclass : (classes.map (Element.crlf file.text)).any
      (fun e => e.kind == .classDecl && e.span.contains g.headOffset) =
        classes.any fun e => e.kind == .classDecl && e.span.contains f.headOffset := by
    rw [List.any_map, Bool.eq_iff_iff, List.any_eq_true, List.any_eq_true]
    refine exists_congr fun e => and_congr_right fun he => ?_
    have hcovers := (hclasses e he).covers
    rw [Function.comp_apply, hhead, Element.crlf,
      Span.contains_crlf hcovers.start_nonneg hcovers.start_lt_stop hcovers.stop_le_length]
  have hdefault := any_isDefaultFunction_crlf file hreturn hf hg h
  rw [hline] at hdefault
  simp only [Find.headOffset] at hline hclass hdefault
  simp only [functionFinding, hline, hclass, hdefault, SourceFile.crlf_text,
    bodyEnd?_crlf h hmem endsWith_functionHead, h.value.parts.name_eq]
  split
  · rfl
  · split
    · rfl
    · cases hclose : bodyEnd? file.text f with
      | none => rfl
      | some close =>
          simp only [Option.map_some, functionElement_crlf file h hmem hclose]
          rfl

end

end Declaration

/-! ### Statements -/

section
variable (file : SourceFile) {offset : Nat} {raw : List Char}

/-- The characters of a statement. -/
theorem span_statement_crlf {text : List Char} (hraw : raw <+: text.drop offset) :
    (⟨(crlfOffset text offset : Nat), (crlfOffset text offset : Nat) + (crlf raw).length⟩ : Span) =
      Span.crlf text ⟨offset, offset + raw.length⟩ := by
  have hstop := crlfOffset_within hraw (Nat.le_refl _)
  rw [crlfOffset_length] at hstop
  simp only [Span.crlf, Int.toNat_natCast,
    show ((offset : Int) + raw.length).toNat = offset + raw.length by omega, hstop,
    Int.natCast_add]

/-- The lines of a statement that does not end with a line feed. -/
theorem SourceFile.extent_statement_crlf {x : Char} (hraw : raw <+: file.text.drop offset)
    (hlast : raw.getLast? = some x) (hx : x ≠ '\n') :
    file.crlf.extent (crlfOffset file.text offset : Nat)
        ((crlfOffset file.text offset : Nat) + (Text.crlf raw).length - 1) =
      file.extent offset (offset + raw.length - 1) := by
  obtain ⟨front, rfl⟩ := List.getLast?_eq_some_iff.1 hlast
  have hfront : front <+: file.text.drop offset := (List.prefix_append _ _).trans hraw
  have hlines := file.extent_crlf offset (offset + front.length)
  rw [crlfOffset_within hfront (Nat.le_refl _), crlfOffset_length] at hlines
  have hlength : (Text.crlf (front ++ [x])).length = (Text.crlf front).length + 1 := by
    rw [crlf_append, crlf_cons hx, List.length_append]
    rfl
  rw [hlength, List.length_append, List.length_singleton]
  simpa [← Int.add_assoc] using hlines

/-- The last character of a statement, after it was trimmed. -/
theorem exists_getLast?_trimRight {covered : List Char} (h : trimRight covered ≠ []) :
    ∃ x, (trimRight covered).getLast? = some x ∧ x ≠ '\n' := by
  have hlast := List.getLast?_eq_some_getLast h
  refine ⟨_, hlast, ?_⟩
  rintro hnewline
  have hblank := isBlank_of_mem_getLast?_trimRight hlast
  rw [hnewline] at hblank
  exact absurd hblank (by decide)

/-- **An import statement gives the same record.** -/
theorem Import.edge_crlf {covered : List Char} (hcovered : covered <+: file.text.drop offset)
    (hraw : trimRight covered ≠ []) (clause : Import.Clause) :
    Import.edge file.crlf (crlfOffset file.text offset) (crlf covered) clause.crlf =
      (Import.edge file offset covered clause).crlf file.text := by
  have hbegins := (trimRight_begins covered).trans hcovered
  obtain ⟨x, hlast, hx⟩ := exists_getLast?_trimRight hraw
  simp only [Import.edge, ImportEdge.crlf, Import.Clause.crlf, SourceFile.crlf_path, trimRight_crlf,
    file.extent_statement_crlf hbegins hlast hx, span_statement_crlf hbegins, String.toList_ofList]

namespace Export

/-- An export statement gives the same record, if it covers the same up to line ends. -/
theorem edge_crlf {covered covered' : List Char} (hcovered : covered <+: file.text.drop offset)
    (hraw : trimRight covered ≠ []) (hsame : trimRight covered' = crlf (trimRight covered))
    (kind : ExportKind) (items : List ExportedItem) (source : Option String) :
    edge file.crlf (crlfOffset file.text offset) covered' kind (items.map ExportedItem.crlf)
        source =
      (edge file offset covered kind items source).crlf file.text := by
  have hbegins := (trimRight_begins covered).trans hcovered
  obtain ⟨x, hlast, hx⟩ := exists_getLast?_trimRight hraw
  simp only [edge, ExportEdge.crlf, SourceFile.crlf_path, hsame,
    file.extent_statement_crlf hbegins hlast hx, span_statement_crlf hbegins, String.toList_ofList]

/-- The first block is the same from a character on that does not open it. -/
theorem blockEnd?_succ {text rest : List Char} {start : Nat} {x : Char}
    (hdrop : text.drop start = x :: rest) (hx : x ≠ '\x7b') :
    blockEnd? text (start + 1) = blockEnd? text start := by
  have hnext : text.drop (start + 1) = rest := by
    rw [← List.drop_drop, hdrop]
    rfl
  have hmark : (x == '\x7b') = false := beq_eq_false_iff_ne.2 hx
  simp only [blockEnd?, hnext, hdrop, List.findIdx?_cons, hmark]
  cases rest.findIdx? (· == '\x7b') with
  | none => rfl
  | some ahead =>
      simp only [Option.map_some, Option.bind_eq_bind, Option.bind_some]
      exact congrArg _ (by omega)

/-- The first block from the last character of a text on. -/
theorem blockEnd?_pred_crlf {text : List Char} {stop : Nat} (hpos : 0 < stop)
    (hle : stop ≤ text.length) :
    blockEnd? (crlf text) (crlfOffset text stop - 1) =
      (blockEnd? text (stop - 1)).map (crlfOffset text) := by
  obtain ⟨last, rfl⟩ := Nat.exists_eq_add_one.2 hpos
  obtain ⟨x, rest, hdrop⟩ := List.exists_cons_of_ne_nil
    (show text.drop last ≠ [] by simpa using Nat.lt_of_succ_le hle)
  rw [← blockEnd?_crlf, Nat.add_sub_cancel]
  by_cases hx : x = '\n'
  · subst hx
    -- the search may begin with the line feed or with the carriage return before it
    have hreturn : (crlf text).drop (crlfOffset text last) = '\r' :: '\n' :: crlf rest := by
      rw [drop_crlf, hdrop, crlf_newline_cons]
    rw [crlfOffset_newline_step hdrop]
    exact blockEnd?_succ hreturn (by decide)
  · rw [crlfOffset_succ hx hdrop, Nat.add_sub_cancel]

theorem crlfOffset_blockEnd {text : List Char} {start close : Nat}
    (h : blockEnd? text start = some close) :
    crlfOffset text (close + 1) = crlfOffset text close + 1 := by
  obtain ⟨_, -, hclose⟩ := Option.bind_eq_some_iff.1 h
  exact Declaration.crlfOffset_closing hclose

/-- **An export statement whose first words are found again gives the same.** -/
theorem findings_crlf {covered : List Char} (hcovered : covered <+: file.text.drop offset)
    (hhead : "export".toList <+: covered) {form form' : Form} (hform : form.Same form') :
    findings file.crlf (crlfOffset file.text offset)
        (crlfOffset file.text (offset + covered.length)) (crlf covered) form' =
      (findings file offset (offset + covered.length) covered form).map
        (Finding.mapRecord (ExportEdge.crlf file.text)) := by
  -- a record with a nonempty span has a nonempty text
  have hedge : ∀ {text text' : List Char} {kind items items' source},
      .record (edge file offset text kind items source) ∈
        findings file offset (offset + covered.length) covered form →
      text <+: file.text.drop offset → trimRight text' = crlf (trimRight text) →
      items' = items.map ExportedItem.crlf →
        edge file.crlf (crlfOffset file.text offset) text' kind items' source =
          (edge file offset text kind items source).crlf file.text := by
    rintro text text' kind items _ source hmem hbegins hsame rfl
    refine edge_crlf file hbegins (fun hnil => ?_) hsame kind items source
    have hlt := (faithful_findings hcovered hhead hmem).covers.start_lt_stop
    simp [edge, hnil] at hlt
  have hpos : 0 < covered.length := Nat.lt_of_lt_of_le (by decide) hhead.length_le
  have hlength := length_le_of_prefix_drop hcovered (List.length_pos_iff.1 hpos)
  cases hform with
  | whole kind items source =>
      simp only [findings] at hedge ⊢
      rw [hedge List.mem_cons_self hcovered (trimRight_crlf covered) rfl]
      rfl
  | @line kind item hitem =>
      have hsame : trimRight (lineStatement (crlf (file.text.drop offset))) =
          crlf (trimRight (lineStatement (file.text.drop offset))) := by
        rw [trimRight_lineStatement_crlf, crlf_of_not_mem]
        exact fun hmem => newline_not_mem_lineStatement _ ((trimRight_begins _).subset hmem)
      simp only [findings, SourceFile.crlf_text, drop_crlf] at hedge ⊢
      rw [hedge List.mem_cons_self (lineStatement_begins _) hsame
        (by rw [List.map_singleton, hitem])]
      rfl
  | @block kind keyword item hitem =>
      have hitems : [item] = [item].map ExportedItem.crlf := by rw [List.map_singleton, hitem]
      have hend := blockEnd?_pred_crlf (show 0 < offset + covered.length by omega) hlength
      simp only [findings, SourceFile.crlf_text, hend] at hedge ⊢
      cases hclose : blockEnd? file.text (offset + covered.length - 1) with
      | none =>
          simp only [hclose] at hedge
          simp only [Option.map_none, file.lineOf_crlf,
            hedge (List.mem_cons_of_mem _ List.mem_cons_self) hcovered (trimRight_crlf covered)
              hitems]
          rfl
      | some close =>
          have hrange := Declaration.range_closing_crlf offset (crlfOffset_blockEnd hclose)
          simp only [hclose] at hedge
          simp only [Option.map_some, hrange,
            hedge List.mem_cons_self (range_prefix_drop _ _ _) (trimRight_crlf _) hitems]
          rfl

end Export

end

end SourceOutline
