/-
**Records move with the text.**

A text may stand behind another one in a file.  What is found in it then stands further on, by as
many characters and lines as come before, and the records of these finds show it in their positions
and nowhere else.

Main definitions:

* `Span.moved`, `Extent.moved`, `Element.moved`, …, `Outline.moved`, `Reported.moved` — the same
  with all positions moved;
* `SourceFile.behind` — a file whose text stands behind another text;
* `Pattern.Find.SameHead` — the same head, found further on.

Main results:

* `SourceFile.lineOf_behind`, `Text.closingBrace?_append`, `Text.slice_append` — lines, blocks and
  ranges behind another text;
* `Declaration.classFinding_behind`, `Declaration.functionFinding_behind`,
  `Export.findings_behind`, `Import.edge_behind` — **what is found further on gives the same
  records, moved**.
-/

import SourceOutline.Proofs.HeadRecords

set_option autoImplicit false

namespace SourceOutline

open Text Pattern

/-! ### Moved positions -/

/-- The range of characters, further on. -/
def Span.moved (chars : Nat) (span : Span) : Span :=
  ⟨span.start + chars, span.stop + chars⟩

/-- The range of lines, further on. -/
def Extent.moved (lines : Nat) (extent : Extent) : Extent :=
  ⟨extent.first + lines, extent.last + lines⟩

/-- The declaration, further on. -/
def Element.moved (chars lines : Nat) (e : Element) : Element :=
  { e with extent := e.extent.moved lines, span := e.span.moved chars }

/-- The import statement, further on. -/
def ImportEdge.moved (chars lines : Nat) (e : ImportEdge) : ImportEdge :=
  { e with extent := e.extent.moved lines, span := e.span.moved chars }

/-- The export statement, further on. -/
def ExportEdge.moved (chars lines : Nat) (e : ExportEdge) : ExportEdge :=
  { e with extent := e.extent.moved lines, span := e.span.moved chars }

/-- The block, some lines further on. -/
def UnclosedBlock.moved (lines : Nat) (block : UnclosedBlock) : UnclosedBlock :=
  { block with line := block.line + lines }

/-- The warning about a block some lines further on. -/
def Warning.moved (lines : Nat) : Warning → Warning
  | skipped path block => skipped path (block.moved lines)
  | skippedMethod path className block => skippedMethod path className (block.moved lines)
  | headerOnly path block => headerOnly path (block.moved lines)
  | unreadable file error => unreadable file error

/-- The finding, further on, where `move` says what becomes of a record. -/
def Finding.moved {α : Type} (move : Nat → Nat → α → α) (chars lines : Nat) :
    Finding α → Finding α
  | record a => record (move chars lines a)
  | warning w => warning (w.moved lines)

/-- The outline, with all positions moved. -/
def Outline.moved (chars lines : Nat) (outline : Outline) : Outline :=
  { elements := outline.elements.map (Element.moved chars lines)
    imports := outline.imports.map (ImportEdge.moved chars lines)
    exports := outline.exports.map (ExportEdge.moved chars lines) }

/-- The outline and its warnings, with all positions moved. -/
def Reported.moved (chars lines : Nat) (reported : Reported Outline) : Reported Outline :=
  { value := reported.value.moved chars lines
    warnings := reported.warnings.map (Warning.moved lines) }

@[simp]
theorem Span.contains_moved (chars : Nat) (span : Span) (offset : Int) :
    (span.moved chars).contains (offset + chars) = span.contains offset := by
  simp [contains, moved]

@[simp]
theorem Finding.records_map_moved {α : Type} (move : Nat → Nat → α → α) (chars lines : Nat)
    (findings : List (Finding α)) :
    records (findings.map (Finding.moved move chars lines)) =
      (records findings).map (move chars lines) := by
  rw [records, records, List.filterMap_map, List.map_filterMap]
  exact List.filterMap_congr fun finding _ => by cases finding <;> rfl

@[simp]
theorem Finding.warnings_map_moved {α : Type} (move : Nat → Nat → α → α) (chars lines : Nat)
    (findings : List (Finding α)) :
    warnings (findings.map (Finding.moved move chars lines)) =
      (warnings findings).map (Warning.moved lines) := by
  rw [warnings, warnings, List.filterMap_map, List.map_filterMap]
  exact List.filterMap_congr fun finding _ => by cases finding <;> rfl

/-! ### Moving twice -/

section
variable (chars chars' lines lines' : Nat)

theorem Span.moved_moved (span : Span) :
    (span.moved chars).moved chars' = span.moved (chars + chars') := by
  simp [moved, Int.add_assoc]

theorem Extent.moved_moved (extent : Extent) :
    (extent.moved lines).moved lines' = extent.moved (lines + lines') := by
  simp [moved, Nat.add_assoc]

theorem UnclosedBlock.moved_moved (block : UnclosedBlock) :
    (block.moved lines).moved lines' = block.moved (lines + lines') := by
  simp [moved, Int.add_assoc]

theorem Warning.moved_moved (w : Warning) :
    (w.moved lines).moved lines' = w.moved (lines + lines') := by
  cases w <;> simp [moved, UnclosedBlock.moved_moved]

/-- Moving twice is moving by the sum. -/
theorem Reported.moved_moved (reported : Reported Outline) :
    (reported.moved chars lines).moved chars' lines' =
      reported.moved (chars + chars') (lines + lines') := by
  simp [moved, Outline.moved, Element.moved, ImportEdge.moved, ExportEdge.moved,
    Span.moved_moved, Extent.moved_moved, Warning.moved_moved]

end

/-- Moving by nothing changes nothing. -/
theorem Reported.moved_zero (reported : Reported Outline) : reported.moved 0 0 = reported := by
  have hwarning : Warning.moved 0 = id := by
    funext w
    cases w <;> simp [Warning.moved, UnclosedBlock.moved]
  have hspan : ∀ span : Span, span.moved 0 = span := fun span => by simp [Span.moved]
  have hextent : ∀ extent : Extent, extent.moved 0 = extent := fun _ => rfl
  have helement : Element.moved 0 0 = id := funext fun e => by simp [Element.moved, hspan, hextent]
  have himport : ImportEdge.moved 0 0 = id :=
    funext fun e => by simp [ImportEdge.moved, hspan, hextent]
  have hexport : ExportEdge.moved 0 0 = id :=
    funext fun e => by simp [ExportEdge.moved, hspan, hextent]
  simp [moved, Outline.moved, hwarning, helement, himport, hexport]

/-! ### Behind another text -/

namespace Text

variable (pre text : List Char)

theorem drop_append_add (k : Nat) : (pre ++ text).drop (k + pre.length) = text.drop k := by
  rw [Nat.add_comm, List.drop_length_add_append]

theorem range_append (start stop : Nat) :
    range (pre ++ text) (start + pre.length) (stop + pre.length) = range text start stop := by
  rw [range, range, drop_append_add, Nat.add_sub_add_right]

theorem clamp_add (length chars : Nat) {index : Int} (h : 0 ≤ index) :
    clamp (chars + length) (index + chars) = clamp length index + chars := by
  obtain ⟨k, rfl⟩ := Int.eq_ofNat_of_zero_le h
  rw [show (k : Int) + chars = (k + chars : Nat) by omega, clamp_natCast, clamp_natCast]
  omega

theorem slice_append {start stop : Int} (hstart : 0 ≤ start) (hstop : 0 ≤ stop) :
    slice (pre ++ text) (start + pre.length) (stop + pre.length) = slice text start stop := by
  rw [slice, slice, List.length_append, clamp_add _ _ hstart, clamp_add _ _ hstop, range_append]

/-- A block behind another text closes where it did. -/
theorem closingBrace?_append (start : Nat) :
    closingBrace? (pre ++ text) (start + pre.length) =
      (closingBrace? text start).map (· + pre.length) := by
  rw [closingBrace?, closingBrace?, drop_append_add, closeFrom_add]

end Text

namespace SourceFile

/-- The file whose text stands behind another one. -/
def behind (file : SourceFile) (pre : List Char) : SourceFile :=
  ofText file.path (pre ++ file.text)

variable (file : SourceFile) (pre : List Char)

@[simp]
theorem behind_path : (file.behind pre).path = file.path := rfl

@[simp]
theorem behind_text : (file.behind pre).text = pre ++ file.text := rfl

/-- Behind another text an offset lies as many lines further on as that text has line feeds. -/
theorem lineOf_behind {offset : Int} (h : 0 ≤ offset) :
    (file.behind pre).lineOf (offset + pre.length) = file.lineOf offset + pre.count '\n' := by
  obtain ⟨k, rfl⟩ := Int.eq_ofNat_of_zero_le h
  rw [show (k : Int) + pre.length = (pre.length + k : Nat) by omega, lineOf_natCast, lineOf_natCast,
    behind_text, lineNumber_append, Nat.add_comm]

theorem extent_behind {first last : Int} (hfirst : 0 ≤ first) (hlast : 0 ≤ last) :
    (file.behind pre).extent (first + pre.length) (last + pre.length) =
      (file.extent first last).moved (pre.count '\n') := by
  rw [extent, extent, Extent.moved, lineOf_behind file pre hfirst, lineOf_behind file pre hlast]

end SourceFile

/-! ### Statements -/

section
variable (file : SourceFile) (pre : List Char)

/-- The lines of a statement behind another text. -/
theorem SourceFile.extent_statement_behind (offset : Nat) {raw : List Char}
    (hraw : 0 < raw.length) :
    (file.behind pre).extent (offset + pre.length : Nat)
        ((offset + pre.length : Nat) + raw.length - 1) =
      (file.extent offset (offset + raw.length - 1)).moved (pre.count '\n') := by
  rw [← extent_behind file pre (by omega) (by omega)]
  congr 1
  omega

theorem Import.edge_behind (offset : Nat) {covered : List Char} (clause : Import.Clause)
    (hraw : 0 < (trimRight covered).length) :
    Import.edge (file.behind pre) (offset + pre.length) covered clause =
      (Import.edge file offset covered clause).moved pre.length (pre.count '\n') := by
  simp only [Import.edge, ImportEdge.moved, Span.moved, SourceFile.behind_path,
    SourceFile.extent_statement_behind file pre offset hraw]
  congr 2
  omega

namespace Export

/-- The first block behind an offset, behind another text. -/
theorem blockEnd?_append (text : List Char) (start : Nat) :
    blockEnd? (pre ++ text) (start + pre.length) =
      (blockEnd? text start).map (· + pre.length) := by
  simp only [blockEnd?, drop_append_add]
  cases (text.drop start).findIdx? (· == '\x7b') with
  | none => rfl
  | some ahead =>
      refine Eq.trans ?_ (closingBrace?_append pre text (start + ahead))
      simp [Nat.add_right_comm]

theorem edge_behind (offset : Nat) {covered : List Char} (kind : ExportKind)
    (items : List ExportedItem) (source : Option String)
    (hraw : 0 < (trimRight covered).length) :
    edge (file.behind pre) (offset + pre.length) covered kind items source =
      (edge file offset covered kind items source).moved pre.length (pre.count '\n') := by
  simp only [edge, ExportEdge.moved, Span.moved, SourceFile.behind_path,
    SourceFile.extent_statement_behind file pre offset hraw]
  congr 2
  omega

/-- **An export statement further on gives the same, moved.** -/
theorem findings_behind {offset stop : Nat} {covered : List Char} {form : Form} (hstop : 0 < stop)
    (hspan : ∀ e, .record e ∈ findings file offset stop covered form →
      e.span.start < e.span.stop) :
    findings (file.behind pre) (offset + pre.length) (stop + pre.length) covered form =
      (findings file offset stop covered form).map
        (Finding.moved ExportEdge.moved pre.length (pre.count '\n')) := by
  -- a record with a nonempty span has a nonempty text
  have hedge : ∀ {text : List Char} {kind items source},
      .record (edge file offset text kind items source) ∈ findings file offset stop covered form →
        edge (file.behind pre) (offset + pre.length) text kind items source =
          (edge file offset text kind items source).moved pre.length (pre.count '\n') := by
    intro text kind items source hmem
    have hlt := hspan _ hmem
    simp only [edge] at hlt
    exact edge_behind file pre offset kind items source (by omega)
  have hline : (file.behind pre).lineOf (offset + pre.length : Nat) =
      file.lineOf offset + pre.count '\n' := by
    rw [← SourceFile.lineOf_behind file pre (by omega)]
    rfl
  cases form with
  | whole kind items source =>
      simp only [findings] at hedge ⊢
      rw [hedge List.mem_cons_self]
      rfl
  | line kind item =>
      simp only [findings, SourceFile.behind_text, drop_append_add] at hedge ⊢
      rw [hedge List.mem_cons_self]
      rfl
  | block kind keyword item =>
      have hend : blockEnd? (file.behind pre).text (stop + pre.length - 1) =
          (blockEnd? file.text (stop - 1)).map (· + pre.length) := by
        rw [← blockEnd?_append, SourceFile.behind_text,
          show stop + pre.length - 1 = stop - 1 + pre.length by omega]
      simp only [findings, hend] at hedge ⊢
      cases hclose : blockEnd? file.text (stop - 1) with
      | none =>
          rw [hclose] at hedge
          simp only [Option.map_none]
          rw [hedge (by simp), hline]
          simp [Finding.moved, Warning.moved, UnclosedBlock.moved]
      | some close =>
          rw [hclose] at hedge
          simp only [Option.map_some, SourceFile.behind_text,
            show close + pre.length + 1 = close + 1 + pre.length by omega, range_append]
          rw [hedge List.mem_cons_self]
          rfl

end Export

end

/-! ### Declarations -/

namespace Pattern.Find

variable {α : Type}

/-- The same head was found, some characters further on. -/
structure SameHead (chars : Nat) (f g : Find (Declaration.Header α)) : Prop where
  headOffset_eq : g.headOffset = f.headOffset + chars
  stopOffset_eq : g.stopOffset = f.stopOffset + chars
  stopOffset_pos : 0 < f.stopOffset
  parts_eq : g.value.parts = f.value.parts
  summary_eq : g.value.summary? = f.value.summary?

end Pattern.Find

namespace Declaration

variable (file : SourceFile) (pre : List Char)

/-- The body of a declaration that was found further on. -/
theorem bodyEnd?_behind {α : Type} {text : List Char} {f g : Find (Header α)}
    (h : f.SameHead pre.length g) :
    bodyEnd? (pre ++ text) g = (bodyEnd? text f).map (· + pre.length) := by
  have hpos := h.stopOffset_pos
  rw [bodyEnd?, bodyEnd?, ← closingBrace?_append, h.stopOffset_eq]
  congr 1
  omega

/-- The line of a head that was found further on. -/
theorem lineOf_behind {α : Type} {f g : Find (Header α)} (h : f.SameHead pre.length g) :
    (file.behind pre).lineOf g.headOffset = file.lineOf f.headOffset + pre.count '\n' := by
  rw [h.headOffset_eq, ← SourceFile.lineOf_behind file pre (by omega)]
  rfl

section
variable (className : String) {base : Int}

theorem methodElement_behind (hbase : 0 ≤ base) (find : Find (Header MethodHead)) (close : Nat) :
    methodElement (file.behind pre) className (base + pre.length) find close =
      (methodElement file className base find close).moved pre.length (pre.count '\n') := by
  have hmove : ∀ k : Nat, base + pre.length + k = base + k + pre.length := by omega
  have hend : base + close + pre.length + 1 = base + close + 1 + pre.length := by omega
  simp only [methodElement, Element.moved, Span.moved, hmove, hend, SourceFile.behind_path,
    SourceFile.behind_text]
  rw [SourceFile.extent_behind file pre (by omega) (by omega),
    slice_append pre file.text (by omega) (by omega)]

/-- A method of a body further on gives the same, moved. -/
theorem methodFinding_behind (hbase : 0 ≤ base) (body : List Char)
    (find : Find (Header MethodHead)) :
    methodFinding (file.behind pre) className (base + pre.length) body find =
      (methodFinding file className base body find).map
        (Finding.moved Element.moved pre.length (pre.count '\n')) := by
  simp only [methodFinding]
  split
  · rfl
  · cases bodyEnd? body find with
    | none =>
        simp only [SourceFile.behind_path,
          Int.add_right_comm base (pre.length : Int), SourceFile.lineOf_behind file pre
            (show 0 ≤ base + (find.offsetOf find.value.start : Nat) by omega)]
        simp [Finding.moved, Warning.moved, UnclosedBlock.moved]
    | some close =>
        simp only [methodElement_behind file pre className hbase]
        rfl

end

/-- The methods of a body further on. -/
theorem methodFindings_behind (className : String) {start stop : Int} (hstart : 0 ≤ start)
    (hstop : 0 ≤ stop) :
    (file.behind pre).methodFindings className (start + pre.length) (stop + pre.length) =
      (file.methodFindings className start stop).map
        (Finding.moved Element.moved pre.length (pre.count '\n')) := by
  simp only [SourceFile.methodFindings, SourceFile.behind_text,
    slice_append pre file.text hstart hstop, List.map_flatMap]
  exact List.flatMap_congr fun find _ => methodFinding_behind file pre className hstart _ find

section
variable {α : Type} {f g : Find (Header α)} (h : f.SameHead pre.length g) (close : Nat)

include h

/-- The text of a declaration that was found further on. -/
theorem range_behind :
    range (pre ++ file.text) (g.offsetOf g.value.start) (close + pre.length + 1) =
      range file.text (f.offsetOf f.value.start) (close + 1) := by
  rw [← range_append pre file.text, Nat.add_right_comm close pre.length 1]
  exact congrArg (range _ · _) h.headOffset_eq

/-- The lines of a declaration that was found further on. -/
theorem extent_behind :
    (file.behind pre).extent (g.offsetOf g.value.start) (close + pre.length : Nat) =
      (file.extent (f.offsetOf f.value.start) close).moved (pre.count '\n') := by
  rw [← SourceFile.extent_behind file pre (by omega) (by omega)]
  exact congrArg (SourceFile.extent _ · _) (congrArg Int.ofNat h.headOffset_eq)

/-- The characters of a declaration that was found further on. -/
theorem span_behind :
    (⟨g.offsetOf g.value.start, (close + pre.length : Nat) + 1⟩ : Span) =
      Span.moved pre.length ⟨f.offsetOf f.value.start, close + 1⟩ := by
  have hhead : g.offsetOf g.value.start = f.offsetOf f.value.start + pre.length := h.headOffset_eq
  simp only [Span.moved, Span.mk.injEq]
  omega

end

theorem classElement_behind {f g : Find (Header Capture)} (h : f.SameHead pre.length g)
    (close : Nat) :
    classElement (file.behind pre) g (close + pre.length) =
      (classElement file f close).moved pre.length (pre.count '\n') := by
  simp only [classElement, Element.moved, SourceFile.behind_path, SourceFile.behind_text,
    range_behind file pre h, extent_behind file pre h, span_behind pre h, h.parts_eq, h.summary_eq]

theorem functionElement_behind {f g : Find (Header FunctionHead)} (h : f.SameHead pre.length g)
    (close : Nat) :
    functionElement (file.behind pre) g (close + pre.length) =
      (functionElement file f close).moved pre.length (pre.count '\n') := by
  simp only [functionElement, Element.moved, SourceFile.behind_path, SourceFile.behind_text,
    range_behind file pre h, extent_behind file pre h, span_behind pre h, h.parts_eq, h.summary_eq]

/-- **A class further on gives the same, moved**: itself and its methods. -/
theorem classFinding_behind {f g : Find (Header Capture)} (h : f.SameHead pre.length g) :
    classFinding (file.behind pre) g =
      (classFinding file f).map (Finding.moved Element.moved pre.length (pre.count '\n')) := by
  have hline := lineOf_behind file pre h
  simp only [Find.headOffset] at hline
  simp only [classFinding, SourceFile.behind_text, bodyEnd?_behind pre h, h.parts_eq]
  cases bodyEnd? file.text f with
  | none => simp [Finding.moved, Warning.moved, UnclosedBlock.moved, hline]
  | some close =>
      have hmethods := methodFindings_behind file pre (.ofList f.value.parts.text)
        (Int.natCast_nonneg f.stopOffset) (Int.natCast_nonneg close)
      simp only [Option.map_some, List.map_cons, h.stopOffset_eq, Int.natCast_add, hmethods,
        classElement_behind file pre h, Finding.moved]

/-- An export of a default function is one in the line that it moved to. -/
theorem isDefaultFunction_moved (chars lines line : Nat) (edge : ExportEdge) :
    isDefaultFunction (line + lines) (edge.moved chars lines) = isDefaultFunction line edge := by
  have hline : (edge.extent.first + lines == line + lines) = (edge.extent.first == line) := by
    rw [Bool.eq_iff_iff, beq_iff_eq, beq_iff_eq, Nat.add_right_cancel_iff]
  simp only [isDefaultFunction, ExportEdge.moved, Extent.moved, hline]

/-- **A function further on gives the same, moved**, if the classes and exports moved as well. -/
theorem functionFinding_behind (classes : List Element) (exports : List ExportEdge)
    {f g : Find (Header FunctionHead)} (h : f.SameHead pre.length g) :
    functionFinding (file.behind pre) (classes.map (Element.moved pre.length (pre.count '\n')))
        (exports.map (ExportEdge.moved pre.length (pre.count '\n'))) g =
      (functionFinding file classes exports f).map
        (Finding.moved Element.moved pre.length (pre.count '\n')) := by
  have hclass : (fun e : Element => (e.moved pre.length (pre.count '\n')).kind == .classDecl &&
      (e.moved pre.length (pre.count '\n')).span.contains g.headOffset) =
        fun e => e.kind == .classDecl && e.span.contains f.headOffset := by
    funext e
    rw [h.headOffset_eq]
    exact congrArg _ (Span.contains_moved pre.length e.span f.headOffset)
  have hline := lineOf_behind file pre h
  simp only [Find.headOffset] at hline hclass
  simp only [functionFinding, hline, List.any_map, Function.comp_def, isDefaultFunction_moved,
    SourceFile.behind_text, bodyEnd?_behind pre h, h.parts_eq, hclass]
  split
  · rfl
  · split
    · rfl
    · cases bodyEnd? file.text f with
      | none => simp [Finding.moved, Warning.moved, UnclosedBlock.moved]
      | some close =>
          simp only [Option.map_some, List.map_cons, List.map_nil,
            functionElement_behind file pre h, Finding.moved]

end Declaration

end SourceOutline
