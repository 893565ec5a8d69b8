/-
**Programs are read back.**

A program is a list of classes and functions, one behind the other.  Each pass goes through it
declaration by declaration: it takes the heads that are its own, passes over all that stands between
them, and finds each body's end by its braces.  So the outline of a program lists the classes, each
followed by its methods, and then the functions, with the very text and lines of each, and nothing is
reported.

Main definitions:

* `Printed.foundHead` — what a scan lists for a head;
* `Printed.ExportsBlock` — an export statement that stands here declares a block that closes.

Main results:

* `Printed.flatMap_findAll_program` — a program is read declaration by declaration;
* `Printed.methodFindings_class`, `Printed.classFindings_program`, `Printed.functionFindings_program`
  — what each pass gives;
* `Printed.exportFindings_program` — exported functions give no warnings and no default exports;
* `Printed.outline_program` — **the outline of a program lists its declarations**.
-/

import SourceOutline.Outline
import SourceOutline.Proofs.DeclarationHeads
import SourceOutline.Proofs.Faithful

set_option autoImplicit false

namespace SourceOutline.Printed

open Text Pattern

/-! ### Declarations in a file -/

/-- What a file has where a declaration stands in it: the text up to the closing brace, its lines,
and where it ends. -/
theorem code_in_file {file : SourceFile} {pre head body t : List Char}
    (hfile : file.text = pre ++ (head ++ closing body ++ t)) :
    let close := pre.length + (block head body).length - 1
    range file.text pre.length (close + 1) = block head body ∧
      file.extent pre.length close =
        ⟨pre.count '\n' + 1, pre.count '\n' + 1 + (block head body).count '\n'⟩ ∧
      close + 1 = pre.length + (block head body).length := by
  intro close
  let front := head ++ '\n' :: (body ++ ['\n'])
  have hblock : block head body = front ++ ['\x7d'] := by simp [block, front]
  have htext : file.text = pre ++ (front ++ '\x7d' :: '\n' :: t) := by
    simp [hfile, closing, front]
  have hclose : close = pre.length + front.length := by
    simp only [close, hblock, List.length_append, List.length_singleton]
    omega
  have hlength : close + 1 = pre.length + (block head body).length := by
    simp only [hclose, hblock, List.length_append, List.length_singleton]
    omega
  refine ⟨?_, ?_, hlength⟩
  · rw [hlength]
    refine range_eq_of_prefix ?_
    rw [htext, List.drop_left, hblock]
    exact ⟨'\n' :: t, by simp⟩
  · have hfirst : lineNumber file.text pre.length = pre.count '\n' + 1 := by
      have h := lineNumber_append pre (front ++ '\x7d' :: '\n' :: t) 0
      rw [lineNumber_zero] at h
      rw [htext]
      exact h
    have hlast : lineNumber file.text close = pre.count '\n' + front.count '\n' + 1 := by
      have h := lineNumber_append (pre ++ front) ('\x7d' :: '\n' :: t) 0
      rw [lineNumber_zero, List.append_assoc, List.count_append, List.length_append,
        Nat.add_zero] at h
      rw [htext, hclose]
      exact h
    have hcount : (block head body).count '\n' = front.count '\n' := by
      rw [hblock, List.count_append]
      rfl
    rw [SourceFile.extent_natCast, hfirst, hlast, hcount]
    congr 1
    omega

/-- What a scan lists for a head that it finds at the head of a line. -/
def foundHead {α : Type} (pos : Nat) (before : Option Char) (head rest : List Char) (parts : α) :
    Find (Declaration.Header α) :=
  ⟨pos, ⟨before, head ++ rest⟩, ⟨head.getLast?.or before, rest⟩,
    ⟨none, ⟨before, head ++ rest⟩, parts⟩⟩

section
variable {α : Type} {pos : Nat} {before : Option Char} {head body rest : List Char} {parts : α}

@[simp]
theorem foundHead_offsetOf_start :
    (foundHead pos before head rest parts).offsetOf
        (foundHead pos before head rest parts).value.start =
      pos := by
  simp [foundHead, Find.offsetOf, Cursor.gap]

@[simp]
theorem foundHead_stopOffset :
    (foundHead pos before head rest parts).stopOffset = pos + head.length := by
  simp [foundHead, Find.stopOffset, Cursor.gap]

@[simp]
theorem foundHead_parts : (foundHead pos before head rest parts).value.parts = parts := rfl

@[simp]
theorem foundHead_summary? : (foundHead pos before head rest parts).value.summary? = none := rfl

end

section
variable {α : Type} {p : Pattern α} {P : α → Prop} {head body t : List Char}

/-- The end of the body that a found head opens. -/
theorem bodyEnd?_foundHead (hhead : IsHead head) (hbody : Balanced body) (pre : List Char)
    (before : Option Char) (parts : α) :
    Declaration.bodyEnd? (pre ++ (head ++ closing body ++ t))
        (foundHead pre.length before head (closing body ++ t) parts) =
      some (pre.length + (block head body).length - 1) := by
  rw [Declaration.bodyEnd?, foundHead_stopOffset]
  exact closingBrace?_code hhead hbody pre t

/-- A head that is looked for is found, once, and the scan goes on behind the declaration. -/
theorem scan_declaration (hhead : IsHead head) (htakes : Takes p head (closing body ++ t) P)
    (hblank : Stops isBlank (head ++ (closing body ++ t)))
    (hslash : Stops (· == '/') (head ++ (closing body ++ t)))
    (hcalm : Calm (NoHead p) (some '\x7b') (closing body) t) (ht : PlainAhead t)
    {before : Option Char} (hbefore : before.all (· == '\n') = true) (pos : Nat) :
    ∃ parts, P parts ∧
      scan (Declaration.header p) Find.stopOffset pos 0 before (head ++ closing body ++ t) =
        foundHead pos before head (closing body ++ t) parts ::
          scan (Declaration.header p) Find.stopOffset (pos + (head ++ closing body).length) 0
            (some '\n') t := by
  obtain ⟨parts, hparts, hfirst⟩ := first?_header htakes hbefore hblank hslash
  have hne : head ≠ [] := by
    obtain ⟨front, rfl, -⟩ := hhead
    simp
  have hlast : head.getLast?.or before = some '\x7b' := by
    obtain ⟨front, rfl, -⟩ := hhead
    rw [List.getLast?_concat]
    rfl
  have hscan := scan_find pos rfl hne hfirst foundHead_stopOffset
  have hend : EndsPlain (closing body) := endsPlain_append_closing [] body
  refine ⟨parts, hparts, ?_⟩
  rw [List.append_assoc, hscan, hlast, scan_calm _ _ hcalm hend ht, getLast?_closing,
    List.length_append, Nat.add_assoc]
  simp [foundHead, hlast]

/-- A declaration without such a head is passed over. -/
theorem scan_other_declaration {before : Option Char}
    (hcalm : Calm (NoHead p) before (head ++ closing body) t) (ht : PlainAhead t) (pos : Nat) :
    scan (Declaration.header p) Find.stopOffset pos 0 before (head ++ closing body ++ t) =
      scan (Declaration.header p) Find.stopOffset (pos + (head ++ closing body).length) 0
        (some '\n') t := by
  rw [scan_calm _ _ hcalm (endsPlain_append_closing head body) ht, List.getLast?_append,
    getLast?_closing]
  rfl

end

/-! ### Items along a text -/

section
variable {σ β γ : Type} {text : σ → List Char} {give : Nat → Nat → σ → List β}

theorem map_along (f : β → γ) (offset line : Nat) (items : List σ) :
    (along text give offset line items).map f =
      along text (fun o l s => (give o l s).map f) offset line items := by
  induction items generalizing offset line with
  | nil => rfl
  | cons s more ih => rw [along, along, List.map_append, ih]

theorem along_append (offset line : Nat) (items more : List σ) :
    along text give offset line (items ++ more) =
      along text give offset line items ++
        along text give (offset + (items.flatMap text).length)
          (line + (items.flatMap text).count '\n') more := by
  induction items generalizing offset line with
  | nil => rfl
  | cons s items ih =>
      rw [List.cons_append, along, along, ih, List.append_assoc, List.flatMap_cons,
        List.length_append, List.count_append, Nat.add_assoc, Nat.add_assoc]

/-- What is given is given by one of the items. -/
theorem exists_of_mem_along {offset line : Nat} {items : List σ} {b : β}
    (h : b ∈ along text give offset line items) : ∃ o l, ∃ s ∈ items, b ∈ give o l s := by
  induction items generalizing offset line with
  | nil => exact absurd h List.not_mem_nil
  | cons s more ih =>
      rcases List.mem_append.1 h with h | h
      · exact ⟨offset, line, s, List.mem_cons_self, h⟩
      · obtain ⟨o, l, s', hs', h⟩ := ih h
        exact ⟨o, l, s', List.mem_cons_of_mem s hs', h⟩

end

/-! ### Methods -/

/-- A line feed is passed over where no head is found. -/
theorem scan_newline {α : Type} {p : Pattern α} (hp : Opens p (!isBlank ·))
    (resume : Find (Declaration.Header α) → Nat) (pos : Nat) (before : Option Char) {t : List Char}
    (ht : PlainAhead t) :
    scan (Declaration.header p) resume pos 0 before ('\n' :: t) =
      scan (Declaration.header p) resume (pos + 1) 0 (some '\n') t := by
  have hrefuses : Refuses p ('\n' :: t) := by
    intro before
    refine List.eq_nil_iff_forall_not_mem.2 fun found hfound => ?_
    obtain ⟨x, s, hx, hs⟩ := hp _ _ hfound
    obtain ⟨rfl, -⟩ := List.cons.inj hs.1
    exact absurd hx (by decide)
  have hcalm : Calm (NoHead p) before ['\n'] t :=
    calm_newline_cons (fun _ => noHead_of_refuses hrefuses (stops_cons.2 (by decide))) trivial
  have hend : EndsPlain ['\n'] := ⟨[], [], rfl, by simp, by simp, rfl⟩
  exact scan_calm resume pos hcalm hend ht

theorem plainAhead_nil : PlainAhead [] :=
  stops_nil _

theorem plainAhead_of_stops {t : List Char} (hblank : Stops isBlank t)
    (hslash : Stops (· == '/') t) : PlainAhead t := by
  cases t with
  | nil => exact stops_nil _
  | cons x t =>
      rw [PlainAhead, List.dropWhile_cons_of_neg (by simpa using hblank)]
      exact hslash

theorem Method.plainAhead (m : Method) (t : List Char) : PlainAhead (m.head ++ t) :=
  plainAhead_of_stops (m.stops_head (by decide) (fun _ => isBlank_eq_false_of_isIdentPart) t)
    (m.stops_head (by decide) slash_of_isIdentPart t)

theorem plainAhead_methods (methods : List Method) :
    PlainAhead (methods.flatMap Method.text ++ ['\n']) := by
  cases methods with
  | nil => exact stops_nil _
  | cons m more =>
      rw [List.flatMap_cons, m.text_eq, List.append_assoc, List.append_assoc]
      exact m.plainAhead _

theorem Method.signature_eq (m : Method) {parts : Declaration.MethodHead}
    (hstatic : parts.isStatic = m.isStatic) (hmodifier : parts.modifier = m.modifier)
    (hname : parts.name.text = m.name.text)
    (hparameters : parts.parameters.text = m.parameters.text) :
    parts.signature = m.signature := by
  rw [Declaration.MethodHead.signature, Method.signature, hstatic, hmodifier, hname, hparameters]
  cases m.modifier <;> rfl

/-- The record of a method that was found in a class body: `outer` stands before the body in the
file, and `pre` before the method in the body. -/
theorem methodElement_eq {file : SourceFile} {className : String} {outer pre u : List Char}
    (m : Method) (hfile : file.text = (outer ++ pre) ++ (m.head ++ closing m.body.text ++ u))
    {parts : Declaration.MethodHead} (hsignature : parts.signature = m.signature)
    (hname : parts.name.text = m.name.text) (before : Option Char) (rest : List Char) :
    Declaration.methodElement file className outer.length
        (foundHead pre.length before m.head rest parts) (pre.length + m.code.length - 1) =
      m.element file.path className (outer.length + pre.length)
        ((outer ++ pre).count '\n' + 1) := by
  obtain ⟨hrange, hextent, hclose⟩ := code_in_file hfile
  have hcode : block m.head m.body.text = m.code := rfl
  rw [hcode] at hrange hextent hclose
  have hpos : 0 < m.code.length := by
    rw [← hcode, length_block]
    omega
  have hlength : (outer ++ pre).length = outer.length + pre.length := List.length_append
  have hstart : (outer.length : Int) + pre.length = ((outer ++ pre).length : Nat) := by omega
  have hstop : (outer.length : Int) + (pre.length + m.code.length - 1 : Nat) =
      ((outer ++ pre).length + m.code.length - 1 : Nat) := by omega
  have hend : (((outer ++ pre).length + m.code.length - 1 : Nat) : Int) + 1 =
      ((outer ++ pre).length + m.code.length - 1 + 1 : Nat) := by omega
  have hbound : (outer ++ pre).length + m.code.length - 1 + 1 ≤ file.text.length := by
    rw [hfile, ← block_append, hcode, hclose]
    simp only [List.length_append]
    omega
  have hslice := slice_natCast file.text (outer ++ pre).length _ (by omega) hbound
  simp only [Declaration.methodElement, Method.element, foundHead_offsetOf_start, foundHead_parts,
    foundHead_summary?, hsignature, hname, hstart, hstop, hend, hslice, hrange, hextent]
  congr 2
  · omega
  · omega

/-- A method in a class body is found and recorded, and the search goes on in the line behind it. -/
theorem flatMap_scan_method {file : SourceFile} (className : String)
    {outer body pre u rest : List Char} (m : Method) (hfile : file.text = outer ++ (body ++ rest))
    (hbody : body = pre ++ (m.head ++ closing m.body.text ++ u)) (hu : PlainAhead u) :
    (scan (Declaration.header Declaration.methodHead) (Declaration.resumeOffset body) pre.length 0
        (some '\n') (m.head ++ closing m.body.text ++ u)).flatMap
        (Declaration.methodFinding file className outer.length body) =
      .record (m.element file.path className (outer.length + pre.length)
          ((outer ++ pre).count '\n' + 1)) ::
        (scan (Declaration.header Declaration.methodHead) (Declaration.resumeOffset body)
          (pre.length + m.text.length) 0 (some '\n') u).flatMap
          (Declaration.methodFinding file className outer.length body) := by
  have hline : (some '\n').all (· == '\n') = true := rfl
  obtain ⟨parts, ⟨hstatic, hmodifier, hname, hparameters⟩, hfirst⟩ :=
    first?_header (takes_methodHead m) hline
      (m.stops_head (by decide) (fun _ => isBlank_eq_false_of_isIdentPart) _)
      (m.stops_head (by decide) slash_of_isIdentPart (closing m.body.text ++ u))
  let find := foundHead pre.length (some '\n') m.head (closing m.body.text ++ u) parts
  have hend : Declaration.bodyEnd? body find = some (pre.length + m.code.length - 1) := by
    rw [hbody]
    exact bodyEnd?_foundHead m.isHead_head m.body.balanced pre _ parts
  have hcontrol : Declaration.isControlWord (.ofList find.value.parts.name.text) = false := by
    rw [show find.value.parts.name.text = _ from hname]
    exact m.not_isControlWord
  have hpos : 0 < m.code.length := by
    rw [Method.code, length_block]
    omega
  have hresume : Declaration.resumeOffset body find = pre.length + m.code.length := by
    simp only [Declaration.resumeOffset, hcontrol, hend, Bool.false_eq_true, if_false]
    omega
  have hfinding : Declaration.methodFinding file className outer.length body find =
      [.record (m.element file.path className (outer.length + pre.length)
        ((outer ++ pre).count '\n' + 1))] := by
    have hfile' : file.text = (outer ++ pre) ++ (m.head ++ closing m.body.text ++ (u ++ rest)) := by
      simp [hfile, hbody]
    simp only [Declaration.methodFinding, hcontrol, hend, Bool.false_eq_true, if_false]
    rw [methodElement_eq m hfile' (m.signature_eq hstatic hmodifier hname hparameters) hname]
  -- the search goes on at the line feed behind the closing brace
  have hcode : m.head ++ (closing m.body.text ++ u) = m.code ++ '\n' :: u := by
    simp [Method.code, block, closing]
  have hlength : pre.length + m.code.length + 1 = pre.length + m.text.length := by
    rw [Method.text, List.length_append, List.length_singleton, Nat.add_assoc]
  rw [List.append_assoc, scan_find pre.length hcode (List.length_pos_iff.1 hpos) hfirst hresume,
    scan_newline opens_methodHead _ _ _ hu, hlength, List.flatMap_cons]
  exact congrArg (· ++ _) hfinding

/-- The methods of a class body are found one after the other: `outer` stands before the body in the
file, and `pre` is the part of the body that was searched. -/
theorem flatMap_scan_methods {file : SourceFile} (className : String) {outer body rest : List Char}
    (hfile : file.text = outer ++ (body ++ rest)) (methods : List Method) {pre : List Char}
    (hbody : body = pre ++ (methods.flatMap Method.text ++ ['\n'])) :
    (scan (Declaration.header Declaration.methodHead) (Declaration.resumeOffset body) pre.length 0
        (some '\n') (methods.flatMap Method.text ++ ['\n'])).flatMap
        (Declaration.methodFinding file className outer.length body) =
      along Method.text (fun o l m => [.record (m.element file.path className o l)])
        (outer.length + pre.length) ((outer ++ pre).count '\n' + 1) methods := by
  -- induction on the methods that are left
  induction methods generalizing pre with
  | nil =>
      rw [List.flatMap_nil, List.nil_append, scan_newline opens_methodHead _ _ _ plainAhead_nil,
        scan_header_nil opens_methodHead]
      rfl
  | cons m more ih =>
      have hsplit : (m :: more).flatMap Method.text ++ ['\n'] =
          m.head ++ closing m.body.text ++ (more.flatMap Method.text ++ ['\n']) := by
        rw [List.flatMap_cons, m.text_eq, List.append_assoc]
      rw [hsplit] at hbody ⊢
      rw [flatMap_scan_method className m hfile hbody (plainAhead_methods more)]
      have hmore := @ih (pre ++ m.text) (by simp [hbody, m.text_eq])
      have hline : (outer ++ (pre ++ m.text)).count '\n' + 1 =
          (outer ++ pre).count '\n' + 1 + m.text.count '\n' := by
        simp only [List.count_append]
        omega
      rw [List.length_append, hline, ← Nat.add_assoc] at hmore
      rw [hmore]
      rfl

/-! ### Classes -/

theorem IsHead.count_newline {head : List Char} (h : IsHead head) : head.count '\n' = 0 := by
  obtain ⟨front, rfl, hfront⟩ := h
  refine List.count_eq_zero.2 ?_
  simpa using hfront '\n' (by simp [headMarks])

/-- What the body of a class gives. -/
theorem methodFindings_class {file : SourceFile} {pre t : List Char} (c : ClassDeclaration)
    (hfile : file.text = pre ++ (c.head ++ closing c.body ++ t)) :
    file.methodFindings (.ofList c.name.text) (pre.length + c.head.length : Nat)
        (pre.length + c.code.length - 1 : Nat) =
      (c.methodElements file.path pre.length (pre.count '\n' + 1)).map .record := by
  let body := '\n' :: (c.body ++ ['\n'])
  have hfile' : file.text = (pre ++ c.head) ++ (body ++ '\x7d' :: '\n' :: t) := by
    simp [hfile, closing, body]
  have hstart : pre.length + c.head.length = (pre ++ c.head).length := List.length_append.symm
  have hclose : pre.length + c.code.length - 1 = (pre ++ c.head).length + body.length := by
    rw [ClassDeclaration.code, length_block, ← hstart]
    simp only [body, List.length_cons, List.length_append, List.length_nil]
    omega
  have hbody : slice file.text (pre ++ c.head).length ((pre ++ c.head).length + body.length : Nat) =
      body := by
    have hlength : file.text.length = (pre ++ c.head).length + (body.length + (t.length + 2)) := by
      rw [hfile', List.length_append]
      exact congrArg _ List.length_append
    rw [slice_natCast _ _ _ (by omega) (by omega)]
    refine range_eq_of_prefix ?_
    rw [hfile', List.drop_left]
    exact List.prefix_append _ _
  have hmethods :=
    @flatMap_scan_methods file (.ofList c.name.text) _ body _ hfile' c.methods ['\n'] rfl
  have hline : (pre ++ c.head ++ ['\n']).count '\n' + 1 = pre.count '\n' + 1 + 1 := by
    simp only [List.count_append, c.isHead_head.count_newline]
    rfl
  rw [hline, ← hstart] at hmethods
  have hfinds : Declaration.methodFinds body =
      scan (Declaration.header Declaration.methodHead) (Declaration.resumeOffset body) 1 0
        (some '\n') (c.methods.flatMap Method.text ++ ['\n']) :=
    scan_newline opens_methodHead _ _ _ (plainAhead_methods c.methods)
  rw [SourceFile.methodFindings, hclose, hstart, hbody]
  simp only [hfinds, ← hstart]
  refine hmethods.trans ?_
  rw [ClassDeclaration.methodElements, map_along]
  rfl

/-- What a class gives where it stands in a file. -/
theorem classFinding_class {file : SourceFile} {pre t : List Char} (c : ClassDeclaration)
    (hfile : file.text = pre ++ (c.head ++ closing c.body ++ t)) {parts : Capture}
    (hparts : parts.text = c.name.text) (before : Option Char) :
    Declaration.classFinding file (foundHead pre.length before c.head (closing c.body ++ t) parts) =
      ((TopLevel.classDecl c).classElements file.path pre.length (pre.count '\n' + 1)).map
        .record := by
  obtain ⟨hrange, hextent, hclose⟩ := code_in_file hfile
  have hend : Declaration.bodyEnd? file.text
      (foundHead pre.length before c.head (closing c.body ++ t) parts) =
        some (pre.length + c.code.length - 1) := by
    rw [hfile]
    exact bodyEnd?_foundHead c.isHead_head c.balanced_body pre before parts
  have hcode : block c.head c.body = c.code := rfl
  rw [hcode] at hrange hextent hclose
  have hspan : ((pre.length + c.code.length - 1 : Nat) : Int) + 1 = pre.length + c.code.length := by
    omega
  have helement : Declaration.classElement file
      (foundHead pre.length before c.head (closing c.body ++ t) parts)
      (pre.length + c.code.length - 1) = c.element file.path pre.length (pre.count '\n' + 1) := by
    simp only [Declaration.classElement, ClassDeclaration.element, foundHead_offsetOf_start,
      foundHead_parts, foundHead_summary?, hparts, hrange, hextent, hspan]
  simp only [Declaration.classFinding, hend, helement, foundHead_parts, foundHead_stopOffset, hparts,
    TopLevel.classElements, List.map_cons, methodFindings_class c hfile]

/-! ### Functions -/

/-- What a function gives where it stands in a file, outside of classes and default exports. -/
theorem functionFinding_function {file : SourceFile} {pre t : List Char} {classes : List Element}
    {exports : List ExportEdge} (f : FunctionDeclaration)
    (hfile : file.text = pre ++ (f.head ++ closing f.body.text ++ t))
    {parts : Declaration.FunctionHead} (hname : parts.name.text = f.name.text)
    (hparameters : parts.parameters.text = f.parameters.text) (before : Option Char)
    (hclasses : ∀ e ∈ classes, e.kind = .classDecl → e.span.contains pre.length = false)
    (hexports : ∀ e ∈ exports, e.kind ≠ .defaultExpression) :
    Declaration.functionFinding file classes exports
        (foundHead pre.length before f.head (closing f.body.text ++ t) parts) =
      [.record (f.element file.path pre.length (pre.count '\n' + 1))] := by
  obtain ⟨hrange, hextent, hclose⟩ := code_in_file hfile
  have hend : Declaration.bodyEnd? file.text
      (foundHead pre.length before f.head (closing f.body.text ++ t) parts) =
        some (pre.length + f.code.length - 1) := by
    rw [hfile]
    exact bodyEnd?_foundHead f.isHead_head f.body.balanced pre before parts
  have hcode : block f.head f.body.text = f.code := rfl
  rw [hcode] at hrange hextent hclose
  have hspan : ((pre.length + f.code.length - 1 : Nat) : Int) + 1 = pre.length + f.code.length := by
    omega
  have helement : Declaration.functionElement file
      (foundHead pre.length before f.head (closing f.body.text ++ t) parts)
      (pre.length + f.code.length - 1) = f.element file.path pre.length (pre.count '\n' + 1) := by
    simp only [Declaration.functionElement, FunctionDeclaration.element, foundHead_offsetOf_start,
      foundHead_parts, foundHead_summary?, hname, hparameters, hrange, hextent, hspan]
  have hclass :
      (classes.any fun e => e.kind == .classDecl && e.span.contains pre.length) = false := by
    refine List.any_eq_false.2 fun e he h => ?_
    obtain ⟨hkind, hcontains⟩ := Bool.and_eq_true_iff.1 h
    rw [hclasses e he (beq_iff_eq.1 hkind)] at hcontains
    exact absurd hcontains (by decide)
  have hexport : ∀ line, exports.any (Declaration.isDefaultFunction line) = false := by
    intro line
    refine List.any_eq_false.2 fun e he h => hexports e he ?_
    simp only [Declaration.isDefaultFunction, Bool.and_eq_true] at h
    exact beq_iff_eq.1 h.1.1
  simp only [Declaration.functionFinding, foundHead_offsetOf_start, hclass, hexport, hend, helement,
    Bool.false_eq_true, if_false]

/-! ### Programs -/

theorem TopLevel.plainAhead (d : TopLevel) (t : List Char) : PlainAhead (d.text ++ t) := by
  cases d with
  | classDecl c =>
      rw [TopLevel.text, c.text_eq, List.append_assoc]
      exact plainAhead_of_stops (c.stops_head (fun _ => isBlank_eq_false_of_isIdentPart) _)
        (c.stops_head slash_of_isIdentPart _)
  | function f =>
      rw [TopLevel.text, f.text_eq, List.append_assoc]
      exact plainAhead_of_stops (f.stops_head (fun _ => isBlank_eq_false_of_isIdentPart) _)
        (f.stops_head slash_of_isIdentPart _)

theorem plainAhead_program (declarations : List TopLevel) : PlainAhead (program declarations) := by
  cases declarations with
  | nil => exact plainAhead_nil
  | cons d more => exact d.plainAhead _

theorem TopLevel.getLast?_text (d : TopLevel) : d.text.getLast? = some '\n' := by
  cases d with
  | classDecl c => exact List.getLast?_concat
  | function f => exact List.getLast?_concat

/-- Behind a program a line begins. -/
theorem getLast?_program (declarations : List TopLevel) :
    (program declarations).getLast?.all (· == '\n') = true := by
  induction declarations with
  | nil => rfl
  | cons d more ih =>
      rw [program, List.flatMap_cons, List.getLast?_append, d.getLast?_text]
      cases hlast : (more.flatMap TopLevel.text).getLast? with
      | none => rfl
      | some x =>
          rw [program, hlast] at ih
          exact ih

/-- **A program is read declaration by declaration.**  If each declaration gives what it should, and
the scan goes on behind it, the scan gives this for all of them, in order. -/
theorem flatMap_findAll_program {α β : Type} {p : Pattern α} (hp : Opens p (!isBlank ·))
    {f : Find (Declaration.Header α) → List β} {give : Nat → Nat → TopLevel → List β}
    (all : List TopLevel)
    (hstep : ∀ done d more, all = done ++ d :: more →
      (scan (Declaration.header p) Find.stopOffset (program done).length 0 (program done).getLast?
          (d.text ++ program more)).flatMap f =
        give (program done).length ((program done).count '\n' + 1) d ++
          (scan (Declaration.header p) Find.stopOffset ((program done).length + d.text.length) 0
            (some '\n') (program more)).flatMap f) :
    (findAll (Declaration.header p) (program all)).flatMap f =
      along TopLevel.text give 0 1 all := by
  -- induction on the declarations that are left; `done` are those before them
  suffices h : ∀ rest done, all = done ++ rest →
      (scan (Declaration.header p) Find.stopOffset (program done).length 0 (program done).getLast?
          (program rest)).flatMap f =
        along TopLevel.text give (program done).length ((program done).count '\n' + 1) rest from
    h all [] rfl
  intro rest
  induction rest with
  | nil =>
      intro done _
      rw [show program [] = [] from rfl, scan_header_nil hp]
      rfl
  | cons d more ih =>
      intro done hall
      have hnext := ih (done ++ [d]) (by simp [hall])
      have hdone : program (done ++ [d]) = program done ++ d.text := by
        simp [program]
      rw [hdone, List.length_append, List.count_append, List.getLast?_append, d.getLast?_text,
        Option.some_or, Nat.add_right_comm] at hnext
      have hprogram : program (d :: more) = d.text ++ program more := List.flatMap_cons
      rw [hprogram, hstep done d more hall, hnext]
      rfl

theorem program_append_cons (done : List TopLevel) (d : TopLevel) (more : List TopLevel) :
    program (done ++ d :: more) = program done ++ (d.text ++ program more) := by
  simp [program]

/-- The class pass gives the classes of a program, each followed by its methods. -/
theorem classFindings_program (path : String) (declarations : List TopLevel) :
    (SourceFile.ofText path (program declarations)).classFindings =
      (along TopLevel.text (TopLevel.classElements path) 0 1 declarations).map .record := by
  let file := SourceFile.ofText path (program declarations)
  have hQ : ∀ r, firstWord r ∉ declarationWords → NoHead Declaration.classHead r :=
    fun r => noHead_of_firstWord announces_classHead
  rw [map_along]
  refine flatMap_findAll_program opens_classHead declarations fun done d more hall => ?_
  have hfile : file.text = program done ++ (d.text ++ program more) := by
    rw [← program_append_cons, ← hall]
    rfl
  have hbefore := getLast?_program done
  have hmore := plainAhead_program more
  cases d with
  | classDecl c =>
      have hmethod : ∀ (m : Method) u, NoHead Declaration.classHead (m.head ++ u) := fun m u =>
        noHead_of_refuses m.refuses_classHead
          (m.stops_head (by decide) (fun _ => isPadding_eq_false_of_isIdentPart) u)
      simp only [TopLevel.text, c.text_eq] at hfile ⊢
      obtain ⟨parts, hparts, hscan⟩ := scan_declaration c.isHead_head (takes_classHead c)
        (c.stops_head (fun _ => isBlank_eq_false_of_isIdentPart) _)
        (c.stops_head slash_of_isIdentPart _) (calm_closing hQ (c.calm_body hQ hmethod)) hmore
        hbefore (program done).length
      rw [hscan, List.flatMap_cons, classFinding_class c hfile hparts]
      rfl
  | function f =>
      have hhead : NoHead Declaration.classHead
          (f.head ++ (closing f.body.text ++ program more)) :=
        noHead_of_refuses f.refuses_classHead
          (f.stops_head (fun _ => isPadding_eq_false_of_isIdentPart) _)
      simp only [TopLevel.text, f.text_eq]
      rw [scan_other_declaration (calm_text hQ f.isHead_head (f.body.calm hQ) hhead _) hmore]
      rfl

theorem ClassDeclaration.kind_of_mem_methodElements {path : String} {offset line : Nat}
    {c : ClassDeclaration} {e : Element} (h : e ∈ c.methodElements path offset line) :
    e.kind = .method := by
  obtain ⟨o, l, m, -, h⟩ := exists_of_mem_along h
  rw [List.mem_singleton] at h
  rw [h]
  rfl

/-- The classes of a program stand within it. -/
theorem span_of_mem_along {path : String} {offset line : Nat} {declarations : List TopLevel}
    {e : Element}
    (h : e ∈ along TopLevel.text (TopLevel.classElements path) offset line declarations)
    (hkind : e.kind = .classDecl) :
    (offset : Int) ≤ e.span.start ∧ e.span.stop ≤ offset + (program declarations).length := by
  induction declarations generalizing offset line with
  | nil => exact absurd h List.not_mem_nil
  | cons d more ih =>
      have hlength : (program (d :: more)).length = d.text.length + (program more).length := by
        rw [program, List.flatMap_cons, List.length_append]
        rfl
      rw [hlength]
      rcases List.mem_append.1 h with h | h
      · cases d with
        | classDecl c =>
            rcases List.mem_cons.1 h with rfl | h
            · have hcode : (TopLevel.classDecl c).text.length = c.code.length + 1 := by
                rw [TopLevel.text, ClassDeclaration.text, List.length_append, List.length_singleton]
              simp only [ClassDeclaration.element]
              omega
            · rw [c.kind_of_mem_methodElements h] at hkind
              exact absurd hkind (by decide)
        | function f => exact absurd h List.not_mem_nil
      · have := ih h
        omega

/-- No class of a program holds the place where a function of the program begins. -/
theorem contains_function_eq_false {path : String} {done more : List TopLevel}
    {f : FunctionDeclaration} {e : Element}
    (h : e ∈ along TopLevel.text (TopLevel.classElements path) 0 1
      (done ++ TopLevel.function f :: more))
    (hkind : e.kind = .classDecl) : e.span.contains (program done).length = false := by
  have hpos : 0 < (TopLevel.function f).text.length := by
    rw [TopLevel.text, FunctionDeclaration.text, List.length_append, List.length_singleton]
    omega
  refine Bool.eq_false_iff.2 fun hcontains => ?_
  obtain ⟨hstart, hstop⟩ := Span.contains_iff.1 hcontains
  -- classes before the function end before it, and the others begin behind it
  rw [along_append] at h
  rcases List.mem_append.1 h with h | h
  · have := (span_of_mem_along h hkind).2
    omega
  · have hmore := (span_of_mem_along (List.mem_append.1 h |>.resolve_left List.not_mem_nil) hkind).1
    have hdone : (done.flatMap TopLevel.text).length = (program done).length := rfl
    omega

/-- The function pass gives the functions of a program. -/
theorem functionFindings_program (path : String) (declarations : List TopLevel)
    {exports : List ExportEdge} (hexports : ∀ e ∈ exports, e.kind ≠ .defaultExpression) :
    (SourceFile.ofText path (program declarations)).functionFindings
        (along TopLevel.text (TopLevel.classElements path) 0 1 declarations) exports =
      (along TopLevel.text (TopLevel.functionElements path) 0 1 declarations).map .record := by
  let file := SourceFile.ofText path (program declarations)
  have hQ : ∀ r, firstWord r ∉ declarationWords → NoHead Declaration.functionHead r :=
    fun r => noHead_of_firstWord announces_functionHead
  rw [map_along]
  refine flatMap_findAll_program opens_functionHead declarations fun done d more hall => ?_
  have hfile : file.text = program done ++ (d.text ++ program more) := by
    rw [← program_append_cons, ← hall]
    rfl
  have hmore := plainAhead_program more
  cases d with
  | classDecl c =>
      have hhead : NoHead Declaration.functionHead (c.head ++ (closing c.body ++ program more)) :=
        noHead_of_refuses c.refuses_functionHead
          (c.stops_head (fun _ => isPadding_eq_false_of_isIdentPart) _)
      have hmethod : ∀ (m : Method) u, NoHead Declaration.functionHead (m.head ++ u) := fun m u =>
        noHead_of_refuses m.refuses_functionHead
          (m.stops_head (by decide) (fun _ => isPadding_eq_false_of_isIdentPart) u)
      simp only [TopLevel.text, c.text_eq]
      rw [scan_other_declaration
        (calm_text hQ c.isHead_head (c.calm_body hQ hmethod) hhead _) hmore]
      rfl
  | function f =>
      simp only [TopLevel.text, f.text_eq] at hfile ⊢
      obtain ⟨parts, ⟨hname, hparameters⟩, hscan⟩ :=
        scan_declaration f.isHead_head (takes_functionHead f)
          (f.stops_head (fun _ => isBlank_eq_false_of_isIdentPart) _)
          (f.stops_head slash_of_isIdentPart _) (calm_closing hQ (f.body.calm hQ)) hmore
          (getLast?_program done) (program done).length
      rw [hscan, List.flatMap_cons, functionFinding_function f hfile hname hparameters _
        (fun e he hkind => contains_function_eq_false (hall ▸ he) hkind) hexports]
      rfl

/-! ### Exports -/

/-- If an export statement stands here, behind spaces and tabs or not, then it declares something,
and the block of the declaration closes; so it does whatever text `pre` stands before it. -/
def ExportsBlock (rest : List Char) : Prop :=
  ∀ pad w, (∀ x ∈ pad, isPadding x = true) → rest = pad ++ w →
    ∀ before form stop, Export.statement.first? ⟨before, w⟩ = some (form, stop) →
      ∃ keyword item, form = .block .declaration keyword item ∧
        ∀ pre, ∃ close, Export.blockEnd? (pre ++ w)
          (pre.length + (Capture.text ⟨⟨before, w⟩, stop⟩).length - 1) = some close

theorem exportsBlock_of_noHead {rest : List Char} (h : NoHead Export.statement rest) :
    ExportsBlock rest := by
  intro pad w hpad hrest before form stop hfirst
  rw [first?, h pad w hpad hrest before] at hfirst
  exact absurd hfirst (by simp)

/-- The block of an exported function closes. -/
theorem FunctionDeclaration.exportsBlock (f : FunctionDeclaration) (t : List Char) :
    ExportsBlock (f.head ++ (closing f.body.text ++ t)) := by
  have hpadding := f.stops_head (fun _ => isPadding_eq_false_of_isIdentPart)
    (closing f.body.text ++ t)
  cases hexported : f.isExported with
  | false =>
      refine exportsBlock_of_noHead (noHead_of_refuses (Printed.refuses_exportStatement ?_) hpadding)
      simpa [head, keywordText, hexported] using
        f.stops_words (by decide) (by decide) (f.parameters.list ++ (closing f.body.text ++ t))
  | true =>
      intro pad w hpad hrest before form stop hfirst
      obtain rfl := eq_nil_of_stops hpadding hpad hrest
      let words := "export".toList ++ ([' '] ++ f.words)
      have hhead : f.head = words ++ f.parameters.list := by
        simp [head, keywordText, hexported, words]
      have hw : w = words ++ (f.parameters.list ++ (closing f.body.text ++ t)) := by
        rw [← List.append_assoc, ← hhead, hrest, List.nil_append]
      obtain ⟨_, rfl, hfirst'⟩ := takes_exportStatement_function f before
      rw [hw, hfirst', Option.some.injEq, Prod.mk.injEq] at hfirst
      obtain ⟨rfl, rfl⟩ := hfirst
      have hcovered : Capture.text ⟨⟨before, w⟩, ⟨words.getLast?.or before,
          f.parameters.list ++ (closing f.body.text ++ t)⟩⟩ = words :=
        Capture.text_of_rest_eq hw
      refine ⟨_, _, rfl, fun pre => ?_⟩
      rw [hcovered, hw]
      exact ⟨_, blockEnd?_code (by simp [words]) (by simp [Parameters.list_eq])
        (hhead ▸ f.isHead_head) f.body.balanced pre t⟩

/-- Wherever an export statement stands in a program, its block closes. -/
theorem calm_exports_program (declarations : List TopLevel) (before : Option Char) :
    Calm ExportsBlock before (program declarations) [] := by
  have hQ : ∀ r, firstWord r ∉ declarationWords → ExportsBlock r := fun r h =>
    exportsBlock_of_noHead (noHead_of_firstWord announces_exportStatement h)
  induction declarations generalizing before with
  | nil => trivial
  | cons d more ih =>
      rw [program, List.flatMap_cons]
      refine calm_append_iff.2 ⟨?_, ih _⟩
      cases d with
      | classDecl c =>
          have hmethod : ∀ (m : Method) u, ExportsBlock (m.head ++ u) := fun m u =>
            exportsBlock_of_noHead (noHead_of_refuses m.refuses_exportStatement
              (m.stops_head (by decide) (fun _ => isPadding_eq_false_of_isIdentPart) u))
          rw [TopLevel.text, c.text_eq]
          exact calm_text hQ c.isHead_head (c.calm_body hQ hmethod)
            (exportsBlock_of_noHead (noHead_of_refuses c.refuses_exportStatement
              (c.stops_head (fun _ => isPadding_eq_false_of_isIdentPart) _))) before
      | function f =>
          rw [TopLevel.text, f.text_eq]
          exact calm_text hQ f.isHead_head (f.body.calm hQ) (f.exportsBlock _) before

/-- The export pass reports nothing for a program, and records declarations only. -/
theorem exportFindings_program (path : String) (declarations : List TopLevel) :
    ∀ finding ∈ (SourceFile.ofText path (program declarations)).exportFindings,
      ∃ e : ExportEdge, finding = .record e ∧ e.kind = .declaration := by
  let file := SourceFile.ofText path (program declarations)
  intro finding h
  obtain ⟨find, hfind, h⟩ := List.mem_flatMap.1 h
  split at h
  · rename_i form stop hfirst
    obtain ⟨hplace, hmem⟩ := mem_findAll hfind
    obtain ⟨hbefore, pad, hpad, hreads, hword⟩ := mem_outcomes_keywordAtLineStart hmem
    obtain ⟨-, -, hstop⟩ := covered_of_mem_findAll_export hfind hfirst
    have hvalue := Find.standsAt_offsetOf hplace hreads
    -- the statement stands at the head of a line of the program
    have hrest : (program declarations).drop find.offset = pad ++ find.value.rest := by
      rw [← hreads.1]
      exact hplace.rest_eq.symm
    have hne : (program declarations).drop find.offset ≠ [] := by
      rw [hrest, hword.1]
      simp
    have hcalm := calm_exports_program declarations none
    rw [← List.take_append_drop find.offset (program declarations)] at hcalm
    have hexports := (hcalm.at_place hne).2 (by
      rw [Option.or_none]
      exact hplace.before_eq ▸ hbefore)
    rw [List.append_nil] at hexports
    obtain ⟨keyword, item, rfl, hclose⟩ := hexports pad _ hpad hrest _ form stop hfirst
    obtain ⟨close, hclose⟩ := hclose ((program declarations).take (find.offsetOf find.value))
    have htake : ((program declarations).take (find.offsetOf find.value)).length =
        find.offsetOf find.value := List.length_take_of_le hvalue.le_length
    have htext : (program declarations).take (find.offsetOf find.value) ++ find.value.rest =
        file.text := by
      rw [hvalue.rest_eq]
      exact List.take_append_drop _ _
    rw [htake, htext, ← hstop] at hclose
    simp only [Export.findings, file, hclose, List.mem_singleton] at h
    exact ⟨_, h, rfl⟩
  · exact absurd h List.not_mem_nil

/-! ### The outline -/

/-- **The outline of a program lists its declarations**: the classes in order, each followed by its
methods, and then the functions in order; each with its own text and lines.  Nothing is reported. -/
theorem outline_program (path : String) (declarations : List TopLevel) :
    let file := SourceFile.ofText path (program declarations)
    file.outline.warnings = [] ∧
      file.outline.value.elements =
        along TopLevel.text (TopLevel.classElements path) 0 1 declarations ++
          along TopLevel.text (TopLevel.functionElements path) 0 1 declarations := by
  intro file
  have hexports := exportFindings_program path declarations
  have hclasses := classFindings_program path declarations
  have hdefault : ∀ e ∈ Finding.records file.exportFindings, e.kind ≠ .defaultExpression := by
    intro e he
    obtain ⟨e', he', hkind⟩ := hexports _ (Finding.mem_records.1 he)
    obtain rfl := Finding.record.inj he'
    rw [hkind]
    decide
  have hfunctions := functionFindings_program path declarations hdefault
  have hquiet : Finding.warnings file.exportFindings = [] := by
    refine List.filterMap_eq_nil_iff.2 fun finding h => ?_
    obtain ⟨e, rfl, -⟩ := hexports finding h
    rfl
  simp only [SourceFile.outline, file, hclasses, Finding.records_map_record, hfunctions,
    Finding.warnings_map_record, List.append_nil, and_true]
  exact hquiet

end SourceOutline.Printed
