/-
**Default functions.**

A function that is exported as the default is recorded as an export and not as an element.  The two
passes do not talk to each other: an element is left out if some export record begins in the same
line and its text looks like that of a default function.  This is exact, because both passes find
what they find at the head of a line, and a line has one head.

Main definitions:

* `Pattern.Find.headText` — a head as it stands in the text;
* `BeginsDefault` — a text begins with `export` and `default`.

Main results:

* `Written.FunctionHead.beginsDefault_text_iff` — which heads begin with `export` and `default`;
* `exists_export_record` — a head that is an export statement has its record at the same offset;
* `exists_default_record`, `not_isDefaultFunction` — a default function has its record, and another
  function shares its line with none;
* `defaultFunctions_exact` — **a function is left out for an export exactly if it is the default
  export.**
-/

import SourceOutline.Proofs.ExportedHeads
import SourceOutline.Proofs.Grouping

set_option autoImplicit false

namespace SourceOutline

open Text Pattern

/-- A head as it stands in the text, up to the brace of its body. -/
def Pattern.Find.headText {α : Type} (find : Find (Declaration.Header α)) : List Char :=
  Capture.text ⟨find.value.start, find.stop⟩

/-- The text begins with `export` and `default`, with blanks between the two. -/
def BeginsDefault (s : List Char) : Prop :=
  ∃ g : Written.Gap, "export".toList ++ (g.text ++ "default".toList) <+: s

/-! ### Which heads begin with `export default` -/

namespace Written

/-- Blanks end where something else begins. -/
theorem blanks_unique {b b' : Blanks} {s s' : List Char} (h : b.text ++ s = b'.text ++ s')
    (hs : Stops isBlank s) (hs' : Stops isBlank s') : s = s' := by
  have hsame : b.text = b'.text := by
    rw [← hs.takeWhile_append b.isBlank_of_mem, h, hs'.takeWhile_append b'.isBlank_of_mem]
  rw [hsame] at h
  exact List.append_cancel_left h

/-- Where an export begins, its keyword is not absent. -/
theorem exists_gap_of_begins {exported defaulted : Option Gap} {s : List Char}
    (hs : Stops (· == 'e') s)
    (h : "export".toList <+: keywordText "export" exported ++ (keywordText "default" defaulted ++ s)) :
    ∃ g, exported = some g := by
  cases exported with
  | some g => exact ⟨g, rfl⟩
  | none =>
      obtain ⟨more, hmore⟩ := h
      cases defaulted with
      | none =>
          simp only [keywordText, Option.elim_none, List.nil_append] at hmore
          rw [← hmore] at hs
          simp at hs
      | some d => simp [keywordText] at hmore

namespace FunctionHead

variable (head : FunctionHead)

theorem text_append (rest : List Char) :
    head.text ++ rest = keywordText "export" head.exported ++
      (keywordText "default" head.defaulted ++
        (head.words ++ (head.parameters.text ++ '\x7b' :: rest))) := by
  simp [text, front]

/-- A head at which an export begins has that keyword. -/
theorem exported_of_begins {rest : List Char} (h : "export".toList <+: head.text ++ rest) :
    ∃ g, head.exported = some g := by
  have hreserved := head.reserved_words (head.parameters.text ++ '\x7b' :: rest)
  rw [text_append] at h
  exact exists_gap_of_begins (hreserved.stops (by decide) (by decide) (by decide)) h

/-- A head in which `default` follows `export` has both keywords. -/
theorem keywords_of_begins {g : Gap} {u rest : List Char}
    (h : head.text ++ rest = "export".toList ++ (g.text ++ ("default".toList ++ u))) :
    ∃ g' d, head.exported = some g' ∧ head.defaulted = some d := by
  obtain ⟨g', hexported⟩ := head.exported_of_begins ⟨_, h.symm⟩
  cases hdefaulted : head.defaulted with
  | some d => exact ⟨g', d, hexported, rfl⟩
  | none =>
      exfalso
      have hreserved := head.reserved_words (head.parameters.text ++ '\x7b' :: rest)
      rw [text_append] at h
      simp only [hexported, hdefaulted, keywordText, Option.elim_none, Option.elim_some,
        List.nil_append, List.append_assoc] at h
      have hwords := blanks_unique (List.append_cancel_left h)
        (hreserved.stops (by decide) (by decide) (by decide)) (by simp [isBlank])
      have hstops : Stops (· == 'd') (head.words ++ (head.parameters.text ++ '\x7b' :: rest)) :=
        hreserved.stops (by decide) (by decide) (by decide)
      rw [hwords] at hstops
      simp at hstops

/-- **A head begins with `export default` if it has both keywords.** -/
theorem beginsDefault_text_iff :
    BeginsDefault head.text ↔ ∃ g d, head.exported = some g ∧ head.defaulted = some d := by
  constructor
  · rintro ⟨g, u, hu⟩
    have hbegins : head.text ++ [] = "export".toList ++ (g.text ++ ("default".toList ++ u)) := by
      rw [List.append_nil, ← hu]
      simp
    exact head.keywords_of_begins hbegins
  · rintro ⟨g, d, hexported, hdefaulted⟩
    refine ⟨g, d.text ++ (head.words ++ (head.parameters.text ++ ['\x7b'])), ?_⟩
    have htext := head.text_append []
    rw [List.append_nil] at htext
    rw [htext, hexported, hdefaulted]
    simp [keywordText]

/-- A default function looks like one to the pass over functions. -/
theorem takes_defaultFunction (g d : Gap) (t : List Char) :
    Takes Declaration.defaultFunction
      ("export".toList ++ (g.text ++ ("default".toList ++ (d.text ++
        (keywordText "async" head.asynchronous ++ "function".toList)))))
      (head.separator.text ++ t) fun _ => True := by
  have hasync : Takes (Declaration.optionalKeyword "async") (keywordText "async" head.asynchronous)
      ("function".toList ++ (head.separator.text ++ t)) fun _ => True :=
    (head.takes_async _).map fun _ _ => trivial
  refine (takes_word _ _).bind fun _ _ => (g.takes (by simp [isBlank])).bind fun _ _ => ?_
  refine (takes_word _ _).bind fun _ _ => (d.takes ?_).bind fun _ _ => ?_
  · cases head.asynchronous <;> simp [keywordText, isBlank]
  refine hasync.bind fun _ _ => ?_
  exact takes_wholeWord (y := 'n') rfl (by decide)
    (head.separator.stops (fun _ h => isWord_eq_false_of_isBlank h) (by decide) t)

end FunctionHead

end Written

/-- What looks like a default function begins with `export` and `default`. -/
theorem begins_of_defaultFunction {raw : List Char}
    (h : (Declaration.defaultFunction.first? (Cursor.ofText raw)).isSome = true) :
    ∃ (g : Written.Gap) (u : List Char),
      raw = "export".toList ++ (g.text ++ ("default".toList ++ u)) := by
  obtain ⟨found, hfound⟩ := Option.isSome_iff_exists.1 h
  obtain ⟨_, hexport, hmem⟩ := mem_outcomes_bind.1 (List.mem_of_head? hfound)
  obtain ⟨_, hgap, hmem⟩ := mem_outcomes_bind.1 hmem
  obtain ⟨g, hg⟩ := exists_gap hgap
  obtain ⟨_, hdefault, -⟩ := mem_outcomes_bind.1 hmem
  have hreads := (reads_of_mem_outcomes_word hexport).append
    (hg.append (reads_of_mem_outcomes_word hdefault))
  exact ⟨g, _, by simpa [Cursor.ofText] using hreads.1⟩

/-! ### The record of a head -/

/-- **A head that is an export statement has its record at the same offset.** -/
theorem exists_export_record {α : Type} {p : Pattern α} {file : SourceFile}
    {find : Find (Declaration.Header α)} (hplaced : find.Placed p file.text) {g : Written.Gap}
    {covered s t : List Char} {Q : Export.Form → Prop}
    (hbegins : covered = "export".toList ++ (g.text ++ s))
    (hdrop : file.text.drop find.headOffset = covered ++ t)
    (htakes : Takes Export.statement covered t Q) :
    ∃ form, Q form ∧
      Export.recordOf file find.headOffset (find.headOffset + covered.length) covered form ∈
        file.exports := by
  have hrest : find.value.start.rest = covered ++ t :=
    hplaced.headsLine.standsAt.rest_eq.trans hdrop
  have hkeyword : find.value.start.rest = "export".toList ++ (g.text ++ (s ++ t)) := by
    rw [hrest, hbegins]
    simp
  obtain ⟨f, hf, hvalue, hoffset⟩ := exists_keywordFind (by decide) (by decide) hplaced.headsLine
    hkeyword (g.stops (fun _ h => isWord_eq_false_of_isBlank h) _)
  obtain ⟨form, hform, hfirst⟩ := htakes find.value.start.before
  have hstart : (⟨find.value.start.before, covered ++ t⟩ : Cursor) = f.value := by
    rw [hvalue, ← hrest]
  rw [hstart] at hfirst
  refine ⟨form, hform, SourceFile.mem_exports_iff.2 ⟨f, hf, ?_⟩⟩
  obtain ⟨-, -, hstop⟩ := covered_of_mem_findAll_export hf hfirst
  have hcovered : ∀ before, Capture.text ⟨f.value, ⟨before, t⟩⟩ = covered := by
    intro before
    exact Capture.text_of_rest_eq (by rw [← hstart])
  rw [Export.record?, hfirst, Option.map_some]
  simp only [hstop, hcovered, hoffset]

/-- The text of a block begins with the first words of the statement. -/
theorem Export.begins_raw_block {file : SourceFile} {offset : Nat} {covered t : List Char} {x : Char}
    {kind : ExportKind} {keyword : BlockKind} {item : ExportedItem}
    (hdrop : file.text.drop offset = covered ++ t) (hlast : covered.getLast? = some x)
    (hx : isBlank x = false) :
    ∃ more, (recordOf file offset (offset + covered.length) covered
      (.block kind keyword item)).raw.toList = covered ++ more := by
  simp only [recordOf, edge, String.toList_ofList]
  split
  · rename_i close hclose
    -- the block ends no earlier than the first words
    have hle := (blockEnd?_bounds hclose).1
    obtain ⟨n, hn⟩ : ∃ n, close + 1 - offset = covered.length + n :=
      ⟨close + 1 - offset - covered.length, by omega⟩
    rw [range, hdrop, hn, List.take_length_add_append, trimRight_append_of_getLast? hlast hx]
    exact ⟨_, rfl⟩
  · refine ⟨[], ?_⟩
    rw [trimRight_eq_self hlast hx, List.append_nil]

/-- A record begins where it says. -/
theorem Covers.begins {text : List Char} {content : String} {span : Span} {extent : Extent}
    (h : Covers text content span extent) {start : Nat} (hstart : span.start = start) :
    content.toList <+: text.drop start := by
  have hlt := h.start_lt_stop
  have hle := h.stop_le_length
  have hclamp : clamp text.length span.start = start := by
    rw [hstart, clamp_natCast]
    omega
  rw [h.content_eq, slice, hclamp]
  exact range_prefix_drop _ _ _

/-- No indentation follows where a head begins. -/
theorem Pattern.Find.Placed.stops_isPadding {α : Type} {p : Pattern α} (hp : Opens p (!isBlank ·))
    {text : List Char} {find : Find (Declaration.Header α)} (h : find.Placed p text) :
    Stops isPadding find.value.start.rest := by
  obtain ⟨x, s, hx, hreads⟩ := hp _ _ h.mem_outcomes
  rw [hreads.1, List.cons_append, stops_cons]
  exact isPadding_eq_false_of_isBlank_eq_false (by simpa using hx)

/-! ### Default functions -/

/-- A head in the line of a default function gives nothing. -/
theorem Declaration.functionFinding_eq_nil {file : SourceFile} {classes : List Element}
    {exports : List ExportEdge} {find : Find (Header FunctionHead)}
    (h : exports.any (isDefaultFunction (file.lineOf find.headOffset)) = true) :
    functionFinding file classes exports find = [] := by
  by_cases hclass : (classes.any fun e =>
      e.kind == .classDecl && e.span.contains find.headOffset) = true
  · exact if_pos hclass
  · exact (if_neg hclass).trans (if_pos h)

section
variable {file : SourceFile} {find : Find (Declaration.Header Declaration.FunctionHead)}

/-- **A default function has its record**, at its own offset and under its name. -/
theorem exists_default_record (hplaced : find.Placed Declaration.functionHead file.text)
    (hbegins : BeginsDefault find.headText) :
    ∃ x ∈ file.exports, x.span.start = find.headOffset ∧ x.kind = .defaultExpression ∧
      x.items = [⟨"default", .ofList find.value.parts.name.text⟩] ∧
      Declaration.isDefaultFunction (file.lineOf find.headOffset) x = true := by
  obtain ⟨head, hreads, hname, -⟩ := exists_functionHead hplaced.mem_outcomes
  rw [Find.headText, hreads.text_eq, head.beginsDefault_text_iff] at hbegins
  obtain ⟨g, d, hexported, hdefaulted⟩ := hbegins
  let covered := "export".toList ++ (g.text ++ ("default".toList ++ (d.text ++
    (head.words ++ (head.parameters.before.text ++ "(".toList)))))
  have hdrop : file.text.drop find.headOffset = covered ++ (head.parameters.inner ++
      ')' :: (head.parameters.behind.text ++ '\x7b' :: find.stop.rest)) := by
    rw [hplaced.drop_eq hreads, head.text_append, hexported, hdefaulted]
    simp [covered, Written.keywordText, Written.ParameterList.text]
  have hlast : covered.getLast? = some '(' := by
    simp [covered, List.getLast?_append, List.getLast?_cons]
  obtain ⟨_, rfl, hmem⟩ := exists_export_record hplaced rfl hdrop
    (head.takes_default g d ('\x7b' :: find.stop.rest))
  obtain ⟨more, hraw⟩ := @Export.begins_raw_block file find.headOffset covered _ '('
    .defaultExpression .function ⟨"default", .ofList head.name.text⟩ hdrop hlast (by decide)
  refine ⟨_, hmem, Export.recordOf_start _ _ _ _ _, rfl, by rw [hname]; rfl, ?_⟩
  have hlooks : (Declaration.defaultFunction.first? (Cursor.ofText (covered ++ more))).isSome =
      true := by
    obtain ⟨_, -, hfirst⟩ := head.takes_defaultFunction g d
      (head.name.text ++ (head.parameters.before.text ++ ("(".toList ++ more))) none
    have hsplit : covered ++ more = "export".toList ++ (g.text ++ ("default".toList ++ (d.text ++
        (Written.keywordText "async" head.asynchronous ++ "function".toList)))) ++
        (head.separator.text ++ (head.name.text ++ (head.parameters.before.text ++
          ("(".toList ++ more)))) := by
      simp [covered, Written.FunctionHead.words]
    rw [Cursor.ofText, hsplit, hfirst]
    rfl
  simp only [Declaration.isDefaultFunction, Bool.and_eq_true, beq_iff_eq]
  refine ⟨⟨rfl, ?_⟩, ?_⟩
  · rw [Export.recordOf_first, SourceFile.lineOf_natCast]
  · rw [hraw]
    exact hlooks

/-- A function that does not begin so shares its line with no record of a default function. -/
theorem not_isDefaultFunction (hplaced : find.Placed Declaration.functionHead file.text)
    (hbegins : ¬ BeginsDefault find.headText) :
    file.exports.any (Declaration.isDefaultFunction (file.lineOf find.headOffset)) = false := by
  obtain ⟨head, hreads, -⟩ := exists_functionHead hplaced.mem_outcomes
  rw [Find.headText, hreads.text_eq, head.beginsDefault_text_iff] at hbegins
  refine List.any_eq_false.2 fun x hx hdefault => hbegins ?_
  simp only [Declaration.isDefaultFunction, Bool.and_eq_true, beq_iff_eq] at hdefault
  obtain ⟨⟨-, hline⟩, hlooks⟩ := hdefault
  obtain ⟨f, hf, hrecord⟩ := SourceFile.mem_exports_iff.1 hx
  obtain ⟨hstart, hfirst⟩ := Export.position_of_record? hrecord
  -- both begin at the head of one line
  have hsame : f.offsetOf f.value = find.headOffset := by
    refine (headsLine_of_mem_findAll_keyword hf).unique hplaced.headsLine ?_ ?_ ?_
    · obtain ⟨-, -, _, -, -, hword⟩ := place_of_mem_findAll_keyword hf
      rw [hword.1]
      exact stops_cons.2 (by decide)
    · exact hplaced.stops_isPadding opens_functionHead
    · rw [← hfirst, hline, SourceFile.lineOf_natCast]
  rw [hsame] at hstart
  obtain ⟨rest, hrest⟩ := (faithful_export hx).covers.begins hstart
  obtain ⟨g, u, hraw⟩ := begins_of_defaultFunction hlooks
  have hboth : head.text ++ find.stop.rest =
      "export".toList ++ (g.text ++ ("default".toList ++ (u ++ rest))) := by
    rw [← hplaced.drop_eq hreads, ← hrest, hraw]
    simp
  exact head.keywords_of_begins hboth

end

/-- **A function is left out for an export exactly if it is the default export.**  A head that begins
with `export default` gives nothing, and one export record stands for it, at its offset and under its
name.  Any other head is left out only if it lies in a class or its body never closes. -/
theorem defaultFunctions_exact (path : String) (text : List Char) :
    let file := SourceFile.ofText path text
    let outline := file.outline.value
    ∀ find ∈ findAll (Declaration.header Declaration.functionHead) text,
      (BeginsDefault find.headText →
        Declaration.functionFinding file (Finding.records file.classFindings) outline.exports find =
            [] ∧
          (∀ e ∈ outline.elements, e.kind = .function → e.span.start ≠ find.headOffset) ∧
          ∃ x, outline.exports.filter (·.span.start == (find.headOffset : Int)) = [x] ∧
            x.kind = .defaultExpression ∧
            x.items = [⟨"default", .ofList find.value.parts.name.text⟩]) ∧
      (¬ BeginsDefault find.headText →
        outline.exports.any (Declaration.isDefaultFunction (file.lineOf find.headOffset)) = false ∧
          ((∃ e ∈ outline.elements, e.kind = .classDecl ∧ e.span.contains find.headOffset = true) ∨
            Declaration.bodyEnd? text find = none ∨
            ∃ close, Declaration.bodyEnd? text find = some close ∧
              Declaration.functionElement file find close ∈ outline.elements)) := by
  intro file outline find hfind
  have hplaced : find.Placed Declaration.functionHead file.text := placed_of_mem_findAll hfind
  refine ⟨fun hbegins => ?_, fun hbegins => ?_⟩
  · obtain ⟨x, hx, hstart, hkind, hitems, hdefault⟩ := exists_default_record hplaced hbegins
    have hany : file.exports.any (Declaration.isDefaultFunction (file.lineOf find.headOffset)) =
        true := List.any_eq_true.2 ⟨x, hx, hdefault⟩
    refine ⟨?_, fun e he hfunction hsame => ?_, x, ?_, hkind, hitems⟩
    · exact Declaration.functionFinding_eq_nil hany
    · obtain ⟨find', -, hrecord⟩ := SourceFile.function_of_mem_elements he hfunction
      obtain ⟨-, hnone, close, -, rfl⟩ := Declaration.functionRecord?_eq_some_iff.1 hrecord
      have hoffset : find'.headOffset = find.headOffset := Int.ofNat_inj.1 hsame
      rw [hoffset, hany] at hnone
      exact absurd hnone (by decide)
    · rw [← hstart]
      exact filter_exports_eq hx
  · have hnone := not_isDefaultFunction hplaced hbegins
    refine ⟨hnone, ?_⟩
    by_cases hclass : ∃ e ∈ file.groups.flatMap ClassGroup.elements,
        e.kind = .classDecl ∧ e.span.contains find.headOffset = true
    · obtain ⟨e, he, hin⟩ := hclass
      exact Or.inl ⟨e, file.elements_eq ▸ List.mem_append_left _ he, hin⟩
    · refine Or.inr ?_
      cases hclose : Declaration.bodyEnd? text find with
      | none => exact Or.inl rfl
      | some close =>
          refine Or.inr ⟨close, rfl, ?_⟩
          have hout : ∀ e ∈ file.groups.flatMap ClassGroup.elements, e.kind = .classDecl →
              e.span.contains find.headOffset = false := by
            intro e he hkind
            exact Bool.not_eq_true _ |>.mp fun hin => hclass ⟨e, he, hkind, hin⟩
          have hrecord := Declaration.functionRecord?_eq_some_iff.2
            ⟨hout, hnone, close, hclose, rfl⟩
          rw [show outline.elements = _ from file.elements_eq]
          exact List.mem_append_right _ (List.mem_filterMap.2 ⟨find, hfind, hrecord⟩)

/-- A default generator behind a tab, and another function. -/
theorem defaultFunctions_exact_generator :
    let text :=
      "export\tdefault async function* f(a) \x7b\x7d\nfunction g() \x7b\x7d\n".toList
    let file := SourceFile.ofText "p.js" text
    let outline := file.outline.value
    (∃ find ∈ findAll (Declaration.header Declaration.functionHead) text,
      BeginsDefault find.headText ∧
        ∃ x, outline.exports.filter (·.span.start == (find.headOffset : Int)) = [x] ∧
          x.kind = .defaultExpression ∧ x.items = [⟨"default", "f"⟩]) ∧
    ∃ find ∈ findAll (Declaration.header Declaration.functionHead) text,
      ¬ BeginsDefault find.headText ∧
        outline.exports.any (Declaration.isDefaultFunction (file.lineOf find.headOffset)) =
          false := by
  intro text file outline
  obtain ⟨find, hfind, htext, hname⟩ :
      ∃ find ∈ findAll (Declaration.header Declaration.functionHead) text,
        find.headText = "export\tdefault async function* f(a) \x7b".toList ∧
          String.ofList find.value.parts.name.text = "f" := by
    decide +kernel
  obtain ⟨find', hfind', htext'⟩ :
      ∃ find ∈ findAll (Declaration.header Declaration.functionHead) text,
        find.headText = "function g() \x7b".toList := by
    decide +kernel
  have hbegins : BeginsDefault find.headText :=
    htext ▸ ⟨⟨⟨['\t'], List.all_eq_true.1 rfl⟩, List.cons_ne_nil _ _⟩, ⟨_, rfl⟩⟩
  have hnot : ¬ BeginsDefault find'.headText := by
    rintro ⟨g, more, hmore⟩
    rw [htext'] at hmore
    simp at hmore
  obtain ⟨-, -, x, hx, hkind, hitems⟩ :=
    (defaultFunctions_exact "p.js" text find hfind).1 hbegins
  refine ⟨⟨find, hfind, hbegins, x, hx, hkind, hname ▸ hitems⟩, find', hfind', hnot, ?_⟩
  exact ((defaultFunctions_exact "p.js" text find' hfind').2 hnot).1

end SourceOutline
