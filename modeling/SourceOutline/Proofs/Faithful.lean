/-
**Records are faithful to the text.**

Every record says what it covers three times: by its text, by its span and by its lines.  Whatever
the text of a file is, well formed or not, the three agree, and the record's text begins and ends as
its kind demands.  The statements of imports and exports are cut from the text in six ways and the
declarations in three; all of them come down to a nonempty range of the text.

Main definitions:

* `Covers` — a text, a span and an extent mean the same range of a file;
* `Element.Faithful`, `StatementFaithful` — the records of declarations and of statements.

Main results:

* `faithful_import`, `faithful_export` — the records of statements are faithful;
* `faithful_classFinding`, `faithful_methodFinding`, `faithful_functionFinding` — and so is each
  kind of declaration;
* `faithful_element` — hence every element of an outline is.
-/

import SourceOutline.Outline
import SourceOutline.Proofs.Placement
import SourceOutline.Proofs.Statements

set_option autoImplicit false

namespace SourceOutline

open Text Pattern

/-- The records are those that the findings list. -/
theorem Finding.mem_records {α : Type} {a : α} {findings : List (Finding α)} :
    a ∈ records findings ↔ .record a ∈ findings := by
  rw [records, List.mem_filterMap]
  constructor
  · rintro ⟨finding, hmem, h⟩
    cases finding with
    | record b => obtain rfl := Option.some.inj h; exact hmem
    | warning w => exact absurd h (by simp [record?])
  · exact fun hmem => ⟨_, hmem, rfl⟩

/-! ### Trimming at the end -/

namespace Text

/-- Trimming stops before a text that does not end with a blank. -/
theorem trimRight_append_of_getLast? {s : List Char} {x : Char} (h : s.getLast? = some x)
    (hx : isBlank x = false) (t : List Char) : trimRight (s ++ t) = s ++ trimRight t := by
  obtain ⟨init, rfl⟩ := List.getLast?_eq_some_iff.1 h
  simp only [trimRight, List.reverse_append, List.dropWhile_append]
  split
  · rename_i hempty
    simp [List.isEmpty_iff.1 hempty, hx]
  · simp

theorem trimRight_begins (s : List Char) : trimRight s <+: s := by
  have h := List.dropWhile_suffix isBlank (l := s.reverse)
  have := List.reverse_prefix.2 h
  rwa [List.reverse_reverse] at this

/-- What is left does not end with a blank. -/
theorem isBlank_of_mem_getLast?_trimRight {s : List Char} {x : Char}
    (h : x ∈ (trimRight s).getLast?) : isBlank x = false := by
  rw [trimRight, List.getLast?_reverse] at h
  have hnot := List.head?_dropWhile_not isBlank s.reverse
  rw [Option.mem_def.1 h] at hnot
  simpa using hnot

theorem range_prefix_drop (text : List Char) (start stop : Nat) :
    range text start stop <+: text.drop start :=
  List.take_prefix _ _

/-- A part of a text from some place on is what the text goes on with there. -/
theorem drop_range_begins (text : List Char) (base stop k : Nat) :
    (range text base stop).drop k <+: text.drop (base + k) := by
  rw [range, List.drop_take, List.drop_drop]
  exact List.take_prefix _ _

theorem range_eq_of_prefix {text s : List Char} {start : Nat} (h : s <+: text.drop start) :
    range text start (start + s.length) = s := by
  rw [range, Nat.add_sub_cancel_left]
  exact (List.prefix_iff_eq_take.1 h).symm

theorem length_le_of_prefix_drop {text s : List Char} {start : Nat} (h : s <+: text.drop start)
    (hs : s ≠ []) : start + s.length ≤ text.length := by
  have hlength := h.length_le
  have hpos : 0 < s.length := List.length_pos_iff.2 hs
  rw [List.length_drop] at hlength
  omega

end Text

/-! ### What a record covers -/

/-- A text, a span and an extent mean the same nonempty range of a file. -/
structure Covers (text : List Char) (content : String) (span : Span) (extent : Extent) : Prop where
  start_nonneg : 0 ≤ span.start
  start_lt_stop : span.start < span.stop
  stop_le_length : span.stop ≤ text.length
  content_eq : content.toList = slice text span.start span.stop
  first_eq : extent.first = lineNumber text span.start
  last_eq : extent.last = lineNumber text (span.stop - 1)
  one_le_first : 1 ≤ extent.first
  first_le_last : extent.first ≤ extent.last

/-- Any nonempty range will do. -/
theorem covers_range (file : SourceFile) (start last : Nat) (hle : start ≤ last)
    (hlast : last < file.text.length) :
    Covers file.text (.ofList (range file.text start (last + 1))) ⟨start, last + 1⟩
      (file.extent start last) where
  start_nonneg := Int.natCast_nonneg _
  start_lt_stop := by
    simp only
    omega
  stop_le_length := by
    simp only
    omega
  content_eq := by
    have hslice := slice_natCast file.text start (last + 1) (by omega) (by omega)
    rw [String.toList_ofList, ← hslice]
    rfl
  first_eq := by rw [SourceFile.extent_natCast]
  last_eq := by
    have hstop : (last + 1 - 1 : Int) = (last : Nat) := by omega
    rw [SourceFile.extent_natCast]
    simp only [hstop]
  one_le_first := by
    rw [SourceFile.extent_natCast]
    exact one_le_lineNumber _ _
  first_le_last := by
    rw [SourceFile.extent_natCast]
    exact lineNumber_mono file.text hle

/-- The same for a nonempty text that stands at an offset. -/
theorem covers_text (file : SourceFile) {offset : Nat} {s : List Char} (hs : s ≠ [])
    (hbegins : s <+: file.text.drop offset) :
    Covers file.text (.ofList s) ⟨offset, offset + s.length⟩
      (file.extent offset (offset + s.length - 1)) := by
  obtain ⟨n, hn⟩ : ∃ n, s.length = n + 1 :=
    ⟨s.length - 1, by have := List.length_pos_iff.2 hs; omega⟩
  have hle := length_le_of_prefix_drop hbegins hs
  have hcovers := covers_range file offset (offset + n) (by omega) (by omega)
  have hrange : range file.text offset (offset + n + 1) = s := by
    rw [Nat.add_assoc, ← hn]
    exact range_eq_of_prefix hbegins
  have hstop : (offset : Int) + s.length = (offset + n : Nat) + 1 := by omega
  have hlast : (offset : Int) + s.length - 1 = (offset + n : Nat) := by omega
  rw [hrange] at hcovers
  rw [hlast, hstop]
  exact hcovers

/-- The record of a declaration is faithful: it begins with a character that is no blank and ends
with a closing brace. -/
structure Element.Faithful (text : List Char) (e : Element) : Prop where
  covers : Covers text e.snippet e.span e.extent
  head_not_blank : ∃ x ∈ e.snippet.toList.head?, isBlank x = false
  last_eq : e.snippet.toList.getLast? = some '\x7d'

/-- The record of a statement is faithful: it begins with its keyword and does not end with a
blank. -/
structure StatementFaithful (text : List Char) (keyword raw : String) (span : Span)
    (extent : Extent) : Prop where
  covers : Covers text raw span extent
  keyword_begins : keyword.toList <+: raw.toList
  last_not_blank : ∀ x ∈ raw.toList.getLast?, isBlank x = false

/-! ### Statements -/

/-- A statement that is cut from the text at `offset` and begins with its keyword is faithful after
it was trimmed. -/
theorem statementFaithful_trimRight (file : SourceFile) {keyword : String} {x : Char}
    (hkeyword : keyword.toList.getLast? = some x) (hx : isBlank x = false) {offset : Nat}
    {covered : List Char} (hcovered : covered <+: file.text.drop offset)
    (hhead : keyword.toList <+: covered) :
    StatementFaithful file.text keyword (.ofList (trimRight covered))
      ⟨offset, offset + (trimRight covered).length⟩
      (file.extent offset (offset + (trimRight covered).length - 1)) := by
  have hbegins : keyword.toList <+: trimRight covered := by
    obtain ⟨more, rfl⟩ := hhead
    rw [trimRight_append_of_getLast? hkeyword hx]
    exact List.prefix_append _ _
  have hne : trimRight covered ≠ [] := by
    intro h
    rw [h, List.prefix_nil] at hbegins
    rw [hbegins] at hkeyword
    exact absurd hkeyword (by simp)
  have hdrop : trimRight covered <+: file.text.drop offset :=
    (trimRight_begins covered).trans hcovered
  refine ⟨covers_text file hne hdrop, ?_, ?_⟩
  · rwa [String.toList_ofList]
  · rw [String.toList_ofList]
    exact fun y hy => isBlank_of_mem_getLast?_trimRight hy

/-- A keyword that was found stands at its offset. -/
theorem standsAt_of_mem_findAll_keyword {keyword : String} {text : List Char} {find : Find Cursor}
    (h : find ∈ findAll (keywordAtLineStart keyword) text) :
    find.value.StandsAt text (find.offsetOf find.value) ∧
      keyword.toList <+: text.drop (find.offsetOf find.value) := by
  obtain ⟨hplace, hmem⟩ := mem_findAll h
  obtain ⟨-, pad, -, hpad, hword⟩ := mem_outcomes_keywordAtLineStart hmem
  have hvalue := Find.standsAt_offsetOf hplace hpad
  refine ⟨hvalue, ?_⟩
  rw [← hvalue.rest_eq, hword.1]
  exact List.prefix_append _ _

/-- Every form of import begins with its keyword. -/
theorem reads_of_mem_outcomes_importStatement {c : Cursor} {found : Import.Clause × Cursor}
    (h : found ∈ Import.statement.outcomes c) : ∃ t, c.Reads ("import".toList ++ t) found.2 := by
  simp only [Import.statement, outcomes_orElse, List.mem_append] at h
  rcases h with h | h | h | h | h <;> exact reads_of_mem_outcomes_word_bind h

/-- Every form of export begins with its keyword. -/
theorem reads_of_mem_outcomes_exportStatement {c : Cursor} {found : Export.Form × Cursor}
    (h : found ∈ Export.statement.outcomes c) : ∃ t, c.Reads ("export".toList ++ t) found.2 := by
  simp only [Export.statement, outcomes_orElse, List.mem_append] at h
  rcases h with h | h | h | h | h <;> exact reads_of_mem_outcomes_word_bind h

/-- What a statement covers stands at its offset and begins with its keyword. -/
theorem covered_begins {c stop : Cursor} {text keyword t : List Char} {offset : Nat}
    (hplace : c.StandsAt text offset) (hreads : c.Reads (keyword ++ t) stop) :
    Capture.text ⟨c, stop⟩ <+: text.drop offset ∧ keyword <+: Capture.text ⟨c, stop⟩ := by
  rw [hreads.text_eq, ← hplace.rest_eq, hreads.1]
  exact ⟨List.prefix_append _ _, List.prefix_append _ _⟩

theorem faithful_import {file : SourceFile} {e : ImportEdge} (h : e ∈ file.imports) :
    StatementFaithful file.text "import" e.raw e.span e.extent := by
  rw [SourceFile.imports, List.mem_filterMap] at h
  obtain ⟨find, hfind, h⟩ := h
  obtain ⟨⟨clause, stop⟩, hfirst, rfl⟩ := Option.map_eq_some_iff.1 h
  obtain ⟨hplace, -⟩ := standsAt_of_mem_findAll_keyword hfind
  obtain ⟨t, ht⟩ := reads_of_mem_outcomes_importStatement (List.mem_of_head? hfirst)
  obtain ⟨hcovered, hhead⟩ := covered_begins hplace ht
  exact statementFaithful_trimRight file (x := 't') (by decide) (by decide) hcovered hhead

/-! ### Where exports end -/

namespace Export

theorem lineStatement_begins (text : List Char) : lineStatement text <+: text := by
  induction text with
  | nil => exact List.prefix_rfl
  | cons c rest ih =>
      simp only [lineStatement]
      split
      · exact List.nil_prefix
      · split
        · exact ⟨rest, rfl⟩
        · exact List.cons_prefix_cons.2 ⟨rfl, ih⟩

/-- The first block that opens at `start` or later closes there or later. -/
theorem blockEnd?_bounds {text : List Char} {start close : Nat}
    (h : blockEnd? text start = some close) :
    start ≤ close ∧ close < text.length ∧ text[close]? = some '\x7d' := by
  obtain ⟨ahead, -, hclose⟩ := Option.bind_eq_some_iff.1 h
  obtain ⟨hle, hrest⟩ := closingBrace?_bounds hclose
  exact ⟨by omega, hrest⟩

/-- What an export statement gives is faithful, wherever the statement was found to end. -/
theorem faithful_findings {file : SourceFile} {offset : Nat} {covered : List Char} {form : Form}
    {e : ExportEdge} (hcovered : covered <+: file.text.drop offset)
    (hhead : "export".toList <+: covered)
    (h : .record e ∈ findings file offset (offset + covered.length) covered form) :
    StatementFaithful file.text "export" e.raw e.span e.extent := by
  have hkeyword : "export".toList.getLast? = some 't' := by decide
  have hblank : isBlank 't' = false := by decide
  have hfaithful : ∀ {text : List Char} {kind : ExportKind} {items : List ExportedItem}
      {source : Option String}, text <+: file.text.drop offset → "export".toList <+: text →
      e = edge file offset text kind items source →
        StatementFaithful file.text "export" e.raw e.span e.extent := by
    rintro text kind items source htext hword rfl
    exact statementFaithful_trimRight file hkeyword hblank htext hword
  cases form with
  | whole kind items source =>
      simp only [findings, List.mem_singleton, Finding.record.injEq] at h
      exact hfaithful hcovered hhead h
  | line kind item =>
      simp only [findings, List.mem_singleton, Finding.record.injEq] at h
      refine hfaithful (lineStatement_begins _) ?_ h
      obtain ⟨more, hmore⟩ := hhead.trans hcovered
      rw [← hmore, lineStatement_word (by decide) (by decide)]
      exact List.prefix_append _ _
  | block kind keyword item =>
      simp only [findings] at h
      split at h
      · rename_i close hclose
        simp only [List.mem_singleton, Finding.record.injEq] at h
        obtain ⟨hle, hlt, -⟩ := blockEnd?_bounds hclose
        refine hfaithful (range_prefix_drop _ _ _) (hhead.trans ?_) h
        -- the block ends no earlier than the first words
        refine List.prefix_of_prefix_length_le hcovered (range_prefix_drop _ _ _) ?_
        rw [range, List.length_take, List.length_drop]
        omega
      · simp only [List.mem_cons, reduceCtorEq, Finding.record.injEq, List.not_mem_nil, or_false,
          false_or] at h
        exact hfaithful hcovered hhead h

end Export

/-- An export statement that was found, the place where its first words end, and what they cover. -/
theorem covered_of_mem_findAll_export {text : List Char} {find : Find Cursor}
    (hfind : find ∈ findAll (keywordAtLineStart "export") text) {form : Export.Form} {stop : Cursor}
    (hfirst : Export.statement.first? find.value = some (form, stop)) :
    let covered := Capture.text ⟨find.value, stop⟩
    let offset := find.offsetOf find.value
    covered <+: text.drop offset ∧ "export".toList <+: covered ∧
      find.offsetOf stop = offset + covered.length := by
  intro covered offset
  obtain ⟨hplace, hmem⟩ := mem_findAll hfind
  obtain ⟨-, pad, -, hpad, -⟩ := mem_outcomes_keywordAtLineStart hmem
  have hvalue := Find.standsAt_offsetOf hplace hpad
  obtain ⟨t, ht⟩ := reads_of_mem_outcomes_exportStatement (List.mem_of_head? hfirst)
  obtain ⟨hcovered, hhead⟩ := covered_begins hvalue ht
  refine ⟨hcovered, hhead, ?_⟩
  have hlength : covered.length = ("export".toList ++ t).length := congrArg List.length ht.text_eq
  rw [Find.offsetOf, (hpad.append ht).gap_eq, hlength, List.length_append]
  simp only [offset, Find.offsetOf, hpad.gap_eq]
  omega

theorem faithful_export {file : SourceFile} {e : ExportEdge} (h : e ∈ file.exports) :
    StatementFaithful file.text "export" e.raw e.span e.extent := by
  obtain ⟨find, hfind, h⟩ := List.mem_flatMap.1 (Finding.mem_records.1 h)
  split at h
  · rename_i form stop hfirst
    obtain ⟨hcovered, hhead, hstop⟩ := covered_of_mem_findAll_export hfind hfirst
    rw [hstop] at h
    exact Export.faithful_findings hcovered hhead h
  · exact absurd h List.not_mem_nil

/-! ### Declarations -/

/-- No head begins with a blank. -/
theorem opens_classHead : Opens Declaration.classHead (!isBlank ·) :=
  Opens.optionalKeyword_bind (x := 'e') (by decide) (by decide) fun _ =>
    Opens.optionalKeyword_bind (x := 'd') (by decide) (by decide) fun _ =>
      opens_word_bind (x := 'c') (by decide) (by decide)

theorem opens_functionHead : Opens Declaration.functionHead (!isBlank ·) :=
  Opens.optionalKeyword_bind (x := 'e') (by decide) (by decide) fun _ =>
    Opens.optionalKeyword_bind (x := 'd') (by decide) (by decide) fun _ =>
      Opens.optionalKeyword_bind (x := 'a') (by decide) (by decide) fun _ =>
        opens_word_bind (x := 'f') (by decide) (by decide)

theorem opens_methodHead : Opens Declaration.methodHead (!isBlank ·) := by
  have hmodifier : Opens Declaration.modifier (!isBlank ·) :=
    Opens.bind (Opens.orElse (opens_word_bind (x := 'a') (by decide) (by decide))
      (Opens.orElse (opens_word_bind (x := 'g') (by decide) (by decide))
        (opens_word_bind (x := 's') (by decide) (by decide))))
  have hstar : Opens (do word "*"; blanks) (!isBlank ·) :=
    opens_word_bind (x := '*') (by decide) (by decide)
  refine Opens.optionalKeyword_bind (x := 's') (by decide) (by decide) fun _ => ?_
  refine Opens.optional_bind hmodifier fun _ => Opens.optional_bind hstar fun _ => Opens.bind ?_
  exact opens_identifier fun x hx => by simp [isBlank_eq_false_of_isIdentStart hx]

/-- The head of a find begins at its offset with a character that is no blank, and ends later. -/
theorem head_of_mem_outcomes {α : Type} {p : Pattern α} (hp : Opens p (!isBlank ·))
    {text : List Char} {find : Find (Declaration.Header α)}
    (hplace : find.start.StandsAt text find.offset)
    (hmem : (find.value, find.stop) ∈ (Declaration.header p).outcomes find.start) :
    (∃ x ∈ (text.drop (find.offsetOf find.value.start)).head?, isBlank x = false) ∧
      find.offsetOf find.value.start ≤ find.stopOffset - 1 := by
  obtain ⟨⟨s, hs⟩, hparts⟩ := reads_of_mem_outcomes_header hmem
  obtain ⟨x, t, hx, ht⟩ := hp _ _ hparts
  have hstart := Find.standsAt_offsetOf hplace hs
  constructor
  · refine ⟨x, ?_, by simpa using hx⟩
    rw [← hstart.rest_eq, ht.1]
    rfl
  · simp only [Find.offsetOf, Find.stopOffset, hs.gap_eq, (hs.append ht).gap_eq,
      List.length_append, List.length_cons]
    omega

/-- A declaration is faithful if it begins with a character that is no blank and its last character
is a closing brace. -/
theorem Element.faithful_of_range {file : SourceFile} {e : Element} (start last : Nat)
    (hsnippet : e.snippet = .ofList (range file.text start (last + 1)))
    (hspan : e.span = ⟨start, last + 1⟩) (hextent : e.extent = file.extent start last)
    (hle : start ≤ last) (hhead : ∃ x ∈ (file.text.drop start).head?, isBlank x = false)
    (hlast : file.text[last]? = some '\x7d') : e.Faithful file.text := by
  have hlt : last < file.text.length := (List.getElem?_eq_some_iff.1 hlast).1
  have hlength : last + 1 - start = (last - start) + 1 := by omega
  refine ⟨?_, ?_, ?_⟩
  · rw [hsnippet, hspan, hextent]
    exact covers_range file start last hle hlt
  · obtain ⟨x, hx, hblank⟩ := hhead
    refine ⟨x, ?_, hblank⟩
    rw [hsnippet, String.toList_ofList, range, hlength, List.head?_take]
    simpa using hx
  · have hindex : (file.text.drop start)[last - start]? = some '\x7d' := by
      rw [List.getElem?_drop, Nat.add_sub_cancel' hle, hlast]
    rw [hsnippet, String.toList_ofList, range, hlength, List.take_add_one, hindex]
    exact List.getLast?_concat

/-- A record among the findings of a head that was found stands for a range of the text. -/
theorem faithful_functionFinding {file : SourceFile} {classes : List Element}
    {exports : List ExportEdge} {find : Find (Declaration.Header Declaration.FunctionHead)}
    (hfind : find ∈ findAll (Declaration.header Declaration.functionHead) file.text) {e : Element}
    (h : .record e ∈ Declaration.functionFinding file classes exports find) :
    e.Faithful file.text := by
  obtain ⟨hplace, hmem⟩ := mem_findAll hfind
  obtain ⟨hhead, hstop⟩ := head_of_mem_outcomes opens_functionHead hplace hmem
  simp only [Declaration.functionFinding] at h
  split at h
  · exact absurd h List.not_mem_nil
  · split at h
    · exact absurd h List.not_mem_nil
    · split at h
      · simp at h
      · rename_i close hclose
        obtain ⟨hle, -, hlast⟩ := closingBrace?_bounds hclose
        rw [List.mem_singleton, Finding.record.injEq] at h
        subst h
        exact Element.faithful_of_range _ _ rfl rfl rfl (Nat.le_trans hstop hle) hhead hlast

/-- The methods of a class body are faithful to the file: what stands in the body stands in the file,
further on by the offset of the body. -/
theorem faithful_methodFinding {file : SourceFile} {className : String} {base stop : Nat}
    {find : Find (Declaration.Header Declaration.MethodHead)}
    (hfind : find ∈ Declaration.methodFinds (range file.text base stop)) {e : Element}
    (h : .record e ∈ Declaration.methodFinding file className base (range file.text base stop)
      find) :
    e.Faithful file.text := by
  let body := range file.text base stop
  -- a character of the body is a character of the file
  have hget : ∀ {k : Nat} {x : Char}, body[k]? = some x → file.text[base + k]? = some x := by
    intro k x hx
    simp only [body, range, List.getElem?_take, List.getElem?_drop] at hx
    split at hx
    · exact hx
    · exact absurd hx (by simp)
  obtain ⟨-, hplace, hfirst⟩ := mem_scan (Cursor.standsAt_ofText body) hfind
  obtain ⟨⟨x, hx, hblank⟩, hhead⟩ :=
    head_of_mem_outcomes opens_methodHead hplace (List.mem_of_head? hfirst)
  simp only [Declaration.methodFinding] at h
  split at h
  · exact absurd h List.not_mem_nil
  · split at h
    · simp at h
    · rename_i close hclose
      obtain ⟨hle, -, hlast⟩ := closingBrace?_bounds hclose
      have hlt : base + close < file.text.length := (List.getElem?_eq_some_iff.1 (hget hlast)).1
      rw [List.mem_singleton, Finding.record.injEq] at h
      subst h
      refine Element.faithful_of_range (base + find.offsetOf find.value.start) (base + close) ?_ ?_
        ?_ (by omega) ⟨x, ?_, hblank⟩ (hget hlast)
      · have hslice := slice_natCast file.text (base + find.offsetOf find.value.start)
          (base + close + 1) (by omega) (by omega)
        rw [← hslice]
        rfl
      · rfl
      · rfl
      · rw [List.head?_drop] at hx ⊢
        exact hget hx

theorem faithful_classFinding {file : SourceFile}
    {find : Find (Declaration.Header Capture)}
    (hfind : find ∈ findAll (Declaration.header Declaration.classHead) file.text) {e : Element}
    (h : .record e ∈ Declaration.classFinding file find) : e.Faithful file.text := by
  obtain ⟨hplace, hmem⟩ := mem_findAll hfind
  obtain ⟨hhead, hstop⟩ := head_of_mem_outcomes opens_classHead hplace hmem
  simp only [Declaration.classFinding] at h
  split at h
  · simp at h
  · rename_i close hclose
    obtain ⟨hle, hlt, hlast⟩ := closingBrace?_bounds hclose
    rcases List.mem_cons.1 h with h | h
    · rw [Finding.record.injEq] at h
      subst h
      exact Element.faithful_of_range _ _ rfl rfl rfl (Nat.le_trans hstop hle) hhead hlast
    · have hbody : find.stopOffset ≤ file.text.length :=
        (Find.standsAt_stopOffset hplace hmem).le_length
      simp only [SourceFile.methodFindings, slice_natCast _ _ _ hbody (Nat.le_of_lt hlt),
        List.mem_flatMap] at h
      obtain ⟨method, hmethod, h⟩ := h
      exact faithful_methodFinding hmethod h

/-- Every class, method and function of an outline is faithful. -/
theorem faithful_element {file : SourceFile} {e : Element} (h : e ∈ file.outline.value.elements) :
    e.Faithful file.text := by
  rw [SourceFile.outline_elements, List.mem_append] at h
  rcases h with h | h
  · obtain ⟨find, hfind, h⟩ := List.mem_flatMap.1 (Finding.mem_records.1 h)
    exact faithful_classFinding hfind h
  · obtain ⟨find, hfind, h⟩ := List.mem_flatMap.1 (Finding.mem_records.1 h)
    exact faithful_functionFinding hfind h

end SourceOutline
