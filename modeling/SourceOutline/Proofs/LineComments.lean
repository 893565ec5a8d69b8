/-
**Line comments above declarations.**

Line comments belong to a declaration if they stand in the lines just above its head.  A comment that
trails other code in its line stands at no line start, so it belongs to nothing.  Methods, however,
are looked for in the body of their class alone, and there the place behind the opening brace counts
as a line start.  What trails this brace is therefore taken for a comment line of the first method.

Main definitions:

* `Text.BeginsLine` — a line begins at an offset;
* `Written.CommentRun`, `Written.CommentRun.StandsAbove` — comment lines, and the declaration below
  them;
* `SourceFile.documented` — the elements of an outline, each with the comment above it;
* `Pattern.Find.Documents`, `Declaration.DocumentsMethod` — the head of which an element is the
  record.

Main results:

* `Declaration.exists_commentRun` — what the pattern of line comments reads;
* `Pattern.Find.exists_run_above` — where line comments stand in the text that was searched;
* `SourceFile.map_fst_documented`, `SourceFile.mem_documented` — what is documented, and by what;
* `SourceFile.exists_run_above` — where line comments stand in the file;
* `line_comments_whole_iff` — **line comments are whole lines of the file, unless they begin behind
  the brace of a class**;
* `line_comment_trails_brace` — a comment that does.
-/

import SourceOutline.Proofs.RecordKeys

set_option autoImplicit false

namespace SourceOutline

open Text Pattern

/-! ### Line starts -/

namespace Text

/-- The offset is the first of a line. -/
def BeginsLine (text : List Char) (offset : Nat) : Prop :=
  offset = 0 ∨ text[offset - 1]? = some '\n'

instance (text : List Char) (offset : Nat) : Decidable (BeginsLine text offset) :=
  inferInstanceAs (Decidable (_ ∨ _))

/-- A part of a part is a part. -/
theorem range_range {text : List Char} {base stop start k : Nat} (hle : base + k ≤ stop) :
    range (range text base stop) start k = range text (base + start) (base + k) := by
  simp only [range, List.drop_take, List.drop_drop, List.take_take]
  congr 1
  omega

/-- **A line start of a part is one of the text, unless the part begins there.** -/
theorem BeginsLine.of_range {text : List Char} {base stop k : Nat}
    (h : BeginsLine (range text base stop) k) (hk : k ≠ 0) : BeginsLine text (base + k) := by
  have hnewline := h.resolve_left hk
  rw [range, List.getElem?_take] at hnewline
  split at hnewline
  · rw [List.getElem?_drop] at hnewline
    right
    rw [← hnewline]
    congr 1
    omega
  · exact absurd hnewline (by simp)

end Text

theorem Pattern.Cursor.StandsAt.beginsLine {c : Cursor} {text : List Char} {offset : Nat}
    (h : c.StandsAt text offset) (hbefore : c.before.all (· == '\n') = true) :
    BeginsLine text offset := by
  rcases Nat.eq_zero_or_pos offset with hzero | hpos
  · exact Or.inl hzero
  · right
    rw [← h.getLast?_take hpos hbefore, List.getLast?_eq_getElem?,
      List.length_take_of_le h.le_length, List.getElem?_take_of_lt (by omega)]

/-! ### Runs of comment lines -/

namespace Written

/-- Lines that hold nothing but comments. -/
structure CommentRun where
  first : CommentLine
  more : List CommentLine

namespace CommentRun

/-- The lines as they are written. -/
def text (run : CommentRun) : List Char :=
  (run.first :: run.more).flatMap CommentLine.text

/-- The run goes from `offset` up to the indentation of what stands at `start`. -/
def StandsAbove (run : CommentRun) (text : List Char) (offset start : Nat) : Prop :=
  ∃ pad, (∀ x ∈ pad, isPadding x = true) ∧ range text offset start = run.text ++ pad

/-- A run begins with indentation or with its first mark. -/
theorem exists_head_text (run : CommentRun) :
    ∃ x t, run.text = x :: t ∧ (isPadding x = true ∨ x = '/') := by
  rw [text, List.flatMap_cons, CommentLine.text]
  cases hindent : run.first.indent with
  | nil => exact ⟨_, _, rfl, Or.inr rfl⟩
  | cons x indent =>
      exact ⟨_, _, rfl, Or.inl (run.first.isPadding_of_mem x (hindent ▸ List.mem_cons_self))⟩

theorem slash_mem_text (run : CommentRun) : '/' ∈ run.text := by
  simp [text, CommentLine.text]

section
variable {run : CommentRun} {text : List Char} {base stop offset start : Nat}

theorem StandsAbove.slash_mem (h : run.StandsAbove text offset start) :
    '/' ∈ range text offset start := by
  obtain ⟨pad, -, hrange⟩ := h
  rw [hrange]
  exact List.mem_append_left _ run.slash_mem_text

theorem StandsAbove.lt (h : run.StandsAbove text offset start) : offset < start := by
  refine Nat.lt_of_not_le fun hle => ?_
  have hslash := h.slash_mem
  rw [range, Nat.sub_eq_zero_of_le hle, List.take_zero] at hslash
  exact absurd hslash List.not_mem_nil

/-- A run that stands in a part of a text stands in the text. -/
theorem StandsAbove.of_range (h : run.StandsAbove (range text base stop) offset start)
    (hle : start ≤ (range text base stop).length) :
    run.StandsAbove text (base + offset) (base + start) := by
  have hlt := h.lt
  rw [range, List.length_take] at hle
  have hstop : base + start ≤ stop := by omega
  obtain ⟨pad, hpadding, hrange⟩ := h
  exact ⟨pad, hpadding, by rw [← range_range hstop, hrange]⟩

end

end CommentRun

end Written

namespace Declaration

/-- Comment lines one behind the other. -/
theorem exists_commentLines {c c' : Cursor}
    (h : Relation.ReflTransGen (fun a b => b ∈ (commentLine.outcomes a).map Prod.snd) c c') :
    ∃ lines : List Written.CommentLine, c.Reads (lines.flatMap Written.CommentLine.text) c' := by
  induction h using Relation.ReflTransGen.head_induction_on with
  | refl => exact ⟨[], .nil _⟩
  | head hline _ ih =>
      obtain ⟨lines, hlines⟩ := ih
      obtain ⟨found, hfound, rfl⟩ := List.mem_map.1 hline
      obtain ⟨line, hline⟩ := exists_commentLine hfound
      exact ⟨line :: lines, hline.append hlines⟩

/-- **What the pattern of line comments reads**: comment lines from a line start on. -/
theorem exists_commentRun {c stop : Cursor} {capture : Capture}
    (h : (some (.lines capture), stop) ∈ leadingComment.outcomes c) :
    ∃ (line : Cursor) (run : Written.CommentRun), c.Reaches line ∧
      line.before.all (· == '\n') = true ∧ line.Reads run.text stop ∧ capture.text = run.text := by
  obtain ⟨comment, heq, h⟩ := (mem_outcomes_optional.1 h).resolve_right (by simp)
  obtain rfl := Option.some.inj heq
  rw [outcomes_orElse, List.mem_append] at h
  rcases h with h | h
  · -- a block comment gives no lines
    obtain ⟨_, -, h⟩ := mem_outcomes_bind.1 h
    obtain ⟨_, -, h⟩ := mem_outcomes_bind.1 h
    obtain ⟨_, -, h⟩ := mem_outcomes_bind.1 h
    obtain ⟨_, -, h⟩ := mem_outcomes_bind.1 h
    obtain ⟨_, -, h⟩ := mem_outcomes_bind.1 h
    simp [outcomes_pure] at h
  · obtain ⟨b, line, next, -, hb, hbefore, hfirst, hmore, heq⟩ := mem_outcomes_lineComments h
    have hcapture : capture = ⟨line, stop⟩ := LeadingComment.lines.inj heq
    obtain ⟨first, hfirst⟩ := exists_commentLine hfirst
    obtain ⟨more, hmore⟩ := exists_commentLines hmore
    have hreads := hfirst.append hmore
    refine ⟨line, ⟨first, more⟩, ⟨b, hb⟩, hbefore, hreads, ?_⟩
    rw [hcapture]
    exact hreads.text_eq

end Declaration

/-- **Where line comments stand in the text that was searched**: from a line start up to the head. -/
theorem Pattern.Find.exists_run_above {α : Type} {p : Pattern α} {text : List Char}
    {find : Find (Declaration.Header α)} {capture : Capture}
    (hplace : find.start.StandsAt text find.offset)
    (hmem : (find.value, find.stop) ∈ (Declaration.header p).outcomes find.start)
    (hcomment : find.value.comment = some (.lines capture)) :
    ∃ (offset : Nat) (run : Written.CommentRun), capture.text = run.text ∧
      run.StandsAbove text offset find.headOffset ∧ BeginsLine text offset := by
  obtain ⟨mid, hmid, -, pad, hpadding, hpad, -⟩ := mem_outcomes_header hmem
  rw [hcomment] at hmid
  obtain ⟨line, run, ⟨skipped, hskipped⟩, hbefore, hrun, htext⟩ :=
    Declaration.exists_commentRun hmid
  have hline := hplace.reads hskipped
  have hreads := hrun.append hpad
  have hhead : find.headOffset = find.offset + skipped.length + (run.text ++ pad).length := by
    rw [headOffset, offsetOf, (hskipped.append hreads).gap_eq, List.length_append, Nat.add_assoc]
  refine ⟨find.offset + skipped.length, run, htext, ⟨pad, hpadding, ?_⟩, hline.beginsLine hbefore⟩
  rw [hhead]
  refine range_eq_of_prefix ?_
  rw [← hline.rest_eq, hreads.1]
  exact List.prefix_append _ _

/-! ### Elements with their comments -/

namespace Declaration

/-- The class whose head was found and the methods of its body, each with the comment above it. -/
def documentedGroup (file : SourceFile) (cls : Find (Header Capture)) :
    List (Element × Option LeadingComment) :=
  match bodyEnd? file.text cls with
  | none => []
  | some close =>
    let body := classBody file.text cls close
    (classElement file cls close, cls.value.comment) ::
      (methodFinds body).filterMap fun find =>
        (methodRecord? file (.ofList cls.value.parts.text) cls.stopOffset body find).map
          (·, find.value.comment)

theorem map_fst_documentedGroup (file : SourceFile) (cls : Find (Header Capture)) :
    (documentedGroup file cls).map Prod.fst =
      (group? file cls).toList.flatMap ClassGroup.elements := by
  rw [documentedGroup, group?]
  cases bodyEnd? file.text cls with
  | none => rfl
  | some close =>
      simp [ClassGroup.elements, SourceFile.records_methodFindings, List.map_filterMap, classBody,
        Option.map_map, Function.comp_def]

end Declaration

namespace SourceFile

/-- The elements of an outline, each with the comment above it. -/
def documented (file : SourceFile) : List (Element × Option Declaration.LeadingComment) :=
  (findAll (Declaration.header Declaration.classHead) file.text).flatMap
      (Declaration.documentedGroup file) ++
    (findAll (Declaration.header Declaration.functionHead) file.text).filterMap fun find =>
      (Declaration.functionRecord? file (file.groups.flatMap ClassGroup.elements) file.exports
        find).map (·, find.value.comment)

/-- Every element is documented once, in order. -/
theorem map_fst_documented (file : SourceFile) :
    file.documented.map Prod.fst = file.outline.value.elements := by
  rw [file.elements_eq, documented, List.map_append, List.map_flatMap]
  congr 1
  · rw [groups, List.filterMap_eq_flatMap_toList, List.flatMap_assoc]
    exact List.flatMap_congr fun cls _ => Declaration.map_fst_documentedGroup file cls
  · simp [List.map_filterMap, Option.map_map, Function.comp_def]

end SourceFile

/-- The element is the record of a head that was found below the comment, in a text that has the
offset `base` in the file. -/
structure Pattern.Find.Documents {α : Type} (find : Find (Declaration.Header α)) (base : Nat)
    (e : Element) (comment : Option Declaration.LeadingComment) : Prop where
  start_eq : e.span.start = (base + find.headOffset : Nat)
  summary_eq : e.summary = find.value.summary?
  comment_eq : find.value.comment = comment

/-- The element is a method, found below the comment in the body of a class. -/
structure Declaration.DocumentsMethod (file : SourceFile) (cls : Find (Header Capture))
    (close : Nat) (e : Element) (comment : Option LeadingComment) : Prop where
  mem_findAll : cls ∈ findAll (header classHead) file.text
  bodyEnd_eq : bodyEnd? file.text cls = some close
  kind_eq : e.kind = .method
  className_eq : e.className = some (.ofList cls.value.parts.text)
  documents : ∃ find ∈ methodFinds (classBody file.text cls close),
    find.Documents cls.stopOffset e comment

namespace SourceFile

variable {file : SourceFile} {e : Element} {comment : Option Declaration.LeadingComment}

/-- Classes and functions are found in the whole text, methods in the body of their class. -/
theorem mem_documented (h : (e, comment) ∈ file.documented) :
    (∃ (α : Type) (p : Pattern α), ∃ find ∈ findAll (Declaration.header p) file.text,
      find.Documents 0 e comment) ∨
      ∃ cls close, Declaration.DocumentsMethod file cls close e comment := by
  rcases List.mem_append.1 h with h | h
  · obtain ⟨cls, hcls, h⟩ := List.mem_flatMap.1 h
    rw [Declaration.documentedGroup] at h
    split at h
    · exact absurd h List.not_mem_nil
    · rename_i close hclose
      rcases List.mem_cons.1 h with h | h
      · obtain ⟨rfl, rfl⟩ := Prod.mk.inj h
        exact Or.inl ⟨_, _, cls, hcls, by rw [Nat.zero_add]; rfl, rfl, rfl⟩
      · obtain ⟨find, hfind, h⟩ := List.mem_filterMap.1 h
        obtain ⟨m, hm, h⟩ := Option.map_eq_some_iff.1 h
        obtain ⟨rfl, rfl⟩ := Prod.mk.inj h
        obtain ⟨-, stop, -, rfl⟩ := Declaration.methodRecord?_eq_some_iff.1 hm
        exact Or.inr ⟨cls, close, hcls, hclose, rfl, rfl, find, hfind, rfl, rfl, rfl⟩
  · obtain ⟨find, hfind, h⟩ := List.mem_filterMap.1 h
    obtain ⟨f, hf, h⟩ := Option.map_eq_some_iff.1 h
    obtain ⟨rfl, rfl⟩ := Prod.mk.inj h
    obtain ⟨-, -, close, -, rfl⟩ := Declaration.functionRecord?_eq_some_iff.1 hf
    exact Or.inl ⟨_, _, find, hfind, by rw [Nat.zero_add]; rfl, rfl, rfl⟩

/-- **A summary is that of the comment above.** -/
theorem summary_of_mem_documented (h : (e, comment) ∈ file.documented) :
    e.summary = (comment.bind Declaration.LeadingComment.summary?).map .ofList := by
  rcases mem_documented h with ⟨α, p, find, -, hfind⟩ | ⟨cls, close, hmethod⟩
  · rw [hfind.summary_eq, ← hfind.comment_eq, Declaration.Header.summary?]
  · obtain ⟨find, -, hfind⟩ := hmethod.documents
    rw [hfind.summary_eq, ← hfind.comment_eq, Declaration.Header.summary?]

/-- No line begins behind the brace of a class. -/
theorem not_beginsLine_bodyStart {owner : Element} (howner : owner ∈ file.outline.value.classes)
    {offset : Nat} (hbody : owner.bodyStart = offset) : ¬ BeginsLine file.text offset := by
  obtain ⟨cls, hcls, hrecord⟩ := mem_classes_iff.1 howner
  obtain ⟨opening, -, hopening, -, hbrace, -⟩ := Declaration.braces_of_classRecord? hcls hrecord
  obtain rfl : offset = opening + 1 := by omega
  rintro (hzero | hnewline)
  · omega
  · rw [Nat.add_sub_cancel, hbrace] at hnewline
    exact absurd hnewline (by decide)

end SourceFile

/-- The comment above a method stands in the file where it stands in the body, moved by where the
body begins. -/
theorem Declaration.DocumentsMethod.exists_run_above {file : SourceFile}
    {cls : Find (Header Capture)} {close : Nat} {e : Element} {capture : Capture}
    (h : DocumentsMethod file cls close e (some (.lines capture))) :
    ∃ (offset start : Nat) (run : Written.CommentRun), e.span.start = start ∧
      capture.text = run.text ∧ run.StandsAbove file.text offset start ∧
        (BeginsLine file.text offset ∨ offset = cls.stopOffset) := by
  obtain ⟨find, hfind, hdocuments⟩ := h.documents
  obtain ⟨hplace, hmem⟩ := mem_methodFinds hfind
  obtain ⟨offset, run, htext, habove, hline⟩ :=
    find.exists_run_above hplace hmem hdocuments.comment_eq
  have hle := (placed_of_mem_methodFinds hfind).headsLine.standsAt.le_length
  rw [classBody_eq_range h.mem_findAll h.bodyEnd_eq] at habove hline hle
  refine ⟨cls.stopOffset + offset, _, run, hdocuments.start_eq, htext, habove.of_range hle, ?_⟩
  by_cases hoffset : offset = 0
  · exact Or.inr (by rw [hoffset, Nat.add_zero])
  · exact Or.inl (hline.of_range hoffset)

theorem Declaration.DocumentsMethod.exists_owner {file : SourceFile}
    {cls : Find (Header Capture)} {close : Nat} {e : Element} {comment : Option LeadingComment}
    (h : DocumentsMethod file cls close e comment) :
    ∃ owner ∈ file.outline.value.classes, e.kind = .method ∧ e.className = some owner.name ∧
      owner.bodyStart = cls.stopOffset := by
  have hrecord : classRecord? file cls = some (classElement file cls close) := by
    rw [classRecord?, h.bodyEnd_eq, Option.map_some]
  exact ⟨_, SourceFile.mem_classes_iff.2 ⟨cls, h.mem_findAll, hrecord⟩, h.kind_eq, h.className_eq,
    bodyStart_classElement h.mem_findAll h.bodyEnd_eq⟩

/-- **Where line comments stand in the file.** -/
theorem SourceFile.exists_run_above {file : SourceFile} {e : Element} {capture : Capture}
    (h : (e, some (.lines capture)) ∈ file.documented) :
    ∃ (offset start : Nat) (run : Written.CommentRun), e.span.start = start ∧
      capture.text = run.text ∧ run.StandsAbove file.text offset start ∧
        (BeginsLine file.text offset ∨ ∃ owner ∈ file.outline.value.classes, e.kind = .method ∧
          e.className = some owner.name ∧ owner.bodyStart = offset) := by
  rcases mem_documented h with ⟨α, p, find, hfind, hdocuments⟩ | ⟨cls, close, hmethod⟩
  · obtain ⟨hplace, hmem⟩ := mem_findAll hfind
    obtain ⟨offset, run, htext, habove, hline⟩ :=
      find.exists_run_above hplace hmem hdocuments.comment_eq
    have hstart := hdocuments.start_eq
    rw [Nat.zero_add] at hstart
    exact ⟨offset, _, run, hstart, htext, habove, Or.inl hline⟩
  · obtain ⟨offset, start, run, hstart, htext, habove, hplace⟩ := hmethod.exists_run_above
    refine ⟨offset, start, run, hstart, htext, habove, hplace.imp_right ?_⟩
    rintro rfl
    exact hmethod.exists_owner

/-- **Line comments are whole lines of the file, unless they begin behind the brace of a class.**
Each element is documented by the comment above it, which gives its summary.  If this is a run of line
comments, then it stands just above the element, and it begins at the beginning of a line unless the
element is a method and the run begins where the body of its class does. -/
theorem line_comments_whole_iff (path : String) (text : List Char) :
    let file := SourceFile.ofText path text
    let outline := file.outline.value
    file.documented.map Prod.fst = outline.elements ∧
      ∀ e comment, (e, comment) ∈ file.documented →
        e.summary = (comment.bind Declaration.LeadingComment.summary?).map .ofList ∧
          ∀ capture, comment = some (.lines capture) →
            ∃ (offset start : Nat) (run : Written.CommentRun), e.span.start = start ∧
              capture.text = run.text ∧ run.StandsAbove text offset start ∧
                e.summary = (Comment.summary? none (some run.text)).map .ofList ∧
                  (BeginsLine text offset ↔ ¬ ∃ owner ∈ outline.classes, e.kind = .method ∧
                    e.className = some owner.name ∧ owner.bodyStart = offset) := by
  intro file outline
  refine ⟨file.map_fst_documented, fun e comment h => ?_⟩
  have hsummary := SourceFile.summary_of_mem_documented h
  refine ⟨hsummary, ?_⟩
  rintro capture rfl
  obtain ⟨offset, start, run, hstart, htext, habove, hplace⟩ := SourceFile.exists_run_above h
  refine ⟨offset, start, run, hstart, htext, habove, ?_, ?_, hplace.resolve_right⟩
  · rw [hsummary, ← htext]
    rfl
  · rintro hline ⟨owner, howner, -, -, hbody⟩
    exact SourceFile.not_beginsLine_bodyStart howner hbody hline

/-- A run of two lines, with and without a carriage return, above a method. -/
theorem line_comments_whole_method :
    let text := "class A \x7b\n  // Runs\r\n  // twice.\n  m() \x7b\n  \x7d\n\x7d\n".toList
    let file := SourceFile.ofText "p.js" text
    ∃ e capture, (e, some (.lines capture)) ∈ file.documented ∧ e.span.start = 35 ∧
      e.summary = some "Runs twice." ∧
        ∃ run : Written.CommentRun, capture.text = run.text ∧ run.StandsAbove text 10 35 ∧
          BeginsLine text 10 := by
  intro text file
  obtain ⟨⟨e, comment⟩, hmem, hstart, hsummary, hlines⟩ : ∃ entry ∈ file.documented,
      entry.1.span.start = 35 ∧ entry.1.summary = some "Runs twice." ∧
        entry.2.any (fun comment => match comment with
          | .lines capture => capture.text == "  // Runs\r\n  // twice.\n".toList
          | .block _ => false) = true := by
    decide +kernel
  rcases comment with _ | body | capture
  · exact absurd hlines Bool.false_ne_true
  · exact absurd hlines Bool.false_ne_true
  · obtain ⟨offset, start, run, hspan, htext, habove, -, -⟩ :=
      ((line_comments_whole_iff "p.js" text).2 e _ hmem).2 capture rfl
    obtain rfl : start = 35 := by
      rw [show e.span.start = 35 from hstart] at hspan
      omega
    -- there is one place above the method where this run can stand
    have hplace : ∀ offset < 35, "  // Runs\r\n  // twice.\n".toList <+: range text offset 35 →
        offset = 10 := by
      decide +kernel
    have hlt := habove.lt
    have hbegins : "  // Runs\r\n  // twice.\n".toList <+: range text offset 35 := by
      obtain ⟨pad, -, hrange⟩ := habove
      rw [hrange, ← htext, beq_iff_eq.1 hlines]
      exact List.prefix_append _ _
    obtain rfl := hplace offset hlt hbegins
    exact ⟨e, capture, hmem, hstart, hsummary, run, htext, habove, by decide +kernel⟩

/-- A comment behind the brace of a class is taken for the comment of its first method, although it
does not stand in a line of its own. -/
theorem line_comment_trails_brace :
    let text := "class A \x7b // note\n  m() \x7b\n  \x7d\n\x7d\n".toList
    let file := SourceFile.ofText "p.js" text
    (∃ e capture, (e, some (.lines capture)) ∈ file.documented ∧ e.span.start = 20 ∧
      e.summary = some "note") ∧
        ¬ ∃ (offset : Nat) (run : Written.CommentRun), BeginsLine text offset ∧
          run.StandsAbove text offset 20 := by
  intro text file
  constructor
  · obtain ⟨⟨e, comment⟩, hmem, hstart, hsummary, hlines⟩ : ∃ entry ∈ file.documented,
        entry.1.span.start = 20 ∧ entry.1.summary = some "note" ∧
          entry.2.any (fun comment => match comment with
            | .lines _ => true
            | .block _ => false) = true := by
      decide +kernel
    rcases comment with _ | body | capture
    · exact absurd hlines Bool.false_ne_true
    · exact absurd hlines Bool.false_ne_true
    · exact ⟨e, capture, hmem, hstart, hsummary⟩
  · rintro ⟨offset, run, hline, habove⟩
    -- only the first line begins before the marks, and it begins with another character
    have hfirst : ∀ offset < 20, BeginsLine text offset → '/' ∈ range text offset 20 →
        offset = 0 := by
      decide +kernel
    obtain rfl := hfirst offset habove.lt hline habove.slash_mem
    obtain ⟨pad, -, hrange⟩ := habove
    obtain ⟨x, t, hx, hhead⟩ := run.exists_head_text
    rw [hx] at hrange
    obtain rfl : 'c' = x := (List.cons.inj hrange).1
    exact absurd hhead (by decide)

end SourceOutline
