/-
**What the text of an export shows of its head.**

The first words of an exported declaration go up to its name, and those of a default expression up to
the expression.  Blanks between these words may be line feeds.  A function or class is recorded up to
the end of its block, which lies behind them.  Anything else is recorded up to the next semicolon or
line feed, and this is looked for from the keyword `export` on: a line feed among the first words ends
the text there, before the name or the expression.

Main definitions:

* `Written.DeclarationKeyword`, `Written.DeclarationHead` — the first words of an exported
  declaration;
* `Export.opensBlock` — a function or class is written here;
* `ExportEdge.showsExpression` — something stands behind `default` that is not blank.

Main results:

* `Export.begins_lineStatement_iff` — when a statement in one line covers its first words;
* `Export.covered_begins_block` — a statement with a block covers them always;
* `exists_declarationHead`, `Export.exists_expression` — what the two forms read;
* `raw_shows_head_iff` — **when the text of an export shows its head**;
* `raw_cut_in_head` — a declaration and an expression whose text ends before.
-/

import SourceOutline.Proofs.DefaultChains
import SourceOutline.Proofs.ExportSpans

set_option autoImplicit false

namespace SourceOutline

open Text Pattern

/-- A sequence goes on behind what its first part takes. -/
theorem Pattern.Takes.first?_bind {α β : Type} {p : Pattern α} {next : α → Pattern β}
    {s t : List Char} {P : α → Prop} {before : Option Char} {found : β × Cursor}
    (h : Takes p s t P)
    (h' : ∀ a, P a → (next a).first? ⟨s.getLast?.or before, t⟩ = some found) :
    (p >>= next).first? ⟨before, s ++ t⟩ = some found := by
  obtain ⟨a, ha, hfirst⟩ := h before
  exact Pattern.first?_bind hfirst (h' a ha)

/-! ### Where the text of a statement ends -/

/-- Trimming keeps a beginning that does not end with a blank. -/
theorem Text.begins_trimRight {s t : List Char} {y : Char} (hlast : s.getLast? = some y)
    (hy : isBlank y = false) (h : s <+: t) : s <+: trimRight t := by
  obtain ⟨more, rfl⟩ := h
  rw [trimRight_append_of_getLast? hlast hy]
  exact List.prefix_append _ _

namespace Export

/-- **A statement in one line covers its first words if no line feed stands among them.** -/
theorem begins_lineStatement_iff {s t : List Char} {y : Char} (hlast : s.getLast? = some y)
    (hy : isBlank y = false) (hsemicolon : ';' ∉ s) :
    s <+: trimRight (lineStatement (s ++ t)) ↔ '\n' ∉ s := by
  constructor
  · intro h hline
    have hmem := (trimRight_begins _).subset (h.subset hline)
    exact newline_not_mem_lineStatement _ hmem
  · intro hline
    rw [lineStatement_word hsemicolon hline]
    exact begins_trimRight hlast hy (List.prefix_append _ _)

section
variable {file : SourceFile} {offset stop : Nat} {covered : List Char} {kind : ExportKind}
  {keyword : BlockKind} {item : ExportedItem}

theorem recordOf_kind (form : Form) : (recordOf file offset stop covered form).kind = form.kind := by
  cases form <;> rfl

theorem raw_recordOf_line :
    (recordOf file offset stop covered (.line kind item)).raw.toList =
      trimRight (lineStatement (file.text.drop offset)) := by
  simp [recordOf, edge]

/-- **A statement with a block covers its first words**, whether the block closes or not. -/
theorem covered_begins_block {y : Char} (hlast : covered.getLast? = some y)
    (hy : isBlank y = false) (hcovered : covered <+: file.text.drop offset) :
    covered <+: (recordOf file offset (offset + covered.length) covered
      (.block kind keyword item)).raw.toList := by
  cases hclose : blockEnd? file.text (offset + covered.length - 1) with
  | none =>
      simp only [recordOf, hclose, edge, String.toList_ofList]
      exact begins_trimRight hlast hy List.prefix_rfl
  | some close =>
      obtain ⟨hle, hlt, -⟩ := blockEnd?_bounds hclose
      simp only [recordOf, hclose, edge, String.toList_ofList]
      refine begins_trimRight hlast hy ?_
      refine List.prefix_of_prefix_length_le hcovered (range_prefix_drop _ _ _) ?_
      rw [length_range_succ hlt]
      omega

end

end Export

/-! ### The first words of a declaration -/

namespace Written

open Printed (Name VariableKeyword)

/-- The keyword of an exported declaration. -/
inductive DeclarationKeyword where
  | value (keyword : VariableKeyword)
  | block (kind : Export.BlockKind)

namespace DeclarationKeyword

/-- The word of a keyword. -/
def label : DeclarationKeyword → String
  | value keyword => keyword.label
  | block kind => kind.label

/-- The block that a declaration with this keyword ends with, if any. -/
def block? : DeclarationKeyword → Option Export.BlockKind
  | value _ => none
  | block kind => some kind

/-- What the keyword says about its statement. -/
def form (keyword : DeclarationKeyword) (item : ExportedItem) : Export.Form :=
  match keyword.block? with
  | some kind => .block .declaration kind item
  | none => .line .declaration item

theorem not_mem_label (keyword : DeclarationKeyword) {mark : Char}
    (hmark : isIdentPart mark = false) : mark ∉ keyword.label.toList := by
  cases keyword with
  | value keyword => cases keyword <;> exact not_mem_of_isIdent (by decide) hmark
  | block kind => cases kind <;> exact not_mem_of_isIdent (by decide) hmark

end DeclarationKeyword

/-- The first words of an exported declaration as they are written, up to the name. -/
structure DeclarationHead where
  exportGap : Gap
  asynchronous : Option Gap
  keyword : DeclarationKeyword
  separator : Separator
  name : Name

namespace DeclarationHead

variable (head : DeclarationHead)

def text : List Char :=
  "export".toList ++ (head.exportGap.text ++ (keywordText "async" head.asynchronous ++
    (head.keyword.label.toList ++ (head.separator.text ++ head.name.text))))

/-- The name that is made public. -/
def item : ExportedItem :=
  ⟨.ofList head.name.text, .ofList head.name.text⟩

theorem text_eq : head.text =
    "export".toList ++ (head.exportGap.text ++ (keywordText "async" head.asynchronous ++
      (head.keyword.label.toList ++ (head.separator.text ++ head.name.text)))) := rfl

/-- The name ends the first words, and no blank. -/
theorem exists_getLast?_text : ∃ y, head.text.getLast? = some y ∧ isBlank y = false := by
  obtain ⟨y, hy⟩ := Option.isSome_iff_exists.1
    (List.getLast?_isSome.2 (ne_nil_of_isIdent head.name.isIdent_text))
  refine ⟨y, by simp only [text_eq, List.getLast?_append, hy, Option.some_or], ?_⟩
  exact isBlank_eq_false_of_isIdentPart
    (isIdentPart_of_mem head.name.isIdent_text y (List.mem_of_getLast? hy))

theorem semicolon_not_mem_text : ';' ∉ head.text := by
  have hblank : isBlank ';' = false := by decide
  have hpart : isIdentPart ';' = false := by decide
  have hseparator : ';' ∉ head.separator.text := by
    cases head.separator with
    | star before behind =>
        simp [Separator.text, before.not_mem hblank, behind.not_mem hblank]
    | gap g => exact g.not_mem hblank
  have hasync : ';' ∉ keywordText "async" head.asynchronous :=
    not_mem_keywordText (by decide) hblank _
  simp [text_eq, head.exportGap.not_mem hblank, hasync, head.keyword.not_mem_label hpart,
    hseparator, not_mem_of_isIdent head.name.isIdent_text hpart]

end DeclarationHead

end Written

namespace Pattern

open Written

theorem exists_declarationKeyword {c : Cursor} {found : Option Export.BlockKind × Cursor}
    (h : found ∈ Export.declarationKeyword.outcomes c) :
    ∃ keyword : DeclarationKeyword, c.Reads keyword.label.toList found.2 ∧
      found.1 = keyword.block? := by
  have hword : ∀ {β : Type} {w : String} {b : β} {found : β × Cursor},
      found ∈ (do word w; return b : Pattern β).outcomes c →
        c.Reads w.toList found.2 ∧ found.1 = b := by
    intro β w b found h
    obtain ⟨mid, hmid, h⟩ := mem_outcomes_bind.1 h
    rw [outcomes_pure, List.mem_singleton] at h
    subst h
    exact ⟨reads_of_mem_outcomes_word hmid, rfl⟩
  simp only [Export.declarationKeyword, outcomes_orElse, List.mem_append] at h
  rcases h with h | h | h
  · obtain ⟨mid, hmid, h⟩ := mem_outcomes_bind.1 h
    rw [outcomes_pure, List.mem_singleton] at h
    subst h
    simp only [outcomes_orElse, List.mem_append] at hmid
    rcases hmid with h | h | h
    · exact ⟨.value .constKeyword, reads_of_mem_outcomes_word h, rfl⟩
    · exact ⟨.value .letKeyword, reads_of_mem_outcomes_word h, rfl⟩
    · exact ⟨.value .varKeyword, reads_of_mem_outcomes_word h, rfl⟩
  · exact ⟨.block .function, hword h⟩
  · exact ⟨.block .classDecl, hword h⟩

/-- **What an exported declaration reads**: the first words, up to the name. -/
theorem exists_declarationHead {c : Cursor} {found : Export.Form × Cursor}
    (h : found ∈ Export.declarationForm.outcomes c) :
    ∃ head : DeclarationHead, c.Reads head.text found.2 ∧
      found.1 = head.keyword.form head.item := by
  obtain ⟨_, hexport, h⟩ := mem_outcomes_bind.1 h
  obtain ⟨_, hgap, h⟩ := mem_outcomes_bind.1 h
  obtain ⟨_, hasync, h⟩ := mem_outcomes_bind.1 h
  obtain ⟨block, hkeyword, h⟩ := mem_outcomes_bind.1 h
  obtain ⟨_, hseparator, h⟩ := mem_outcomes_bind.1 h
  obtain ⟨_, hname, h⟩ := mem_outcomes_bind.1 h
  obtain ⟨g, hg⟩ := exists_gap hgap
  obtain ⟨keyword, hreads, hblock⟩ := exists_declarationKeyword hkeyword
  obtain ⟨separator, hseparator⟩ := exists_separator hseparator
  obtain ⟨name, hcapture, hname⟩ := exists_name hname
  obtain ⟨asynchronous, hasync⟩ : ∃ g : Option Gap, Cursor.Reads _ (keywordText "async" g) _ := by
    rcases mem_outcomes_optional.1 hasync with ⟨_, -, hmem⟩ | rfl
    · obtain ⟨_, hword, hgap⟩ := mem_outcomes_bind.1 hmem
      obtain ⟨a, ha⟩ := exists_gap hgap
      exact ⟨some a, (reads_of_mem_outcomes_word hword).append ha⟩
    · exact ⟨none, Cursor.Reads.nil _⟩
  have hall := (reads_of_mem_outcomes_word hexport).append (hg.append (hasync.append
    (hreads.append (hseparator.append hname))))
  rw [hblock] at h
  cases keyword with
  | value keyword =>
      obtain rfl := List.mem_singleton.1 h
      refine ⟨⟨g, asynchronous, .value keyword, separator, name⟩, hall, ?_⟩
      rw [hcapture]
      rfl
  | block kind =>
      obtain rfl := List.mem_singleton.1 h
      refine ⟨⟨g, asynchronous, .block kind, separator, name⟩, hall, ?_⟩
      rw [hcapture]
      rfl

end Pattern

/-! ### The forms and their kinds -/

namespace Export

/-- Of two alternatives the second counts if the first would not find this. -/
theorem Finds.first?_right {p q : Pattern Form} {P : Form → Prop} (h : Finds p P) {c : Cursor}
    {found : Form × Cursor} (hfound : ¬ P found.1) (hfirst : (p <|> q).first? c = some found) :
    q.first? c = some found := by
  rw [first?, outcomes_orElse] at hfirst
  cases houtcomes : p.outcomes c with
  | nil => rwa [houtcomes, List.nil_append] at hfirst
  | cons other more =>
      rw [houtcomes, List.cons_append, List.head?_cons, Option.some.injEq] at hfirst
      subst hfirst
      exact absurd (h c _ (houtcomes ▸ List.mem_cons_self)) hfound

theorem finds_defaultNameForm : Finds defaultNameForm (·.kind = .default) :=
  finds_bind fun _ => finds_bind fun _ => finds_bind fun _ => finds_bind fun _ =>
    finds_bind fun _ => finds_bind fun _ => finds_bind fun _ => finds_bind fun _ => finds_pure rfl

/-- A statement that goes on behind its first words is a declaration or a default expression. -/
theorem first?_of_kind {c : Cursor} {found : Form × Cursor}
    (hkind : found.1.kind = .declaration ∨ found.1.kind = .defaultExpression)
    (hfirst : statement.first? c = some found) :
    (declarationForm <|> defaultExpressionForm).first? c = some found := by
  have hall : ¬ found.1.kind = .reExportAll := by
    rcases hkind with hkind | hkind <;> rw [hkind] <;> decide
  have hnamed : ¬ (found.1.kind = .reExportNamed ∨ found.1.kind = .namedList) := by
    rcases hkind with hkind | hkind <;> rw [hkind] <;> decide
  have hname : ¬ found.1.kind = .default := by
    rcases hkind with hkind | hkind <;> rw [hkind] <;> decide
  exact finds_defaultNameForm.first?_right hname (finds_namedForm.first?_right hnamed
    (finds_allForm.first?_right hall hfirst))

/-! ### The first words of a default expression -/

/-- A function or class is written here. -/
def opensBlock (rest : List Char) : Bool :=
  ((inlineFunction <|> inlineClass).first? (Cursor.ofText rest)).isSome

theorem looksAhead_inlineBlock : LooksAhead (inlineFunction <|> inlineClass) :=
  LooksAhead.orElse
    (LooksAhead.optional_bind ((looksAhead_word (by decide)).bind _)
      ((looksAhead_word (by decide)).bind _))
    ((looksAhead_word (by decide)).bind _)

theorem opensBlock_iff (before : Option Char) (rest : List Char) :
    opensBlock rest = true ↔ (inlineFunction <|> inlineClass).outcomes ⟨before, rest⟩ ≠ [] := by
  rw [opensBlock, first?, Cursor.ofText, looksAhead_inlineBlock none before rest]
  cases (inlineFunction <|> inlineClass).outcomes ⟨before, rest⟩ <;> simp

/-- An expression does not begin with a blank, nor with a semicolon unless it is a block. -/
theorem exists_head_of_expression {c : Cursor} {found : Form × Cursor}
    (h : found ∈ (inlineFunction <|> inlineClass <|> inlineExpression).outcomes c) :
    ∃ y more, c.rest = y :: more ∧ isBlank y = false ∧ y ≠ ';' := by
  have hopens : Opens (inlineFunction <|> inlineClass) fun y => !isBlank y && y != ';' :=
    Opens.orElse
      (Opens.optional_bind (opens_word_bind (x := 'a') rfl (by decide))
        fun _ => opens_word_bind (x := 'f') rfl (by decide))
      (opens_word_bind (x := 'c') rfl (by decide))
  simp only [outcomes_orElse, ← List.append_assoc] at h
  rcases List.mem_append.1 h with h | h
  · obtain ⟨y, s, hy, hreads⟩ := hopens c found h
    simp only [Bool.and_eq_true, Bool.not_eq_true', bne_iff_ne, ne_eq] at hy
    exact ⟨y, s ++ found.2.rest, hreads.1, hy.1, hy.2⟩
  · obtain ⟨mid, hmid, -⟩ := mem_outcomes_bind.1 h
    have htest := (mem_outcomes_edge.1 hmid).1
    cases hrest : c.rest with
    | nil => simp [hrest] at htest
    | cons y more =>
        simp only [hrest, List.head?_cons, Option.any_some, Bool.and_eq_true, Bool.not_eq_true',
          bne_iff_ne, ne_eq] at htest
        exact ⟨y, more, rfl, htest.1, htest.2⟩

/-- The words `export default` as they are written, with the blanks behind each. -/
def defaultFront (g d : Written.Gap) : List Char :=
  "export".toList ++ (g.text ++ ("default".toList ++ d.text))

theorem defaultFront_eq (g d : Written.Gap) :
    defaultFront g d = "export".toList ++ (g.text ++ ("default".toList ++ d.text)) := rfl

theorem defaultFront_append (g d : Written.Gap) (t : List Char) :
    defaultFront g d ++ t =
      "export".toList ++ (g.text ++ ("default".toList ++ (d.text ++ t))) := by
  simp [defaultFront_eq]

theorem not_mem_defaultFront (g d : Written.Gap) {mark : Char} (hblank : isBlank mark = false)
    (hpart : isIdentPart mark = false) : mark ∉ defaultFront g d := by
  have hword : ∀ {word : List Char}, isIdent word = true → mark ∉ word := fun h =>
    not_mem_of_isIdent h hpart
  simp only [defaultFront_eq, List.mem_append, not_or]
  exact ⟨hword (by decide), g.not_mem hblank, hword (by decide), d.not_mem hblank⟩

theorem newline_mem_defaultFront_iff (g d : Written.Gap) :
    '\n' ∈ defaultFront g d ↔ '\n' ∈ g.text ++ d.text := by
  have hexport : '\n' ∉ "export".toList := by decide
  have hdefault : '\n' ∉ "default".toList := by decide
  simp only [defaultFront_eq, List.mem_append, hexport, hdefault, false_or]

/-- What is found behind `export default` is found for the whole. -/
theorem first?_behind_front (g d : Written.Gap) {rest : List Char} (hrest : Stops isBlank rest)
    {c mid : Cursor} (hreads : c.Reads (defaultFront g d) mid) (hmid : mid.rest = rest)
    {found : Form × Cursor}
    (h : (inlineFunction <|> inlineClass <|> inlineExpression).first? mid = some found) :
    defaultExpressionForm.first? c = some found := by
  obtain ⟨before, text⟩ := c
  obtain ⟨before', rest'⟩ := mid
  obtain rfl : rest' = rest := hmid
  obtain rfl : text = defaultFront g d ++ rest' := hreads.1
  obtain rfl : before' = (defaultFront g d).getLast?.or before := hreads.2
  rw [defaultFront_append]
  refine (takes_word "export" _).first?_bind fun _ _ => ?_
  refine (g.takes (by simp [isBlank])).first?_bind fun _ _ => ?_
  refine (takes_word "default" _).first?_bind fun _ _ => (d.takes hrest).first?_bind fun _ _ => ?_
  rw [getLast?_append_or, getLast?_append_or, getLast?_append_or]
  exact h

/-- A function or class that is written in place ends with a parenthesis or a brace. -/
theorem exists_last_of_inlineBlock {c : Cursor} {found : Form × Cursor}
    (h : found ∈ (inlineFunction <|> inlineClass).outcomes c) :
    ∃ s z, c.Reads (s ++ [z]) found.2 ∧ isBlank z = false := by
  rcases List.mem_append.1 h with h | h
  · obtain ⟨s, hs⟩ := endsWith_inlineFunction c found h
    exact ⟨s, '(', hs, by decide⟩
  · obtain ⟨s, hs⟩ := endsWith_inlineClass c found h
    exact ⟨s, '\x7b', hs, by decide⟩

/-- **What a default expression reads**: its first words, and behind them a block or nothing. -/
theorem exists_expression {c : Cursor} {found : Form × Cursor}
    (h : defaultExpressionForm.first? c = some found) :
    ∃ (g d : Written.Gap) (y : Char) (more : List Char),
      c.rest = defaultFront g d ++ y :: more ∧ isBlank y = false ∧ y ≠ ';' ∧
        if opensBlock (y :: more) then
          found.1.isInlineBlock ∧ ∃ s z, c.Reads (defaultFront g d ++ (s ++ [z])) found.2 ∧
            isBlank z = false
        else found.1 = expressionForm := by
  obtain ⟨_, hexport, hmem⟩ := mem_outcomes_bind.1 (List.mem_of_mem_head? h)
  obtain ⟨_, hgap, hmem⟩ := mem_outcomes_bind.1 hmem
  obtain ⟨_, hdefault, hmem⟩ := mem_outcomes_bind.1 hmem
  obtain ⟨mid, hgap', hmem⟩ := mem_outcomes_bind.1 hmem
  obtain ⟨g, hg⟩ := exists_gap hgap
  obtain ⟨d, hd⟩ := exists_gap hgap'
  obtain ⟨y, more, hrest, hy, hsemicolon⟩ := exists_head_of_expression hmem
  have hfront : c.Reads (defaultFront g d) mid.2 :=
    (reads_of_mem_outcomes_word hexport).append (hg.append
      ((reads_of_mem_outcomes_word hdefault).append hd))
  refine ⟨g, d, y, more, hrest ▸ hfront.1, hy, hsemicolon, ?_⟩
  -- the first outcome behind these words is the first outcome of the whole
  obtain ⟨other, hother⟩ : ∃ other,
      (inlineFunction <|> inlineClass <|> inlineExpression).first? mid.2 = some other := by
    obtain ⟨other, others, houtcomes⟩ := List.exists_cons_of_ne_nil (List.ne_nil_of_mem hmem)
    exact ⟨other, by rw [first?, houtcomes, List.head?_cons]⟩
  have hsame := first?_behind_front g d (stops_cons.2 hy) hfront hrest hother
  rw [h, Option.some.injEq] at hsame
  subst hsame
  have hblock := opensBlock_iff mid.2.before (y :: more)
  rw [← hrest] at hblock ⊢
  rw [first?, outcomes_orElse, outcomes_orElse, ← List.append_assoc, ← outcomes_orElse] at hother
  cases houtcomes : (inlineFunction <|> inlineClass).outcomes mid.2 with
  | nil =>
      have hclosed : opensBlock mid.2.rest = false := by
        rw [← Bool.not_eq_true, hblock]
        simp [houtcomes]
      rw [houtcomes, List.nil_append] at hother
      rw [hclosed]
      exact finds_inlineExpression _ _ (List.mem_of_mem_head? hother)
  | cons first others =>
      have hopen : opensBlock mid.2.rest = true := by
        rw [hblock, houtcomes]
        exact List.cons_ne_nil _ _
      rw [houtcomes, List.cons_append, List.head?_cons, Option.some.injEq] at hother
      subst hother
      have hfirst : first ∈ (inlineFunction <|> inlineClass).outcomes mid.2 :=
        houtcomes ▸ List.mem_cons_self
      obtain ⟨s, z, hs, hz⟩ := exists_last_of_inlineBlock hfirst
      rw [hopen]
      exact ⟨(finds_inlineFunction.orElse finds_inlineClass) _ _ hfirst, s, z, hfront.append hs, hz⟩

end Export

/-! ### What the text shows -/

/-- Something stands behind `export default` that is not blank. -/
def ExportEdge.showsExpression (x : ExportEdge) (g : Written.Gap) : Prop :=
  ∃ s, x.raw.toList = "export".toList ++ (g.text ++ ("default".toList ++ s)) ∧
    ∃ y ∈ s, isBlank y = false

/-- A statement in one line shows its expression if no line feed stands in front of it. -/
theorem shows_lineStatement_iff {g d : Written.Gap} {y : Char} {more : List Char}
    (hy : isBlank y = false) (hsemicolon : y ≠ ';') {x : ExportEdge}
    (hraw : x.raw.toList = trimRight (Export.lineStatement (Export.defaultFront g d ++ y :: more))) :
    x.showsExpression g ↔ '\n' ∉ g.text ++ d.text := by
  have hline : '\n' ∉ x.raw.toList := fun h => by
    rw [hraw] at h
    exact Export.newline_not_mem_lineStatement _ ((trimRight_begins _).subset h)
  constructor
  · rintro ⟨s, hs, z, hz, hblank⟩ hmem
    rw [hs] at hline
    simp only [List.mem_append, not_or] at hline
    -- the text is a beginning of the statement, so it ends among the blanks behind `default`
    have hbegins : s <+: d.text ++ y :: more := by
      have hprefix := (trimRight_begins _).trans (Export.lineStatement_begins
        (Export.defaultFront g d ++ y :: more))
      rw [← hraw, hs, Export.defaultFront_append] at hprefix
      simpa using hprefix
    have hgap : '\n' ∈ d.text := (List.mem_append.1 hmem).resolve_left hline.2.1
    rcases List.prefix_or_prefix_of_prefix hbegins (List.prefix_append _ _) with hshort | hlong
    · rw [d.isBlank_of_mem z (hshort.subset hz)] at hblank
      exact absurd hblank (by decide)
    · exact hline.2.2.2 (hlong.subset hgap)
  · intro hmem
    have hfront : Export.defaultFront g d ++ [y] <+: x.raw.toList := by
      have hsplit : Export.defaultFront g d ++ y :: more =
          Export.defaultFront g d ++ [y] ++ more := by simp
      have hnewline : '\n' ∉ Export.defaultFront g d ++ [y] := by
        have hne : '\n' ≠ y := by
          rintro rfl
          exact absurd hy (by decide)
        simp [Export.newline_mem_defaultFront_iff, hmem, hne]
      have hsemi : ';' ∉ Export.defaultFront g d ++ [y] := by
        simp [Export.not_mem_defaultFront g d (by decide : isBlank ';' = false) (by decide),
          Ne.symm hsemicolon]
      rw [hraw, hsplit]
      exact (Export.begins_lineStatement_iff (List.getLast?_concat ..) hy hsemi).2 hnewline
    obtain ⟨t, ht⟩ := hfront
    exact ⟨d.text ++ y :: t, by rw [← ht]; simp [Export.defaultFront_append], y, by simp, hy⟩

theorem Export.items_declaration {file : SourceFile} {offset stop : Nat} {covered : List Char}
    {keyword : Written.DeclarationKeyword} {item : ExportedItem} :
    (recordOf file offset stop covered (keyword.form item)).items = [item] := by
  rw [Written.DeclarationKeyword.form]
  cases keyword.block? <;> rfl

/-- The text of a declaration shows its head if a block follows or no line feed stands in it. -/
theorem Written.DeclarationHead.begins_raw_iff (head : Written.DeclarationHead) {file : SourceFile}
    {offset : Nat} (hdrop : head.text <+: file.text.drop offset) :
    head.text <+: (Export.recordOf file offset (offset + head.text.length) head.text
        (head.keyword.form head.item)).raw.toList ↔
      head.keyword.block?.isSome = true ∨ '\n' ∉ head.text := by
  obtain ⟨y, hlast, hy⟩ := head.exists_getLast?_text
  rw [Written.DeclarationKeyword.form]
  cases head.keyword.block? with
  | some kind =>
      exact iff_of_true (Export.covered_begins_block hlast hy hdrop) (Or.inl rfl)
  | none =>
      obtain ⟨more, hmore⟩ := hdrop
      simp only [Export.raw_recordOf_line, ← hmore, Option.isSome_none, Bool.false_eq_true,
        false_or]
      exact Export.begins_lineStatement_iff hlast hy head.semicolon_not_mem_text

/-- A text that goes beyond the words of a default expression shows it. -/
theorem ExportEdge.showsExpression_of_begins {x : ExportEdge} {g d : Written.Gap} {s : List Char}
    {z : Char} (hz : isBlank z = false)
    (h : Export.defaultFront g d ++ (s ++ [z]) <+: x.raw.toList) : x.showsExpression g := by
  obtain ⟨t, ht⟩ := h
  refine ⟨d.text ++ (s ++ z :: t), ?_, z, by simp, hz⟩
  rw [← ht, List.append_assoc, Export.defaultFront_append]
  simp

/-- **When the text of an export shows its head.**  The text of a declaration reaches the name, and
that of a default expression something that is not blank, if the statement goes on with a block or no
line feed stands in front of what is to be shown. -/
theorem raw_shows_head_iff (path : String) (text : List Char) :
    ∀ x ∈ (SourceFile.ofText path text).exports,
      (x.kind = .declaration → ∃ head : Written.DeclarationHead,
        head.text <+: text.drop x.span.start.toNat ∧ x.items = [head.item] ∧
          (head.text <+: x.raw.toList ↔
            head.keyword.block?.isSome = true ∨ '\n' ∉ head.text)) ∧
      (x.kind = .defaultExpression → ∃ (g d : Written.Gap) (rest : List Char),
        text.drop x.span.start.toNat = Export.defaultFront g d ++ rest ∧ rest ≠ [] ∧
          Stops isBlank rest ∧
          (x.showsExpression g ↔ Export.opensBlock rest = true ∨ '\n' ∉ g.text ++ d.text)) := by
  intro x hx
  obtain ⟨find, hfind, hrecord⟩ := SourceFile.mem_exports_iff.1 hx
  obtain ⟨⟨form, stop⟩, hfirst, rfl⟩ := Option.map_eq_some_iff.1 hrecord
  obtain ⟨hcovered, -, hstop⟩ := covered_of_mem_findAll_export hfind hfirst
  have hplace := (standsAt_of_mem_findAll_keyword hfind).1
  simp only [Export.recordOf_start, Export.recordOf_kind, Int.toNat_natCast, hstop]
  refine ⟨fun hkind => ?_, fun hkind => ?_⟩
  · have hmem : (form, stop) ∈ Export.declarationForm.outcomes find.value := by
      have hlater := Export.first?_of_kind (Or.inl hkind) hfirst
      refine (List.mem_append.1 (List.mem_of_mem_head? hlater)).resolve_right fun h => ?_
      have hother : form.kind = .defaultExpression := Export.finds_defaultExpressionForm _ _ h
      rw [hkind] at hother
      exact absurd hother (by decide)
    obtain ⟨head, hreads, rfl⟩ := exists_declarationHead hmem
    rw [hreads.text_eq] at hcovered ⊢
    exact ⟨head, hcovered, Export.items_declaration, head.begins_raw_iff hcovered⟩
  · have hlater := Export.finds_declarationForm.first?_right (by rw [hkind]; decide)
      (Export.first?_of_kind (Or.inr hkind) hfirst)
    obtain ⟨g, d, y, more, hrest, hy, hsemicolon, hcase⟩ := Export.exists_expression hlater
    rw [hplace.rest_eq] at hrest
    refine ⟨g, d, y :: more, hrest, List.cons_ne_nil _ _, stops_cons.2 hy, ?_⟩
    cases hopen : Export.opensBlock (y :: more) with
    | true =>
        rw [hopen, if_pos rfl] at hcase
        obtain ⟨⟨keyword, item, rfl⟩, s, z, hreads, hz⟩ := hcase
        rw [hreads.text_eq] at hcovered ⊢
        have hlast : (Export.defaultFront g d ++ (s ++ [z])).getLast? = some z := by
          rw [← List.append_assoc, List.getLast?_concat]
        exact iff_of_true (ExportEdge.showsExpression_of_begins hz
          (Export.covered_begins_block hlast hz hcovered)) (Or.inl rfl)
    | false =>
        rw [hopen, if_neg (by decide)] at hcase
        obtain rfl : form = Export.expressionForm := hcase
        rw [shows_lineStatement_iff hy hsemicolon (by rw [← hrest]; exact Export.raw_recordOf_line)]
        simp

/-- A generator whose head goes over several lines, and a default class. -/
theorem raw_shows_head_spread :
    let text := "export\nfunction\n*f() \x7b\x7d\nexport\tdefault\nclass \x7b\x7d\n".toList
    let exports := (SourceFile.ofText "p.js" text).exports
    (∃ x ∈ exports, x.kind = .declaration ∧ x.raw = "export\nfunction\n*f() \x7b\x7d" ∧
      ∃ head : Written.DeclarationHead, x.items = [head.item] ∧
        (head.text <+: x.raw.toList ↔ head.keyword.block?.isSome = true ∨ '\n' ∉ head.text)) ∧
    ∃ x ∈ exports, x.kind = .defaultExpression ∧ x.raw = "export\tdefault\nclass \x7b\x7d" ∧
      ∃ (g d : Written.Gap) (rest : List Char),
        text.drop x.span.start.toNat = Export.defaultFront g d ++ rest ∧
        (x.showsExpression g ↔ Export.opensBlock rest = true ∨ '\n' ∉ g.text ++ d.text) := by
  intro text exports
  obtain ⟨x, hx, hkind, hraw⟩ : ∃ x ∈ exports, x.kind = .declaration ∧
      x.raw = "export\nfunction\n*f() \x7b\x7d" := by decide +kernel
  obtain ⟨x', hx', hkind', hraw'⟩ : ∃ x ∈ exports, x.kind = .defaultExpression ∧
      x.raw = "export\tdefault\nclass \x7b\x7d" := by decide +kernel
  obtain ⟨head, -, hitems, hshows⟩ := (raw_shows_head_iff "p.js" text x hx).1 hkind
  obtain ⟨g, d, rest, hdrop, -, -, hshows'⟩ := (raw_shows_head_iff "p.js" text x' hx').2 hkind'
  exact ⟨⟨x, hx, hkind, hraw, head, hitems, hshows⟩, x', hx', hkind', hraw', g, d, rest, hdrop,
    hshows'⟩

/-- **A line feed behind `export` or `default` ends the text of a statement in one line**, so that
it shows neither a name nor an expression. -/
theorem raw_cut_in_head :
    (∃ x ∈ (SourceFile.ofText "p.js" "export\nconst x = 1;\n".toList).exports,
      x.kind = .declaration ∧ x.items = [⟨"x", "x"⟩] ∧ x.raw = "export" ∧
        ∀ head : Written.DeclarationHead, ¬ head.text <+: x.raw.toList) ∧
    ∃ x ∈ (SourceFile.ofText "p.js" "export default\n42;\n".toList).exports,
      x.kind = .defaultExpression ∧ x.raw = "export default" ∧
        ∀ g : Written.Gap, ¬ x.showsExpression g := by
  refine ⟨⟨⟨"export", .declaration, [⟨"x", "x"⟩], "p.js", ⟨1, 1⟩, ⟨0, 6⟩, none⟩,
    by decide +kernel, rfl, rfl, rfl, fun head h => ?_⟩,
    ⟨"export default", .defaultExpression, [⟨"default", "anonymous_expression"⟩], "p.js", ⟨1, 1⟩,
      ⟨0, 14⟩, none⟩, by decide +kernel, rfl, rfl, ?_⟩
  · -- at least one blank stands behind the keyword of a head
    have hgap := List.length_pos_iff.2 head.exportGap.ne_nil
    have hlength := h.length_le
    simp only [Written.DeclarationHead.text_eq, List.length_append, String.reduceToList,
      List.length_cons, List.length_nil] at hlength
    omega
  · -- the two words and a blank leave no room for anything else
    rintro g ⟨s, hraw, y, hy, -⟩
    have hgap := List.length_pos_iff.2 g.ne_nil
    have hexpression := List.length_pos_of_mem hy
    have hlength := congrArg List.length hraw
    simp only [String.reduceToList, List.length_append, List.length_cons, List.length_nil]
      at hlength
    omega

end SourceOutline
