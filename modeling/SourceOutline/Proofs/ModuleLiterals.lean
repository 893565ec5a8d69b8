/-
**The module that a statement names.**

An import, and an export that passes on what another module exports, end with the name of that module
between two quotes.  The name is the shortest text behind the first quote that has such a quote behind
it, and has at least one character.  So the quote of the name can stand in it only as its first
character: that is the quote that closes an empty literal.  It is taken for content, and the name goes
on up to the next quote of the line, whatever that one belongs to.

Main definitions:

* `Written.Literal`, `Written.Ending` — a literal as it is read, and what may follow it;
* `Written.NamesModule` — a statement whose text ends with the literal of a module;
* `Pattern.FirstReads` — what the first outcome of a pattern finds and reads has a property;
* `Written.QuotesSource` — what the name of a module is to the text of its statement.

Main results:

* `Pattern.exists_of_first?_fewest` — the shortest run that lets the sequence go on;
* `Pattern.exists_literal` — **what a literal reads**;
* `Pattern.FirstReads.bind`, `Pattern.firstReads_literal_bind` — from parts to a whole statement;
* `sources_quoted_iff` — **the name of a module is what one literal holds, unless that literal is
  empty**;
* `source_of_empty_literal` — an import that goes on into the next one.
-/

import SourceOutline.Proofs.StatementHeaders

set_option autoImplicit false

namespace SourceOutline

open Text Pattern

/-! ### Literals as they are read -/

namespace Written

/-- A literal as it is read: the first character may be any, and behind it stands no quote of the
kind before the one that ends the literal. -/
structure Literal where
  quote : Char
  first : Char
  more : List Char
  isQuote_quote : isQuote quote = true
  first_ne : first ≠ '\n'
  newline_not_mem : '\n' ∉ more
  quote_not_mem : quote ∉ more

namespace Literal

variable (l : Literal)

/-- What stands between the quotes. -/
def content : List Char :=
  l.first :: l.more

/-- The literal as it is written. -/
def text : List Char :=
  l.quote :: (l.content ++ [l.quote])

theorem newline_not_mem_content : '\n' ∉ l.content := by
  intro h
  rcases List.mem_cons.1 h with h | h
  · exact l.first_ne h.symm
  · exact l.newline_not_mem h

theorem isBlank_quote : isBlank l.quote = false := by
  have h := l.isQuote_quote
  simp only [isQuote, Bool.or_eq_true, beq_iff_eq] at h
  rcases h with h | h <;> rw [h] <;> rfl

/-- **The content holds the quote exactly if a second quote stands right behind the first.** -/
theorem quote_mem_content_iff (t : List Char) :
    l.quote ∈ l.content ↔ [l.quote, l.quote] <+: l.text ++ t := by
  constructor
  · intro h
    rcases List.mem_cons.1 h with h | h
    · exact ⟨l.more ++ l.quote :: t, by simp [text, content, ← h]⟩
    · exact absurd h l.quote_not_mem
  · rintro ⟨u, hu⟩
    have hfirst : l.quote = l.first := (List.cons.inj (List.cons.inj hu).2).1
    rw [content, ← hfirst]
    exact List.mem_cons_self

end Literal

/-- What may follow the last literal of a statement: a semicolon, perhaps behind spaces and tabs. -/
inductive Ending where
  | nothing
  | semicolon (padding : List Char) (h : ∀ x ∈ padding, isPadding x = true)

/-- The ending as it is written. -/
def Ending.text : Ending → List Char
  | nothing => []
  | semicolon padding _ => padding ++ [';']

/-- The text ends with a literal that holds the name of a module, and perhaps a semicolon. -/
def NamesModule (source : String) (text : List Char) : Prop :=
  ∃ (front : List Char) (l : Literal) (ending : Ending),
    text = front ++ (l.text ++ ending.text) ∧ source.toList = l.content

/-- What stands in front of the literal does not matter. -/
theorem NamesModule.append {source : String} {text : List Char} (h : NamesModule source text)
    (s : List Char) : NamesModule source (s ++ text) := by
  obtain ⟨front, l, ending, rfl, hsource⟩ := h
  exact ⟨s ++ front, l, ending, (List.append_assoc _ _ _).symm, hsource⟩

/-- Such a text ends with a quote or a semicolon, so no blanks are trimmed. -/
theorem NamesModule.trimRight_eq {source : String} {text : List Char}
    (h : NamesModule source text) : trimRight text = text := by
  obtain ⟨front, l, ending, rfl, -⟩ := h
  cases ending with
  | nothing =>
      have hsplit : front ++ (l.text ++ Ending.nothing.text) =
          front ++ l.quote :: l.content ++ [l.quote] := by
        simp [Literal.text, Ending.text]
      rw [hsplit]
      exact trimRight_concat l.isBlank_quote _
  | semicolon padding hpadding =>
      have hsplit : front ++ (l.text ++ (Ending.semicolon padding hpadding).text) =
          front ++ l.text ++ padding ++ [';'] := by
        simp [Ending.text]
      rw [hsplit]
      exact trimRight_concat rfl _

end Written

/-! ### First outcomes -/

namespace Pattern

open Written

variable {α β : Type}

theorem first?_orElse_eq_some {p q : Pattern α} {c : Cursor} {found : α × Cursor}
    (h : (p <|> q).first? c = some found) : p.first? c = some found ∨ q.first? c = some found := by
  rw [first?, outcomes_orElse] at h
  cases houtcomes : p.outcomes c with
  | nil =>
      rw [houtcomes, List.nil_append] at h
      exact Or.inr h
  | cons first others =>
      rw [houtcomes, List.cons_append, List.head?_cons] at h
      left
      rw [first?, houtcomes, List.head?_cons]
      exact h

/-- A sequence whose second part cannot fail goes on from the first outcome of its first part. -/
theorem first?_bind_eq_some_of_ne_nil {p : Pattern α} {next : α → Pattern β} {c : Cursor}
    {found : β × Cursor} (hnext : ∀ a c, (next a).outcomes c ≠ [])
    (h : (p >>= next).first? c = some found) :
    ∃ mid, p.first? c = some mid ∧ (next mid.1).first? mid.2 = some found := by
  cases houtcomes : p.outcomes c with
  | nil =>
      rw [first?, outcomes_bind, houtcomes] at h
      exact absurd h (by simp)
  | cons mid others =>
      refine ⟨mid, by rw [first?, houtcomes, List.head?_cons], ?_⟩
      obtain ⟨first, more, hfirst⟩ := List.exists_cons_of_ne_nil (hnext mid.1 mid.2)
      rw [first?, outcomes_bind, houtcomes, List.flatMap_cons, hfirst] at h
      rw [first?, hfirst]
      exact h

theorem outcomes_bind_ne_nil {p : Pattern α} {next : α → Pattern β} {c : Cursor}
    (h : p.outcomes c ≠ []) (h' : ∀ a c, (next a).outcomes c ≠ []) : (p >>= next).outcomes c ≠ [] := by
  obtain ⟨mid, others, hmid⟩ := List.exists_cons_of_ne_nil h
  obtain ⟨first, more, hfirst⟩ := List.exists_cons_of_ne_nil (h' mid.1 mid.2)
  rw [outcomes_bind, hmid, List.flatMap_cons, hfirst]
  exact List.cons_ne_nil _ _

/-- A part that may be absent is absent only if it has no outcome. -/
theorem first?_optional_eq_some {p : Pattern α} {c : Cursor} {found : Option α × Cursor}
    (h : (optional p).first? c = some found) :
    (∃ a, found.1 = some a ∧ p.first? c = some (a, found.2)) ∨ found = (none, c) := by
  rcases first?_orElse_eq_some h with h | h
  · rw [first?, outcomes_map, List.head?_map] at h
    obtain ⟨mid, hmid, rfl⟩ := Option.map_eq_some_iff.1 h
    exact Or.inl ⟨mid.1, rfl, hmid⟩
  · rw [first?, outcomes_pure, List.head?_cons] at h
    exact Or.inr (Option.some.inj h).symm

/-! ### The shortest run -/

/-- Of growing runs, the first after which `f` has an outcome: after no shorter one has it any. -/
theorem exists_of_head?_flatMap_runs {test : Char → Bool} {f : Cursor → List β}
    {before : Option Char} {rest : List Char} {b : β}
    (h : ((Cursor.runs test [] before rest).reverse.flatMap f).head? = some b) :
    ∃ s t, rest = s ++ t ∧ (∀ x ∈ s, test x = true) ∧
      (f ⟨s.getLast?.or before, t⟩).head? = some b ∧
      ∀ u x v, s = u ++ x :: v → f ⟨u.getLast?.or before, x :: v ++ t⟩ = [] := by
  induction rest generalizing before with
  | nil =>
      simp only [Cursor.runs, List.reverse_singleton, List.flatMap_singleton] at h
      refine ⟨[], [], rfl, by simp, by simpa using h, ?_⟩
      intro u x v huv
      exact absurd huv (by simp)
  | cons y rest ih =>
      rw [reverse_runs_cons, List.flatMap_cons] at h
      cases hhere : f ⟨before, y :: rest⟩ with
      | cons first others =>
          refine ⟨[], y :: rest, rfl, by simp, ?_, ?_⟩
          · rw [hhere, List.cons_append, List.head?_cons] at h
            simpa [hhere] using h
          · intro u x v huv
            exact absurd huv (by simp)
      | nil =>
          rw [hhere, List.nil_append] at h
          by_cases hy : test y = true
          · rw [if_pos hy] at h
            obtain ⟨s, t, rfl, hs, hb, hshorter⟩ := ih h
            have hlast : ∀ u : List Char, u.getLast?.or (some y) = (y :: u).getLast?.or before :=
              fun u => getLast?_append_or [y] u before
            refine ⟨y :: s, t, rfl, List.forall_mem_cons.2 ⟨hy, hs⟩, ?_, ?_⟩
            · rw [← hlast]
              exact hb
            · intro u x v huv
              cases u with
              | nil =>
                  obtain ⟨rfl, rfl⟩ := List.cons.inj huv
                  exact hhere
              | cons z u =>
                  obtain ⟨rfl, rfl⟩ := List.cons.inj huv
                  rw [← hlast]
                  exact hshorter u x v rfl
          · rw [if_neg hy] at h
            exact absurd h (by simp)

/-- **The shortest run that lets the sequence go on**: at least one character, and behind no shorter
run has the sequence an outcome. -/
theorem exists_of_first?_fewest {test : Char → Bool} {next : Capture → Pattern β} {c : Cursor}
    {found : β × Cursor} (h : (captured (fewest test) >>= next).first? c = some found) :
    ∃ x s stop, test x = true ∧ (∀ y ∈ s, test y = true) ∧ c.Reads (x :: s) stop ∧
      (next ⟨c, stop⟩).first? stop = some found ∧
      ∀ u y v mid, s = u ++ y :: v → c.Reads (x :: u) mid → (next ⟨c, mid⟩).outcomes mid = [] := by
  obtain ⟨before, rest⟩ := c
  cases rest with
  | nil => exact absurd h (by simp [first?, outcomes, Cursor.runs])
  | cons x rest =>
      let start : Cursor := ⟨before, x :: rest⟩
      let f : Cursor → List (β × Cursor) := fun stop => (next ⟨start, stop⟩).outcomes stop
      by_cases hx : test x = true
      · have houtcomes : (captured (fewest test) >>= next).outcomes start =
            (Cursor.runs test [] (some x) rest).reverse.flatMap f := by
          have hfewest : (fewest test).outcomes start =
              (Cursor.runs test [] (some x) rest).reverse.map fun stop => ((), stop) := by
            rw [outcomes, reverse_runs_cons, if_pos hx, List.tail_cons]
          rw [outcomes_bind, outcomes_captured, hfewest, List.map_map, List.flatMap_map]
          rfl
        rw [first?, houtcomes] at h
        obtain ⟨s, t, rfl, hs, hb, hshorter⟩ := exists_of_head?_flatMap_runs h
        have hreads : ∀ {u v : List Char}, s = u ++ v →
            start.Reads (x :: u) ⟨u.getLast?.or (some x), v ++ t⟩ := by
          intro u v huv
          exact Cursor.Reads.cons ⟨by simp [huv], rfl⟩
        refine ⟨x, s, _, hx, hs, hreads (List.append_nil s).symm, hb, ?_⟩
        intro u y v mid huv hmid
        have hsame : mid = ⟨u.getLast?.or (some x), y :: v ++ t⟩ := by
          have hother := hreads huv
          obtain ⟨before', rest'⟩ := mid
          have hrest : rest' = y :: v ++ t := List.append_cancel_left (hmid.1.symm.trans hother.1)
          have hbefore : before' = u.getLast?.or (some x) := hmid.2.trans hother.2.symm
          rw [hrest, hbefore]
        rw [hsame]
        exact hshorter u y v huv
      · have hnone : (fewest test).outcomes start = [] := by
          rw [outcomes, reverse_runs_cons, if_neg hx]
          rfl
        rw [first?, outcomes_bind, outcomes_captured, hnone] at h
        exact absurd h (by simp)

theorem reads_of_mem_outcomes_exactly {word : List Char} {c : Cursor} {found : Unit × Cursor}
    (h : found ∈ (exactly word).outcomes c) : c.Reads word found.2 := by
  simp only [outcomes_exactly, List.mem_map, Option.mem_toList] at h
  obtain ⟨stop, hstop, rfl⟩ := h
  exact Cursor.reads_of_skip? hstop

/-- **What a literal reads.** -/
theorem exists_literal {c : Cursor} {found : Capture × Cursor} (h : literal.first? c = some found) :
    ∃ l : Literal, found.1.text = l.content ∧ c.Reads l.text found.2 := by
  obtain ⟨⟨quote, mid⟩, hquote, h⟩ := first?_bind_eq_some h
  obtain ⟨hisQuote, hone⟩ := reads_of_mem_outcomes_one hquote
  obtain ⟨x, s, stop, hx, hs, hreads, hfirst, hshorter⟩ := exists_of_first?_fewest h
  obtain ⟨_, hclose, hfound⟩ := first?_bind_eq_some hfirst
  rw [first?, outcomes_pure, List.head?_cons, Option.some.injEq] at hfound
  subst hfound
  have hno : quote ∉ s := by
    -- behind a shorter content the literal would have been closed
    intro hmem
    obtain ⟨u, v, huv⟩ := List.append_of_mem hmem
    let place : Cursor := ⟨(x :: u).getLast?.or mid.before, quote :: v ++ stop.rest⟩
    have hplace : mid.Reads (x :: u) place := by
      refine ⟨?_, rfl⟩
      rw [hreads.1, huv]
      simp [place]
    have hempty := hshorter u quote v place huv hplace
    simp [outcomes_bind, outcomes_exactly_char, place] at hempty
  refine ⟨⟨quote, x, s, hisQuote, by simpa using hx, ?_, hno⟩, hreads.text_eq, ?_⟩
  · intro hmem
    exact absurd (hs _ hmem) (by simp)
  · exact hone.append (hreads.append (reads_of_mem_outcomes_exactly hclose))

/-! ### From literals to statements -/

/-- What the first outcome finds and the text it reads have the property. -/
def FirstReads (p : Pattern α) (P : α → List Char → Prop) : Prop :=
  ∀ c, ∀ found, p.first? c = some found → ∃ s, c.Reads s found.2 ∧ P found.1 s

/-- A sequence reads what its second part reads, behind something else. -/
theorem FirstReads.bind {p : Pattern α} {next : α → Pattern β} {P : β → List Char → Prop}
    (hP : ∀ b s t, P b t → P b (s ++ t)) (h : ∀ a, FirstReads (next a) P) :
    FirstReads (p >>= next) P := by
  intro c found hfound
  obtain ⟨mid, hmid, hfirst⟩ := first?_bind_eq_some hfound
  obtain ⟨s, hs⟩ := reaches_of_mem_outcomes _ _ _ hmid
  obtain ⟨t, ht, hPt⟩ := h mid.1 mid.2 found hfirst
  exact ⟨s ++ t, hs.append ht, hP _ _ _ hPt⟩

theorem FirstReads.orElse {p q : Pattern α} {P : α → List Char → Prop} (h : FirstReads p P)
    (h' : FirstReads q P) : FirstReads (p <|> q) P := by
  intro c found hfound
  rcases first?_orElse_eq_some hfound with hfound | hfound
  · exact h c found hfound
  · exact h' c found hfound

theorem FirstReads.map {p : Pattern α} {f : α → β} {P : α → List Char → Prop}
    {Q : β → List Char → Prop} (h : FirstReads p P) (hPQ : ∀ a s, P a s → Q (f a) s) :
    FirstReads (do let a ← p; return f a) Q := by
  intro c found hfound
  obtain ⟨mid, hmid, hreturn⟩ := first?_bind_eq_some_of_ne_nil (by simp) hfound
  obtain ⟨s, hs, hPs⟩ := h c mid hmid
  rw [first?, outcomes_pure, List.head?_cons, Option.some.injEq] at hreturn
  subst hreturn
  exact ⟨s, hs, hPQ _ _ hPs⟩

theorem exists_ending {c : Cursor} {found : Unit × Cursor}
    (h : found ∈ optionalSemicolon.outcomes c) : ∃ ending : Ending, c.Reads ending.text found.2 := by
  obtain ⟨mid, hmid, hfound⟩ := mem_outcomes_bind.1 h
  rw [outcomes_pure, List.mem_singleton] at hfound
  subst hfound
  rcases mem_outcomes_optional.1 hmid with ⟨_, -, hsemicolon⟩ | rfl
  · obtain ⟨_, hpadding, hword⟩ := mem_outcomes_bind.1 hsemicolon
    obtain ⟨padding, hpad, hreads⟩ := reads_of_mem_outcomes_many hpadding
    exact ⟨.semicolon padding hpad, hreads.append (reads_of_mem_outcomes_word hword)⟩
  · exact ⟨.nothing, Cursor.Reads.nil c⟩

theorem outcomes_optionalSemicolon_ne_nil (c : Cursor) : optionalSemicolon.outcomes c ≠ [] := by
  simp [optionalSemicolon, optional]

/-- A literal with a semicolon behind it, or with none. -/
theorem firstReads_literal_bind {f : Capture → β} {P : β → List Char → Prop}
    (h : ∀ (l : Literal) (ending : Ending) (capture : Capture), capture.text = l.content →
      P (f capture) (l.text ++ ending.text)) :
    FirstReads (do
      let source ← literal
      optionalSemicolon
      return f source) P := by
  intro c found hfound
  have hnext : ∀ (a : Capture) (c : Cursor),
      (do optionalSemicolon; return f a : Pattern β).outcomes c ≠ [] := fun a c =>
    outcomes_bind_ne_nil (outcomes_optionalSemicolon_ne_nil c) fun _ _ => List.cons_ne_nil _ _
  obtain ⟨mid, hmid, hrest⟩ := first?_bind_eq_some_of_ne_nil hnext hfound
  obtain ⟨l, hcontent, hreads⟩ := exists_literal hmid
  obtain ⟨stop, hstop, hreturn⟩ := first?_bind_eq_some hrest
  obtain ⟨ending, hending⟩ := exists_ending hstop
  rw [first?, outcomes_pure, List.head?_cons, Option.some.injEq] at hreturn
  subst hreturn
  exact ⟨l.text ++ ending.text, hreads.append hending, h l ending mid.1 hcontent⟩

end Pattern

open Written

/-- A literal with its ending names the module it holds. -/
theorem Written.Literal.namesModule (l : Literal) (ending : Ending) {capture : Capture}
    (h : capture.text = l.content) : NamesModule (.ofList capture.text) (l.text ++ ending.text) :=
  ⟨[], l, ending, rfl, by rw [String.toList_ofList, h]⟩

/-! ### Imports -/

namespace Import

theorem firstReads_fromModule : FirstReads fromModule NamesModule :=
  .bind (fun _ s _ h => h.append s) fun _ => .bind (fun _ s _ h => h.append s) fun _ =>
    firstReads_literal_bind fun l ending _ h => l.namesModule ending h

/-- **Every import ends with the name of its module.** -/
theorem firstReads_statement : FirstReads statement fun clause => NamesModule clause.source := by
  have hP : ∀ (clause : Clause) (s t : List Char), NamesModule clause.source t →
      NamesModule clause.source (s ++ t) := fun _ s _ h => h.append s
  have hfrom : ∀ specifiers : List ImportSpecifier,
      FirstReads (do let source ← fromModule; return (⟨source, specifiers⟩ : Clause))
        fun clause => NamesModule clause.source := fun _ =>
    firstReads_fromModule.map fun _ _ h => h
  refine .orElse ?_ (.orElse ?_ (.orElse ?_ (.orElse ?_ ?_)))
  · exact .bind hP fun _ => .bind hP fun _ => .bind hP fun _ => .bind hP fun _ => hfrom _
  · exact .bind hP fun _ => .bind hP fun _ => .bind hP fun _ => .bind hP fun _ =>
      .bind hP fun _ => .bind hP fun _ => .bind hP fun _ => .bind hP fun _ => hfrom _
  · exact .bind hP fun _ => .bind hP fun _ => .bind hP fun _ => .bind hP fun _ => hfrom _
  · exact .bind hP fun _ => .bind hP fun _ => .bind hP fun _ => .bind hP fun _ => hfrom _
  · exact .bind hP fun _ => .bind hP fun _ =>
      firstReads_literal_bind fun l ending _ h => l.namesModule ending h

end Import

/-! ### Exports -/

namespace Export

/-- The module that the first words of a statement name. -/
def Form.source : Form → Option String
  | .whole _ _ source => source
  | .block .. => none
  | .line .. => none

theorem recordOf_source {file : SourceFile} {offset stop : Nat} {covered : List Char}
    (form : Form) : (recordOf file offset stop covered form).source = form.source := by
  cases form <;> rfl

/-- A statement with a module covers its first words and nothing else. -/
theorem raw_recordOf_of_source {file : SourceFile} {offset stop : Nat} {covered : List Char}
    {form : Form} {source : String} (h : form.source = some source) :
    (recordOf file offset stop covered form).raw.toList = trimRight covered := by
  cases form with
  | whole kind items module => exact String.toList_ofList
  | block kind keyword item => exact absurd h (by simp [Form.source])
  | line kind item => exact absurd h (by simp [Form.source])

/-- A statement that passes on what a module exports ends with the name of the module. -/
def PassesOn (form : Form) (s : List Char) : Prop :=
  form.kind = .reExportAll ∨ form.kind = .reExportNamed →
    ∃ source, form.source = some source ∧ NamesModule source s

theorem PassesOn.append (form : Form) (s t : List Char) (h : PassesOn form t) :
    PassesOn form (s ++ t) := by
  intro hkind
  obtain ⟨source, hsource, hnames⟩ := h hkind
  exact ⟨source, hsource, hnames.append s⟩

theorem firstReads_allForm : FirstReads allForm PassesOn :=
  .bind PassesOn.append fun _ => .bind PassesOn.append fun _ => .bind PassesOn.append fun _ =>
    .bind PassesOn.append fun _ => .bind PassesOn.append fun _ =>
      Import.firstReads_fromModule.map fun source _ h _ => ⟨source, rfl, h⟩

/-- `from` and a literal. -/
theorem exists_fromLiteral {c : Cursor} {found : Capture × Cursor}
    (h : (do blanks; word "from"; blanks; literal : Pattern Capture).first? c = some found) :
    ∃ (l : Literal) (lead : List Char), found.1.text = l.content ∧
      c.Reads (lead ++ l.text) found.2 := by
  obtain ⟨_, hblanks, h⟩ := first?_bind_eq_some h
  obtain ⟨_, hword, h⟩ := first?_bind_eq_some h
  obtain ⟨_, hblanks', h⟩ := first?_bind_eq_some h
  obtain ⟨l, hcontent, hreads⟩ := exists_literal h
  obtain ⟨s, hs⟩ := reaches_of_mem_outcomes _ _ _ hblanks
  obtain ⟨s', hs'⟩ := reaches_of_mem_outcomes _ _ _ hblanks'
  have hlead := hs.append ((reads_of_mem_outcomes_word hword).append hs')
  exact ⟨l, _, hcontent, hlead.append hreads⟩

theorem firstReads_namedForm : FirstReads namedForm PassesOn := by
  refine .bind PassesOn.append fun _ => .bind PassesOn.append fun _ =>
    .bind PassesOn.append fun names => ?_
  intro c found hfound
  -- whatever the optional part finds, the rest of the statement has an outcome
  obtain ⟨mid, hmid, hrest⟩ := first?_bind_eq_some_of_ne_nil (fun source c => by
    refine outcomes_bind_ne_nil (outcomes_optionalSemicolon_ne_nil c) fun _ _ => ?_
    cases source <;> exact List.cons_ne_nil _ _) hfound
  obtain ⟨stop, hstop, hreturn⟩ := first?_bind_eq_some hrest
  obtain ⟨ending, hending⟩ := exists_ending hstop
  rcases first?_optional_eq_some hmid with ⟨capture, hsome, hliteral⟩ | rfl
  · obtain ⟨l, lead, hcontent, hlead⟩ := exists_fromLiteral hliteral
    rw [hsome, first?, outcomes_pure, List.head?_cons, Option.some.injEq] at hreturn
    subst hreturn
    refine ⟨lead ++ l.text ++ ending.text, hlead.append hending, ?_⟩
    intro _
    rw [List.append_assoc]
    exact ⟨_, rfl, (l.namesModule ending hcontent).append lead⟩
  · rw [first?, outcomes_pure, List.head?_cons, Option.some.injEq] at hreturn
    subst hreturn
    refine ⟨ending.text, hending, ?_⟩
    intro hkind
    rcases hkind with hkind | hkind <;> exact absurd hkind (by simp [Form.kind])

/-- The forms that find no such statement. -/
theorem Finds.firstReads {p : Pattern Form} {P : Form → Prop} (h : Finds p P)
    (hkind : ∀ form, P form → form.kind ≠ .reExportAll ∧ form.kind ≠ .reExportNamed) :
    FirstReads p PassesOn := by
  intro c found hfound
  have hmem := List.mem_of_mem_head? hfound
  obtain ⟨s, hs⟩ := reaches_of_mem_outcomes _ _ _ hmem
  obtain ⟨hall, hnamed⟩ := hkind found.1 (h c found hmem)
  exact ⟨s, hs, fun hor => (hor.elim hall hnamed).elim⟩

/-- **Every export that passes on what a module exports ends with the name of the module.** -/
theorem firstReads_statement : FirstReads statement PassesOn := by
  refine firstReads_allForm.orElse (firstReads_namedForm.orElse (.orElse ?_ (.orElse ?_ ?_)))
  · exact finds_defaultNameForm.firstReads fun form h => by rw [h]; simp
  · exact finds_declarationForm.firstReads fun form h => by rw [h]; simp
  · exact finds_defaultExpressionForm.firstReads fun form h => by rw [h]; simp

end Export

/-! ### The sources of a file -/

/-- The source is not empty, lies in one line and is what the literal holds with which the recorded
text ends.  It holds the quote of the literal exactly if a second quote stands right behind the first
one. -/
structure Written.QuotesSource (raw source : String) : Prop where
  ne_empty : source ≠ ""
  newline_not_mem : '\n' ∉ source.toList
  namesModule : NamesModule source raw.toList
  quote_not_mem_iff : ∀ (front : List Char) (l : Literal) (ending : Ending),
    raw.toList = front ++ (l.text ++ ending.text) → source.toList = l.content →
      (l.quote ∉ source.toList ↔ ¬ front ++ [l.quote, l.quote] <+: raw.toList)

theorem Written.NamesModule.quotesSource {raw source : String} {covered : List Char}
    (h : NamesModule source covered) (hraw : raw.toList = trimRight covered) :
    QuotesSource raw source := by
  rw [h.trimRight_eq] at hraw
  have hnames : NamesModule source raw.toList := hraw ▸ h
  obtain ⟨front, l, ending, rfl, hsource⟩ := h
  refine ⟨?_, ?_, hnames, ?_⟩
  · rintro rfl
    exact absurd hsource (by simp [Literal.content])
  · rw [hsource]
    exact l.newline_not_mem_content
  · intro front l ending hraw hsource
    rw [hsource, hraw, List.prefix_append_right_inj, l.quote_mem_content_iff ending.text]

/-- **The name of a module is what one literal holds, unless that literal is empty.** -/
theorem sources_quoted_iff (path : String) (text : List Char) :
    let file := SourceFile.ofText path text
    (∀ e ∈ file.imports, QuotesSource e.raw e.source) ∧
      ∀ e ∈ file.exports, e.kind = .reExportAll ∨ e.kind = .reExportNamed →
        ∃ source, e.source = some source ∧ QuotesSource e.raw source := by
  intro file
  constructor
  · intro e he
    obtain ⟨find, hfind, hrecord⟩ := List.mem_filterMap.1 he
    obtain ⟨⟨clause, stop⟩, hfirst, rfl⟩ := Option.map_eq_some_iff.1 hrecord
    obtain ⟨s, hs, hnames⟩ := Import.firstReads_statement _ _ hfirst
    refine hnames.quotesSource ?_
    simp only [Import.edge, String.toList_ofList, hs.text_eq]
  · intro e he hkind
    obtain ⟨find, hfind, hrecord⟩ := SourceFile.mem_exports_iff.1 he
    obtain ⟨⟨form, stop⟩, hfirst, rfl⟩ := Option.map_eq_some_iff.1 hrecord
    obtain ⟨s, hs, hpasses⟩ := Export.firstReads_statement _ _ hfirst
    rw [Export.recordOf_kind] at hkind
    obtain ⟨source, hsource, hnames⟩ := hpasses hkind
    refine ⟨source, (Export.recordOf_source form).trans hsource, hnames.quotesSource ?_⟩
    rw [Export.raw_recordOf_of_source hsource, hs.text_eq]

/-- **An empty literal goes on to the next quote of its line.**  Whatever is taken for the literal at
the end of the recorded text, its quote stands in the source. -/
theorem source_of_empty_literal :
    let file := SourceFile.ofText "p.js" "import \"\"; import \"./a.css\";\n".toList
    let e : ImportEdge := ⟨"import \"\"; import \"", "\"; import ", [.sideEffect], "p.js", ⟨1, 1⟩,
      ⟨0, 19⟩⟩
    file.imports = [e] ∧
      ∀ (front : List Char) (l : Literal) (ending : Ending),
        e.raw.toList = front ++ (l.text ++ ending.text) → l.quote ∈ e.source.toList := by
  intro file e
  refine ⟨by decide +kernel, ?_⟩
  intro front l ending hraw
  have hall : e.raw.toList.all (fun x => !isQuote x || e.source.toList.contains x) = true := by
    decide
  have hmem : l.quote ∈ e.raw.toList := by
    rw [hraw, Literal.text]
    simp
  have hquote := List.all_eq_true.1 hall l.quote hmem
  rw [l.isQuote_quote, Bool.not_true, Bool.false_or] at hquote
  exact List.contains_iff_mem.1 hquote

end SourceOutline
