/-
**Line feeds before a text.**

Line feeds in front of a text move all that is found in it, and change nothing else.  The places of
the text stay what they were, except the first one, which now stands behind a line feed: it is the
start of a line as before, and no pattern looks at what else stands there.  But a comment above a
head takes in the blanks before it, so the first find may begin earlier than it did.  Its head does
not.

Main definitions:

* `Pattern.LooksAhead` — what a pattern finds does not depend on the character before;
* `Pattern.Advances` — whatever a pattern finds is not empty;
* `Declaration.SameOutcome` — the same head, with a comment that says the same;
* `Pattern.NewlineBefore` — what a line feed changes at the first place of a text.

Main results:

* `Declaration.outcomes_header_cons` — in front of a line feed only heads with a comment are found;
* `Pattern.forall₂_findAll_newline` — **a scan finds the same behind a line feed**;
* `outline_newlines` — **the outline of a text behind line feeds is that of the text, moved**.
-/

import SourceOutline.Proofs.MovedRecords
import Mathlib.Data.List.Forall2

set_option autoImplicit false

namespace SourceOutline

open Text Pattern

/-! ### Patterns that look ahead -/

namespace Pattern

variable {α β : Type}

/-- What the pattern finds does not depend on the character before. -/
def LooksAhead (p : Pattern α) : Prop :=
  ∀ before before' rest, p.outcomes ⟨before, rest⟩ = p.outcomes ⟨before', rest⟩

theorem LooksAhead.first?_eq {p : Pattern α} (h : LooksAhead p) {c c' : Cursor}
    (hrest : c.rest = c'.rest) : p.first? c = p.first? c' := by
  obtain ⟨before, rest⟩ := c
  obtain ⟨before', rest'⟩ := c'
  obtain rfl : rest = rest' := hrest
  rw [first?, first?, h before before' rest]

/-- What stands between two places does not depend on the character before. -/
theorem Capture.text_congr {c c' : Cursor} (h : c.rest = c'.rest) (stop : Cursor) :
    Capture.text ⟨c, stop⟩ = Capture.text ⟨c', stop⟩ := by
  simp only [Capture.text, Cursor.gap, h]

theorem LooksAhead.bind {p : Pattern α} (h : LooksAhead p) (next : α → Pattern β) :
    LooksAhead (p >>= next) := by
  intro before before' rest
  rw [outcomes_bind, outcomes_bind, h before before' rest]

theorem LooksAhead.orElse {p q : Pattern α} (h : LooksAhead p) (h' : LooksAhead q) :
    LooksAhead (p <|> q) := by
  intro before before' rest
  rw [outcomes_orElse, outcomes_orElse, h before before' rest, h' before before' rest]

theorem looksAhead_word {s : String} (hs : s.toList ≠ []) : LooksAhead (word s) := by
  intro before before' rest
  obtain ⟨w, letters, hw⟩ := List.exists_cons_of_ne_nil hs
  simp only [word, outcomes_exactly, hw]
  cases rest <;> rfl

/-- A part that may be absent is there, or what follows it stands here. -/
theorem outcomes_optional_bind (p : Pattern α) (next : Option α → Pattern β) (c : Cursor) :
    (optional p >>= next).outcomes c =
      ((p.outcomes c).flatMap fun found => (next (some found.1)).outcomes found.2) ++
        (next none).outcomes c := by
  simp [optional, List.flatMap_map]

theorem LooksAhead.optional_bind {p : Pattern α} {next : Option α → Pattern β}
    (h : LooksAhead p) (h' : LooksAhead (next none)) : LooksAhead (optional p >>= next) := by
  intro before before' rest
  rw [outcomes_optional_bind, outcomes_optional_bind, h before before' rest,
    h' before before' rest]

theorem LooksAhead.optionalKeyword_bind {keyword : String} {next : Bool → Pattern β}
    (hkeyword : keyword.toList ≠ []) (h : LooksAhead (next false)) :
    LooksAhead (Declaration.optionalKeyword keyword >>= next) := by
  have hopt : LooksAhead (optional (do word keyword; gap) >>= fun found => next found.isSome) :=
    LooksAhead.optional_bind ((looksAhead_word hkeyword).bind _) h
  intro before before' rest
  simpa [Declaration.optionalKeyword, List.flatMap_assoc] using hopt before before' rest

/-- At two places with the same text ahead, a run of characters leads to the same places, apart from
the empty run. -/
theorem forall₂_many_bind {R : β × Cursor → β × Cursor → Prop} (hrefl : ∀ found, R found found)
    {test : Char → Bool} {next : Unit → Pattern β} {before before' : Option Char}
    (h : ∀ rest, List.Forall₂ R ((next ()).outcomes ⟨before, rest⟩)
      ((next ()).outcomes ⟨before', rest⟩)) (rest : List Char) :
    List.Forall₂ R ((many test >>= next).outcomes ⟨before, rest⟩)
      ((many test >>= next).outcomes ⟨before', rest⟩) := by
  simp only [outcomes_bind, outcomes_many, List.flatMap_map]
  cases rest with
  | nil => simpa [Cursor.runs] using h []
  | cons x rest =>
      simp only [Cursor.runs_cons, List.flatMap_append, List.flatMap_singleton]
      exact List.rel_append (List.forall₂_same.2 fun found _ => hrefl found) (h (x :: rest))

theorem LooksAhead.many_bind {test : Char → Bool} {next : Unit → Pattern β}
    (h : LooksAhead (next ())) : LooksAhead (many test >>= next) := by
  intro before before' rest
  have hnext : ∀ rest, List.Forall₂ Eq ((next ()).outcomes ⟨before, rest⟩)
      ((next ()).outcomes ⟨before', rest⟩) :=
    fun rest => List.forall₂_eq_eq_eq ▸ h before before' rest
  exact List.forall₂_eq_eq_eq ▸ forall₂_many_bind (fun _ => rfl) hnext rest

/-- A run that takes in the next character goes on from there, if nothing is found here. -/
theorem outcomes_many_bind_cons {test : Char → Bool} {next : Unit → Pattern β} {x : Char}
    {rest : List Char} (hx : test x = true) (hnext : Refuses (next ()) (x :: rest))
    (before : Option Char) :
    (many test >>= next).outcomes ⟨before, x :: rest⟩ =
      (many test >>= next).outcomes ⟨some x, rest⟩ := by
  simp only [outcomes_bind, outcomes_many, List.flatMap_map, Cursor.runs_cons, if_pos hx,
    List.flatMap_append, List.flatMap_singleton]
  rw [hnext before, List.append_nil]

/-- Where the run is empty, what follows it stands here. -/
theorem outcomes_many_bind_of_stops {test : Char → Bool} {next : Unit → Pattern β}
    {rest : List Char} (h : Stops test rest) (before : Option Char) :
    (many test >>= next).outcomes ⟨before, rest⟩ = (next ()).outcomes ⟨before, rest⟩ := by
  cases rest with
  | nil => simp [outcomes_many, Cursor.runs]
  | cons x rest => simp [outcomes_many, Cursor.runs, stops_cons.1 h]

end Pattern

theorem looksAhead_importStatement : LooksAhead Import.statement := by
  have hword : ∀ {α : Type} (next : Unit → Pattern α), LooksAhead (word "import" >>= next) :=
    fun next => (looksAhead_word (by decide)).bind next
  exact (hword _).orElse ((hword _).orElse ((hword _).orElse ((hword _).orElse (hword _))))

theorem looksAhead_exportStatement : LooksAhead Export.statement := by
  have hword : ∀ {α : Type} (next : Unit → Pattern α), LooksAhead (word "export" >>= next) :=
    fun next => (looksAhead_word (by decide)).bind next
  exact (hword _).orElse ((hword _).orElse ((hword _).orElse ((hword _).orElse (hword _))))

theorem looksAhead_classHead : LooksAhead Declaration.classHead :=
  LooksAhead.optionalKeyword_bind (by decide) <|
    LooksAhead.optionalKeyword_bind (by decide) ((looksAhead_word (by decide)).bind _)

theorem looksAhead_functionHead : LooksAhead Declaration.functionHead :=
  LooksAhead.optionalKeyword_bind (by decide) <|
    LooksAhead.optionalKeyword_bind (by decide) <|
      LooksAhead.optionalKeyword_bind (by decide) ((looksAhead_word (by decide)).bind _)

/-! ### Comments at the start of a line -/

namespace Declaration

theorem looksAhead_blockComment : LooksAhead blockComment :=
  LooksAhead.many_bind ((looksAhead_word (by decide)).bind _)

theorem looksAhead_commentLine : LooksAhead commentLine :=
  LooksAhead.many_bind ((looksAhead_word (by decide)).bind _)

section
variable {before before' : Option Char}

/-- At two starts of lines with the same text ahead, the same comments are found: they end at the
same places and say the same. -/
theorem forall₂_comment (h : before.all (· == '\n') = before'.all (· == '\n'))
    (rest : List Char) :
    List.Forall₂ (fun a b : LeadingComment × Cursor => a.1.summary? = b.1.summary? ∧ a.2 = b.2)
      ((blockComment <|> lineComments).outcomes ⟨before, rest⟩)
      ((blockComment <|> lineComments).outcomes ⟨before', rest⟩) := by
  rw [outcomes_orElse, outcomes_orElse, looksAhead_blockComment before before' rest]
  refine List.rel_append (List.forall₂_same.2 fun _ _ => ⟨rfl, rfl⟩) ?_
  refine forall₂_many_bind (fun _ => ⟨rfl, rfl⟩) (fun rest => ?_) rest
  have hlines := (looksAhead_commentLine.bind fun _ => star commentLine) before before' rest
  simp only [outcomes_bind, lineStart, outcomes_edge, h]
  split
  · -- the two runs of comments differ only in the character before them
    simp only [List.flatMap_singleton, outcomes_captured, outcomes_pure, List.flatMap_map]
    rw [← List.map_eq_flatMap, ← List.map_eq_flatMap, hlines, List.forall₂_map_left_iff,
      List.forall₂_map_right_iff]
    exact List.forall₂_same.2 fun _ _ => ⟨rfl, rfl⟩
  · simp

end

/-- Comments that make up whole lines, at the start of a line. -/
def commentLines : Pattern LeadingComment := do
  lineStart
  let run ← captured do
    commentLine
    star commentLine
  return .lines run

section
variable {x : Char} (hblank : isBlank x = true) (hpadding : isPadding x = false)
include hblank hpadding

/-- They do not begin with a blank that does not indent. -/
theorem refuses_commentLines (rest : List Char) : Refuses commentLines (x :: rest) := by
  have hslash : (x == '/') = false := by
    rw [beq_eq_false_iff_ne]
    rintro rfl
    exact absurd hblank (by decide)
  have hmark : Refuses (word "//") (x :: rest) :=
    refuses_word_of_head '/' (by decide) (stops_cons.2 hslash)
  have hline : Refuses commentLine (x :: rest) := fun before =>
    (outcomes_many_bind_of_stops (stops_cons.2 hpadding) before).trans (hmark.bind before)
  refine refuses_bind_of_forall fun before found hfound => ?_
  obtain ⟨-, rfl⟩ := mem_outcomes_lineStart.1 hfound
  exact hline.bind.captured.bind

/-- A comment takes in such a blank before it. -/
theorem outcomes_comment_cons (before : Option Char) (rest : List Char) :
    (blockComment <|> lineComments).outcomes ⟨before, x :: rest⟩ =
      (blockComment <|> lineComments).outcomes ⟨some x, rest⟩ := by
  have hslash : (x == '/') = false := by
    rw [beq_eq_false_iff_ne]
    rintro rfl
    exact absurd hblank (by decide)
  have hblock : Refuses (word "/**") (x :: rest) :=
    refuses_word_of_head '/' (by decide) (stops_cons.2 hslash)
  rw [outcomes_orElse, outcomes_orElse]
  exact congrArg₂ _ (outcomes_many_bind_cons hblank hblock.bind before)
    (outcomes_many_bind_cons hblank (refuses_commentLines hblank hpadding rest) before)

end

/-! ### Heads behind a line feed -/

/-- A head at the start of a line, under a given comment. -/
def headOfLine {α : Type} (parts : Pattern α) (comment : Option LeadingComment) :
    Pattern (Header α) := do
  lineStart
  padding
  let start ← here
  let parts ← parts
  return ⟨comment, start, parts⟩

/-- The same head was found at two places with the same text ahead. -/
structure SameOutcome {α : Type} (a b : Header α × Cursor) : Prop where
  start_eq : a.1.start.rest = b.1.start.rest
  stop_eq : a.2 = b.2
  parts_eq : a.1.parts = b.1.parts
  summary_eq : a.1.summary? = b.1.summary?

theorem SameOutcome.refl {α : Type} (a : Header α × Cursor) : SameOutcome a a :=
  ⟨rfl, rfl, rfl, rfl⟩

section
variable {α : Type} {p : Pattern α}

/-- The heads with a comment that are found at a place. -/
def commented (p : Pattern α) (c : Cursor) : List (Header α × Cursor) :=
  ((blockComment <|> lineComments).outcomes c).flatMap fun found =>
    (headOfLine p (some found.1)).outcomes found.2

theorem outcomes_header (p : Pattern α) (c : Cursor) :
    (header p).outcomes c = commented p c ++ (headOfLine p none).outcomes c :=
  outcomes_optional_bind _ (headOfLine p) c

/-- The comment does not change which heads there are. -/
theorem outcomes_headOfLine (p : Pattern α) (comment : Option LeadingComment) (c : Cursor) :
    (headOfLine p comment).outcomes c =
      ((headOfLine p none).outcomes c).map fun found =>
        ({ found.1 with comment := comment }, found.2) := by
  simp [headOfLine, List.map_flatMap]

/-- At two starts of lines with the same text ahead, the same heads are found. -/
theorem forall₂_headOfLine (hp : LooksAhead p) (comment : Option LeadingComment)
    {before before' : Option Char} (h : before.all (· == '\n') = before'.all (· == '\n'))
    (rest : List Char) :
    List.Forall₂ SameOutcome ((headOfLine p comment).outcomes ⟨before, rest⟩)
      ((headOfLine p comment).outcomes ⟨before', rest⟩) := by
  rw [headOfLine, outcomes_bind, outcomes_bind, lineStart, outcomes_edge, outcomes_edge, h]
  split
  · simp only [List.flatMap_singleton]
    refine forall₂_many_bind SameOutcome.refl (fun rest => ?_) rest
    simp only [here, outcomes_bind, outcomes_map, outcomes_captured, outcomes_pure,
      List.map_cons, List.map_nil, List.flatMap_singleton]
    rw [← List.map_eq_flatMap, ← List.map_eq_flatMap, hp before before' rest,
      List.forall₂_map_left_iff, List.forall₂_map_right_iff]
    exact List.forall₂_same.2 fun _ _ => ⟨rfl, rfl, rfl, rfl⟩
  · simp

theorem forall₂_commented (p : Pattern α) {before before' : Option Char}
    (h : before.all (· == '\n') = before'.all (· == '\n')) (rest : List Char) :
    List.Forall₂ SameOutcome (commented p ⟨before, rest⟩) (commented p ⟨before', rest⟩) := by
  refine List.rel_flatMap (forall₂_comment h rest) fun a b hab => ?_
  obtain ⟨hsummary, hplace⟩ := hab
  rw [outcomes_headOfLine p (some a.1), outcomes_headOfLine p (some b.1), hplace,
    List.forall₂_map_left_iff, List.forall₂_map_right_iff]
  exact List.forall₂_same.2 fun _ _ =>
    ⟨rfl, rfl, rfl, congrArg (Option.map String.ofList) hsummary⟩

section
variable {x : Char} (hblank : isBlank x = true) (hpadding : isPadding x = false)
include hblank hpadding

/-- No head without a comment stands at a blank that does not indent, such as a line feed. -/
theorem refuses_headOfLine (hp : Opens p (!isBlank ·)) (comment : Option LeadingComment)
    (rest : List Char) : Refuses (headOfLine p comment) (x :: rest) := by
  refine refuses_bind_of_forall fun before found hfound => ?_
  obtain ⟨-, rfl⟩ := mem_outcomes_lineStart.1 hfound
  intro before
  refine (outcomes_many_bind_of_stops (stops_cons.2 hpadding) before).trans ?_
  refine refuses_bind_of_forall (fun before found hfound => ?_) before
  obtain rfl := mem_outcomes_here.1 hfound
  exact (hp.refuses (stops_cons.2 (by rw [hblank]; rfl))).bind

/-- In front of such a blank only heads with a comment are found, those behind it. -/
theorem outcomes_header_cons (hp : Opens p (!isBlank ·)) (before : Option Char)
    (rest : List Char) : (header p).outcomes ⟨before, x :: rest⟩ = commented p ⟨some x, rest⟩ := by
  rw [outcomes_header, refuses_headOfLine hblank hpadding hp none rest before, List.append_nil,
    commented, outcomes_comment_cons hblank hpadding, commented]

end

end

end Declaration

/-! ### Scans behind a line feed -/

namespace Pattern

variable {α : Type}

/-- Whatever the pattern finds is not empty. -/
def Advances (p : Pattern α) : Prop :=
  ∀ c, ∀ found ∈ p.outcomes c, found.2.rest.length < c.rest.length

theorem Advances.first?_nil {p : Pattern α} (hp : Advances p) (before : Option Char) :
    p.first? ⟨before, []⟩ = none := by
  cases hfirst : p.first? ⟨before, []⟩ with
  | none => rfl
  | some found => exact absurd (hp _ found (List.mem_of_head? hfirst)) (by simp)

/-- The same find at a larger offset. -/
def Find.later (n : Nat) (find : Find α) : Find α :=
  { find with offset := find.offset + n }

/-- A scan that counts from a larger offset finds the same. -/
theorem scan_add (p : Pattern α) (n : Nat) (pos skip : Nat) (before : Option Char)
    (rest : List Char) :
    scan p Find.stopOffset (pos + n) skip before rest =
      (scan p Find.stopOffset pos skip before rest).map (Find.later n) := by
  induction rest generalizing pos skip before with
  | nil =>
      cases skip with
      | succ skip => rfl
      | zero =>
          simp only [scan]
          cases p.first? ⟨before, []⟩ <;> rfl
  | cons x rest ih =>
      have ih := fun skip => ih (pos + 1) skip (some x)
      cases skip with
      | succ skip => simp only [scan, Nat.add_right_comm pos n 1, ih]
      | zero =>
          simp only [scan, Nat.add_right_comm pos n 1]
          cases p.first? ⟨before, x :: rest⟩ with
          | none => exact ih 0
          | some found =>
              simp only [List.map_cons]
              rw [← ih]
              simp only [Find.later, Find.stopOffset]
              congr 2
              omega

/-- What happens at the first place of a text when a line feed is put before it.  What was found
there is found behind the line feed, or it is found already in front of it. -/
inductive NewlineBefore (p : Pattern α) (R : α × Cursor → α × Cursor → Prop)
    (text : List Char) : Prop where
  | nothing (hnewline : p.first? ⟨none, '\n' :: text⟩ = none)
      (hfirst : p.first? ⟨none, text⟩ = none) (hbehind : p.first? ⟨some '\n', text⟩ = none)
  | behind {a b : α × Cursor} (hnewline : p.first? ⟨none, '\n' :: text⟩ = none)
      (hfirst : p.first? ⟨none, text⟩ = some a) (hbehind : p.first? ⟨some '\n', text⟩ = some b)
      (hsame : R a b)
  | inFront {a b : α × Cursor} (hnewline : p.first? ⟨none, '\n' :: text⟩ = some b)
      (hfirst : p.first? ⟨none, text⟩ = some a) (hsame : R a b)

/-- The outcomes in front of the line feed are the first ones behind it, so it decides whether there
are any. -/
theorem NewlineBefore.of_outcomes {p : Pattern α} {R : α × Cursor → α × Cursor → Prop}
    {text : List Char} {xs ys xs' ys' : List (α × Cursor)}
    (hnewline : p.outcomes ⟨none, '\n' :: text⟩ = xs')
    (hfirst : p.outcomes ⟨none, text⟩ = xs ++ ys)
    (hbehind : p.outcomes ⟨some '\n', text⟩ = xs' ++ ys') (hx : List.Forall₂ R xs xs')
    (hy : List.Forall₂ R ys ys') : NewlineBefore p R text := by
  cases hx with
  | nil =>
      cases hy with
      | nil =>
          exact .nothing (by rw [first?, hnewline]; rfl) (by rw [first?, hfirst]; rfl)
            (by rw [first?, hbehind]; rfl)
      | cons hab _ =>
          exact .behind (by rw [first?, hnewline]; rfl) (by rw [first?, hfirst]; rfl)
            (by rw [first?, hbehind]; rfl) hab
  | cons hab _ =>
      exact .inFront (by rw [first?, hnewline]; rfl) (by rw [first?, hfirst]; rfl) hab

/-- A scan that counts from one more finds the same. -/
theorem forall₂_scan_later {R : α × Cursor → α × Cursor → Prop} (hrefl : ∀ a, R a a)
    (p : Pattern α) (pos skip : Nat) (before : Option Char) (rest : List Char) :
    List.Forall₂ (fun f g : Find α => R (f.value, f.stop) (g.value, g.stop))
      (scan p Find.stopOffset pos skip before rest)
      (scan p Find.stopOffset (pos + 1) skip before rest) := by
  rw [scan_add, List.forall₂_map_right_iff]
  exact List.forall₂_same.2 fun f _ => hrefl (f.value, f.stop)

/-- **A scan finds the same behind a line feed.** -/
theorem forall₂_findAll_newline {p : Pattern α} {R : α × Cursor → α × Cursor → Prop}
    (hrefl : ∀ a, R a a) (hstop : ∀ {a b}, R a b → a.2 = b.2) (hp : Advances p)
    {text : List Char} (h : NewlineBefore p R text) :
    List.Forall₂ (fun f g : Find α => R (f.value, f.stop) (g.value, g.stop))
      (findAll p text) (findAll p ('\n' :: text)) := by
  have hlater := fun skip => forall₂_scan_later hrefl p 1 skip
  cases text with
  | nil =>
      cases h with
      | nothing hnewline hfirst hbehind => simp [findAll, scan, hnewline, hfirst, hbehind]
      | behind hnewline hfirst | inFront hnewline hfirst =>
          rw [hp.first?_nil] at hfirst
          exact absurd hfirst (by simp)
  | cons x rest =>
      cases h with
      | nothing hnewline hfirst hbehind =>
          simp only [findAll, scan, hnewline, hfirst, hbehind]
          exact hlater 0 (some x) rest
      | @behind a b hnewline hfirst hbehind hsame =>
          simp only [findAll, scan, hnewline, hfirst, hbehind]
          refine List.Forall₂.cons hsame ?_
          have hskip : Find.stopOffset ⟨1, ⟨some '\n', x :: rest⟩, b.2, b.1⟩ - (1 + 1) =
              Find.stopOffset ⟨0, ⟨none, x :: rest⟩, a.2, a.1⟩ - (0 + 1) := by
            simp only [Find.stopOffset, Cursor.gap, hstop hsame]
            omega
          rw [hskip]
          exact hlater _ (some x) rest
      | @inFront a b hnewline hfirst hsame =>
          -- the find goes on to the same place, so the scan goes on behind one more character
          have hlt : a.2.rest.length < (x :: rest).length := hp _ a (List.mem_of_head? hfirst)
          have hskip : Find.stopOffset ⟨0, ⟨none, '\n' :: x :: rest⟩, b.2, b.1⟩ - (0 + 1) =
              Find.stopOffset ⟨0, ⟨none, x :: rest⟩, a.2, a.1⟩ - (0 + 1) + 1 := by
            simp only [Find.stopOffset, Cursor.gap, hstop hsame, List.length_cons] at hlt ⊢
            omega
          rw [findAll, findAll, scan_of_first? hnewline, scan_of_first? hfirst, hskip]
          exact List.Forall₂.cons hsame (hlater _ (some x) rest)

end Pattern

/-! ### Finds behind a line feed -/

/-- Places with the same text ahead stand at offsets that differ by what was put in front. -/
theorem Pattern.Cursor.StandsAt.offset_behind {c c' : Cursor} {text : List Char} {a b : Nat}
    (h : c.StandsAt text a) (pre : List Char) (h' : c'.StandsAt (pre ++ text) b)
    (hrest : c.rest = c'.rest) : b = a + pre.length := by
  have hle := h.le_length
  have hle' := h'.le_length
  have hlength : text.length - a = (pre ++ text).length - b := by
    rw [← List.length_drop, ← List.length_drop, ← h.rest_eq, ← h'.rest_eq, hrest]
  rw [List.length_append] at hle' hlength
  omega

/-- A place stands at one offset only. -/
theorem Pattern.Cursor.StandsAt.offset_unique {c : Cursor} {text : List Char} {a b : Nat}
    (h : c.StandsAt text a) (h' : c.StandsAt text b) : a = b :=
  (h.offset_behind [] h' rfl).symm

namespace Declaration

section
variable {α : Type} {p : Pattern α}

theorem advances_header (hp : Opens p (!isBlank ·)) : Advances (header p) := by
  intro c found hfound
  obtain ⟨⟨s, hs⟩, hparts⟩ := reads_of_mem_outcomes_header hfound
  obtain ⟨x, t, -, ht⟩ := hp _ _ hparts
  rw [hs.1, ht.1]
  simp only [List.length_append, List.length_cons]
  omega

/-- A line feed before a text leaves its heads what they were. -/
theorem newlineBefore_header (hp : Opens p (!isBlank ·)) (hahead : LooksAhead p)
    (text : List Char) : NewlineBefore (header p) SameOutcome text := by
  exact .of_outcomes (outcomes_header_cons rfl rfl hp none text) (outcomes_header p _)
    (outcomes_header p _) (forall₂_commented p (by rfl) text)
    (forall₂_headOfLine hahead none (by rfl) text)

/-- The heads of a text behind a line feed are those of the text. -/
theorem forall₂_findAll_header (hp : Opens p (!isBlank ·)) (hahead : LooksAhead p)
    (text : List Char) :
    List.Forall₂ (fun f g => SameOutcome (f.value, f.stop) (g.value, g.stop))
      (findAll (header p) text) (findAll (header p) ('\n' :: text)) :=
  forall₂_findAll_newline SameOutcome.refl SameOutcome.stop_eq (advances_header hp)
    (newlineBefore_header hp hahead text)

/-- Their offsets are larger by one. -/
theorem sameHead_of_sameOutcome (hp : Opens p (!isBlank ·)) {text : List Char}
    {f g : Find (Header α)} (hf : f ∈ findAll (header p) text)
    (hg : g ∈ findAll (header p) ('\n' :: text))
    (h : SameOutcome (f.value, f.stop) (g.value, g.stop)) : f.SameHead 1 g := by
  obtain ⟨hplace, hmem⟩ := mem_findAll hf
  obtain ⟨hplace', hmem'⟩ := mem_findAll hg
  have hstop := Find.standsAt_stopOffset hplace hmem
  have hstop' := Find.standsAt_stopOffset hplace' hmem'
  have hhead := (Find.placed hplace hmem).headsLine.standsAt
  have hhead' := (Find.placed hplace' hmem').headsLine.standsAt
  have hlt : f.stop.rest.length < f.start.rest.length := advances_header hp _ _ hmem
  have hpos : 0 < f.stopOffset := by
    rw [Find.stopOffset, Cursor.gap]
    omega
  exact ⟨hhead.offset_behind ['\n'] hhead' h.start_eq,
    hstop.offset_behind ['\n'] hstop' (congrArg Cursor.rest h.stop_eq), hpos, h.parts_eq.symm,
    h.summary_eq.symm⟩

end

end Declaration

/-- A keyword at the start of a line is found like a head that is this word. -/
theorem outcomes_keywordAtLineStart (keyword : String) (c : Cursor) :
    (keywordAtLineStart keyword).outcomes c =
      ((Declaration.headOfLine (do word keyword; wordEdge) none).outcomes c).map fun found =>
        (found.1.start, found.2) := by
  simp [keywordAtLineStart, Declaration.headOfLine, List.map_flatMap, List.flatMap_assoc]

theorem advances_keywordAtLineStart {keyword : String} (hkeyword : keyword.toList ≠ []) :
    Advances (keywordAtLineStart keyword) := by
  intro c found hfound
  obtain ⟨-, pad, -, hpad, hword⟩ := mem_outcomes_keywordAtLineStart hfound
  have hlength := List.length_pos_iff.2 hkeyword
  rw [hpad.1, hword.1]
  simp only [List.length_append]
  omega

/-- The keywords of a text behind a line feed are those of the text. -/
theorem forall₂_findAll_keyword {keyword : String} {x : Char}
    (hkeyword : keyword.toList.head? = some x) (hx : isBlank x = false) (text : List Char) :
    List.Forall₂ (fun f g => f.value.rest = g.value.rest ∧ f.stop = g.stop)
      (findAll (keywordAtLineStart keyword) text)
      (findAll (keywordAtLineStart keyword) ('\n' :: text)) := by
  have hne : keyword.toList ≠ [] := by
    intro hnil
    rw [hnil] at hkeyword
    exact absurd hkeyword (by simp)
  have hopens : Opens (do word keyword; wordEdge) (!isBlank ·) :=
    opens_word_bind hkeyword (by rw [hx]; rfl)
  have hahead : LooksAhead (do word keyword; wordEdge) := (looksAhead_word hne).bind _
  refine forall₂_findAll_newline (R := fun a b => a.1.rest = b.1.rest ∧ a.2 = b.2)
    (fun _ => ⟨rfl, rfl⟩) (fun h => h.2) (advances_keywordAtLineStart hne) ?_
  refine .of_outcomes ?_ (List.nil_append _).symm (List.nil_append _).symm List.Forall₂.nil ?_
  · rw [outcomes_keywordAtLineStart,
      Declaration.refuses_headOfLine rfl rfl hopens none text none, List.map_nil]
  · rw [outcomes_keywordAtLineStart, outcomes_keywordAtLineStart, List.forall₂_map_left_iff,
      List.forall₂_map_right_iff]
    exact (Declaration.forall₂_headOfLine hahead none (by rfl) text).imp fun a b h =>
      ⟨h.start_eq, h.stop_eq⟩

/-- Finds that correspond give lists that correspond. -/
theorem flatMap_eq_map_of_forall₂ {α β γ δ : Type} {R : α → β → Prop} {xs : List α} {ys : List β}
    {F : α → List γ} {G : β → List δ} {move : γ → δ} (h : List.Forall₂ R xs ys)
    (hmove : ∀ x ∈ xs, ∀ y ∈ ys, R x y → G y = (F x).map move) :
    ys.flatMap G = (xs.flatMap F).map move := by
  induction h with
  | nil => rfl
  | @cons x y xs ys hxy _ ih =>
      have hrest := ih fun x hx y hy => hmove x (List.mem_cons_of_mem _ hx) y
        (List.mem_cons_of_mem _ hy)
      rw [List.flatMap_cons, List.flatMap_cons, List.map_append, hrest,
        hmove x List.mem_cons_self y List.mem_cons_self hxy]

/-! ### The whole outline -/

namespace SourceFile

variable (file : SourceFile)

theorem classFindings_newline :
    (file.behind ['\n']).classFindings =
      file.classFindings.map (Finding.moved Element.moved 1 1) := by
  refine flatMap_eq_map_of_forall₂
    (Declaration.forall₂_findAll_header opens_classHead looksAhead_classHead file.text) ?_
  intro f hf g hg hsame
  exact Declaration.classFinding_behind file ['\n']
    (Declaration.sameHead_of_sameOutcome opens_classHead hf hg hsame)

theorem functionFindings_newline (classes : List Element) (exports : List ExportEdge) :
    (file.behind ['\n']).functionFindings (classes.map (Element.moved 1 1))
        (exports.map (ExportEdge.moved 1 1)) =
      (file.functionFindings classes exports).map (Finding.moved Element.moved 1 1) := by
  refine flatMap_eq_map_of_forall₂
    (Declaration.forall₂_findAll_header opens_functionHead looksAhead_functionHead file.text) ?_
  intro f hf g hg hsame
  exact Declaration.functionFinding_behind file ['\n'] classes exports
    (Declaration.sameHead_of_sameOutcome opens_functionHead hf hg hsame)

theorem exportFindings_newline :
    (file.behind ['\n']).exportFindings =
      file.exportFindings.map (Finding.moved ExportEdge.moved 1 1) := by
  refine flatMap_eq_map_of_forall₂
    (forall₂_findAll_keyword (x := 'e') (by decide) (by decide) file.text) ?_
  intro f hf g hg hsame
  have hoffset := (standsAt_of_mem_findAll_keyword hf).1.offset_behind ['\n']
    (standsAt_of_mem_findAll_keyword hg).1 hsame.1
  rw [← looksAhead_exportStatement.first?_eq hsame.1]
  cases hfirst : Export.statement.first? f.value with
  | none => rfl
  | some found =>
      obtain ⟨form, stop⟩ := found
      have hfirst' := (looksAhead_exportStatement.first?_eq hsame.1).symm.trans hfirst
      obtain ⟨hcovered, hhead, hstop⟩ := covered_of_mem_findAll_export hf hfirst
      obtain ⟨-, -, hstop'⟩ := covered_of_mem_findAll_export hg hfirst'
      have htext := Capture.text_congr hsame.1 stop
      have hlength := hhead.length_le
      simp only [hstop, hstop', ← htext, hoffset, List.length_singleton]
      rw [Nat.add_right_comm]
      refine Export.findings_behind file ['\n'] (by simp at hlength; omega) fun e he => ?_
      exact (Export.faithful_findings hcovered hhead he).covers.start_lt_stop

theorem imports_newline :
    (file.behind ['\n']).imports = file.imports.map (ImportEdge.moved 1 1) := by
  rw [imports, imports, List.filterMap_eq_flatMap_toList, List.filterMap_eq_flatMap_toList]
  refine flatMap_eq_map_of_forall₂
    (forall₂_findAll_keyword (x := 'i') (by decide) (by decide) file.text) ?_
  intro f hf g hg hsame
  have hplace := (standsAt_of_mem_findAll_keyword hf).1
  have hoffset := hplace.offset_behind ['\n'] (standsAt_of_mem_findAll_keyword hg).1 hsame.1
  rw [← looksAhead_importStatement.first?_eq hsame.1]
  cases hfirst : Import.statement.first? f.value with
  | none => rfl
  | some found =>
      obtain ⟨clause, stop⟩ := found
      obtain ⟨t, ht⟩ := reads_of_mem_outcomes_importStatement (List.mem_of_head? hfirst)
      obtain ⟨hcovered, hhead⟩ := covered_begins hplace ht
      have hfaithful := statementFaithful_trimRight file (x := 't') (by decide) (by decide)
        hcovered hhead
      have htext := Capture.text_congr hsame.1 stop
      have hlt := hfaithful.covers.start_lt_stop
      simp only [Option.map_some, Option.toList_some, List.map_cons, List.map_nil, ← htext,
        hoffset]
      rw [Import.edge_behind file ['\n'] _ clause (by simp only at hlt; omega)]
      rfl

/-- One line feed. -/
theorem outline_newline : (file.behind ['\n']).outline = file.outline.moved 1 1 := by
  simp only [outline, Reported.moved, Outline.moved, exportFindings_newline, classFindings_newline,
    imports_newline, Finding.records_map_moved, Finding.warnings_map_moved,
    functionFindings_newline, List.map_append]

end SourceFile

/-- **The outline of a text behind line feeds is that of the text, moved.** -/
theorem outline_newlines (path : String) (text : List Char) (k : Nat) :
    (SourceFile.ofText path (List.replicate k '\n' ++ text)).outline =
      (SourceFile.ofText path text).outline.moved k k := by
  induction k with
  | zero => rw [Reported.moved_zero]; rfl
  | succ k ih =>
      calc (SourceFile.ofText path (List.replicate (k + 1) '\n' ++ text)).outline
          = ((SourceFile.ofText path (List.replicate k '\n' ++ text)).behind ['\n']).outline := rfl
        _ = ((SourceFile.ofText path text).outline.moved k k).moved 1 1 := by
          rw [SourceFile.outline_newline, ih]
        _ = (SourceFile.ofText path text).outline.moved (k + 1) (k + 1) :=
          Reported.moved_moved k 1 k 1 _

end SourceOutline
