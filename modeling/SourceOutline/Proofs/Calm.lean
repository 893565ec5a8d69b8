/-
**Where no head is found.**

A head is found together with the comment above it, so a find may begin long before its head: in
blanks, in a block comment, or at the first of many comment lines.  A stretch of text is calm for a
kind of head if no block comment opens in it and no line of it begins with such a head.  If its last
line is no comment either, no find begins in it, not even one whose head stands behind it.

Main definitions:

* `Written.CommentLine`, `Declaration.CommentLine` — a line that is a comment, and reading one;
* `Pattern.NoHead` — no head stands at this head of a line, indented or not;
* `Calm` — no block comment opens in a text, and all heads of lines in it have a property;
* `EndsPlain`, `PlainAhead` — the last line is no comment, and what follows does not begin with one.

Main results:

* `Declaration.exists_commentLine`, `Declaration.mem_outcomes_lineComments` — what the patterns of
  comment lines read;
* `Declaration.mem_outcomes_leadingComment` — what a comment above a head reads;
* `outcomes_header_eq_nil` — no find begins in a calm text;
* `scan_calm` — a scan passes over it;
* `first?_header` — where a head stands at the head of a line, it is found there, without comment.
-/

import SourceOutline.Proofs.Preferred
import SourceOutline.Proofs.Statements
import Mathlib.Logic.Relation

set_option autoImplicit false

namespace SourceOutline

open Text Pattern

/-! ### Comments above heads -/

namespace Pattern

theorem mem_repeated {step : Cursor → List Cursor} {fuel : Nat} {c c' : Cursor}
    (h : c' ∈ repeated step fuel c) : Relation.ReflTransGen (fun a b => b ∈ step a) c c' := by
  induction fuel generalizing c with
  | zero =>
      simp only [repeated, List.mem_singleton] at h
      exact h ▸ Relation.ReflTransGen.refl
  | succ fuel ih =>
      simp only [repeated, List.mem_append, List.mem_flatMap, List.mem_singleton] at h
      rcases h with ⟨mid, hmid, h⟩ | h
      · exact Relation.ReflTransGen.head hmid (ih h)
      · exact h ▸ Relation.ReflTransGen.refl

end Pattern

namespace Written

/-- A line that holds nothing but a comment. -/
structure CommentLine where
  indent : List Char
  content : List Char
  /-- Whether a carriage return stands before the line feed. -/
  returns : Bool
  isPadding_of_mem : ∀ x ∈ indent, isPadding x = true
  return_not_mem : '\r' ∉ content
  newline_not_mem : '\n' ∉ content

namespace CommentLine

/-- What stands before the line feed. -/
def tail (line : CommentLine) : List Char :=
  line.content ++ if line.returns then ['\r'] else []

/-- The line as it is written, with its line feed. -/
def text (line : CommentLine) : List Char :=
  line.indent ++ '/' :: '/' :: (line.tail ++ ['\n'])

theorem newline_not_mem_tail (line : CommentLine) : '\n' ∉ line.tail := by
  have hcontent := line.newline_not_mem
  unfold tail
  split <;> simp [hcontent]

end CommentLine

end Written

namespace Declaration

/-- **What the pattern of a comment line reads.** -/
theorem exists_commentLine {c : Cursor} {found : Unit × Cursor}
    (h : found ∈ commentLine.outcomes c) :
    ∃ line : Written.CommentLine, c.Reads line.text found.2 := by
  obtain ⟨_, hpad, h⟩ := mem_outcomes_bind.1 h
  obtain ⟨pad, hpadding, hpad⟩ := reads_of_mem_outcomes_many hpad
  obtain ⟨_, hmark, h⟩ := mem_outcomes_bind.1 h
  have hmark := reads_of_mem_outcomes_word hmark
  obtain ⟨_, hline, h⟩ := mem_outcomes_bind.1 h
  obtain ⟨content, hmany, hline⟩ := reads_of_mem_outcomes_many hline
  obtain ⟨_, hreturn, h⟩ := mem_outcomes_bind.1 h
  have hend := reads_of_mem_outcomes_word h
  have hcr : '\r' ∉ content := fun hmem => by simpa using hmany _ hmem
  have hlf : '\n' ∉ content := fun hmem => by simpa using hmany _ hmem
  rcases mem_outcomes_optional.1 hreturn with ⟨_, -, hreturn⟩ | rfl
  · have hreturn := reads_of_mem_outcomes_word hreturn
    refine ⟨⟨pad, content, true, hpadding, hcr, hlf⟩, ?_⟩
    simpa [Written.CommentLine.text, Written.CommentLine.tail] using
      ((((hpad.append hmark).append hline).append hreturn).append hend)
  · refine ⟨⟨pad, content, false, hpadding, hcr, hlf⟩, ?_⟩
    simpa [Written.CommentLine.text, Written.CommentLine.tail] using
      (((hpad.append hmark).append hline).append hend)

/-- Reading one line that holds nothing but a comment. -/
def CommentLine (c c' : Cursor) : Prop :=
  ∃ pad line, (∀ x ∈ pad, isPadding x = true) ∧ '\n' ∉ line ∧
    c.Reads (pad ++ '/' :: '/' :: (line ++ ['\n'])) c'

theorem commentLine_of_mem_outcomes {c : Cursor} {found : Unit × Cursor}
    (h : found ∈ commentLine.outcomes c) : CommentLine c found.2 := by
  obtain ⟨line, hline⟩ := exists_commentLine h
  exact ⟨line.indent, line.tail, line.isPadding_of_mem, line.newline_not_mem_tail, hline⟩

/-- A run of line comments stands behind blanks at a line start: one comment line, then others. -/
theorem mem_outcomes_lineComments {c : Cursor} {found : LeadingComment × Cursor}
    (h : found ∈ lineComments.outcomes c) :
    ∃ b line next, (∀ x ∈ b, isBlank x = true) ∧ c.Reads b line ∧
      line.before.all (· == '\n') = true ∧ ((), next) ∈ commentLine.outcomes line ∧
      Relation.ReflTransGen (fun a a' => a' ∈ (commentLine.outcomes a).map Prod.snd) next found.2 ∧
      found.1 = .lines ⟨line, found.2⟩ := by
  obtain ⟨⟨⟨⟩, line⟩, hblanks, h⟩ := mem_outcomes_bind.1 h
  obtain ⟨b, hblank, hb⟩ := reads_of_mem_outcomes_many hblanks
  obtain ⟨_, hstart, h⟩ := mem_outcomes_bind.1 h
  obtain ⟨hbefore, rfl⟩ := mem_outcomes_lineStart.1 hstart
  obtain ⟨⟨run, stop⟩, hrun, h⟩ := mem_outcomes_bind.1 h
  rw [outcomes_pure, List.mem_singleton] at h
  subst h
  obtain ⟨hcapture, _, hrun⟩ := mem_outcomes_captured.1 hrun
  obtain ⟨⟨⟨⟩, next⟩, hfirst, hmore⟩ := mem_outcomes_bind.1 hrun
  obtain ⟨_, hstop, hmore⟩ := List.mem_map.1 hmore
  obtain rfl := (Prod.mk.inj hmore).2
  exact ⟨b, line, next, hblank, hb, hbefore, hfirst, mem_repeated hstop,
    congrArg LeadingComment.lines hcapture⟩

/-- A comment above a head is absent, or opens with the mark of a block comment behind blanks, or is
a run of comment lines behind blanks. -/
theorem mem_outcomes_leadingComment {c : Cursor} {found : Option LeadingComment × Cursor}
    (h : found ∈ leadingComment.outcomes c) :
    found = (none, c) ∨
      (∃ b s, (∀ x ∈ b, isBlank x = true) ∧ c.rest = b ++ '/' :: '*' :: s) ∨
      ∃ b mid, (∀ x ∈ b, isBlank x = true) ∧ c.Reads b mid ∧
        Relation.TransGen CommentLine mid found.2 := by
  rcases mem_outcomes_optional.1 h with ⟨comment, -, h⟩ | h
  · right
    rw [outcomes_orElse, List.mem_append] at h
    rcases h with h | h
    · obtain ⟨mid, hblanks, h⟩ := mem_outcomes_bind.1 h
      obtain ⟨b, hblank, hb⟩ := reads_of_mem_outcomes_many hblanks
      obtain ⟨t, ht⟩ := reads_of_mem_outcomes_word_bind h
      refine Or.inl ⟨b, '*' :: t ++ found.2.rest, hblank, ?_⟩
      rw [hb.1, ht.1]
      rfl
    · obtain ⟨b, line, next, hblank, hb, -, hfirst, hmore, -⟩ := mem_outcomes_lineComments h
      refine Or.inr ⟨b, line, hblank, hb, ?_⟩
      refine Relation.TransGen.head' (commentLine_of_mem_outcomes hfirst) ?_
      refine Relation.ReflTransGen.mono (fun a a' ha => ?_) _ _ hmore
      obtain ⟨found, hfound, rfl⟩ := List.mem_map.1 ha
      exact commentLine_of_mem_outcomes hfound
  · exact Or.inl h

/-- No comment begins with what is neither blank nor a slash. -/
theorem refuses_comment {t : List Char} (hblank : Stops isBlank t) (hslash : Stops (· == '/') t) :
    Refuses (blockComment <|> lineComments) t := by
  intro before
  refine List.eq_nil_iff_forall_not_mem.2 fun found hfound => ?_
  have hmem : (some found.1, found.2) ∈ leadingComment.outcomes ⟨before, t⟩ :=
    mem_outcomes_optional.2 (Or.inl ⟨found.1, rfl, hfound⟩)
  -- blanks are absent, and then a slash would have to follow
  have hnil : ∀ b s, (∀ x ∈ b, isBlank x = true) → t = b ++ '/' :: s → False := by
    intro b s hb ht
    cases b with
    | nil => simp [ht] at hslash
    | cons x b => simp [ht, hb x List.mem_cons_self] at hblank
  rcases mem_outcomes_leadingComment hmem with h | ⟨b, s, hb, hrest⟩ | ⟨b, mid, hb, hreads, hlines⟩
  · exact absurd (congrArg Prod.fst h) (by simp)
  · exact hnil b _ hb hrest
  · obtain ⟨next, ⟨pad, line, hpad, -, hline⟩, -⟩ := Relation.TransGen.head'_iff.1 hlines
    have hrest : t = (b ++ pad) ++ '/' :: '/' :: (line ++ ['\n'] ++ next.rest) := by
      rw [show t = _ from hreads.1, hline.1]
      simp
    refine hnil (b ++ pad) _ (fun x hx => ?_) hrest
    rcases List.mem_append.1 hx with hx | hx
    · exact hb x hx
    · exact isBlank_of_isPadding (hpad x hx)

end Declaration

/-! ### Calm texts -/

/-- Nothing that the pattern takes stands here, behind spaces and tabs or not. -/
def Pattern.NoHead {α : Type} (p : Pattern α) (rest : List Char) : Prop :=
  ∀ pad w, (∀ x ∈ pad, isPadding x = true) → rest = pad ++ w → Refuses p w

/-- No block comment opens in `s`, and what follows each head of a line in `s` has the property `Q`.
The character `before` stands before `s`, and `t` stands behind it. -/
def Calm (Q : List Char → Prop) : (before : Option Char) → (s t : List Char) → Prop
  | _, [], _ => True
  | before, x :: s, t =>
    ¬ ['/', '*'] <+: x :: (s ++ t) ∧ (before.all (· == '\n') = true → Q (x :: (s ++ t))) ∧
      Calm Q (some x) s t

section
variable {Q : List Char → Prop} {before : Option Char} {s t : List Char}

/-- Calm texts stand one behind the other. -/
theorem calm_append_iff {s' : List Char} :
    Calm Q before (s ++ s') t ↔
      Calm Q before s (s' ++ t) ∧ Calm Q (s.getLast?.or before) s' t := by
  induction s generalizing before with
  | nil => simp [Calm]
  | cons x s ih =>
      have hlast : (x :: s).getLast?.or before = s.getLast?.or (some x) := by
        rw [List.getLast?_cons]
        cases s.getLast? <;> rfl
      rw [List.cons_append, hlast]
      simp only [Calm, ih, List.append_assoc, and_assoc]

/-- A text without line feeds and slashes is calm if the head of its line is. -/
theorem calm_of_not_mem (hline : '\n' ∉ s) (hslash : '/' ∉ s)
    (hhead : before.all (· == '\n') = true → Q (s ++ t)) : Calm Q before s t := by
  induction s generalizing before with
  | nil => trivial
  | cons x s ih =>
      refine ⟨fun hopen => hslash ?_, hhead, ih (fun h => hline (List.mem_cons_of_mem x h))
        (fun h => hslash (List.mem_cons_of_mem x h)) fun hx => absurd hx ?_⟩
      · rw [(List.cons_prefix_cons.1 hopen).1]
        exact List.mem_cons_self
      · have hne : x ≠ '\n' := fun e => hline (e ▸ List.mem_cons_self)
        simpa using hne

/-- A line feed is calm if it ends a line that is not empty, or else if an empty line is. -/
theorem calm_newline_cons (hhead : before.all (· == '\n') = true → Q ('\n' :: (s ++ t)))
    (h : Calm Q (some '\n') s t) : Calm Q before ('\n' :: s) t :=
  ⟨fun hopen => absurd (List.cons_prefix_cons.1 hopen).1 (by decide), hhead, h⟩

/-- What a calm text says of a place in it. -/
theorem Calm.at_place {u v : List Char} (h : Calm Q before (u ++ v) t) (hv : v ≠ []) :
    ¬ ['/', '*'] <+: v ++ t ∧
      ((u.getLast?.or before).all (· == '\n') = true → Q (v ++ t)) := by
  obtain ⟨x, v, rfl⟩ := List.exists_cons_of_ne_nil hv
  obtain ⟨hopen, hhead, -⟩ := (calm_append_iff.1 h).2
  exact ⟨hopen, hhead⟩

end

/-- The text ends with a line feed, and the line that it ends holds no slash. -/
def EndsPlain (s : List Char) : Prop :=
  ∃ u line, s = u ++ (line ++ ['\n']) ∧ '/' ∉ line ∧ '\n' ∉ line ∧
    u.getLast?.all (· == '\n') = true

/-- No slash follows, nor does one follow behind blanks. -/
def PlainAhead (t : List Char) : Prop :=
  Stops (· == '/') (t.dropWhile isBlank)

theorem PlainAhead.ne {t b s : List Char} (ht : PlainAhead t) (hb : ∀ x ∈ b, isBlank x = true) :
    t ≠ b ++ '/' :: s := by
  rintro rfl
  have hslash : isBlank '/' = false := by decide
  simp [PlainAhead, List.dropWhile_append_of_pos hb, hslash] at ht

/-! ### Nothing is found in a calm text -/

/-- There is one first occurrence of a mark. -/
theorem cut_unique {mark : Char} {l l' r r' : List Char} (hl : mark ∉ l) (hl' : mark ∉ l')
    (h : l ++ mark :: r = l' ++ mark :: r') : l = l' ∧ r = r' := by
  rcases List.append_eq_append_iff.1 h with ⟨more, rfl, hmore⟩ | ⟨more, rfl, hmore⟩
  · cases more with
    | nil => simpa using hmore
    | cons x more =>
        obtain ⟨rfl, -⟩ := List.cons.inj hmore
        exact absurd (by simp) hl'
  · cases more with
    | nil => simpa [eq_comm] using hmore
    | cons x more =>
        obtain ⟨rfl, -⟩ := List.cons.inj hmore
        exact absurd (by simp) hl

section
variable {seg t : List Char} {before : Option Char}

/-- A place of the text `seg` that does not lie behind its last character; `before` stands before
the text and `t` behind it. -/
def PlaceIn (before : Option Char) (seg t : List Char) (c : Cursor) : Prop :=
  ∃ u v, seg = u ++ v ∧ v ≠ [] ∧ c = ⟨u.getLast?.or before, v ++ t⟩

/-- Reading a part of the text leads to another place of it. -/
theorem PlaceIn.of_reads {u s v : List Char} {c' : Cursor} (hseg : seg = u ++ (s ++ v))
    (hv : v ≠ []) (hreads : Cursor.Reads ⟨u.getLast?.or before, s ++ v ++ t⟩ s c') :
    PlaceIn before seg t c' := by
  refine ⟨u ++ s, v, by rw [hseg, List.append_assoc], hv, ?_⟩
  have hrest : c'.rest = v ++ t := by
    have h : s ++ v ++ t = s ++ c'.rest := hreads.1
    rw [List.append_assoc] at h
    exact (List.append_cancel_left h).symm
  have hbefore : c'.before = (u ++ s).getLast?.or before := by
    rw [hreads.2, getLast?_append_or]
  rw [← hrest, ← hbefore]

/-- Comment lines do not lead out of a text whose last line is no comment. -/
theorem PlaceIn.commentLine (hend : EndsPlain seg) {c c' : Cursor} (hplace : PlaceIn before seg t c)
    (hline : Declaration.CommentLine c c') : PlaceIn before seg t c' := by
  obtain ⟨u, v, hseg, hv, rfl⟩ := hplace
  obtain ⟨pad, comment, hpad, hcomment, hreads⟩ := hline
  obtain ⟨start, last, hend, hslash, hnewline, hstart⟩ := hend
  let line := pad ++ '/' :: '/' :: comment
  have hline : '\n' ∉ line := by
    have hpad' : '\n' ∉ pad := fun h => absurd (hpad _ h) (by decide)
    simp [line, hpad', hcomment]
  -- the text ends with a line feed, so the comment's line feed lies in it
  have hmem : '\n' ∈ v := by
    refine List.mem_of_getLast? ?_
    have hlast : seg.getLast? = some '\n' := by
      rw [hend, ← List.append_assoc, List.getLast?_concat]
    rw [hseg, List.getLast?_append] at hlast
    obtain ⟨x, hx⟩ := Option.isSome_iff_exists.1 (List.getLast?_isSome.2 hv)
    rw [hx] at hlast ⊢
    simpa using hlast
  obtain ⟨l, v', rfl, hl⟩ := List.eq_append_cons_of_mem hmem
  have hrest : l ++ '\n' :: (v' ++ t) = line ++ '\n' :: c'.rest := by
    have h := hreads.1
    simpa [line] using h
  obtain ⟨rfl, -⟩ := cut_unique hl hline hrest
  have hsplit : line ++ '\n' :: v' = (pad ++ '/' :: '/' :: (comment ++ ['\n'])) ++ v' := by
    simp [line]
  rw [hsplit] at hseg hreads
  refine PlaceIn.of_reads hseg (fun hempty => ?_) hreads
  -- else the comment would be the last line
  subst hempty
  have hlines : u ++ line = start ++ last := by
    have h := hend.symm.trans hseg
    have h' : (start ++ last) ++ ['\n'] = (u ++ line) ++ ['\n'] := by simpa [line] using h
    exact (List.append_cancel_right h').symm
  have hin : '/' ∈ line := by simp [line]
  rcases List.append_eq_append_iff.1 hlines with ⟨more, rfl, hmore⟩ | ⟨more, -, hmore⟩
  · cases hgl : more.getLast? with
    | none =>
        rw [List.getLast?_eq_none_iff] at hgl
        rw [hmore, hgl] at hin
        exact hslash hin
    | some x =>
        rw [List.getLast?_append, hgl] at hstart
        have hx : x = '\n' := by simpa using hstart
        exact hline (hmore ▸ List.mem_append_left last (hx ▸ List.mem_of_getLast? hgl))
  · exact hslash (hmore ▸ List.mem_append_right more hin)

theorem PlaceIn.commentLines (hend : EndsPlain seg) {c c' : Cursor}
    (hplace : PlaceIn before seg t c)
    (hlines : Relation.ReflTransGen Declaration.CommentLine c c') : PlaceIn before seg t c' := by
  induction hlines with
  | refl => exact hplace
  | tail _ hline ih => exact ih.commentLine hend hline

variable {α : Type} {p : Pattern α}

/-- **No find begins in a calm text**, also none whose head would stand behind it. -/
theorem outcomes_header_eq_nil (hcalm : Calm (NoHead p) before seg t) (hend : EndsPlain seg)
    (ht : PlainAhead t) {c : Cursor} (hplace : PlaceIn before seg t c) :
    (Declaration.header p).outcomes c = [] := by
  refine List.eq_nil_iff_forall_not_mem.2 fun found hfound => ?_
  obtain ⟨mid, hcomment, hmid, pad, hpad, hreads, hparts⟩ := mem_outcomes_header hfound
  -- the comment, if there is one, ends in the text
  have hinside : PlaceIn before seg t mid := by
    rcases Declaration.mem_outcomes_leadingComment hcomment with
      h | ⟨b, s, hb, hrest⟩ | ⟨b, first, hb, hblanks, hlines⟩
    · obtain rfl : mid = c := congrArg Prod.snd h
      exact hplace
    · exfalso
      obtain ⟨u, v, rfl, hv, rfl⟩ := hplace
      rcases List.append_eq_append_iff.1 hrest with ⟨more, rfl, hmore⟩ | ⟨more, rfl, hmore⟩
      · exact ht.ne (fun x hx => hb x (List.mem_append_right v hx)) hmore
      · cases more with
        | nil => exact ht.ne (b := []) (by simp) hmore.symm
        | cons x more =>
            rw [← List.append_assoc] at hcalm
            refine (hcalm.at_place (List.cons_ne_nil x more)).1 ?_
            rw [← hmore]
            exact ⟨s, rfl⟩
    · obtain ⟨next, hnext, hmore⟩ := Relation.TransGen.head'_iff.1 hlines
      have hfirst : PlaceIn before seg t first := by
        obtain ⟨u, v, rfl, hv, rfl⟩ := hplace
        obtain ⟨pad, line, hpad, -, hline⟩ := hnext
        have hrest : v ++ t = b ++ (pad ++ '/' :: '/' :: (line ++ ['\n'] ++ next.rest)) := by
          rw [show v ++ t = _ from hblanks.1, hline.1]
          simp
        have hblank : ∀ more, (∀ x ∈ more, isBlank x = true) →
            t ≠ more ++ (pad ++ '/' :: '/' :: (line ++ ['\n'] ++ next.rest)) := by
          intro more hmore
          rw [← List.append_assoc]
          refine ht.ne fun x hx => ?_
          rcases List.mem_append.1 hx with hx | hx
          · exact hmore x hx
          · exact isBlank_of_isPadding (hpad x hx)
        rcases List.append_eq_append_iff.1 hrest with ⟨more, rfl, hmore⟩ | ⟨more, rfl, hmore⟩
        · exact absurd hmore (hblank more fun x hx => hb x (List.mem_append_right v hx))
        · refine PlaceIn.of_reads rfl (fun hempty => ?_) hblanks
          subst hempty
          exact absurd hmore.symm (hblank [] (by simp))
      exact (hfirst.commentLine hend hnext).commentLines hend hmore
  obtain ⟨u, v, rfl, hv, rfl⟩ := hinside
  have hrefuses := (hcalm.at_place hv).2 hmid pad _ hpad hreads.1
  rw [hrefuses] at hparts
  exact absurd hparts List.not_mem_nil

/-- **A scan passes over a calm text.** -/
theorem scan_calm (resume : Find (Declaration.Header α) → Nat) (pos : Nat)
    (hcalm : Calm (NoHead p) before seg t) (hend : EndsPlain seg) (ht : PlainAhead t) :
    scan (Declaration.header p) resume pos 0 before (seg ++ t) =
      scan (Declaration.header p) resume (pos + seg.length) 0 (seg.getLast?.or before) t := by
  -- induction on what is left of the text; `u` is what the scan has passed
  suffices h : ∀ v u, seg = u ++ v →
      scan (Declaration.header p) resume (pos + u.length) 0 (u.getLast?.or before) (v ++ t) =
        scan (Declaration.header p) resume (pos + seg.length) 0 (seg.getLast?.or before) t from
    h seg [] rfl
  intro v
  induction v with
  | nil =>
      rintro u rfl
      simp
  | cons x v ih =>
      intro u hseg
      have hplace : PlaceIn before seg t ⟨u.getLast?.or before, x :: v ++ t⟩ :=
        ⟨u, x :: v, hseg, List.cons_ne_nil x v, rfl⟩
      have hnone : (Declaration.header p).first? ⟨u.getLast?.or before, x :: (v ++ t)⟩ = none := by
        rw [first?, ← List.cons_append, outcomes_header_eq_nil hcalm hend ht hplace]
        rfl
      have hnext := ih (u ++ [x]) (by simp [hseg])
      rw [List.length_append, List.getLast?_concat, List.length_singleton, ← Nat.add_assoc] at hnext
      rw [List.cons_append, scan, hnone]
      exact hnext

end

/-! ### Heads that are found -/

section
variable {α : Type} {p : Pattern α} {resume : Find α → Nat}

/-- What is to be skipped is skipped. -/
theorem scan_skip (pos : Nat) (before : Option Char) (s t : List Char) :
    scan p resume pos s.length before (s ++ t) =
      scan p resume (pos + s.length) 0 (s.getLast?.or before) t := by
  induction s generalizing pos before with
  | nil => rfl
  | cons x s ih =>
      rw [List.length_cons, List.cons_append, scan, ih, List.getLast?_cons]
      cases s.getLast? with
      | none => simp [Nat.add_assoc, Nat.add_comm 1]
      | some y => simp [Nat.add_assoc, Nat.add_comm 1]

/-- After a find the scan goes on behind `s` if it is told to. -/
theorem scan_find (pos : Nat) {before : Option Char} {rest s t : List Char} {value : α}
    {stop : Cursor} (hrest : rest = s ++ t) (hs : s ≠ [])
    (h : p.first? ⟨before, rest⟩ = some (value, stop))
    (hresume : resume ⟨pos, ⟨before, rest⟩, stop, value⟩ = pos + s.length) :
    scan p resume pos 0 before rest =
      ⟨pos, ⟨before, rest⟩, stop, value⟩ ::
        scan p resume (pos + s.length) 0 (s.getLast?.or before) t := by
  obtain ⟨x, s, rfl⟩ := List.exists_cons_of_ne_nil hs
  subst hrest
  rw [List.cons_append] at h hresume ⊢
  have hskip : pos + (x :: s).length - (pos + 1) = s.length := by
    rw [List.length_cons]
    omega
  have hlast : (x :: s).getLast?.or before = s.getLast?.or (some x) := by
    rw [List.getLast?_cons]
    cases s.getLast? <;> rfl
  rw [scan_of_first? h, hresume, hskip, scan_skip, hlast, List.length_cons, Nat.add_assoc,
    Nat.add_comm 1]

end

/-- Nothing is found at the end of a text. -/
theorem scan_header_nil {α : Type} {p : Pattern α} {test : Char → Bool} (hp : Opens p test)
    (resume : Find (Declaration.Header α) → Nat) (pos : Nat) (before : Option Char) :
    scan (Declaration.header p) resume pos 0 before [] = [] := by
  have hnone : (Declaration.header p).first? ⟨before, []⟩ = none := by
    refine List.head?_eq_none_iff.2 (List.eq_nil_iff_forall_not_mem.2 fun found hfound => ?_)
    obtain ⟨⟨s, hs⟩, hparts⟩ := reads_of_mem_outcomes_header hfound
    obtain ⟨x, t, -, ht⟩ := hp _ _ hparts
    have hempty := hs.1
    rw [ht.1] at hempty
    exact absurd hempty (by simp)
  simp only [scan, hnone]

/-- A head that stands at the head of a line is found there; no comment belongs to it. -/
theorem first?_header {α : Type} {p : Pattern α} {P : α → Prop} {s t : List Char}
    (hp : Takes p s t P) {before : Option Char} (hbefore : before.all (· == '\n') = true)
    (hblank : Stops isBlank (s ++ t)) (hslash : Stops (· == '/') (s ++ t)) :
    ∃ parts, P parts ∧ (Declaration.header p).first? ⟨before, s ++ t⟩ =
      some (⟨none, ⟨before, s ++ t⟩, parts⟩, ⟨s.getLast?.or before, t⟩) := by
  let start : Cursor := ⟨before, s ++ t⟩
  obtain ⟨parts, hparts, hfirst⟩ := hp before
  have hcomment : Declaration.leadingComment.first? start = some (none, start) := by
    obtain ⟨_, rfl, h⟩ := (Declaration.refuses_comment hblank hslash).optional before
    exact h
  have hlineStart : lineStart.first? start = some ((), start) := by
    simp [first?, lineStart, outcomes_edge, start, hbefore]
  have hpadding : padding.first? start = some ((), start) := by
    have hstops : Stops isPadding (s ++ t) := hblank.mono fun x hx => isBlank_of_isPadding hx
    obtain ⟨_, -, h⟩ := takes_many (s := []) (by simp) hstops before
    exact h
  have hhere : here.first? start = some (start, start) := by
    simp [first?, here, outcomes_captured]
  exact ⟨parts, hparts, first?_bind hcomment (first?_bind hlineStart (first?_bind hpadding
    (first?_bind hhere (first?_bind hfirst rfl))))⟩

end SourceOutline
