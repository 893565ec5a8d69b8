/-
**Heads are found without their comments.**

The pattern of a head takes in the comment above it, so a find may begin many lines before its
head, in blanks and lines through which a search for the head alone would still go on.  In a text in
which no block comment opens this makes no difference.  What a comment takes in are blanks up to the
start of a line and whole lines that are comments.  No head begins at one of these lines, so nothing
is passed over, and both searches come upon the same heads, one after the other.

Main definitions:

* `Declaration.FreeUpTo` — no head begins a line between an offset and a place;
* `Pattern.Find.ends` — where a head begins and where it ends.

Main results:

* `Declaration.FreeUpTo.blanks`, `Declaration.FreeUpTo.commentLine` — no head begins in blanks up to
  a line start, nor in a comment line;
* `Declaration.FreeUpTo.leadingComment` — hence none begins in the comment above a head;
* `Pattern.Find.FirstFrom.bare`, `Pattern.Searches.bare` — the next find, and the whole search;
* `heads_without_comments` — **the comments do not change which heads are found**.
-/

import SourceOutline.Proofs.Heads
import SourceOutline.Proofs.LeadingNewlines
import SourceOutline.Proofs.MethodSearch
import Mathlib.Data.List.TakeWhile

set_option autoImplicit false

namespace SourceOutline

open Text Pattern

/-! ### Places between two places -/

namespace Pattern

/-- A place that lies before the end of what is read divides it. -/
theorem Cursor.StandsAt.divides {c c' d : Cursor} {text s : List Char} {a k : Nat}
    (hc : c.StandsAt text a) (hreads : c.Reads s c') (hd : d.StandsAt text k) (hle : a ≤ k)
    (hlt : k < a + s.length) :
    ∃ u v, s = u ++ v ∧ v ≠ [] ∧ d = ⟨u.getLast?.or c.before, v ++ c'.rest⟩ := by
  have hlength : (s.take (k - a)).length = k - a := List.length_take_of_le (by omega)
  have hplace : c.Reads (s.take (k - a))
      ⟨(s.take (k - a)).getLast?.or c.before, s.drop (k - a) ++ c'.rest⟩ :=
    ⟨by rw [hreads.1, ← List.append_assoc, List.take_append_drop], rfl⟩
  have hstands := hc.reads hplace
  rw [hlength, Nat.add_sub_cancel' hle] at hstands
  refine ⟨s.take (k - a), s.drop (k - a), (List.take_append_drop _ _).symm, fun hnil => ?_,
    hd.unique hstands⟩
  have := List.drop_eq_nil_iff.1 hnil
  omega

end Pattern

/-! ### Lines that no head begins -/

namespace Printed

/-- A line of blanks has no first word. -/
theorem firstWord_blank {v : List Char} (hblank : ∀ x ∈ v, isBlank x = true)
    (hlast : v.getLast? = some '\n') (t : List Char) : firstWord (v ++ t) = [] := by
  obtain ⟨line, rfl⟩ := List.getLast?_eq_some_iff.1 hlast
  rw [List.append_assoc, List.singleton_append, firstWord_line]
  refine List.eq_nil_iff_forall_not_mem.2 fun x hx => ?_
  have hpart : isIdentPart x = true := List.mem_takeWhile_imp hx
  have hmem : x ∈ line :=
    (List.dropWhile_sublist _).subset ((List.takeWhile_sublist _).subset hx)
  have hx' := hblank x (List.mem_append_left _ hmem)
  rw [isBlank_eq_false_of_isIdentPart hpart] at hx'
  exact absurd hx' (by decide)

/-- A comment line has no first word. -/
theorem firstWord_comment {indent : List Char} (hindent : ∀ x ∈ indent, isPadding x = true)
    (t : List Char) : firstWord (indent ++ '/' :: t) = [] := by
  have hpad : ¬ isPadding '/' = true := by decide
  have hpart : ¬ isIdentPart '/' = true := by decide
  rw [firstWord, List.dropWhile_append_of_pos hindent, List.dropWhile_cons_of_neg hpad,
    List.takeWhile_cons_of_neg hpart]

end Printed

/-- Where a line has no first word, no head begins it. -/
theorem Pattern.noHead_of_firstWord_eq_nil {α : Type} {p : Pattern α} (hword : Announces p)
    {rest : List Char} (h : Printed.firstWord rest = []) : NoHead p rest :=
  noHead_of_firstWord hword (h ▸ Printed.nil_not_mem_declarationWords)

namespace Declaration

section
variable {α : Type} {p : Pattern α} {text : List Char} {a : Nat} {c c' : Cursor}

/-- A head with a comment is a comment, if there is one, and then a head. -/
theorem header_eq_bind (p : Pattern α) : header p = leadingComment >>= headOfLine p := rfl

/-- What is found without a comment is also found by the pattern that may take one in. -/
theorem mem_outcomes_header_of_headOfLine {found : Header α × Cursor}
    (h : found ∈ (headOfLine p none).outcomes c) : found ∈ (header p).outcomes c := by
  rw [outcomes_header]
  exact List.mem_append_right _ h

/-- A head without a comment begins a line, perhaps indented. -/
theorem mem_outcomes_headOfLine {found : Header α × Cursor}
    (h : found ∈ (headOfLine p none).outcomes c) :
    c.before.all (· == '\n') = true ∧ ∃ pad, (∀ x ∈ pad, isPadding x = true) ∧
      c.Reads pad found.1.start ∧ (found.1.parts, found.2) ∈ p.outcomes found.1.start := by
  have hnone : found.1.comment = none := by
    rw [outcomes_headOfLine] at h
    obtain ⟨_, -, rfl⟩ := List.mem_map.1 h
    rfl
  obtain ⟨mid, hcomment, hbefore, pad, hpad⟩ :=
    mem_outcomes_header (mem_outcomes_header_of_headOfLine h)
  rw [hnone] at hcomment
  obtain rfl : mid = c :=
    congrArg Prod.snd ((mem_outcomes_optional.1 hcomment).resolve_left (by simp))
  exact ⟨hbefore, pad, hpad⟩

theorem outcomes_headOfLine_of_not_lineStart (h : ¬ c.before.all (· == '\n') = true) :
    (headOfLine p none).outcomes c = [] :=
  List.eq_nil_iff_forall_not_mem.2 fun _ hfound => h (mem_outcomes_headOfLine hfound).1

theorem outcomes_headOfLine_of_noHead (h : NoHead p c.rest) :
    (headOfLine p none).outcomes c = [] := by
  refine List.eq_nil_iff_forall_not_mem.2 fun found hfound => ?_
  obtain ⟨-, pad, hpad, hreads, hparts⟩ := mem_outcomes_headOfLine hfound
  rw [h pad _ hpad hreads.1 found.1.start.before] at hparts
  exact absurd hparts List.not_mem_nil

/-! ### Comments above heads -/

/-- No head begins a line from the offset `a` up to the place `c`. -/
def FreeUpTo (p : Pattern α) (text : List Char) (a : Nat) (c : Cursor) : Prop :=
  ∃ b, a ≤ b ∧ c.StandsAt text b ∧
    ∀ d k, Cursor.StandsAt d text k → a ≤ k → k < b → (headOfLine p none).outcomes d = []

theorem FreeUpTo.here (h : c.StandsAt text a) : FreeUpTo p text a c :=
  ⟨a, Nat.le_refl a, h, fun _ _ _ hle hlt => absurd hlt (Nat.not_lt.2 hle)⟩

/-- Reading on past no head. -/
theorem FreeUpTo.reads {s : List Char} (h : FreeUpTo p text a c) (hreads : c.Reads s c')
    (hfree : ∀ u v, s = u ++ v → v ≠ [] →
      (headOfLine p none).outcomes ⟨u.getLast?.or c.before, v ++ c'.rest⟩ = []) :
    FreeUpTo p text a c' := by
  obtain ⟨b, hle, hc, hbefore⟩ := h
  refine ⟨b + s.length, by omega, hc.reads hreads, fun d k hd hak hk => ?_⟩
  by_cases hkb : k < b
  · exact hbefore d k hd hak hkb
  · obtain ⟨u, v, hs, hv, rfl⟩ := hc.divides hreads hd (Nat.not_lt.1 hkb) hk
    exact hfree u v hs hv

/-- **Blanks up to a line start hold no head.** -/
theorem FreeUpTo.blanks (hword : Announces p) (h : FreeUpTo p text a c) {b : List Char}
    (hblank : ∀ x ∈ b, isBlank x = true) (hreads : c.Reads b c')
    (hline : c'.before.all (· == '\n') = true) : FreeUpTo p text a c' := by
  refine h.reads hreads fun u v hb hv => outcomes_headOfLine_of_noHead ?_
  -- a line start behind blanks stands behind a line feed
  have hlast : v.getLast? = some '\n' := by
    obtain ⟨x, hx⟩ := Option.isSome_iff_exists.1 (List.getLast?_isSome.2 hv)
    have hbefore := hreads.2
    rw [hb, List.getLast?_append, hx] at hbefore
    rw [hbefore] at hline
    rw [hx, show x = '\n' by simpa using hline]
  refine noHead_of_firstWord_eq_nil hword (Printed.firstWord_blank (fun x hx => ?_) hlast _)
  exact hblank x (hb ▸ List.mem_append_right u hx)

/-- **A comment line holds no head**: it does not begin with one, and no other line begins in it. -/
theorem FreeUpTo.commentLine (hword : Announces p) (h : FreeUpTo p text a c)
    {line : Written.CommentLine} (hreads : c.Reads line.text c') : FreeUpTo p text a c' := by
  refine h.reads hreads fun u v hline hv => ?_
  cases hu : u.getLast? with
  | none =>
      rw [List.getLast?_eq_none_iff] at hu
      rw [hu, List.nil_append] at hline
      refine outcomes_headOfLine_of_noHead (noHead_of_firstWord_eq_nil hword ?_)
      simp only [← hline, Written.CommentLine.text, List.append_assoc, List.cons_append]
      exact Printed.firstWord_comment line.isPadding_of_mem _
  | some x =>
      obtain ⟨v, y, rfl⟩ := (List.eq_nil_or_concat v).resolve_left hv
      have htext : (line.indent ++ '/' :: '/' :: line.tail) ++ ['\n'] = (u ++ v) ++ [y] := by
        simpa [Written.CommentLine.text] using hline
      obtain ⟨hstart, -⟩ := List.append_inj' htext rfl
      have hmem : x ∈ line.indent ++ '/' :: '/' :: line.tail :=
        hstart ▸ List.mem_append_left v (List.mem_of_getLast? hu)
      refine outcomes_headOfLine_of_not_lineStart fun hbefore => ?_
      obtain rfl : x = '\n' := by simpa using hbefore
      simp only [List.mem_append, List.mem_cons] at hmem
      rcases hmem with hmem | hmem | hmem | hmem
      · exact absurd (line.isPadding_of_mem _ hmem) (by decide)
      · exact absurd hmem (by decide)
      · exact absurd hmem (by decide)
      · exact line.newline_not_mem_tail hmem

theorem FreeUpTo.commentLines (hword : Announces p) (h : FreeUpTo p text a c)
    (hlines : Relation.ReflTransGen
      (fun d d' => d' ∈ (Declaration.commentLine.outcomes d).map Prod.snd) c c') :
    FreeUpTo p text a c' := by
  induction hlines with
  | refl => exact h
  | tail _ hline ih =>
      obtain ⟨found, hfound, rfl⟩ := List.mem_map.1 hline
      obtain ⟨line, hreads⟩ := exists_commentLine hfound
      exact ih.commentLine hword hreads

/-- The mark of a block comment stands where one was read. -/
theorem exists_mark_of_mem_outcomes_blockComment {found : LeadingComment × Cursor}
    (h : found ∈ blockComment.outcomes c) : "/**".toList <:+: c.rest := by
  obtain ⟨_, hblanks, h⟩ := mem_outcomes_bind.1 h
  obtain ⟨b, -, hb⟩ := reads_of_mem_outcomes_many hblanks
  obtain ⟨t, ht⟩ := reads_of_mem_outcomes_word_bind h
  exact ⟨b, t ++ found.2.rest, by rw [hb.1, ht.1]; simp⟩

/-- **The comment above a head holds no head**, if no block comment opens in the text. -/
theorem FreeUpTo.leadingComment (hword : Announces p) (hopen : ¬ "/**".toList <:+: text)
    (hc : c.StandsAt text a) {comment : Option LeadingComment}
    (h : (comment, c') ∈ Declaration.leadingComment.outcomes c) : FreeUpTo p text a c' := by
  rcases mem_outcomes_optional.1 h with ⟨comment, -, h⟩ | h
  · rw [outcomes_orElse, List.mem_append] at h
    rcases h with h | h
    · have hmark := exists_mark_of_mem_outcomes_blockComment h
      rw [hc.rest_eq] at hmark
      exact absurd (hmark.trans (List.drop_suffix a text).isInfix) hopen
    · obtain ⟨b, line, next, hblank, hb, hbefore, hfirst, hmore, -⟩ := mem_outcomes_lineComments h
      obtain ⟨first, hreads⟩ := exists_commentLine hfirst
      have hline := (FreeUpTo.here hc).blanks hword hblank hb hbefore
      exact (hline.commentLine hword hreads).commentLines hword hmore
  · obtain rfl : c' = c := congrArg Prod.snd h
    exact FreeUpTo.here hc

end

/-! ### The search -/

section
variable {α : Type} {p : Pattern α}

theorem advances_headOfLine (hp : Opens p (!isBlank ·)) : Advances (headOfLine p none) :=
  fun c found hfound => advances_header hp c found (mem_outcomes_header_of_headOfLine hfound)

/-- Where no head is found with its comment, none is found without. -/
theorem first?_headOfLine_eq_none {c : Cursor} (h : (header p).first? c = none) :
    (headOfLine p none).first? c = none := by
  rw [first?, List.head?_eq_none_iff, outcomes_header, List.append_eq_nil_iff] at h
  rw [first?, h.2]
  rfl

/-- The head of a find is found at its line without the comment. -/
theorem exists_first?_headOfLine {c : Cursor} {found : Header α × Cursor}
    (h : (header p).first? c = some found) :
    ∃ comment line bare, (comment, line) ∈ leadingComment.outcomes c ∧
      (headOfLine p none).first? line = some (bare, found.2) ∧ bare.start = found.1.start := by
  rw [header_eq_bind] at h
  obtain ⟨⟨comment, line⟩, hcomment, hfirst⟩ := first?_bind_eq_some h
  rw [first?, outcomes_headOfLine, List.head?_map, Option.map_eq_some_iff] at hfirst
  obtain ⟨bare, hbare, rfl⟩ := hfirst
  exact ⟨comment, line, bare.1, hcomment, hbare, rfl⟩

end

end Declaration

/-- Where a head begins and where it ends. -/
def Pattern.Find.ends {α : Type} (find : Find (Declaration.Header α)) : Nat × Nat :=
  (find.headOffset, find.stopOffset)

namespace Pattern

variable {α : Type} {p : Pattern α} {text : List Char} {pos : Nat}

/-- Heads with the same ends begin and end at the same offsets. -/
theorem Find.ends_congr {f g : Find (Declaration.Header α)} (hf : f.start.StandsAt text f.offset)
    (hfound : (f.value, f.stop) ∈ (Declaration.header p).outcomes f.start)
    (hg : g.start.StandsAt text g.offset)
    (hfound' : (g.value, g.stop) ∈ (Declaration.header p).outcomes g.start)
    (hstart : f.value.start = g.value.start) (hstop : f.stop = g.stop) : f.ends = g.ends := by
  have hhead := (Find.placed hf hfound).headsLine.standsAt
  have hend := Find.standsAt_stopOffset hf hfound
  rw [hstart] at hhead
  rw [hstop] at hend
  exact Prod.ext (hhead.offset_unique (Find.placed hg hfound').headsLine.standsAt)
    (hend.offset_unique (Find.standsAt_stopOffset hg hfound'))

/-- A scan for a pattern that is never empty is a search. -/
theorem searches_findAll (hp : Advances p) (text : List Char) :
    Searches p Find.stopOffset text 0 (findAll p text) := by
  refine searches_scan (fun find _ hfirst => ?_) (Cursor.standsAt_ofText text) 0
  have hlt : find.stop.rest.length < find.start.rest.length := hp _ _ (List.mem_of_head? hfirst)
  rw [Find.stopOffset, Cursor.gap]
  omega

/-- **The next head is the same without comments.** -/
theorem Find.FirstFrom.bare (hword : Announces p) (hopen : ¬ "/**".toList <:+: text)
    {find : Find (Declaration.Header α)} (h : find.FirstFrom (Declaration.header p) text pos) :
    ∃ bare : Find (Declaration.Header α),
      bare.FirstFrom (Declaration.headOfLine p none) text pos ∧ bare.ends = find.ends := by
  obtain ⟨comment, line, value, hcomment, hfirst, hstart⟩ :=
    Declaration.exists_first?_headOfLine h.first?_eq
  obtain ⟨offset, hle, hline, hfree⟩ :=
    Declaration.FreeUpTo.leadingComment hword hopen h.standsAt hcomment
  let bare : Find (Declaration.Header α) := ⟨offset, line, find.stop, value⟩
  refine ⟨bare, ⟨Nat.le_trans h.le_offset hle, hline, hfirst, fun c k hc hpos hk => ?_⟩, ?_⟩
  · by_cases hbefore : k < find.offset
    · exact Declaration.first?_headOfLine_eq_none (h.nothing_nearer c k hc hpos hbefore)
    · rw [first?, hfree c k hc (Nat.not_lt.1 hbefore) hk]
      rfl
  · have hbare := Declaration.mem_outcomes_header_of_headOfLine (List.mem_of_head? hfirst)
    exact Find.ends_congr hline hbare h.standsAt (List.mem_of_head? h.first?_eq) hstart rfl

/-- **The whole search is the same without comments.** -/
theorem Searches.bare (hword : Announces p) (hopen : ¬ "/**".toList <:+: text)
    {finds : List (Find (Declaration.Header α))}
    (h : Searches (Declaration.header p) Find.stopOffset text pos finds) :
    ∃ bares, Searches (Declaration.headOfLine p none) Find.stopOffset text pos bares ∧
      bares.map Find.ends = finds.map Find.ends := by
  induction h with
  | done nothing =>
      exact ⟨[], .done fun c k hc hle =>
        Declaration.first?_headOfLine_eq_none (nothing c k hc hle), rfl⟩
  | step next _ ih =>
      obtain ⟨bare, hnext, hends⟩ := next.bare hword hopen
      obtain ⟨bares, hsearch, hmap⟩ := ih
      have hstop : bare.stopOffset = _ := congrArg Prod.snd hends
      refine ⟨bare :: bares, .step hnext (hstop ▸ hsearch), ?_⟩
      rw [List.map_cons, List.map_cons, hends, hmap]

theorem map_ends_findAll (hp : Opens p (!isBlank ·)) (hword : Announces p)
    (hopen : ¬ "/**".toList <:+: text) :
    (findAll (Declaration.header p) text).map Find.ends =
      (findAll (Declaration.headOfLine p none) text).map Find.ends := by
  obtain ⟨bares, hsearch, hmap⟩ :=
    (searches_findAll (Declaration.advances_header hp) text).bare hword hopen
  rw [← hmap, hsearch.unique (searches_findAll (Declaration.advances_headOfLine hp) text)]

end Pattern

/-- **The comments do not change which heads are found**, if no block comment opens in the text.
The heads of classes, and those of functions, that are found together with the comments above them
begin and end, one after the other, where those do that are found without. -/
theorem heads_without_comments (text : List Char) (hopen : ¬ "/**".toList <:+: text) :
    (findAll (Declaration.header Declaration.classHead) text).map Find.ends =
        (findAll (Declaration.headOfLine Declaration.classHead none) text).map Find.ends ∧
      (findAll (Declaration.header Declaration.functionHead) text).map Find.ends =
        (findAll (Declaration.headOfLine Declaration.functionHead none) text).map Find.ends :=
  ⟨map_ends_findAll opens_classHead announces_classHead hopen,
    map_ends_findAll opens_functionHead announces_functionHead hopen⟩

/-- A class and a function under comments; a comment stands among the parameters too. -/
theorem heads_without_comments_two :
    let text := ("\n// A\n  // box.\n  class Box \x7b\n\x7d\n// Adds.\nfunction add(a,\n" ++
      "// function sub(\nb) \x7b\n\x7d\n").toList
    let classes := findAll (Declaration.header Declaration.classHead) text
    let functions := findAll (Declaration.header Declaration.functionHead) text
    ¬ "/**".toList <:+: text ∧ classes.map Find.offset = [0] ∧ classes.map Find.ends = [(18, 29)] ∧
      functions.map Find.offset = [31] ∧ functions.map Find.ends = [(41, 78)] := by
  intro text classes functions
  have hopen : ¬ "/**".toList <:+: text := by decide +kernel
  obtain ⟨hclass, hfunction⟩ := heads_without_comments text hopen
  refine ⟨hopen, by decide +kernel, hclass.trans (by decide +kernel), by decide +kernel,
    hfunction.trans (by decide +kernel)⟩

end SourceOutline
