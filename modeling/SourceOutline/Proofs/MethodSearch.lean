/-
**The search for methods sees the body alone.**

The body of a class is searched again and again from a place in it: the next head is found, and the
search goes on behind the method, or behind the head if it gives none.  Each time it goes on further
behind, and never beyond the body, so it ends.

What stands around the body has no part in this.  A text before the body moves the positions of the
records by its characters and lines, and a text behind it changes nothing.

Main definitions:

* `Pattern.Find.FirstFrom` — the next find at or behind an offset;
* `Pattern.Searches` — **the search as a run**, one step for each find;
* `SourceFile.before` — a file whose text stands before another text.

Main results:

* `Pattern.Searches.unique`, `Pattern.searches_scan` — there is one run, and a scan lists it, if each
  step leads further on;
* `Declaration.searches_methodFinds` — the heads of methods are those of a search;
* `Declaration.methodFindings_before` — the text behind a body changes nothing;
* `methods_of_body` — **a body gives the same methods wherever it stands**.
-/

import SourceOutline.Proofs.MovedRecords

set_option autoImplicit false

namespace SourceOutline

open Text Pattern

/-! ### Searches -/

namespace Pattern

variable {α : Type} {p : Pattern α} {resume : Find α → Nat} {text : List Char}

/-- The find is the next one at or behind an offset of the text. -/
structure Find.FirstFrom (p : Pattern α) (text : List Char) (pos : Nat) (find : Find α) : Prop where
  le_offset : pos ≤ find.offset
  standsAt : find.start.StandsAt text find.offset
  first?_eq : p.first? find.start = some (find.value, find.stop)
  nothing_nearer : ∀ c k, c.StandsAt text k → pos ≤ k → k < find.offset → p.first? c = none

/-- A search from an offset on: the next find is listed and the search goes on where it leads, until
there is no further one. -/
inductive Searches (p : Pattern α) (resume : Find α → Nat) (text : List Char) :
    Nat → List (Find α) → Prop
  | done {pos : Nat} (nothing : ∀ c k, c.StandsAt text k → pos ≤ k → p.first? c = none) :
      Searches p resume text pos []
  | step {pos : Nat} {find : Find α} {finds : List (Find α)} (next : find.FirstFrom p text pos)
      (rest : Searches p resume text (resume find) finds) :
      Searches p resume text pos (find :: finds)

/-- There is one next find. -/
theorem Find.FirstFrom.unique {pos : Nat} {f g : Find α} (hf : f.FirstFrom p text pos)
    (hg : g.FirstFrom p text pos) : f = g := by
  -- neither can be nearer than the other
  have hle : ∀ {f g : Find α}, f.FirstFrom p text pos → g.FirstFrom p text pos →
      f.offset ≤ g.offset := by
    intro f g hf hg
    by_contra hlt
    have hnone := hf.nothing_nearer g.start g.offset hg.standsAt hg.le_offset (by omega)
    rw [hg.first?_eq] at hnone
    exact absurd hnone (by simp)
  have hoffset : f.offset = g.offset := Nat.le_antisymm (hle hf hg) (hle hg hf)
  have hstart : f.start = g.start := hf.standsAt.unique (hoffset ▸ hg.standsAt)
  have hfound := hf.first?_eq
  rw [hstart, hg.first?_eq] at hfound
  obtain ⟨offset, start, stop, value⟩ := f
  obtain ⟨offset', start', stop', value'⟩ := g
  simp_all

/-- There is one run from each offset. -/
theorem Searches.unique {pos : Nat} {fs gs : List (Find α)} (hf : Searches p resume text pos fs)
    (hg : Searches p resume text pos gs) : fs = gs := by
  induction hf generalizing gs with
  | done nothing =>
      cases hg with
      | done => rfl
      | step next rest =>
          have hnone := nothing _ _ next.standsAt next.le_offset
          rw [next.first?_eq] at hnone
          exact absurd hnone (by simp)
  | step next rest ih =>
      cases hg with
      | done nothing =>
          have hnone := nothing _ _ next.standsAt next.le_offset
          rw [next.first?_eq] at hnone
          exact absurd hnone (by simp)
      | step next' rest' =>
          obtain rfl := next.unique next'
          rw [ih rest']

/-- A search may begin one place earlier if nothing is found there. -/
theorem Searches.earlier {pos : Nat} {finds : List (Find α)} {c : Cursor}
    (hc : c.StandsAt text pos) (hnone : p.first? c = none)
    (h : Searches p resume text (pos + 1) finds) : Searches p resume text pos finds := by
  have hhere : ∀ d k, Cursor.StandsAt d text k → pos ≤ k → ¬ pos + 1 ≤ k → p.first? d = none := by
    intro d k hd hle hlt
    obtain rfl : pos = k := by omega
    rw [hd.unique hc]
    exact hnone
  cases h with
  | done nothing =>
      refine .done fun d k hd hle => ?_
      by_cases hlt : pos + 1 ≤ k
      · exact nothing d k hd hlt
      · exact hhere d k hd hle hlt
  | step next rest =>
      refine .step ⟨?_, next.standsAt, next.first?_eq, fun d k hd hle hk => ?_⟩ rest
      · have := next.le_offset
        omega
      · by_cases hlt : pos + 1 ≤ k
        · exact next.nothing_nearer d k hd hlt hk
        · exact hhere d k hd hle hlt

/-- A search behind the end of the text finds nothing. -/
theorem searches_beyond {pos : Nat} (h : text.length < pos) : Searches p resume text pos [] := by
  refine .done fun c k hc hle => ?_
  have := hc.le_length
  omega

/-- A pattern that is found at a place is the next find there. -/
theorem firstFrom_here {pos : Nat} {c stop : Cursor} {value : α} (hc : c.StandsAt text pos)
    (hfirst : p.first? c = some (value, stop)) :
    Find.FirstFrom p text pos ⟨pos, c, stop, value⟩ :=
  ⟨Nat.le_refl _, hc, hfirst, fun _ _ _ hle hlt => absurd hlt (Nat.not_lt.2 hle)⟩

/-- **A scan lists the run of the search**, if each find leads to a place behind its own. -/
theorem searches_scan
    (hforward : ∀ find : Find α, find.start.StandsAt text find.offset →
      p.first? find.start = some (find.value, find.stop) → find.offset < resume find)
    {pos : Nat} {before : Option Char} {rest : List Char}
    (hplace : Cursor.StandsAt ⟨before, rest⟩ text pos) (skip : Nat) :
    Searches p resume text (pos + skip) (scan p resume pos skip before rest) := by
  induction rest generalizing pos skip before with
  | nil =>
      have hend : text.length ≤ pos := List.drop_eq_nil_iff.1 hplace.rest_eq.symm
      cases skip with
      | succ skip => exact searches_beyond (by omega)
      | zero =>
          simp only [scan, Nat.add_zero]
          split
          · rename_i value stop hfirst
            have hlt := hforward ⟨pos, ⟨before, []⟩, stop, value⟩ hplace hfirst
            exact .step (firstFrom_here hplace hfirst) (searches_beyond (Nat.lt_of_le_of_lt hend hlt))
          · rename_i hnone
            exact Searches.earlier hplace hnone (searches_beyond (by omega))
  | cons x rest ih =>
      cases skip with
      | succ skip =>
          have hnext := ih hplace.next skip
          rw [Nat.add_right_comm, Nat.add_assoc] at hnext
          exact hnext
      | zero =>
          simp only [scan, Nat.add_zero]
          split
          · rename_i value stop hfirst
            let find : Find α := ⟨pos, ⟨before, x :: rest⟩, stop, value⟩
            have hlt : pos < resume find := hforward find hplace hfirst
            have hnext := ih hplace.next (resume find - (pos + 1))
            rw [Nat.add_sub_cancel' hlt] at hnext
            exact .step (firstFrom_here hplace hfirst) hnext
          · rename_i hnone
            exact Searches.earlier hplace hnone (ih hplace.next 0)

end Pattern

/-! ### Texts that stand before another -/

namespace Text

variable {text : List Char} (post : List Char)

theorem range_append_left {start stop : Nat} (hstop : stop ≤ text.length) :
    range (text ++ post) start stop = range text start stop := by
  rw [range_eq_drop_take, range_eq_drop_take, List.take_append_of_le_length hstop]

theorem slice_append_left {start stop : Nat} (hstart : start ≤ text.length)
    (hstop : stop ≤ text.length) :
    slice (text ++ post) (start : Int) (stop : Int) = slice text (start : Int) (stop : Int) := by
  have hle : text.length ≤ (text ++ post).length := by simp
  rw [slice_natCast _ _ _ hstart hstop, slice_natCast _ _ _ (by omega) (by omega),
    range_append_left post hstop]

theorem lineNumber_append_left {offset : Nat} (h : offset ≤ text.length) :
    lineNumber (text ++ post) offset = lineNumber text offset := by
  have hle : text.length ≤ (text ++ post).length := by simp
  rw [lineNumber, lineNumber, clamp_natCast, clamp_natCast, Nat.min_eq_left h,
    Nat.min_eq_left (by omega), List.take_append_of_le_length h]

end Text

namespace SourceFile

/-- The file whose text stands before another one. -/
def before (file : SourceFile) (post : List Char) : SourceFile :=
  ofText file.path (file.text ++ post)

variable (file : SourceFile) (post : List Char)

@[simp]
theorem before_path : (file.before post).path = file.path := rfl

@[simp]
theorem before_text : (file.before post).text = file.text ++ post := rfl

/-- The lines of a text are numbered as if it stood alone. -/
theorem lineOf_before {offset : Nat} (h : offset ≤ file.text.length) :
    (file.before post).lineOf offset = file.lineOf offset := by
  rw [lineOf_natCast, lineOf_natCast, before_text, lineNumber_append_left post h]

end SourceFile

namespace Declaration

/-- The heads of methods are those of the search, which ends. -/
theorem searches_methodFinds (body : List Char) :
    Searches (header methodHead) (resumeOffset body) body 0 (methodFinds body) :=
  searches_scan (fun _ hplace hfirst => (lt_resumeOffset hplace hfirst).1)
    (Cursor.standsAt_ofText body) 0

/-! ### The text behind a body -/

section
variable (file : SourceFile) (post : List Char) (className : String) {base : Nat}

/-- A method that ends within the text gives the same record before another text. -/
theorem methodElement_before {find : Find (Header MethodHead)} {close : Nat}
    (hhead : base + find.headOffset ≤ file.text.length) (hclose : base + close < file.text.length) :
    methodElement (file.before post) className base find close =
      methodElement file className base find close := by
  have hstart : (base : Int) + find.offsetOf find.value.start = (base + find.headOffset : Nat) := rfl
  have hstop : (base : Int) + close = (base + close : Nat) := rfl
  have hnext : ((base + close : Nat) : Int) + 1 = (base + close + 1 : Nat) := rfl
  simp only [methodElement, hstart, hstop, hnext, SourceFile.extent, SourceFile.before_path,
    SourceFile.before_text, slice_append_left post hhead (Nat.succ_le_of_lt hclose),
    SourceFile.lineOf_before file post hhead,
    SourceFile.lineOf_before file post (Nat.le_of_lt hclose)]

/-- A head that was found in a body gives the same before another text. -/
theorem methodFinding_before {body : List Char} (hbody : base + body.length ≤ file.text.length)
    {find : Find (Header MethodHead)} (hfind : find ∈ methodFinds body) :
    methodFinding (file.before post) className base body find =
      methodFinding file className base body find := by
  have hlt := ((placed_of_mem_methodFinds hfind).exists_last endsWith_methodHead).1
  obtain ⟨hplace, hmem⟩ := mem_methodFinds hfind
  have hlength := (Find.standsAt_stopOffset hplace hmem).le_length
  have hhead : base + find.headOffset ≤ file.text.length := by omega
  simp only [methodFinding]
  split
  · rfl
  · cases hclose : bodyEnd? body find with
    | none =>
        have hline : (file.before post).lineOf ((base : Int) + find.offsetOf find.value.start) =
            file.lineOf ((base : Int) + find.offsetOf find.value.start) :=
          SourceFile.lineOf_before file post hhead
        simp only [SourceFile.before_path, hline]
    | some close =>
        have hlt' := (closingBrace?_bounds hclose).2.1
        have hstop : base + close < file.text.length := by omega
        simp only [methodElement_before file post className hhead hstop]

/-- **The text behind a body changes nothing.** -/
theorem methodFindings_before {start stop : Nat} (hstart : start ≤ file.text.length)
    (hstop : stop ≤ file.text.length) :
    (file.before post).methodFindings className start stop =
      file.methodFindings className start stop := by
  have hbody : start + (slice file.text (start : Int) (stop : Int)).length ≤ file.text.length := by
    rw [slice_natCast _ _ _ hstart hstop, range, List.length_take, List.length_drop]
    omega
  simp only [SourceFile.methodFindings, SourceFile.before_text, slice_append_left post hstart hstop]
  exact List.flatMap_congr fun find hfind => methodFinding_before file post className hbody hfind

end

end Declaration

/-! ### Bodies -/

/-- **A body gives the same methods wherever it stands.**  What is found in a body between two texts is
what is found in the body alone, further on by the characters and lines of the text before it.  The
search from the first character of the body has one run, and each step of it leads further on, up to
the end of the body at most. -/
theorem methods_of_body (path className : String) (a b c : List Char) :
    (SourceFile.ofText path (a ++ b ++ c)).methodFindings className a.length
        (a.length + b.length) =
      ((SourceFile.ofText path b).methodFindings className 0 b.length).map
        (Finding.moved Element.moved a.length (a.count '\n')) ∧
    (∀ finds, Searches (Declaration.header Declaration.methodHead) (Declaration.resumeOffset b) b 0
        finds ↔ finds = Declaration.methodFinds b) ∧
    ∀ pos find, Find.FirstFrom (Declaration.header Declaration.methodHead) b pos find →
      pos < Declaration.resumeOffset b find ∧ Declaration.resumeOffset b find ≤ b.length := by
  refine ⟨?_, fun finds => ⟨fun h => h.unique (Declaration.searches_methodFinds b), ?_⟩,
    fun pos find hnext => ?_⟩
  · have hbehind := Declaration.methodFindings_behind (SourceFile.ofText path (b ++ c)) a className
      (Int.le_refl 0) (Int.natCast_nonneg b.length)
    have hbefore := Declaration.methodFindings_before (SourceFile.ofText path b) c className
      (Nat.zero_le b.length) (Nat.le_refl b.length)
    rw [Int.zero_add, Int.add_comm] at hbehind
    rw [List.append_assoc]
    exact hbehind.trans (congrArg _ hbefore)
  · rintro rfl
    exact Declaration.searches_methodFinds b
  · obtain ⟨hlt, hle⟩ := Declaration.lt_resumeOffset hnext.standsAt hnext.first?_eq
    exact ⟨Nat.lt_of_le_of_lt hnext.le_offset hlt, hle⟩

end SourceOutline
