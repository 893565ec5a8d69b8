/-
**What the common patterns read.**

Whatever outcome a pattern has, the text it covers has a certain form: a word is that word, a gap is
blank and not empty, an identifier is an identifier.  These are the facts that hold of every outcome,
the first one or not, and so of everything that is ever found.

Main definitions:

* `Pattern.Opens` — every outcome covers a text whose first character passes a test.

Main results:

* `Pattern.reads_of_mem_outcomes_word`, `Pattern.reads_of_mem_outcomes_many`,
  `Pattern.reads_of_mem_outcomes_identifier`, … — one inversion for each common pattern;
* `Pattern.Opens.optionalKeyword_bind` — a head may begin with words that may be absent;
* `mem_outcomes_keywordAtLineStart` — a keyword at the head of a line;
* `mem_outcomes_header` — the head of a declaration and its comment.
-/

import SourceOutline.Declaration.Header
import SourceOutline.Import
import SourceOutline.Pattern.Reach

set_option autoImplicit false

namespace SourceOutline

open Text

namespace Pattern

variable {α β : Type}

/-! ### One inversion for each pattern -/

theorem reads_of_mem_outcomes_word {s : String} {c : Cursor} {found : Unit × Cursor}
    (h : found ∈ (word s).outcomes c) : c.Reads s.toList found.2 := by
  simp only [word, outcomes_exactly, List.mem_map, Option.mem_toList] at h
  obtain ⟨stop, hstop, rfl⟩ := h
  exact Cursor.reads_of_skip? hstop

theorem reads_of_mem_outcomes_one {test : Char → Bool} {c : Cursor} {found : Char × Cursor}
    (h : found ∈ (one test).outcomes c) : test found.1 = true ∧ c.Reads [found.1] found.2 := by
  obtain ⟨before, rest⟩ := c
  cases rest with
  | nil => simp at h
  | cons x rest =>
      rw [outcomes_one_cons] at h
      split at h
      · rename_i hx
        rw [List.mem_singleton] at h
        subst h
        exact ⟨hx, (Cursor.Reads.nil _).cons⟩
      · exact absurd h List.not_mem_nil

theorem reads_of_mem_runs {test : Char → Bool} {before : Option Char} {rest : List Char}
    {c : Cursor} (h : c ∈ Cursor.runs test [] before rest) :
    ∃ s, (∀ x ∈ s, test x = true) ∧ Cursor.Reads ⟨before, rest⟩ s c := by
  induction rest generalizing before with
  | nil =>
      simp only [Cursor.runs, List.mem_singleton] at h
      exact ⟨[], by simp, h ▸ Cursor.Reads.nil _⟩
  | cons x rest ih =>
      rw [Cursor.runs_cons] at h
      rcases List.mem_append.1 h with h | h
      · by_cases hx : test x = true
        · rw [if_pos hx] at h
          obtain ⟨s, hs, hreads⟩ := ih h
          refine ⟨x :: s, fun y hy => ?_, hreads.cons⟩
          rcases List.mem_cons.1 hy with rfl | hy
          · exact hx
          · exact hs y hy
        · rw [if_neg hx] at h
          exact absurd h List.not_mem_nil
      · rw [List.mem_singleton] at h
        exact ⟨[], by simp, h ▸ Cursor.Reads.nil _⟩

theorem reads_of_mem_outcomes_many {test : Char → Bool} {c : Cursor} {found : Unit × Cursor}
    (h : found ∈ (many test).outcomes c) :
    ∃ s, (∀ x ∈ s, test x = true) ∧ c.Reads s found.2 := by
  simp only [outcomes_many, List.mem_map] at h
  obtain ⟨stop, hstop, rfl⟩ := h
  exact reads_of_mem_runs hstop

theorem reads_of_mem_outcomes_oneOrMore {test : Char → Bool} {c : Cursor} {found : Unit × Cursor}
    (h : found ∈ (oneOrMore test).outcomes c) :
    ∃ s, s ≠ [] ∧ (∀ x ∈ s, test x = true) ∧ c.Reads s found.2 := by
  obtain ⟨mid, hmid, h⟩ := mem_outcomes_bind.1 h
  obtain ⟨hx, hone⟩ := reads_of_mem_outcomes_one hmid
  obtain ⟨s, hs, hmany⟩ := reads_of_mem_outcomes_many h
  refine ⟨mid.1 :: s, by simp, fun y hy => ?_, hone.append hmany⟩
  rcases List.mem_cons.1 hy with rfl | hy
  · exact hx
  · exact hs y hy

theorem reads_of_mem_outcomes_identifier {c : Cursor} {found : Capture × Cursor}
    (h : found ∈ identifier.outcomes c) :
    found.1 = ⟨c, found.2⟩ ∧ ∃ name, isIdent name = true ∧ c.Reads name found.2 := by
  simp only [identifier, outcomes_captured, List.mem_map] at h
  obtain ⟨mid, hmid, rfl⟩ := h
  obtain ⟨first, hfirst, hmid⟩ := mem_outcomes_bind.1 hmid
  obtain ⟨hx, hone⟩ := reads_of_mem_outcomes_one hfirst
  obtain ⟨s, hs, hmany⟩ := reads_of_mem_outcomes_many hmid
  exact ⟨rfl, first.1 :: s, by simpa [isIdent, hx] using hs, hone.append hmany⟩

theorem mem_outcomes_edge {test : Option Char → Option Char → Bool} {c : Cursor}
    {found : Unit × Cursor} :
    found ∈ (edge test).outcomes c ↔ test c.before c.rest.head? = true ∧ found = ((), c) := by
  rw [outcomes_edge]
  split <;> simp_all

theorem mem_outcomes_lineStart {c : Cursor} {found : Unit × Cursor} :
    found ∈ lineStart.outcomes c ↔ c.before.all (· == '\n') = true ∧ found = ((), c) :=
  mem_outcomes_edge

theorem mem_outcomes_here {c : Cursor} {found : Cursor × Cursor} :
    found ∈ here.outcomes c ↔ found = (c, c) := by
  simp [here, outcomes_captured]

theorem mem_outcomes_optional {p : Pattern α} {c : Cursor} {found : Option α × Cursor} :
    found ∈ (optional p).outcomes c ↔
      (∃ a, found.1 = some a ∧ (a, found.2) ∈ p.outcomes c) ∨ found = (none, c) := by
  obtain ⟨value, stop⟩ := found
  simp only [optional, outcomes_orElse, outcomes_map, List.mem_append, List.mem_map, Prod.mk.injEq,
    Prod.exists, outcomes_pure, List.mem_singleton]
  constructor
  · rintro (⟨a, c', hmem, rfl, rfl⟩ | h)
    · exact Or.inl ⟨a, rfl, hmem⟩
    · exact Or.inr h
  · rintro (⟨a, rfl, hmem⟩ | h)
    · exact Or.inl ⟨a, stop, hmem, rfl, rfl⟩
    · exact Or.inr h

theorem mem_outcomes_captured {p : Pattern α} {c : Cursor} {found : Capture × Cursor} :
    found ∈ p.captured.outcomes c ↔
      found.1 = ⟨c, found.2⟩ ∧ ∃ a, (a, found.2) ∈ p.outcomes c := by
  obtain ⟨value, stop⟩ := found
  simp only [outcomes_captured, List.mem_map, Prod.mk.injEq, Prod.exists]
  constructor
  · rintro ⟨a, c', hmem, rfl, rfl⟩
    exact ⟨rfl, a, hmem⟩
  · rintro ⟨rfl, a, hmem⟩
    exact ⟨a, stop, hmem, rfl, rfl⟩

/-- What a sequence reads begins with the word it begins with. -/
theorem reads_of_mem_outcomes_word_bind {s : String} {next : Unit → Pattern β} {c : Cursor}
    {found : β × Cursor} (h : found ∈ (word s >>= next).outcomes c) :
    ∃ t, c.Reads (s.toList ++ t) found.2 := by
  obtain ⟨mid, hmid, h⟩ := mem_outcomes_bind.1 h
  obtain ⟨t, ht⟩ := reaches_of_mem_outcomes _ _ _ h
  exact ⟨t, (reads_of_mem_outcomes_word hmid).append ht⟩

/-! ### How heads begin -/

/-- Every outcome covers a text whose first character passes the test. -/
def Opens (p : Pattern α) (test : Char → Bool) : Prop :=
  ∀ c, ∀ found ∈ p.outcomes c, ∃ x s, test x = true ∧ c.Reads (x :: s) found.2

theorem opens_word_bind {w : String} {next : Unit → Pattern β} {test : Char → Bool} {x : Char}
    (hw : w.toList.head? = some x) (hx : test x = true) : Opens (word w >>= next) test := by
  intro c found h
  obtain ⟨t, ht⟩ := reads_of_mem_outcomes_word_bind h
  obtain ⟨more, hmore⟩ := List.head?_eq_some_iff.1 hw
  rw [hmore] at ht
  exact ⟨x, more ++ t, hx, ht⟩

theorem Opens.bind {p : Pattern α} {next : α → Pattern β} {test : Char → Bool}
    (h : Opens p test) : Opens (p >>= next) test := by
  intro c found hfound
  obtain ⟨mid, hmid, hfound⟩ := mem_outcomes_bind.1 hfound
  obtain ⟨x, s, hx, hs⟩ := h c mid hmid
  obtain ⟨t, ht⟩ := reaches_of_mem_outcomes _ _ _ hfound
  exact ⟨x, s ++ t, hx, hs.append ht⟩

theorem Opens.orElse {p q : Pattern α} {test : Char → Bool} (h : Opens p test)
    (h' : Opens q test) : Opens (p <|> q) test := by
  intro c found hfound
  rw [outcomes_orElse] at hfound
  rcases List.mem_append.1 hfound with hfound | hfound
  · exact h c found hfound
  · exact h' c found hfound

/-- A part that may be absent leaves the beginning to what follows it. -/
theorem Opens.optional_bind {p : Pattern α} {next : Option α → Pattern β} {test : Char → Bool}
    (h : Opens p test) (h' : ∀ a, Opens (next a) test) : Opens (optional p >>= next) test := by
  intro c found hfound
  obtain ⟨mid, hmid, hfound⟩ := mem_outcomes_bind.1 hfound
  rcases mem_outcomes_optional.1 hmid with ⟨a, -, hmem⟩ | rfl
  · obtain ⟨x, s, hx, hs⟩ := h c _ hmem
    obtain ⟨t, ht⟩ := reaches_of_mem_outcomes _ _ _ hfound
    exact ⟨x, s ++ t, hx, hs.append ht⟩
  · exact h' none c found hfound

theorem Opens.optionalKeyword_bind {keyword : String} {next : Bool → Pattern β}
    {test : Char → Bool} {x : Char} (hkeyword : keyword.toList.head? = some x)
    (hx : test x = true) (h : ∀ a, Opens (next a) test) :
    Opens (Declaration.optionalKeyword keyword >>= next) test := by
  intro c found hfound
  obtain ⟨mid, hmid, hfound⟩ := mem_outcomes_bind.1 hfound
  obtain ⟨opt, hopt, hmid⟩ := mem_outcomes_bind.1 hmid
  rw [outcomes_pure, List.mem_singleton] at hmid
  subst hmid
  rcases mem_outcomes_optional.1 hopt with ⟨a, -, hmem⟩ | rfl
  · have hopens : Opens (word keyword >>= fun _ => gap) test := opens_word_bind hkeyword hx
    obtain ⟨y, s, hy, hs⟩ := hopens c _ hmem
    obtain ⟨t, ht⟩ := reaches_of_mem_outcomes _ _ _ hfound
    exact ⟨y, s ++ t, hy, hs.append ht⟩
  · exact h _ c found hfound

theorem opens_identifier {test : Char → Bool}
    (h : ∀ x, isIdentStart x = true → test x = true) : Opens identifier test := by
  intro c found hfound
  obtain ⟨-, name, hname, hreads⟩ := reads_of_mem_outcomes_identifier hfound
  cases name with
  | nil => exact absurd hname (by decide)
  | cons x s =>
      have hx : isIdentStart x = true := by
        simp only [isIdent, Bool.and_eq_true] at hname
        exact hname.1
      exact ⟨x, s, h x hx, hreads⟩

end Pattern

open Pattern

/-! ### Keywords at the heads of lines -/

/-- A keyword at the head of a line stands behind spaces and tabs, and a word ends with it. -/
theorem mem_outcomes_keywordAtLineStart {keyword : String} {c : Cursor} {found : Cursor × Cursor}
    (h : found ∈ (keywordAtLineStart keyword).outcomes c) :
    c.before.all (· == '\n') = true ∧
      ∃ pad, (∀ x ∈ pad, isPadding x = true) ∧ c.Reads pad found.1 ∧
        found.1.Reads keyword.toList found.2 := by
  obtain ⟨_, hstart, h⟩ := mem_outcomes_bind.1 h
  obtain ⟨hbefore, rfl⟩ := mem_outcomes_lineStart.1 hstart
  obtain ⟨mid, hpad, h⟩ := mem_outcomes_bind.1 h
  obtain ⟨pad, hpadding, hreads⟩ := reads_of_mem_outcomes_many hpad
  obtain ⟨_, hhere, h⟩ := mem_outcomes_bind.1 h
  obtain rfl := mem_outcomes_here.1 hhere
  obtain ⟨word, hword, h⟩ := mem_outcomes_bind.1 h
  obtain ⟨_, hedge, h⟩ := mem_outcomes_bind.1 h
  obtain ⟨-, rfl⟩ := mem_outcomes_edge.1 hedge
  rw [outcomes_pure, List.mem_singleton] at h
  subst h
  exact ⟨hbefore, pad, hpadding, hreads, reads_of_mem_outcomes_word hword⟩

/-! ### Heads of declarations -/

/-- A head stands behind its comment, if it has one, and the spaces and tabs that indent it. -/
theorem mem_outcomes_header {α : Type} {p : Pattern α} {c : Cursor}
    {found : Declaration.Header α × Cursor} (h : found ∈ (Declaration.header p).outcomes c) :
    ∃ mid, (found.1.comment, mid) ∈ Declaration.leadingComment.outcomes c ∧
      mid.before.all (· == '\n') = true ∧
      ∃ pad, (∀ x ∈ pad, isPadding x = true) ∧ mid.Reads pad found.1.start ∧
        (found.1.parts, found.2) ∈ p.outcomes found.1.start := by
  obtain ⟨⟨comment, mid⟩, hcomment, h⟩ := mem_outcomes_bind.1 h
  obtain ⟨_, hstart, h⟩ := mem_outcomes_bind.1 h
  obtain ⟨hbefore, rfl⟩ := mem_outcomes_lineStart.1 hstart
  obtain ⟨_, hpad, h⟩ := mem_outcomes_bind.1 h
  obtain ⟨pad, hpadding, hreads⟩ := reads_of_mem_outcomes_many hpad
  obtain ⟨_, hhere, h⟩ := mem_outcomes_bind.1 h
  obtain rfl := mem_outcomes_here.1 hhere
  obtain ⟨parts, hparts, h⟩ := mem_outcomes_bind.1 h
  rw [outcomes_pure, List.mem_singleton] at h
  subst h
  exact ⟨mid, hcomment, hbefore, pad, hpadding, hreads, hparts⟩

theorem reads_of_mem_outcomes_header {α : Type} {p : Pattern α} {c : Cursor}
    {found : Declaration.Header α × Cursor} (h : found ∈ (Declaration.header p).outcomes c) :
    (∃ s, c.Reads s found.1.start) ∧ (found.1.parts, found.2) ∈ p.outcomes found.1.start := by
  obtain ⟨mid, hcomment, -, pad, -, hpad, hparts⟩ := mem_outcomes_header h
  obtain ⟨s, hs⟩ := reaches_of_mem_outcomes _ _ _ hcomment
  exact ⟨⟨s ++ pad, hs.append hpad⟩, hparts⟩

end SourceOutline
