/-
**What a pattern takes, and where it has no outcome.**

To show that a statement is read back, one has to know the *first* outcome of a pattern, not only
some outcome.  As long as every part of a sequence goes on from the first outcome of the part before
it, nothing is ever undone, and the first outcome of the whole is put together from those of the
parts.  Two judgements say this: `Takes` for a pattern that takes a given text at its first try, and
`Refuses` for one that has no outcome at all, on which the choice between alternatives rests.

Main definitions:

* `Text.Stops` — a run of characters that pass a test ends here;
* `Pattern.Takes` — the first outcome takes a given text;
* `Pattern.Refuses` — there is no outcome where a given text follows.

Main results:

* `Pattern.Takes.bind`, `Pattern.Takes.orElse_left`, `Pattern.Takes.orElse_right` — sequences and
  alternatives;
* `Pattern.takes_many`, `Pattern.takes_identifier`, `Pattern.takes_literal` — the longest run, a whole
  name, and a literal up to the first quote that can close it;
* `Pattern.refuses_identifier_bind`, `Pattern.stops_isBlank_of_keyword` — a name that is not followed
  by what is wanted, and a word that only begins like a keyword.
-/

import SourceOutline.Proofs.Characters
import SourceOutline.Proofs.Readings

set_option autoImplicit false

namespace SourceOutline

/-! ### Where a run ends -/

namespace Text

/-- A run of characters that pass the test cannot go on into `t`. -/
def Stops (test : Char → Bool) (t : List Char) : Prop :=
  ∀ x ∈ t.head?, test x = false

@[simp]
theorem stops_nil (test : Char → Bool) : Stops test [] := by
  simp [Stops]

@[simp]
theorem stops_cons {test : Char → Bool} {x : Char} {t : List Char} :
    Stops test (x :: t) ↔ test x = false := by
  simp [Stops]

/-- A text that is not empty decides for itself. -/
theorem Stops.append {test : Char → Bool} {s : List Char} (h : Stops test s) (hs : s ≠ [])
    (t : List Char) : Stops test (s ++ t) := by
  obtain ⟨x, s, rfl⟩ := List.exists_cons_of_ne_nil hs
  simpa using h

theorem Stops.mono {test test' : Char → Bool} {t : List Char} (h : Stops test t)
    (himp : ∀ x, test' x = true → test x = true) : Stops test' t := by
  intro x hx
  cases hx' : test' x with
  | false => rfl
  | true => rw [← h x hx, himp x hx']

/-- The run is what stands before the place where it ends. -/
theorem Stops.takeWhile_append {test : Char → Bool} {s t : List Char} (ht : Stops test t)
    (hs : ∀ x ∈ s, test x = true) : (s ++ t).takeWhile test = s := by
  rw [List.takeWhile_append_of_pos hs]
  cases t with
  | nil => simp
  | cons x t =>
      rw [stops_cons] at ht
      rw [List.takeWhile_cons_of_neg (by simp [ht]), List.append_nil]

theorem stops_isBlank_of_isIdent {name : List Char} (h : isIdent name = true) (t : List Char) :
    Stops isBlank (name ++ t) := by
  obtain ⟨c, rest, rfl, hc, -⟩ := isIdent_iff.1 h
  simpa using isBlank_eq_false_of_isIdentStart hc

end Text

namespace Pattern

open Text

variable {α β : Type}

/-! ### The two judgements -/

/-- With `t` behind it, `s` is what the first outcome of the pattern takes, and it finds something
that `found` allows. -/
def Takes (p : Pattern α) (s t : List Char) (found : α → Prop) : Prop :=
  ∀ before, ∃ a, found a ∧ p.first? ⟨before, s ++ t⟩ = some (a, ⟨s.getLast?.or before, t⟩)

/-- The pattern has no outcome where `rest` follows. -/
def Refuses (p : Pattern α) (rest : List Char) : Prop :=
  ∀ before, p.outcomes ⟨before, rest⟩ = []

/-! ### Sequences and alternatives -/

theorem getLast?_append_or (s t : List Char) (before : Option Char) :
    t.getLast?.or (s.getLast?.or before) = (s ++ t).getLast?.or before := by
  rw [List.getLast?_append]
  cases t.getLast? <;> simp

/-- A sequence goes on from the first outcome of its first part. -/
theorem first?_bind {p : Pattern α} {next : α → Pattern β} {c c' : Cursor} {a : α}
    {found : β × Cursor} (h : p.first? c = some (a, c')) (h' : (next a).first? c' = some found) :
    (p >>= next).first? c = some found := by
  obtain ⟨more, hmore⟩ := List.head?_eq_some_iff.1 h
  rw [first?, outcomes_bind, hmore, List.flatMap_cons, List.head?_append]
  simp only [first?] at h'
  simp [h']

/-- The first outcome of a sequence goes through an outcome of its first part. -/
theorem first?_bind_eq_some {p : Pattern α} {next : α → Pattern β} {c : Cursor} {found : β × Cursor}
    (h : (p >>= next).first? c = some found) :
    ∃ mid ∈ p.outcomes c, (next mid.1).first? mid.2 = some found := by
  rw [first?, outcomes_bind, List.head?_flatMap] at h
  exact List.exists_of_findSome?_eq_some h

theorem Takes.mono {p : Pattern α} {s t : List Char} {P Q : α → Prop} (h : Takes p s t P)
    (himp : ∀ a, P a → Q a) : Takes p s t Q := by
  intro before
  obtain ⟨a, ha, hfirst⟩ := h before
  exact ⟨a, himp a ha, hfirst⟩

theorem takes_pure {a : α} {t : List Char} {Q : α → Prop} (h : Q a) :
    Takes (pure a : Pattern α) [] t Q :=
  fun _ => ⟨a, h, rfl⟩

theorem Takes.bind {p : Pattern α} {next : α → Pattern β} {s s' t : List Char} {P : α → Prop}
    {Q : β → Prop} (h : Takes p s (s' ++ t) P) (h' : ∀ a, P a → Takes (next a) s' t Q) :
    Takes (p >>= next) (s ++ s') t Q := by
  intro before
  obtain ⟨a, ha, hfirst⟩ := h before
  obtain ⟨b, hb, hnext⟩ := h' a ha (s.getLast?.or before)
  refine ⟨b, hb, ?_⟩
  rw [getLast?_append_or] at hnext
  rw [List.append_assoc]
  exact first?_bind hfirst hnext

/-- A first part that takes nothing. -/
theorem Takes.bind_nil {p : Pattern α} {next : α → Pattern β} {s t : List Char} {P : α → Prop}
    {Q : β → Prop} (h : Takes p [] (s ++ t) P) (h' : ∀ a, P a → Takes (next a) s t Q) :
    Takes (p >>= next) s t Q :=
  Takes.bind (s := []) h h'

/-- A last step that only computes takes nothing. -/
theorem Takes.map {p : Pattern α} {f : α → β} {s t : List Char} {P : α → Prop} {Q : β → Prop}
    (h : Takes p s t P) (h' : ∀ a, P a → Q (f a)) : Takes (do let a ← p; return f a) s t Q := by
  have hbind : Takes (do let a ← p; return f a) (s ++ []) t Q :=
    Takes.bind h fun a ha => takes_pure (h' a ha)
  simpa using hbind

theorem Takes.orElse_left {p q : Pattern α} {s t : List Char} {Q : α → Prop} (h : Takes p s t Q) :
    Takes (p <|> q) s t Q := by
  intro before
  obtain ⟨a, ha, hfirst⟩ := h before
  refine ⟨a, ha, ?_⟩
  rw [first?, outcomes_orElse, List.head?_append]
  simp only [first?] at hfirst
  simp [hfirst]

theorem Takes.orElse_right {p q : Pattern α} {s t : List Char} {Q : α → Prop}
    (h : Refuses p (s ++ t)) (h' : Takes q s t Q) : Takes (p <|> q) s t Q := by
  intro before
  obtain ⟨a, ha, hfirst⟩ := h' before
  refine ⟨a, ha, ?_⟩
  rw [first?, outcomes_orElse, h before, List.nil_append]
  exact hfirst

theorem Refuses.orElse {p q : Pattern α} {rest : List Char} (h : Refuses p rest)
    (h' : Refuses q rest) : Refuses (p <|> q) rest := by
  intro before
  rw [outcomes_orElse, h before, h' before, List.nil_append]

/-- A sequence has no outcome if its first part has none. -/
theorem Refuses.bind {p : Pattern α} {next : α → Pattern β} {rest : List Char}
    (h : Refuses p rest) : Refuses (p >>= next) rest := by
  intro before
  rw [outcomes_bind, h before, List.flatMap_nil]

/-- A sequence has no outcome if its second part has none after any outcome of the first. -/
theorem refuses_bind_of_forall {p : Pattern α} {next : α → Pattern β} {rest : List Char}
    (h : ∀ before, ∀ found ∈ p.outcomes ⟨before, rest⟩, Refuses (next found.1) found.2.rest) :
    Refuses (p >>= next) rest := by
  intro before
  rw [outcomes_bind, List.flatMap_eq_nil_iff]
  intro found hfound
  exact h before found hfound found.2.before

/-! ### Words -/

theorem takes_exactly (word t : List Char) : Takes (exactly word) word t fun _ => True := by
  intro before
  have hskip : Cursor.skip? word ⟨before, word ++ t⟩ = some ⟨word.getLast?.or before, t⟩ :=
    Cursor.skip?_eq_some_iff.2 ⟨rfl, rfl⟩
  exact ⟨(), trivial, by simp [first?, outcomes_exactly, hskip]⟩

theorem takes_word (s : String) (t : List Char) : Takes (word s) s.toList t fun _ => True :=
  takes_exactly s.toList t

theorem refuses_word {s : String} {rest : List Char} (h : ¬ s.toList <+: rest) :
    Refuses (word s) rest := by
  intro before
  refine List.eq_nil_iff_forall_not_mem.2 fun found hfound => h ?_
  exact ⟨found.2.rest, (reads_of_mem_outcomes_word hfound).1.symm⟩

/-- A word is refused already where its first character does not stand. -/
theorem refuses_word_of_head {s : String} (c : Char) {rest : List Char}
    (hs : s.toList.head? = some c) (h : Stops (· == c) rest) : Refuses (word s) rest := by
  refine refuses_word ?_
  rintro ⟨t, rfl⟩
  obtain ⟨more, hmore⟩ := List.head?_eq_some_iff.1 hs
  simp [hmore] at h

/-- After a word the sequence has only one place to go on. -/
theorem refuses_word_bind {s : String} {next : Unit → Pattern β} {t : List Char}
    (h : Refuses (next ()) t) : Refuses (word s >>= next) (s.toList ++ t) := by
  refine refuses_bind_of_forall fun before found hfound => ?_
  have hrest : t = found.2.rest :=
    List.append_cancel_left (reads_of_mem_outcomes_word hfound).1
  exact hrest ▸ h

/-! ### Runs of characters -/

/-- The longest run comes first. -/
theorem head?_runs {test : Char → Bool} {s t : List Char} (hs : ∀ x ∈ s, test x = true)
    (ht : Stops test t) (before : Option Char) :
    (Cursor.runs test [] before (s ++ t)).head? = some ⟨s.getLast?.or before, t⟩ := by
  induction s generalizing before with
  | nil =>
      cases t with
      | nil => rfl
      | cons x t =>
          have hx : test x = false := by simpa using ht
          simp [Cursor.runs_cons, hx]
  | cons x s ih =>
      have hx : test x = true := hs x List.mem_cons_self
      have ih' := ih (fun y hy => hs y (List.mem_cons_of_mem x hy)) (some x)
      rw [List.cons_append, Cursor.runs_cons, if_pos hx, List.head?_append, ih', List.getLast?_cons]
      cases s.getLast? <;> rfl

/-- Where the runs through `s` end: somewhere within it, or behind it. -/
theorem rest_of_mem_runs {test : Char → Bool} {s t : List Char} (ht : Stops test t)
    {before : Option Char} {c : Cursor} (h : c ∈ Cursor.runs test [] before (s ++ t)) :
    ∃ u v, s = u ++ v ∧ c.rest = v ++ t := by
  induction s generalizing before with
  | nil =>
      cases t with
      | nil =>
          simp only [List.append_nil, Cursor.runs, List.mem_singleton] at h
          exact ⟨[], [], rfl, by simp [h]⟩
      | cons x t =>
          have hx : test x = false := by simpa using ht
          simp only [List.nil_append, Cursor.runs_cons, hx, Bool.false_eq_true, if_false,
            List.mem_singleton] at h
          exact ⟨[], [], rfl, by simp [h]⟩
  | cons x s ih =>
      rw [List.cons_append, Cursor.runs_cons] at h
      rcases List.mem_append.1 h with h | h
      · by_cases hx : test x = true
        · rw [if_pos hx] at h
          obtain ⟨u, v, rfl, hrest⟩ := ih h
          exact ⟨x :: u, v, rfl, hrest⟩
        · rw [if_neg hx] at h
          exact absurd h List.not_mem_nil
      · rw [List.mem_singleton] at h
        exact ⟨[], x :: s, rfl, by simp [h]⟩

theorem takes_many {test : Char → Bool} {s t : List Char} (hs : ∀ x ∈ s, test x = true)
    (ht : Stops test t) : Takes (many test) s t fun _ => True := by
  intro before
  exact ⟨(), trivial, by simp [first?, outcomes_many, head?_runs hs ht]⟩

theorem takes_one {test : Char → Bool} {x : Char} (hx : test x = true) (t : List Char) :
    Takes (one test) [x] t (· = x) :=
  fun _ => ⟨x, rfl, by simp [first?, outcomes_one_cons, hx]⟩

theorem takes_oneOrMore {test : Char → Bool} {x : Char} {s t : List Char} (hx : test x = true)
    (hs : ∀ y ∈ s, test y = true) (ht : Stops test t) :
    Takes (oneOrMore test) (x :: s) t fun _ => True :=
  (takes_one hx (s ++ t)).bind fun _ _ => takes_many hs ht

theorem refuses_one {test : Char → Bool} {rest : List Char} (h : Stops test rest) :
    Refuses (one test) rest := by
  intro before
  cases rest with
  | nil => rfl
  | cons x rest =>
      have hx : test x = false := by simpa using h
      simp [outcomes_one_cons, hx]

/-- After any run that begins with `s`, the sequence goes on within `s` or behind it. -/
theorem refuses_many_bind {test : Char → Bool} {next : Unit → Pattern β} {s t : List Char}
    (ht : Stops test t) (h : ∀ u v, s = u ++ v → Refuses (next ()) (v ++ t)) :
    Refuses (many test >>= next) (s ++ t) := by
  refine refuses_bind_of_forall fun before found hfound => ?_
  simp only [outcomes_many, List.mem_map] at hfound
  obtain ⟨stop, hstop, rfl⟩ := hfound
  obtain ⟨u, v, hs, hrest⟩ := rest_of_mem_runs ht hstop
  rw [hrest]
  exact h u v hs

/-! ### Blanks -/

theorem takes_blanks_nil {t : List Char} (ht : Stops isBlank t) :
    Takes blanks [] t fun _ => True :=
  takes_many (by simp) ht

theorem takes_blanks_space {t : List Char} (ht : Stops isBlank t) :
    Takes blanks [' '] t fun _ => True :=
  takes_many (by simp [isBlank]) ht

theorem takes_gap_space {t : List Char} (ht : Stops isBlank t) : Takes gap [' '] t fun _ => True :=
  takes_oneOrMore (by decide) (by simp) ht

theorem refuses_gap {rest : List Char} (h : Stops isBlank rest) : Refuses gap rest :=
  (refuses_one h).bind

theorem refuses_blanks_bind_nil {next : Unit → Pattern β} {t : List Char} (ht : Stops isBlank t)
    (h : Refuses (next ()) t) : Refuses (blanks >>= next) t := by
  refine refuses_many_bind (s := []) ht ?_
  intro u v huv
  obtain ⟨-, rfl⟩ := List.append_eq_nil_iff.1 huv.symm
  exact h

theorem refuses_blanks_bind_space {next : Unit → Pattern β} {t : List Char} (ht : Stops isBlank t)
    (hspace : Refuses (next ()) (' ' :: t)) (h : Refuses (next ()) t) :
    Refuses (blanks >>= next) (' ' :: t) := by
  refine refuses_many_bind (s := [' ']) ht ?_
  intro u v huv
  cases u with
  | nil => rw [← show [' '] = v from huv]; exact hspace
  | cons x u =>
      obtain ⟨-, rfl⟩ := List.append_eq_nil_iff.1 (List.cons.inj huv).2.symm
      exact h

theorem refuses_gap_bind_space {next : Unit → Pattern β} {t : List Char} (ht : Stops isBlank t)
    (h : Refuses (next ()) t) : Refuses (gap >>= next) (' ' :: t) := by
  refine refuses_bind_of_forall fun before found hfound => ?_
  simp only [gap, oneOrMore, outcomes_bind, outcomes_one_cons, List.mem_flatMap] at hfound
  obtain ⟨mid, hmid, hfound⟩ := hfound
  rw [if_pos (by decide), List.mem_singleton] at hmid
  subst hmid
  simp only [outcomes_many, List.mem_map] at hfound
  obtain ⟨stop, hstop, rfl⟩ := hfound
  obtain ⟨u, v, huv, hrest⟩ := rest_of_mem_runs (s := []) ht hstop
  obtain ⟨-, rfl⟩ := List.append_eq_nil_iff.1 huv.symm
  rw [hrest]
  exact h

/-! ### Optional parts and captures -/

theorem Takes.optional {p : Pattern α} {s t : List Char} {P : α → Prop} (h : Takes p s t P) :
    Takes (optional p) s t fun found => ∃ a, found = some a ∧ P a := by
  refine Takes.orElse_left ?_
  intro before
  obtain ⟨a, ha, hfirst⟩ := h before
  refine ⟨some a, ⟨a, rfl, ha⟩, ?_⟩
  simp only [first?] at hfirst
  simp [first?, hfirst]

theorem Refuses.optional {p : Pattern α} {t : List Char} (h : Refuses p t) :
    Takes (optional p) [] t (· = none) := by
  refine Takes.orElse_right ?_ (takes_pure rfl)
  intro before
  rw [outcomes_map, List.nil_append, h before, List.map_nil]

theorem Takes.captured {p : Pattern α} {s t : List Char} {P : α → Prop} (h : Takes p s t P) :
    Takes p.captured s t (·.text = s) := by
  intro before
  obtain ⟨a, -, hfirst⟩ := h before
  refine ⟨⟨⟨before, s ++ t⟩, ⟨s.getLast?.or before, t⟩⟩, Capture.text_of_rest_eq rfl, ?_⟩
  simp only [first?] at hfirst
  simp [first?, outcomes_captured, hfirst]

theorem Refuses.captured {p : Pattern α} {rest : List Char} (h : Refuses p rest) :
    Refuses p.captured rest := by
  intro before
  rw [outcomes_captured, h before, List.map_nil]

/-! ### Names -/

/-- A name is taken whole. -/
theorem takes_identifier {name t : List Char} (hname : isIdent name = true)
    (ht : Stops isIdentPart t) : Takes identifier name t (·.text = name) := by
  obtain ⟨c, rest, rfl, hc, hrest⟩ := isIdent_iff.1 hname
  exact Takes.captured ((takes_one hc (rest ++ t)).bind fun _ _ => takes_many hrest ht)

theorem refuses_identifier {rest : List Char} (h : Stops isIdentStart rest) :
    Refuses identifier rest :=
  Refuses.captured (refuses_one h).bind

/-- After a name the sequence goes on behind it, or within it if the name is cut short. -/
theorem refuses_identifier_bind {next : Capture → Pattern β} {name t : List Char}
    (hname : isIdent name = true) (ht : Stops isIdentPart t)
    (h : ∀ capture rest, (rest = t ∨ ∃ x ∈ rest.head?, isIdentPart x = true) →
      Refuses (next capture) rest) :
    Refuses (identifier >>= next) (name ++ t) := by
  obtain ⟨c, more, rfl, hc, hmore⟩ := isIdent_iff.1 hname
  refine refuses_bind_of_forall fun before found hfound => h _ _ ?_
  simp only [identifier, outcomes_captured, outcomes_bind, List.cons_append, outcomes_one_cons,
    if_pos hc, List.flatMap_cons, List.flatMap_nil, List.append_nil, outcomes_many, List.map_map,
    List.mem_map] at hfound
  obtain ⟨stop, hstop, rfl⟩ := hfound
  obtain ⟨u, v, huv, hrest⟩ := rest_of_mem_runs ht hstop
  -- `v` is what the cut left of the name
  cases v with
  | nil => exact Or.inl hrest
  | cons x v =>
      refine Or.inr ⟨x, ?_, hmore x (by simp [huv])⟩
      simp [hrest]

/-- What must not begin with a name part is refused within a name. -/
theorem stops_of_name_or_rest {test : Char → Bool} {t rest : List Char} (ht : Stops test t)
    (htest : ∀ x, isIdentPart x = true → test x = false)
    (h : rest = t ∨ ∃ x ∈ rest.head?, isIdentPart x = true) : Stops test rest := by
  rcases h with rfl | ⟨x, hx, hpart⟩
  · exact ht
  · intro y hy
    rw [Option.mem_unique hy hx]
    exact htest x hpart

/-- No blank follows a keyword that was read from a name, be it the whole name or its beginning. -/
theorem stops_isBlank_of_keyword {keyword name t rest : List Char}
    (hkeyword : ∀ x ∈ keyword, isIdentPart x = true) (hname : ∀ x ∈ name, isIdentPart x = true)
    (hpart : Stops isIdentPart t) (hblank : Stops isBlank t) (h : name ++ t = keyword ++ rest) :
    Stops isBlank rest := by
  rcases List.append_eq_append_iff.1 h with ⟨more, hkw, ht⟩ | ⟨more, hnm, hfr⟩
  · -- the keyword is not shorter than the name
    cases more with
    | nil => rw [List.nil_append] at ht; exact ht ▸ hblank
    | cons x more =>
        have hx : isIdentPart x = true := hkeyword x (by simp [hkw])
        rw [ht] at hpart
        simp [hx] at hpart
  · cases more with
    | nil => rw [hfr]; exact hblank
    | cons x more =>
        have hx : isIdentPart x = true := hname x (by simp [hnm])
        rw [hfr]
        simpa using isBlank_eq_false_of_isIdentPart hx

/-! ### Literals -/

theorem reverse_runs_cons (test : Char → Bool) (before : Option Char) (x : Char)
    (rest : List Char) :
    (Cursor.runs test [] before (x :: rest)).reverse =
      ⟨before, x :: rest⟩ ::
        (if test x then (Cursor.runs test [] (some x) rest).reverse else []) := by
  rw [Cursor.runs_cons, List.reverse_append]
  split <;> rfl

/-- Of growing runs, the first after which `f` has an outcome counts. -/
theorem head?_flatMap_runs {test : Char → Bool} {s t : List Char} (f : Cursor → List β)
    (hs : ∀ x ∈ s, test x = true)
    (hwithin : ∀ before x v, x ∈ s → f ⟨before, x :: v⟩ = [])
    (before : Option Char) {b : β} (hb : (f ⟨s.getLast?.or before, t⟩).head? = some b) :
    ((Cursor.runs test [] before (s ++ t)).reverse.flatMap f).head? = some b := by
  induction s generalizing before with
  | nil =>
      cases t with
      | nil => simpa [Cursor.runs] using hb
      | cons x t =>
          rw [List.nil_append, reverse_runs_cons, List.flatMap_cons, List.head?_append]
          simp only [List.getLast?_nil, Option.none_or] at hb
          simp [hb]
  | cons x s ih =>
      have hx : test x = true := hs x List.mem_cons_self
      rw [List.cons_append, reverse_runs_cons, if_pos hx, List.flatMap_cons,
        hwithin before x (s ++ t) List.mem_cons_self, List.nil_append]
      refine ih (fun y hy => hs y (List.mem_cons_of_mem x hy))
        (fun before y v hy => hwithin before y v (List.mem_cons_of_mem x hy)) (some x) ?_
      rw [List.getLast?_cons] at hb
      cases hlast : s.getLast? with
      | none => simpa [hlast] using hb
      | some y => simpa [hlast] using hb

theorem outcomes_exactly_char (q : Char) (before : Option Char) (x : Char) (rest : List Char) :
    (exactly [q]).outcomes ⟨before, x :: rest⟩ = if q == x then [((), ⟨some x, rest⟩)] else [] := by
  rw [outcomes_exactly, Cursor.skip?_cons]
  split <;> rfl

/-- A literal ends at the first quote of its kind. -/
theorem takes_literal {quote : Char} {content t : List Char} (hquote : isQuote quote = true)
    (hne : content ≠ []) (hno : quote ∉ content) (hline : '\n' ∉ content) :
    Takes literal ([quote] ++ (content ++ [quote])) t (·.text = content) := by
  refine (takes_one hquote (content ++ [quote] ++ t)).bind fun found hfound before => ?_
  subst hfound
  obtain ⟨x, more, rfl⟩ := List.exists_cons_of_ne_nil hne
  have hrun : ∀ y ∈ x :: more, (y != '\n') = true := by
    intro y hy
    simp only [bne_iff_ne, ne_eq]
    rintro rfl
    exact hline hy
  let start : Cursor := ⟨before, x :: (more ++ found :: t)⟩
  let f : Cursor → List (Capture × Cursor) := fun stop =>
    (exactly [found] >>= fun _ => pure ⟨start, stop⟩).outcomes stop
  -- the shortest content is tried first, and only behind all of it stands the quote
  have hfirst := head?_flatMap_runs f (fun y hy => hrun y (List.mem_cons_of_mem x hy))
    (fun before y v hy => by
      have hy' : (found == y) = false := by
        simp only [beq_eq_false_iff_ne, ne_eq]
        rintro rfl
        exact hno (List.mem_cons_of_mem x hy)
      simp [f, outcomes_exactly_char, hy'])
    (some x) (t := found :: t) (b := (⟨start, ⟨more.getLast?.or (some x), found :: t⟩⟩, ⟨found, t⟩))
    (by simp [f, outcomes_exactly_char])
  refine ⟨⟨start, ⟨more.getLast?.or (some x), found :: t⟩⟩,
    Capture.text_of_rest_eq (by simp [start]), ?_⟩
  have houtcomes : (captured (fewest (· != '\n')) >>= fun content =>
      exactly [found] >>= fun _ => pure content).outcomes start =
        (Cursor.runs (· != '\n') [] (some x) (more ++ found :: t)).reverse.flatMap f := by
    have hfewest : (fewest (· != '\n')).outcomes start =
        ((Cursor.runs (· != '\n') [] (some x) (more ++ found :: t)).reverse).map
          fun stop => ((), stop) := by
      rw [outcomes, reverse_runs_cons, if_pos (hrun x List.mem_cons_self), List.tail_cons]
    rw [outcomes_bind, outcomes_captured, hfewest, List.map_map, List.flatMap_map]
    rfl
  have hstart : (⟨before, x :: more ++ [found] ++ t⟩ : Cursor) = start := by simp [start]
  rw [first?, hstart, houtcomes, hfirst, List.getLast?_concat, Option.some_or]

/-! ### Edges of words -/

/-- A word ends where something else follows. -/
theorem outcomes_wordEdge {y : Char} {rest : List Char} (hy : isWord y = true)
    (hrest : Stops isWord rest) :
    wordEdge.outcomes ⟨some y, rest⟩ = [((), ⟨some y, rest⟩)] := by
  cases rest with
  | nil => simp [wordEdge, outcomes_edge, hy]
  | cons x rest =>
      have hx : isWord x = false := by simpa using hrest
      simp [wordEdge, outcomes_edge, hy, hx]

theorem first?_wordEdge {y : Char} {rest : List Char} (hy : isWord y = true)
    (hrest : Stops isWord rest) : wordEdge.first? ⟨some y, rest⟩ = some ((), ⟨some y, rest⟩) := by
  rw [first?, outcomes_wordEdge hy hrest, List.head?_cons]

/-- A word that ends where it stands. -/
theorem takes_wholeWord {s : String} {y : Char} {t : List Char} (hs : s.toList.getLast? = some y)
    (hy : isWord y = true) (ht : Stops isWord t) :
    Takes (do word s; wordEdge) s.toList t fun _ => True := by
  intro before
  obtain ⟨_, -, hword⟩ := takes_word s t before
  rw [hs, Option.some_or] at hword ⊢
  exact ⟨(), trivial, first?_bind hword (first?_wordEdge hy ht)⟩

/-- The same, and what follows it. -/
theorem takes_wholeWord_bind {s : String} {next : Unit → Pattern β} {y : Char} {s' t : List Char}
    {Q : β → Prop} (hs : s.toList.getLast? = some y) (hy : isWord y = true)
    (ht : Stops isWord (s' ++ t)) (h : Takes (next ()) s' t Q) :
    Takes (word s >>= fun _ => wordEdge >>= next) (s.toList ++ s') t Q := by
  intro before
  obtain ⟨a, ha, hnext⟩ := h (s.toList.getLast?.or before)
  obtain ⟨_, -, hword⟩ := takes_word s (s' ++ t) before
  rw [getLast?_append_or] at hnext
  rw [hs, Option.some_or] at hword hnext
  refine ⟨a, ha, ?_⟩
  rw [List.append_assoc]
  exact first?_bind hword (first?_bind (first?_wordEdge hy ht) hnext)

/-! ### Looking ahead -/

/-- A part that must not stand here stops the sequence if it does. -/
theorem refuses_notAhead_bind {p : Pattern α} {next : Unit → Pattern β} {rest : List Char}
    (h : ∀ before, p.outcomes ⟨before, rest⟩ ≠ []) : Refuses (notAhead p >>= next) rest := by
  refine Refuses.bind fun before => ?_
  rw [outcomes_notAhead, if_neg (by simpa using h before)]

/-- A part that only looks leaves the beginning to what follows it. -/
theorem Opens.notAhead_bind {p : Pattern α} {next : Unit → Pattern β} {test : Char → Bool}
    (h : Opens (next ()) test) : Opens (notAhead p >>= next) test := by
  intro c found hfound
  obtain ⟨mid, hmid, hfound⟩ := mem_outcomes_bind.1 hfound
  rw [outcomes_notAhead] at hmid
  split at hmid
  · rw [List.mem_singleton.1 hmid] at hfound
    exact h c found hfound
  · exact absurd hmid List.not_mem_nil

theorem Opens.mono {p : Pattern α} {test test' : Char → Bool} (h : Opens p test)
    (himp : ∀ x, test x = true → test' x = true) : Opens p test' := by
  intro c found hfound
  obtain ⟨x, s, hx, hreads⟩ := h c found hfound
  exact ⟨x, s, himp x hx, hreads⟩

theorem Opens.captured {p : Pattern α} {test : Char → Bool} (h : Opens p test) :
    Opens p.captured test := by
  intro c found hfound
  obtain ⟨-, a, hmem⟩ := mem_outcomes_captured.1 hfound
  exact h c (a, found.2) hmem

theorem opens_word {w : String} {test : Char → Bool} {x : Char} (hw : w.toList.head? = some x)
    (hx : test x = true) : Opens (word w) test := by
  intro c found hfound
  obtain ⟨more, hmore⟩ := List.head?_eq_some_iff.1 hw
  exact ⟨x, more, hx, hmore ▸ reads_of_mem_outcomes_word hfound⟩

/-- A pattern refuses what does not begin as it must. -/
theorem Opens.refuses {p : Pattern α} {test : Char → Bool} (h : Opens p test) {rest : List Char}
    (hrest : Stops test rest) : Refuses p rest := by
  intro before
  refine List.eq_nil_iff_forall_not_mem.2 fun found hfound => ?_
  obtain ⟨x, s, hx, hreads⟩ := h _ found hfound
  have hbegin : rest = x :: s ++ found.2.rest := hreads.1
  rw [hbegin, List.cons_append, stops_cons, hx] at hrest
  exact absurd hrest (by decide)

end Pattern

end SourceOutline
