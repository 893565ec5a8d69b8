/-
**Patterns that do not see carriage returns.**

A pattern is tried at a place of a text and at the same place of the text with carriage returns.
The second text has places that the first has not, between a carriage return and its line feed, and
a run of blanks may end there.  So the outcomes in the second text are those in the first and some
more.  What comes of the additional ones depends on what is tried next: usually it fails there, and
otherwise it leads to what was tried before.

Main definitions:

* `Pattern.Echoes` — a list of outcomes leads to the same first success as another list;
* `Pattern.Cursor.crlf` — a place in the text with carriage returns;
* `Pattern.Mode`, `Pattern.Mode.Follows`, `Pattern.Mode.Idle` — how closely the places of the two
  texts correspond;
* `Pattern.Mirrors` — **a pattern finds in the second text what another one finds in the first**.

Main results:

* `Pattern.Mirrors.bind`, `Pattern.Mirrors.orElse`, `Pattern.Mirrors.captured`, … — what the
  constructs make of patterns that mirror each other;
* `Pattern.mirrors_word`, `Pattern.mirrors_blanks`, `Pattern.mirrors_gap`, … — the patterns that
  mirror themselves;
* `Pattern.Mirrors.first?` — the preferred outcomes correspond.
-/

import SourceOutline.Proofs.LeadingNewlines
import SourceOutline.Proofs.LineEnds

set_option autoImplicit false

namespace SourceOutline

open Text

namespace Pattern

/-! ### Lists of outcomes -/

section
variable {α β γ δ : Type}

/-- Whatever is tried on the items of both lists in turn, the first success is the same, if related
items do the same and idle ones fail. -/
structure Echoes (R : α → β → Prop) (Idle : β → Prop) (xs : List α) (ys : List β) : Prop where
  rel_findSome? : ∀ {ζ η : Type} {S : ζ → η → Prop} {next : α → Option ζ} {next' : β → Option η},
    (∀ x ∈ xs, ∀ y ∈ ys, R x y → Option.Rel S (next x) (next' y)) →
      (∀ y ∈ ys, Idle y → next' y = none) →
        Option.Rel S (xs.findSome? next) (ys.findSome? next')

variable {R : α → β → Prop} {Idle : β → Prop} {xs xs' : List α} {ys ys' : List β}

theorem rel_or {S : γ → δ → Prop} {a a' : Option γ} {b b' : Option δ}
    (h : Option.Rel S a b) (h' : Option.Rel S a' b') : Option.Rel S (a.or a') (b.or b') := by
  cases h with
  | some h => exact .some h
  | none => exact h'

theorem eq_none_of_rel_none {S : γ → δ → Prop} {b : Option δ} (h : Option.Rel S none b) :
    b = none := by
  cases h
  rfl

theorem exists_of_rel_some {S : γ → δ → Prop} {a : γ} {b : Option δ}
    (h : Option.Rel S (some a) b) : ∃ b', b = some b' ∧ S a b' := by
  cases h with
  | some h => exact ⟨_, rfl, h⟩

theorem isSome_eq_of_rel {S : γ → δ → Prop} {a : Option γ} {b : Option δ}
    (h : Option.Rel S a b) : b.isSome = a.isSome := by
  cases h <;> rfl

theorem findSome?_flatMap (f : α → List β) (next : β → Option γ) (xs : List α) :
    (xs.flatMap f).findSome? next = xs.findSome? fun x => (f x).findSome? next := by
  induction xs with
  | nil => rfl
  | cons x xs ih =>
      rw [List.flatMap_cons, List.findSome?_append, ih, List.findSome?_cons]
      cases (f x).findSome? next <;> rfl

theorem echoes_nil : Echoes R Idle [] [] := ⟨fun _ _ => .none⟩

theorem echoes_singleton {x : α} {y : β} (h : R x y) : Echoes R Idle [x] [y] := by
  refine ⟨fun hnext _ => ?_⟩
  rw [List.findSome?_singleton, List.findSome?_singleton]
  exact hnext x List.mem_cons_self y List.mem_cons_self h

theorem Echoes.append (h : Echoes R Idle xs ys) (h' : Echoes R Idle xs' ys') :
    Echoes R Idle (xs ++ xs') (ys ++ ys') := by
  refine ⟨fun hnext hidle => ?_⟩
  rw [List.findSome?_append, List.findSome?_append]
  refine rel_or (h.rel_findSome? (fun x hx y hy => ?_) fun y hy => ?_)
    (h'.rel_findSome? (fun x hx y hy => ?_) fun y hy => ?_)
  · exact hnext x (List.mem_append_left _ hx) y (List.mem_append_left _ hy)
  · exact hidle y (List.mem_append_left _ hy)
  · exact hnext x (List.mem_append_right _ hx) y (List.mem_append_right _ hy)
  · exact hidle y (List.mem_append_right _ hy)

/-- Items that are idle, or related to items that were tried before, change nothing. -/
theorem Echoes.append_repeated (h : Echoes R Idle xs ys)
    (hrepeated : ∀ y ∈ ys', Idle y ∨ ∃ x ∈ xs, R x y) : Echoes R Idle xs (ys ++ ys') := by
  refine ⟨fun {ζ η S next next'} hnext hidle => ?_⟩
  have hfirst := h.rel_findSome? (fun x hx y hy => hnext x hx y (List.mem_append_left _ hy))
    fun y hy => hidle y (List.mem_append_left _ hy)
  rw [List.findSome?_append]
  cases hxs : xs.findSome? next with
  | some a =>
      rw [hxs] at hfirst
      generalize ys.findSome? next' = b at hfirst
      cases hfirst with
      | some hab => exact .some hab
  | none =>
      rw [hxs] at hfirst
      have hys' : ys'.findSome? next' = none := by
        refine List.findSome?_eq_none_iff.2 fun y hy => ?_
        rcases hrepeated y hy with hy' | ⟨x, hx, hxy⟩
        · exact hidle y (List.mem_append_right _ hy) hy'
        · have hrel := hnext x hx y (List.mem_append_right _ hy) hxy
          rw [List.findSome?_eq_none_iff.1 hxs x hx] at hrel
          exact eq_none_of_rel_none hrel
      rw [hys', Option.or_none]
      exact hfirst

/-- What is done next with related items echoes, and with idle items it is idle. -/
theorem Echoes.flatMap {S : γ → δ → Prop} {Idle' : δ → Prop} {f : α → List γ} {g : β → List δ}
    (h : Echoes R Idle xs ys)
    (hrelated : ∀ x ∈ xs, ∀ y ∈ ys, R x y → Echoes S Idle' (f x) (g y))
    (hidle : ∀ y ∈ ys, Idle y → ∀ z ∈ g y, Idle' z) :
    Echoes S Idle' (xs.flatMap f) (ys.flatMap g) := by
  refine ⟨fun hnext hnone => ?_⟩
  rw [findSome?_flatMap, findSome?_flatMap]
  refine h.rel_findSome? (fun x hx y hy hxy => ?_) fun y hy hy' => ?_
  · refine (hrelated x hx y hy hxy).rel_findSome? (fun a ha b hb => ?_) fun b hb => ?_
    · exact hnext a (List.mem_flatMap.2 ⟨x, hx, ha⟩) b (List.mem_flatMap.2 ⟨y, hy, hb⟩)
    · exact hnone b (List.mem_flatMap.2 ⟨y, hy, hb⟩)
  · refine List.findSome?_eq_none_iff.2 fun z hz => ?_
    exact hnone z (List.mem_flatMap.2 ⟨y, hy, hz⟩) (hidle y hy hy' z hz)

theorem Echoes.map {S : γ → δ → Prop} {Idle' : δ → Prop} {f : α → γ} {g : β → δ}
    (h : Echoes R Idle xs ys) (hrelated : ∀ x ∈ xs, ∀ y ∈ ys, R x y → S (f x) (g y))
    (hidle : ∀ y ∈ ys, Idle y → Idle' (g y)) : Echoes S Idle' (xs.map f) (ys.map g) := by
  rw [List.map_eq_flatMap, List.map_eq_flatMap]
  refine h.flatMap (fun x hx y hy hxy => echoes_singleton (hrelated x hx y hy hxy)) ?_
  intro y hy hy' z hz
  rw [List.mem_singleton.1 hz]
  exact hidle y hy hy'

theorem Echoes.mono {S : α → β → Prop} {Idle' : β → Prop} (h : Echoes R Idle xs ys)
    (hrelated : ∀ x ∈ xs, ∀ y ∈ ys, R x y → S x y) (hidle : ∀ y ∈ ys, Idle y → Idle' y) :
    Echoes S Idle' xs ys := by
  have hmap : Echoes S Idle' (xs.map id) (ys.map id) := h.map hrelated hidle
  rwa [List.map_id, List.map_id] at hmap

/-- Without idle items the first items correspond. -/
theorem Echoes.head? (h : Echoes R (fun _ => False) xs ys) :
    Option.Rel R xs.head? ys.head? := by
  have hfirst : Option.Rel R (xs.findSome? some) (ys.findSome? some) :=
    h.rel_findSome? (fun _ _ _ _ hxy => .some hxy) fun _ _ hfalse => hfalse.elim
  have hsome : ∀ {ζ : Type} (zs : List ζ), zs.findSome? some = zs.head? := fun zs => by
    cases zs <;> rfl
  rwa [hsome, hsome] at hfirst

end

/-! ### Places -/

/-- The same place when each line feed has a carriage return before it. -/
def Cursor.crlf (c : Cursor) : Cursor :=
  ⟨c.before, Text.crlf c.rest⟩

/-- How closely the places of the two texts correspond. -/
inductive Mode where
  /-- Every place is the same place. -/
  | exact
  /-- A place between a carriage return and its line feed stands for the place before both. -/
  | loose
  /-- Such a place may also stand for nothing. -/
  | stray
  deriving DecidableEq

namespace Mode

/-- How much a mode allows. -/
def rank : Mode → Nat
  | exact => 0
  | loose => 1
  | stray => 2

instance : LE Mode := ⟨fun m m' => m.rank ≤ m'.rank⟩

instance (m m' : Mode) : Decidable (m ≤ m') := inferInstanceAs (Decidable (m.rank ≤ m'.rank))

/-- The second place stands for the first. -/
def Follows (m : Mode) (c c' : Cursor) : Prop :=
  c' = c.crlf ∨
    m ≠ exact ∧ ∃ rest, c.rest = '\n' :: rest ∧ c' = ⟨some '\r', '\n' :: Text.crlf rest⟩

/-- The place stands for nothing. -/
def Idle (m : Mode) (c' : Cursor) : Prop :=
  m = stray ∧ ∃ rest, c' = ⟨some '\r', '\n' :: rest⟩

theorem exact_le (m : Mode) : exact ≤ m := Nat.zero_le _

theorem le_stray (m : Mode) : m ≤ stray := by cases m <;> decide

theorem le_refl (m : Mode) : m ≤ m := Nat.le_refl _

theorem follows_crlf (m : Mode) (c : Cursor) : m.Follows c c.crlf := Or.inl rfl

theorem Follows.eq_crlf {c c' : Cursor} (h : exact.Follows c c') : c' = c.crlf :=
  h.resolve_right fun hne => hne.1 rfl

theorem Follows.mono {m m' : Mode} (hle : m ≤ m') {c c' : Cursor} (h : m.Follows c c') :
    m'.Follows c c' := by
  refine h.imp_right fun ⟨hne, hrest⟩ => ⟨?_, hrest⟩
  rintro rfl
  exact hne (by cases m with | exact => rfl | loose | stray => exact absurd hle (by decide))

theorem Idle.mono {m m' : Mode} (hle : m ≤ m') {c' : Cursor} (h : m.Idle c') : m'.Idle c' := by
  obtain ⟨rfl, hrest⟩ := h
  refine ⟨?_, hrest⟩
  cases m' with
  | stray => rfl
  | exact | loose => exact absurd hle (by decide)

theorem not_idle_exact (c' : Cursor) : ¬ exact.Idle c' := fun h => by cases h.1

theorem not_idle_loose (c' : Cursor) : ¬ loose.Idle c' := fun h => by cases h.1

end Mode

/-! ### Patterns that mirror each other -/

section
variable {α β γ δ : Type} {m m' k k' : Mode} {R : α → β → Prop} {p : Pattern α} {q : Pattern β}

/-- In the text with carriage returns `q` finds what `p` finds in the text without them. -/
structure Mirrors (m m' : Mode) (R : α → β → Prop) (p : Pattern α) (q : Pattern β) : Prop where
  echoes : ∀ {c c' : Cursor}, '\r' ∉ c.rest → m.Follows c c' →
    Echoes (fun x y => R x.1 y.1 ∧ m'.Follows x.2 y.2) (fun y => m'.Idle y.2 ∧ ∃ a, R a y.1)
      (p.outcomes c) (q.outcomes c')
  idle : ∀ {c' : Cursor}, m.Idle c' → ∀ y ∈ q.outcomes c', m'.Idle y.2 ∧ ∃ a, R a y.1

theorem return_not_mem_of_mem_outcomes {c : Cursor} (h : '\r' ∉ c.rest) {found : α × Cursor}
    (hfound : found ∈ p.outcomes c) : '\r' ∉ found.2.rest := by
  obtain ⟨s, hs⟩ := reaches_of_mem_outcomes p c found hfound
  rw [hs.1] at h
  exact fun hmem => h (List.mem_append_right _ hmem)

theorem Mirrors.mono (h : Mirrors m m' R p q) (hm : k ≤ m) (hm' : m' ≤ k') :
    Mirrors k k' R p q where
  echoes hreturn hfollows := (h.echoes hreturn (hfollows.mono hm)).mono
    (fun _ _ _ _ hxy => ⟨hxy.1, hxy.2.mono hm'⟩) fun _ _ hy => ⟨hy.1.mono hm', hy.2⟩
  idle hidle y hy := ⟨(h.idle (hidle.mono hm) y hy).1.mono hm', (h.idle (hidle.mono hm) y hy).2⟩

theorem Mirrors.imp {S : α → β → Prop} (h : Mirrors m m' R p q) (himp : ∀ a b, R a b → S a b) :
    Mirrors m m' S p q where
  echoes hreturn hfollows := (h.echoes hreturn hfollows).mono
    (fun _ _ _ _ hxy => ⟨himp _ _ hxy.1, hxy.2⟩) fun _ _ hy => ⟨hy.1, hy.2.imp fun a => himp a _⟩
  idle hidle y hy := ⟨(h.idle hidle y hy).1, (h.idle hidle y hy).2.imp fun a => himp a _⟩

theorem mirrors_pure {a : α} {b : β} (h : R a b) (hm : m ≤ m') :
    Mirrors m m' R (pure a) (pure b) where
  echoes _ hfollows := echoes_singleton ⟨h, hfollows.mono hm⟩
  idle hidle y hy := by
    rw [outcomes_pure, List.mem_singleton] at hy
    rw [hy]
    exact ⟨hidle.mono hm, a, h⟩

/-- **A sequence mirrors a sequence.** -/
theorem Mirrors.bind {S : γ → δ → Prop} {next : α → Pattern γ} {next' : β → Pattern δ}
    (h : Mirrors m k R p q) (h' : ∀ a b, R a b → Mirrors k m' S (next a) (next' b)) :
    Mirrors m m' S (p >>= next) (q >>= next') where
  echoes hreturn hfollows := by
    refine (h.echoes hreturn hfollows).flatMap (fun x hx y _ hxy => ?_) fun y _ hy => ?_
    · exact (h' x.1 y.1 hxy.1).echoes (return_not_mem_of_mem_outcomes hreturn hx) hxy.2
    · obtain ⟨hidle, a, ha⟩ := hy
      exact (h' a y.1 ha).idle hidle
  idle hidle z hz := by
    obtain ⟨y, hy, hz⟩ := mem_outcomes_bind.1 hz
    obtain ⟨hidle', a, ha⟩ := h.idle hidle y hy
    exact (h' a y.1 ha).idle hidle' z hz

theorem Mirrors.orElse {p' : Pattern α} {q' : Pattern β} (h : Mirrors m m' R p q)
    (h' : Mirrors m m' R p' q') : Mirrors m m' R (p <|> p') (q <|> q') where
  echoes hreturn hfollows := (h.echoes hreturn hfollows).append (h'.echoes hreturn hfollows)
  idle hidle y hy := (List.mem_append.1 hy).elim (h.idle hidle y) (h'.idle hidle y)

theorem Mirrors.map {S : γ → δ → Prop} {f : α → γ} {g : β → δ} (h : Mirrors m m' R p q)
    (himp : ∀ a b, R a b → S (f a) (g b)) : Mirrors m m' S (f <$> p) (g <$> q) :=
  h.bind fun a b hab => mirrors_pure (himp a b hab) (Mode.le_refl m')

theorem Mirrors.optional (h : Mirrors m m' R p q) (hm : m ≤ m') :
    Mirrors m m' (Option.Rel R) (optional p) (optional q) :=
  (h.map fun _ _ hab => .some hab).orElse (mirrors_pure .none hm)

/-- What fails in front of a line feed mirrors what fails there, wherever it is tried. -/
theorem Mirrors.anywhere (h : Mirrors .exact m' R p q) (hp : ∀ rest, Refuses p ('\n' :: rest))
    (hq : ∀ rest, Refuses q ('\n' :: rest)) : Mirrors m m' R p q where
  echoes {c c'} hreturn hfollows := by
    rcases hfollows with rfl | ⟨-, rest, hrest, rfl⟩
    · exact h.echoes hreturn (Mode.follows_crlf _ c)
    · obtain ⟨before, _⟩ := c
      obtain rfl := hrest
      rw [hp rest before, hq _ _]
      exact echoes_nil
  idle {c'} hidle y hy := by
    obtain ⟨-, rest, rfl⟩ := hidle
    rw [hq rest _] at hy
    exact absurd hy List.not_mem_nil

/-- **The preferred outcomes correspond.** -/
theorem Mirrors.first? (h : Mirrors .exact .exact R p q) {c : Cursor} (hreturn : '\r' ∉ c.rest) :
    Option.Rel (fun x y => R x.1 y.1 ∧ y.2 = x.2.crlf) (p.first? c) (q.first? c.crlf) := by
  refine Echoes.head? ((h.echoes hreturn (Mode.follows_crlf _ c)).mono ?_ ?_)
  · exact fun _ _ _ _ hxy => ⟨hxy.1, hxy.2.eq_crlf⟩
  · exact fun _ _ hy => Mode.not_idle_exact _ hy.1

end

/-! ### Words and characters -/

/-- A text to be read that is not empty and holds no line end. -/
def Inline (w : List Char) : Prop :=
  w ≠ [] ∧ '\n' ∉ w ∧ '\r' ∉ w

instance (w : List Char) : Decidable (Inline w) := by unfold Inline; infer_instance

theorem Cursor.skip?_crlf {w : List Char} (hnewline : '\n' ∉ w) (hreturn : '\r' ∉ w) (c : Cursor) :
    skip? w c.crlf = (skip? w c).map Cursor.crlf := by
  induction w generalizing c with
  | nil => rfl
  | cons x w ih =>
      simp only [List.mem_cons, not_or] at hnewline hreturn
      obtain ⟨before, rest⟩ := c
      cases rest with
      | nil => rfl
      | cons y rest =>
          by_cases hy : y = '\n'
          · subst hy
            simp [Cursor.crlf, skip?_cons, Ne.symm hnewline.1, Ne.symm hreturn.1]
          · rw [Cursor.crlf, crlf_cons hy, skip?_cons, skip?_cons]
            split
            · exact ih hnewline.2 hreturn.2 ⟨some y, rest⟩
            · rfl

section
variable {α β γ δ : Type} {m m' : Mode}

theorem refuses_exactly_newline {w : List Char} (hw : Inline w) (rest : List Char) :
    Refuses (exactly w) ('\n' :: rest) := by
  obtain ⟨hne, hnewline, -⟩ := hw
  obtain ⟨x, w, rfl⟩ := List.exists_cons_of_ne_nil hne
  have hx : x ≠ '\n' := fun h => hnewline (h ▸ List.mem_cons_self)
  intro before
  simp [outcomes_exactly, Cursor.skip?_cons, hx]

theorem mirrors_exactly {w : List Char} (hw : Inline w) :
    Mirrors m m' (fun _ _ => True) (exactly w) (exactly w) := by
  refine Mirrors.anywhere ⟨fun {c c'} _ hfollows => ?_, fun hidle => ?_⟩
    (refuses_exactly_newline hw) (refuses_exactly_newline hw)
  · obtain rfl := hfollows.eq_crlf
    rw [outcomes_exactly, outcomes_exactly, Cursor.skip?_crlf hw.2.1 hw.2.2]
    cases Cursor.skip? w c with
    | none => exact echoes_nil
    | some stop => exact echoes_singleton ⟨trivial, Mode.follows_crlf _ _⟩
  · exact absurd hidle (Mode.not_idle_exact _)

theorem mirrors_word {s : String} (hs : Inline s.toList) :
    Mirrors m m' (fun _ _ => True) (word s) (word s) :=
  mirrors_exactly hs

theorem mirrors_one {test : Char → Bool} (hnewline : test '\n' = false)
    (hreturn : test '\r' = false) :
    Mirrors m m' (fun a b => b = a ∧ test a = true) (one test) (one test) := by
  have hrefuses : ∀ rest, Refuses (one test) ('\n' :: rest) := fun rest =>
    refuses_one (stops_cons.2 hnewline)
  refine Mirrors.anywhere ⟨fun {c c'} _ hfollows => ?_, fun hidle => ?_⟩ hrefuses hrefuses
  · obtain rfl := hfollows.eq_crlf
    obtain ⟨before, rest⟩ := c
    cases rest with
    | nil => exact echoes_nil
    | cons x rest =>
        by_cases hx : x = '\n'
        · subst hx
          simp only [Cursor.crlf, crlf_newline_cons, outcomes_one_cons, hnewline, hreturn]
          exact echoes_nil
        · simp only [Cursor.crlf, crlf_cons hx, outcomes_one_cons]
          split
          · rename_i htest
            exact echoes_singleton ⟨⟨rfl, htest⟩, Mode.follows_crlf _ ⟨some x, rest⟩⟩
          · exact echoes_nil
  · exact absurd hidle (Mode.not_idle_exact _)

/-! ### Runs -/

/-- A run that takes in line ends may end within one. -/
theorem echoes_runs {test : Char → Bool} (hnewline : test '\n' = true) (hreturn : test '\r' = true)
    (before : Option Char) (rest : List Char) :
    Echoes Mode.loose.Follows (fun _ => False) (Cursor.runs test [] before rest)
      (Cursor.runs test [] before (crlf rest)) := by
  induction rest generalizing before with
  | nil => exact echoes_singleton (Mode.follows_crlf _ ⟨before, []⟩)
  | cons x rest ih =>
      by_cases hx : x = '\n'
      · subst hx
        simp only [crlf_newline_cons, Cursor.runs_cons, hreturn, hnewline, if_true,
          List.append_assoc]
        -- the place within the line end stands for the place before it, and is tried first
        refine (ih (some '\n')).append (Echoes.append_repeated (echoes_singleton ?_) ?_)
        · exact Or.inr ⟨by decide, rest, rfl, rfl⟩
        · intro y hy
          rw [List.mem_singleton.1 hy]
          exact Or.inr ⟨_, List.mem_cons_self, Mode.follows_crlf _ _⟩
      · rw [crlf_cons hx, Cursor.runs_cons, Cursor.runs_cons]
        refine Echoes.append ?_ (echoes_singleton ?_)
        · split
          · exact ih (some x)
          · exact echoes_nil
        · exact Or.inl (by rw [Cursor.crlf, crlf_cons hx])

theorem mirrors_many {test : Char → Bool} (hnewline : test '\n' = true)
    (hreturn : test '\r' = true) :
    Mirrors .loose .loose (fun _ _ => True) (many test) (many test) := by
  refine ⟨fun {c c'} _ hfollows => ?_, fun hidle => absurd hidle (Mode.not_idle_loose _)⟩
  have hruns : Echoes Mode.loose.Follows (fun _ => False) (Cursor.runs test [] c.before c.rest)
      (Cursor.runs test [] c'.before c'.rest) := by
    rcases hfollows with rfl | ⟨-, rest, hrest, rfl⟩
    · exact echoes_runs hnewline hreturn c.before c.rest
    · simp only [hrest, Cursor.runs_cons, hnewline, if_true]
      refine (echoes_runs hnewline hreturn _ rest).append (echoes_singleton ?_)
      exact Or.inr ⟨by decide, rest, rfl, rfl⟩
  rw [outcomes_many, outcomes_many]
  exact hruns.map (fun _ _ _ _ hxy => ⟨trivial, hxy⟩) fun _ _ hfalse => hfalse.elim

theorem mirrors_blanks : Mirrors .loose .loose (fun _ _ => True) blanks blanks :=
  mirrors_many (by decide) (by decide)

theorem outcomes_oneOrMore_cons (test : Char → Bool) (before : Option Char) (x : Char)
    (rest : List Char) :
    (oneOrMore test).outcomes ⟨before, x :: rest⟩ =
      if test x then (many test).outcomes ⟨some x, rest⟩ else [] := by
  rw [oneOrMore, outcomes_bind, outcomes_one_cons]
  split <;> simp

/-- A gap may end within its last line end, where nothing else can begin. -/
theorem mirrors_gap : Mirrors .loose .stray (fun _ _ => True) gap gap := by
  have hblanks : Mirrors .loose .stray (fun _ _ => True) (many isBlank) (many isBlank) :=
    mirrors_blanks.mono (Mode.le_refl _) (Mode.le_stray _)
  refine ⟨fun {c c'} hreturn hfollows => ?_, fun hidle => absurd hidle (Mode.not_idle_loose _)⟩
  obtain ⟨before, rest⟩ := c
  cases rest with
  | nil =>
      rcases hfollows with rfl | ⟨-, rest, hrest, -⟩
      · exact echoes_nil
      · exact absurd hrest (by simp)
  | cons x rest =>
      have hrest : '\r' ∉ rest := fun h => hreturn (List.mem_cons_of_mem _ h)
      have hnext := hblanks.echoes (c := ⟨some x, rest⟩) hrest (Mode.follows_crlf _ _)
      rw [gap, outcomes_oneOrMore_cons]
      rcases hfollows with rfl | ⟨-, rest', hrest', rfl⟩
      · by_cases hx : x = '\n'
        · subst hx
          rw [Cursor.crlf, crlf_newline_cons, outcomes_oneOrMore_cons, if_pos (by decide),
            if_pos (by decide), outcomes_many isBlank ⟨some '\r', _⟩, Cursor.runs_cons,
            if_pos (by decide), List.map_append]
          refine hnext.append_repeated fun y hy => Or.inl ?_
          rw [List.map_singleton, List.mem_singleton] at hy
          rw [hy]
          exact ⟨⟨rfl, _, rfl⟩, (), trivial⟩
        · rw [Cursor.crlf, crlf_cons hx, outcomes_oneOrMore_cons]
          split
          · exact hnext
          · exact echoes_nil
      · obtain ⟨rfl, rfl⟩ := List.cons.inj hrest'
        rw [outcomes_oneOrMore_cons, if_pos (by decide), if_pos (by decide)]
        exact hnext

/-- A run that takes in no line end stops in front of each. -/
theorem mirrors_many_inline {test : Char → Bool} (hnewline : test '\n' = false)
    (hreturn : test '\r' = false) (hm : m ≤ m') :
    Mirrors m m' (fun _ _ => True) (many test) (many test) := by
  have hstop : ∀ before rest, (many test).outcomes ⟨before, '\n' :: rest⟩ =
      [((), ⟨before, '\n' :: rest⟩)] := by
    intro before rest
    simp [outcomes_many, Cursor.runs, hnewline]
  have hruns : ∀ rest before, Echoes (fun c c' : Cursor => c' = c.crlf) (fun _ => False)
      (Cursor.runs test [] before rest) (Cursor.runs test [] before (crlf rest)) := by
    intro rest
    induction rest with
    | nil => exact fun before => echoes_singleton rfl
    | cons x rest ih =>
        intro before
        by_cases hx : x = '\n'
        · subst hx
          rw [crlf_newline_cons, Cursor.runs_cons, Cursor.runs_cons, hnewline, hreturn]
          exact echoes_singleton rfl
        · rw [crlf_cons hx, Cursor.runs_cons, Cursor.runs_cons]
          refine Echoes.append ?_ (echoes_singleton (by rw [Cursor.crlf, crlf_cons hx]))
          split
          · exact ih (some x)
          · exact echoes_nil
  refine ⟨fun {c c'} _ hfollows => ?_, fun {c'} hidle y hy => ?_⟩
  · obtain ⟨before, rest⟩ := c
    rcases hfollows with rfl | ⟨hne, rest', hrest, rfl⟩
    · rw [outcomes_many, outcomes_many]
      exact (hruns rest before).map (fun _ _ _ _ hxy => ⟨trivial, Or.inl hxy⟩)
        fun _ _ hfalse => hfalse.elim
    · obtain rfl := hrest
      rw [hstop, hstop]
      exact echoes_singleton ⟨trivial, Mode.Follows.mono hm (Or.inr ⟨hne, rest', rfl, rfl⟩)⟩
  · obtain ⟨hmode, rest, rfl⟩ := hidle
    rw [hstop, List.mem_singleton] at hy
    rw [hy]
    exact ⟨Mode.Idle.mono hm ⟨hmode, rest, rfl⟩, (), trivial⟩

theorem mirrors_padding (hm : m ≤ m') : Mirrors m m' (fun _ _ => True) padding padding :=
  mirrors_many_inline (by decide) (by decide) hm

/-- The shortest run within a line may take in the carriage return at its end. -/
theorem mirrors_fewest :
    Mirrors .exact .stray (fun _ _ => True) (fewest (· != '\n')) (fewest (· != '\n')) := by
  have hnewline : ∀ before rest, (Cursor.runs (· != '\n') [] before ('\n' :: rest)).reverse =
      [⟨before, '\n' :: rest⟩] := by
    simp [Cursor.runs]
  have hreturn : ∀ before rest,
      (Cursor.runs (· != '\n') [] before ('\r' :: '\n' :: rest)).reverse =
        [⟨before, '\r' :: '\n' :: rest⟩] ++ [⟨some '\r', '\n' :: rest⟩] := by
    simp [Cursor.runs]
  have hidle : ∀ rest, ∀ y ∈ [(⟨some '\r', '\n' :: rest⟩ : Cursor)], Mode.stray.Idle y := by
    intro rest y hy
    rw [List.mem_singleton.1 hy]
    exact ⟨rfl, rest, rfl⟩
  have hruns : ∀ rest before, Echoes (fun c c' : Cursor => c' = c.crlf) Mode.stray.Idle
      (Cursor.runs (· != '\n') [] before rest).reverse
      (Cursor.runs (· != '\n') [] before (crlf rest)).reverse := by
    intro rest
    induction rest with
    | nil => exact fun before => echoes_singleton rfl
    | cons x rest ih =>
        intro before
        by_cases hx : x = '\n'
        · subst hx
          rw [crlf_newline_cons, hnewline, hreturn]
          exact Echoes.append_repeated (echoes_singleton rfl) fun y hy => Or.inl (hidle _ y hy)
        · have htest : (x != '\n') = true := by simpa using hx
          rw [crlf_cons hx, reverse_runs_cons, reverse_runs_cons, if_pos htest, if_pos htest]
          exact (echoes_singleton (by rw [Cursor.crlf, crlf_cons hx])).append (ih (some x))
  refine ⟨fun {c c'} _ hfollows => ?_, fun hidle => absurd hidle (Mode.not_idle_exact _)⟩
  obtain rfl := hfollows.eq_crlf
  obtain ⟨before, rest⟩ := c
  have htail : Echoes (fun c c' : Cursor => c' = c.crlf) Mode.stray.Idle
      (Cursor.runs (· != '\n') [] before rest).reverse.tail
      (Cursor.runs (· != '\n') [] before (crlf rest)).reverse.tail := by
    cases rest with
    | nil => exact echoes_nil
    | cons x rest =>
        by_cases hx : x = '\n'
        · subst hx
          rw [crlf_newline_cons, hnewline, hreturn]
          exact echoes_nil.append_repeated fun y hy => Or.inl (hidle _ y hy)
        · have htest : (x != '\n') = true := by simpa using hx
          rw [crlf_cons hx, reverse_runs_cons, reverse_runs_cons, if_pos htest, if_pos htest]
          exact hruns rest (some x)
  exact htail.map (fun _ _ _ _ hxy => ⟨trivial, Or.inl hxy⟩) fun _ _ hy => ⟨hy, (), trivial⟩

end

/-! ### Places and texts -/

section
variable {α β γ δ : Type} {m m' : Mode} {R : α → β → Prop} {p : Pattern α} {q : Pattern β}

/-- A test of the next character that treats both line ends alike. -/
theorem mirrors_edge {test : Option Char → Option Char → Bool}
    (h : ∀ before, test before (some '\n') = test before (some '\r')) :
    Mirrors .exact m' (fun _ _ => True) (edge test) (edge test) := by
  refine ⟨fun {c c'} _ hfollows => ?_, fun hidle => absurd hidle (Mode.not_idle_exact _)⟩
  obtain rfl := hfollows.eq_crlf
  have hsame : test c.crlf.before c.crlf.rest.head? = test c.before c.rest.head? := by
    obtain ⟨before, rest⟩ := c
    cases rest with
    | nil => rfl
    | cons x rest =>
        by_cases hx : x = '\n'
        · subst hx
          exact (h before).symm
        · simp only [Cursor.crlf, crlf_cons hx, List.head?_cons]
  rw [outcomes_edge, outcomes_edge, hsame]
  split
  · exact echoes_singleton ⟨trivial, Mode.follows_crlf _ _⟩
  · exact echoes_nil

theorem mirrors_lineStart : Mirrors .exact m' (fun _ _ => True) lineStart lineStart :=
  mirrors_edge fun _ => rfl

theorem mirrors_wordEdge : Mirrors .exact m' (fun _ _ => True) wordEdge wordEdge :=
  mirrors_edge fun before => by
    have hnewline : isWord '\n' = false := by decide
    have hreturn : isWord '\r' = false := by decide
    rw [Option.any_some, Option.any_some, hnewline, hreturn]

theorem mirrors_here : Mirrors .exact .exact (fun a b => b = a.crlf) here here := by
  refine ⟨fun {c c'} _ hfollows => ?_, fun hidle => absurd hidle (Mode.not_idle_exact _)⟩
  obtain rfl := hfollows.eq_crlf
  exact echoes_singleton ⟨rfl, Mode.follows_crlf _ _⟩

/-- What a pattern may not find ahead is found in both texts or in neither. -/
theorem Mirrors.notAhead (h : Mirrors .exact .exact R p q) :
    Mirrors .exact m' (fun _ _ => True) (notAhead p) (notAhead q) := by
  refine ⟨fun {c c'} hreturn hfollows => ?_, fun hidle => absurd hidle (Mode.not_idle_exact _)⟩
  obtain rfl := hfollows.eq_crlf
  have hempty : ∀ {ζ : Type} (xs : List ζ), xs.isEmpty = !xs.head?.isSome := by
    intro ζ xs
    cases xs <;> rfl
  have hsame : (q.outcomes c.crlf).isEmpty = (p.outcomes c).isEmpty := by
    rw [hempty, hempty]
    exact congrArg (!·) (isSome_eq_of_rel (h.first? hreturn))
  rw [outcomes_notAhead, outcomes_notAhead, hsame]
  split
  · exact echoes_singleton ⟨trivial, Mode.follows_crlf _ _⟩
  · exact echoes_nil

/-- What stands between two places has its own line ends changed. -/
theorem Capture.text_crlf {c d : Cursor} (h : c.Reaches d) :
    Capture.text ⟨c.crlf, d.crlf⟩ = Text.crlf (Capture.text ⟨c, d⟩) := by
  obtain ⟨s, hs⟩ := h
  rw [hs.text_eq]
  refine Capture.text_of_rest_eq ?_
  rw [Cursor.crlf, hs.1, crlf_append]
  rfl

/-- A text is found again with its own line ends changed. -/
theorem Mirrors.captured (h : Mirrors .exact .exact R p q) :
    Mirrors .exact .exact
      (fun a b => b.text = crlf a.text ∧ ∃ v, (v, a.stop) ∈ p.outcomes a.start)
      p.captured q.captured := by
  refine ⟨fun {c c'} hreturn hfollows => ?_, fun hidle => absurd hidle (Mode.not_idle_exact _)⟩
  obtain rfl := hfollows.eq_crlf
  rw [outcomes_captured, outcomes_captured]
  refine (h.echoes hreturn (Mode.follows_crlf _ c)).map (fun x hx y _ hxy => ?_) fun y _ hy => ?_
  · refine ⟨⟨?_, x.1, hx⟩, hxy.2⟩
    rw [hxy.2.eq_crlf]
    exact Capture.text_crlf (reaches_of_mem_outcomes p c x hx)
  · exact absurd hy.1 (Mode.not_idle_exact _)

/-- A text that a given word ends is found again, even if its pattern may end within a line end: the
word does not stand there. -/
theorem Mirrors.captured_bind {S : γ → δ → Prop} {next : Capture → Pattern γ}
    {next' : Capture → Pattern δ} {w : List Char} (hw : Inline w) (h : Mirrors .exact .stray R p q)
    (h' : ∀ a b : Capture, b.text = crlf a.text → (∃ v, (v, a.stop) ∈ p.outcomes a.start) →
      Mirrors .exact m' S (next a) (next' b)) :
    Mirrors .exact m' S (p.captured >>= fun a => exactly w >>= fun _ => next a)
      (q.captured >>= fun b => exactly w >>= fun _ => next' b) := by
  refine ⟨fun {c c'} hreturn hfollows => ?_, fun hidle => absurd hidle (Mode.not_idle_exact _)⟩
  obtain rfl := hfollows.eq_crlf
  rw [outcomes_bind, outcomes_bind, outcomes_captured, outcomes_captured, List.flatMap_map,
    List.flatMap_map]
  have hrefuses : ∀ {ζ : Type} (cont : Unit → Pattern ζ) before rest,
      (exactly w >>= cont).outcomes ⟨before, '\n' :: rest⟩ = [] := fun cont before rest =>
    (refuses_exactly_newline hw rest).bind before
  have hechoes := h.echoes hreturn (Mode.follows_crlf _ c)
  refine hechoes.flatMap (fun x hx y hy hxy => ?_) fun y _ hy => ?_
  · rcases hxy.2 with hplace | ⟨-, rest, hrest, hplace⟩
    · have htext : Capture.text ⟨c.crlf, y.2⟩ = Text.crlf (Capture.text ⟨c, x.2⟩) := by
        rw [hplace]
        exact Capture.text_crlf (reaches_of_mem_outcomes p c x hx)
      have hexactly : Mirrors .exact .exact (fun _ _ => True) (exactly w) (exactly w) :=
        mirrors_exactly hw
      have hnext := hexactly.bind fun _ _ _ => h' ⟨c, x.2⟩ ⟨c.crlf, y.2⟩ htext ⟨x.1, hx⟩
      exact hnext.echoes (return_not_mem_of_mem_outcomes (p := p) hreturn hx) (Or.inl hplace)
    · obtain ⟨a, before, _⟩ := x
      obtain rfl := hrest
      simp only [hplace, hrefuses]
      exact echoes_nil
  · obtain ⟨⟨-, rest, hrest⟩, -⟩ := hy
    intro z hz
    simp only [hrest, hrefuses] at hz
    exact absurd hz List.not_mem_nil

end

/-! ### The next occurrence of a word -/

theorem isPrefixOf_crlf {w : List Char} (hnewline : '\n' ∉ w) (hreturn : '\r' ∉ w)
    (s : List Char) : w.isPrefixOf (crlf s) = w.isPrefixOf s := by
  induction w generalizing s with
  | nil => simp
  | cons x w ih =>
      simp only [List.mem_cons, not_or] at hnewline hreturn
      cases s with
      | nil => rfl
      | cons y s =>
          by_cases hy : y = '\n'
          · subst hy
            have hx : (x == '\n') = false := beq_eq_false_iff_ne.2 (Ne.symm hnewline.1)
            have hx' : (x == '\r') = false := beq_eq_false_iff_ne.2 (Ne.symm hreturn.1)
            rw [crlf_newline_cons, List.isPrefixOf, List.isPrefixOf, hx, hx', Bool.false_and,
              Bool.false_and]
          · rw [crlf_cons hy, List.isPrefixOf, List.isPrefixOf, ih hnewline.2 hreturn.2]

/-- The next occurrence of a word is the same. -/
theorem Cursor.seek?_crlf {w : List Char} (hw : Inline w) (before : Option Char)
    (rest : List Char) :
    seek? w before (Text.crlf rest) = (seek? w before rest).map Cursor.crlf := by
  obtain ⟨hne, hnewline, hreturn⟩ := hw
  have hstart : ∀ x s, x ∉ w → w.isPrefixOf (x :: s) = false := by
    intro x s hx
    obtain ⟨y, w, rfl⟩ := List.exists_cons_of_ne_nil hne
    have hyx : y ≠ x := fun h => hx (h ▸ List.mem_cons_self)
    simp [List.isPrefixOf, hyx]
  induction rest generalizing before with
  | nil => simp [seek?, hne]
  | cons x rest ih =>
      by_cases hx : x = '\n'
      · subst hx
        simp only [crlf_newline_cons, seek?, hstart _ _ hnewline, hstart _ _ hreturn]
        exact ih (some '\n')
      · have hsame := isPrefixOf_crlf hnewline hreturn (x :: rest)
        rw [crlf_cons hx] at hsame ⊢
        simp only [seek?, hsame]
        split
        · rw [Option.map_some, Cursor.crlf, crlf_cons hx]
        · exact ih (some x)

theorem mirrors_upTo {w : List Char} (hw : Inline w) :
    Mirrors .exact .exact (fun _ _ => True) (upTo w) (upTo w) := by
  refine ⟨fun {c c'} _ hfollows => ?_, fun hidle => absurd hidle (Mode.not_idle_exact _)⟩
  obtain rfl := hfollows.eq_crlf
  simp only [outcomes, Cursor.crlf, Cursor.seek?_crlf hw]
  cases Cursor.seek? w c.before c.rest with
  | none => exact echoes_nil
  | some stop => exact echoes_singleton ⟨trivial, Mode.follows_crlf _ stop⟩

/-! ### Names, literals and repetitions -/

section
variable {α β : Type} {m m' : Mode} {R : α → β → Prop} {p : Pattern α} {q : Pattern β}

theorem isIdentStart_newline : isIdentStart '\n' = false := by decide

theorem isIdentStart_return : isIdentStart '\r' = false := by decide

theorem isIdentPart_newline : isIdentPart '\n' = false := by decide

theorem isIdentPart_return : isIdentPart '\r' = false := by decide

/-- A name is found again, and holds no line feed. -/
theorem mirrors_identifier_inline :
    Mirrors m m' (fun a b => b.text = a.text ∧ '\n' ∉ a.text) identifier identifier := by
  have hrefuses : ∀ rest, Refuses identifier ('\n' :: rest) := fun rest =>
    refuses_identifier (stops_cons.2 isIdentStart_newline)
  have hletters : Mirrors .exact .exact (fun _ _ => True)
      (do let _ ← one isIdentStart; many isIdentPart)
      (do let _ ← one isIdentStart; many isIdentPart) :=
    (mirrors_one isIdentStart_newline isIdentStart_return).bind fun _ _ _ =>
      mirrors_many_inline isIdentPart_newline isIdentPart_return (Mode.le_refl _)
  refine Mirrors.anywhere ((hletters.captured.imp ?_).mono (Mode.le_refl _) (Mode.exact_le _))
    hrefuses hrefuses
  rintro a b ⟨htext, v, hv⟩
  have hmem : (a, a.stop) ∈ identifier.outcomes a.start := mem_outcomes_captured.2 ⟨rfl, v, hv⟩
  obtain ⟨-, name, hname, hreads⟩ := reads_of_mem_outcomes_identifier hmem
  have hinline : '\n' ∉ a.text := by
    rw [show a.text = name from hreads.text_eq]
    exact not_mem_of_isIdent hname (by decide)
  exact ⟨htext.trans (crlf_of_not_mem hinline), hinline⟩

/-- **A name is found again.** -/
theorem mirrors_identifier : Mirrors m m' (fun a b => b.text = a.text) identifier identifier :=
  mirrors_identifier_inline.imp fun _ _ h => h.1

/-- **A module's name is found again.**  It holds no line feed, and a carriage return only at the
end of a line, where no quote follows. -/
theorem mirrors_literal : Mirrors m m' (fun a b => b.text = a.text) literal literal := by
  have hquotes : Mirrors m .exact (fun a b => b = a ∧ isQuote a = true) (one isQuote)
      (one isQuote) := mirrors_one (by decide) (by decide)
  refine hquotes.bind fun quote quote' hsame => ?_
  obtain ⟨rfl, hquote⟩ := hsame
  have hinline : Inline [quote'] := by
    rcases Bool.or_eq_true_iff.1 hquote with h | h <;> rw [beq_iff_eq.1 h] <;> decide
  refine mirrors_fewest.captured_bind hinline fun a b htext hread =>
    mirrors_pure ?_ (Mode.exact_le _)
  obtain ⟨v, hv⟩ := hread
  obtain ⟨stop, hstop, hfound⟩ := List.mem_map.1 hv
  obtain ⟨s, hs, hreads⟩ := reads_of_mem_runs (List.mem_reverse.1 (List.mem_of_mem_tail hstop))
  obtain rfl : stop = a.stop := congrArg Prod.snd hfound
  have hsame : a.text = s := hreads.text_eq
  rw [htext, crlf_of_not_mem]
  intro hmem
  exact absurd (hs _ (hsame ▸ hmem)) (by decide)

theorem Advances.outcomes_nil (h : Advances p) {c : Cursor} (hc : c.rest = []) :
    p.outcomes c = [] := by
  refine List.eq_nil_iff_forall_not_mem.2 fun found hfound => ?_
  have := h c found hfound
  rw [hc] at this
  exact absurd this (Nat.not_lt_zero _)

/-- At the end of the text there are no repetitions. -/
theorem repeated_of_rest_eq_nil (h : Advances p) (fuel : Nat) {c : Cursor} (hc : c.rest = []) :
    repeated (fun here => (p.outcomes here).map Prod.snd) fuel c = [c] := by
  cases fuel with
  | zero => rfl
  | succ fuel => simp [repeated, h.outcomes_nil hc]

/-- **Repetitions of patterns that mirror each other**, if each covers something. -/
theorem Mirrors.star (h : Mirrors .exact .exact R p q) (hp : Advances p) (hq : Advances q) :
    Mirrors .exact .exact (fun _ _ => True) (star p) (star q) := by
  have hrepeated : ∀ (fuel fuel' : Nat) (c : Cursor), '\r' ∉ c.rest → c.rest.length ≤ fuel →
      c.crlf.rest.length ≤ fuel' →
        Echoes (fun x y : Cursor => y = x.crlf) (fun _ => False)
          (repeated (fun here => (p.outcomes here).map Prod.snd) fuel c)
          (repeated (fun here => (q.outcomes here).map Prod.snd) fuel' c.crlf) := by
    intro fuel
    induction fuel with
    | zero =>
        intro fuel' c _ hle _
        have hrest : c.rest = [] := List.length_eq_zero_iff.1 (Nat.le_zero.1 hle)
        rw [repeated_of_rest_eq_nil hp _ hrest,
          repeated_of_rest_eq_nil hq _ (by simp [Cursor.crlf, hrest])]
        exact echoes_singleton rfl
    | succ fuel ih =>
        intro fuel' c hreturn hle hle'
        cases fuel' with
        | zero =>
            have hrest : c.crlf.rest = [] := List.length_eq_zero_iff.1 (Nat.le_zero.1 hle')
            rw [repeated_of_rest_eq_nil hq _ hrest,
              repeated_of_rest_eq_nil hp _ (crlf_eq_nil_iff.1 hrest)]
            exact echoes_singleton rfl
        | succ fuel' =>
            refine Echoes.append ?_ (echoes_singleton rfl)
            simp only [List.flatMap_map]
            refine (h.echoes hreturn (Mode.follows_crlf _ c)).flatMap (fun x hx y hy hxy => ?_)
              fun y _ hy => absurd hy.1 (Mode.not_idle_exact _)
            have hlt := hp c x hx
            have hlt' := hq c.crlf y hy
            rw [hxy.2.eq_crlf] at hlt' ⊢
            exact ih fuel' x.2 (return_not_mem_of_mem_outcomes hreturn hx) (by omega) (by omega)
  refine ⟨fun {c c'} hreturn hfollows => ?_, fun hidle => absurd hidle (Mode.not_idle_exact _)⟩
  obtain rfl := hfollows.eq_crlf
  exact (hrepeated _ _ c hreturn (Nat.le_refl _) (Nat.le_refl _)).map
    (fun _ _ _ _ hxy => ⟨trivial, Or.inl hxy⟩) fun _ _ hfalse => hfalse.elim

end

end Pattern

end SourceOutline
