/-
**The words that heads begin with.**

The head of a class or function, or an export statement, begins with one of five words, and no name
goes on behind that word.  A line that begins with any other word, or with none, is therefore no head,
whatever it goes on with and whatever lines follow it.

Main definitions:

* `Printed.declarationWords`, `Printed.firstWord` — the five words, and the first word of a line;
* `Pattern.Announces` — a pattern whose outcomes all begin with one of these words.

Main results:

* `announces_classHead`, `announces_functionHead`, `announces_exportStatement` — the three patterns;
* `Pattern.noHead_of_firstWord` — such a pattern matches at no line that begins otherwise;
* `calm_lines` — a text whose lines all begin otherwise is calm.
-/

import SourceOutline.Declaration.Class
import SourceOutline.Declaration.Function
import SourceOutline.Proofs.Calm
import SourceOutline.Proofs.ExportRoundTrip

set_option autoImplicit false

namespace SourceOutline

open Text Pattern

/-! ### First words -/

namespace Printed

/-- The words that declarations begin with. -/
def declarationWords : List (List Char) :=
  ["class".toList, "function".toList, "async".toList, "export".toList, "default".toList]

/-- The first word of a line, behind the spaces and tabs that indent it. -/
def firstWord (line : List Char) : List Char :=
  (line.dropWhile isPadding).takeWhile isIdentPart

theorem isPadding_eq_false_of_isIdentPart {c : Char} (h : isIdentPart c = true) :
    isPadding c = false :=
  isPadding_eq_false_of_isBlank_eq_false (isBlank_eq_false_of_isIdentPart h)

/-- What follows a word does not belong to it. -/
theorem firstWord_append {pad word : List Char} {x : Char} (hpad : ∀ c ∈ pad, isPadding c = true)
    (hword : ∀ c ∈ word, isIdentPart c = true) (hx : isIdentPart x = false) (hne : word ≠ [])
    (s : List Char) : firstWord (pad ++ (word ++ x :: s)) = word := by
  obtain ⟨c, word, rfl⟩ := List.exists_cons_of_ne_nil hne
  have hc : isPadding c = false := isPadding_eq_false_of_isIdentPart (hword c List.mem_cons_self)
  rw [firstWord, List.dropWhile_append_of_pos hpad, List.cons_append, List.dropWhile_cons_of_neg
    (by simp [hc]), ← List.cons_append, List.takeWhile_append_of_pos hword,
    List.takeWhile_cons_of_neg (by simp [hx]), List.append_nil]

theorem firstWord_word {word : List Char} {x : Char} (hword : word.all isIdentPart = true)
    (hx : isIdentPart x = false) (hne : word ≠ []) (s : List Char) :
    firstWord (word ++ x :: s) = word :=
  @firstWord_append [] _ _ (by simp) (List.all_eq_true.1 hword) hx hne s

/-- A line without a word has no first word. -/
theorem firstWord_cons {x : Char} (hpad : isPadding x = false) (hx : isIdentPart x = false)
    (s : List Char) : firstWord (x :: s) = [] := by
  rw [firstWord, List.dropWhile_cons_of_neg (by simp [hpad]), List.takeWhile_cons_of_neg
    (by simp [hx])]

/-- The first word of a line lies in the line. -/
theorem firstWord_line (line t : List Char) : firstWord (line ++ '\n' :: t) = firstWord line := by
  have hpad : isPadding '\n' = false := by decide
  have hpart : isIdentPart '\n' = false := by decide
  have htake : ∀ s : List Char, (s ++ '\n' :: t).takeWhile isIdentPart = s.takeWhile isIdentPart := by
    intro s
    induction s with
    | nil => simp [hpart]
    | cons x s ih =>
        rw [List.cons_append, List.takeWhile_cons, List.takeWhile_cons, ih]
  induction line with
  | nil => simp [firstWord, hpad, hpart]
  | cons x line ih =>
      cases hx : isPadding x with
      | true => simpa [firstWord, hx] using ih
      | false =>
          rw [firstWord, firstWord, List.cons_append, List.dropWhile_cons_of_neg (by simp [hx]),
            List.dropWhile_cons_of_neg (by simp [hx]), ← List.cons_append, htake]

theorem isIdentPart_of_mem_declarationWords {word : List Char} (h : word ∈ declarationWords) :
    (∀ c ∈ word, isIdentPart c = true) ∧ word ≠ [] := by
  have hall : declarationWords.all (fun word => word.all isIdentPart && !word.isEmpty) = true := by
    decide
  simpa using List.all_eq_true.1 hall word h

theorem nil_not_mem_declarationWords : [] ∉ declarationWords := fun h =>
  (isIdentPart_of_mem_declarationWords h).2 rfl

end Printed

open Printed

/-! ### Patterns that begin with them -/

namespace Pattern

variable {α β : Type}

/-- Every outcome begins with one of the words, and neither a name nor a parenthesis goes on behind
it. -/
def Announces (p : Pattern α) : Prop :=
  ∀ c, ∀ found ∈ p.outcomes c, ∃ word ∈ declarationWords, ∃ x s,
    isIdentPart x = false ∧ x ≠ '(' ∧ c.rest = word ++ x :: s

/-- What may follow a word that announces. -/
def endsAnnouncement (x : Char) : Bool :=
  !isIdentPart x && x != '('

theorem endsAnnouncement_of_isBlank {x : Char} (h : isBlank x = true) :
    endsAnnouncement x = true := by
  have hpart : isIdentPart x = false := by
    cases hx : isIdentPart x with
    | false => rfl
    | true => rw [isBlank_eq_false_of_isIdentPart hx] at h; exact absurd h (by decide)
  have hparen : x ≠ '(' := by
    rintro rfl
    exact absurd h (by decide)
  simp [endsAnnouncement, hpart, hparen]

theorem opens_gap : Opens gap endsAnnouncement := by
  intro c found h
  obtain ⟨s, hne, hblank, hreads⟩ := reads_of_mem_outcomes_oneOrMore h
  obtain ⟨x, s, rfl⟩ := List.exists_cons_of_ne_nil hne
  exact ⟨x, s, endsAnnouncement_of_isBlank (hblank x List.mem_cons_self), hreads⟩

/-- Blanks may stand before what follows. -/
theorem Opens.blanks_bind {next : Unit → Pattern β} (h : Opens (next ()) endsAnnouncement) :
    Opens (blanks >>= next) endsAnnouncement := by
  intro c found hfound
  obtain ⟨⟨⟨⟩, mid⟩, hmid, hfound⟩ := mem_outcomes_bind.1 hfound
  obtain ⟨b, hblank, hb⟩ := reads_of_mem_outcomes_many hmid
  obtain ⟨x, s, hx, hs⟩ := h _ _ hfound
  cases b with
  | nil => exact ⟨x, s, hx, hb.append hs⟩
  | cons y b =>
      exact ⟨y, b ++ x :: s, endsAnnouncement_of_isBlank (hblank y List.mem_cons_self),
        hb.append hs⟩

theorem announces_word_bind {keyword : String} {next : Unit → Pattern β}
    (hword : keyword.toList ∈ declarationWords) (h : Opens (next ()) endsAnnouncement) :
    Announces (word keyword >>= next) := by
  intro c found hfound
  obtain ⟨⟨⟨⟩, mid⟩, hmid, hfound⟩ := mem_outcomes_bind.1 hfound
  obtain ⟨x, s, hx, hs⟩ := h _ _ hfound
  simp only [endsAnnouncement, Bool.and_eq_true, Bool.not_eq_true', bne_iff_ne] at hx
  refine ⟨_, hword, x, s ++ found.2.rest, hx.1, hx.2, ?_⟩
  rw [(reads_of_mem_outcomes_word hmid).1, hs.1]
  rfl

theorem Announces.orElse {p q : Pattern α} (h : Announces p) (h' : Announces q) :
    Announces (p <|> q) := by
  intro c found hfound
  rw [outcomes_orElse] at hfound
  rcases List.mem_append.1 hfound with hfound | hfound
  · exact h c found hfound
  · exact h' c found hfound

theorem announces_optionalKeyword_bind {keyword : String} {next : Bool → Pattern β}
    (hword : keyword.toList ∈ declarationWords) (h : ∀ a, Announces (next a)) :
    Announces (Declaration.optionalKeyword keyword >>= next) := by
  intro c found hfound
  obtain ⟨mid, hmid, hfound⟩ := mem_outcomes_bind.1 hfound
  obtain ⟨opt, hopt, hmid⟩ := mem_outcomes_bind.1 hmid
  rw [outcomes_pure, List.mem_singleton] at hmid
  subst hmid
  rcases mem_outcomes_optional.1 hopt with ⟨a, -, hmem⟩ | rfl
  · have hannounces : Announces (word keyword >>= fun _ => gap) :=
      announces_word_bind hword opens_gap
    exact hannounces c _ hmem
  · exact h _ c found hfound

/-- Such a pattern has no outcome in a line that begins with another word. -/
theorem noHead_of_firstWord {p : Pattern α} (hp : Announces p) {rest : List Char}
    (h : firstWord rest ∉ declarationWords) : NoHead p rest := by
  intro pad w hpad hrest before
  refine List.eq_nil_iff_forall_not_mem.2 fun found hfound => h ?_
  obtain ⟨word, hword, x, s, hx, -, hw⟩ := hp _ found hfound
  obtain ⟨hparts, hne⟩ := isIdentPart_of_mem_declarationWords hword
  rw [hrest, show w = _ from hw, firstWord_append hpad hparts hx hne]
  exact hword

/-- A line that is not indented has no indentation. -/
theorem eq_nil_of_stops {rest pad w : List Char} (h : Stops isPadding rest)
    (hpad : ∀ x ∈ pad, isPadding x = true) (hrest : rest = pad ++ w) : pad = [] := by
  cases pad with
  | nil => rfl
  | cons x pad =>
      rw [hrest, List.cons_append, stops_cons, hpad x List.mem_cons_self] at h
      exact absurd h (by decide)

/-- A line that is not indented is looked at in one place only. -/
theorem noHead_of_refuses {p : Pattern α} {rest : List Char} (h : Refuses p rest)
    (hpad : Stops isPadding rest) : NoHead p rest := by
  intro pad w hpadding hrest
  obtain rfl := eq_nil_of_stops hpad hpadding hrest
  rw [List.nil_append] at hrest
  exact hrest ▸ h

end Pattern

theorem announces_classHead : Announces Declaration.classHead :=
  announces_optionalKeyword_bind (by decide) fun _ =>
    announces_optionalKeyword_bind (by decide) fun _ =>
      announces_word_bind (by decide) opens_gap.bind

theorem announces_functionHead : Announces Declaration.functionHead := by
  have hstar : Opens (do blanks; word "*"; blanks) endsAnnouncement :=
    Opens.blanks_bind (opens_word_bind (x := '*') (by decide) (by decide))
  have hgap : Opens Export.starOrGap endsAnnouncement := Opens.orElse hstar opens_gap
  exact announces_optionalKeyword_bind (by decide) fun _ =>
    announces_optionalKeyword_bind (by decide) fun _ =>
      announces_optionalKeyword_bind (by decide) fun _ =>
        announces_word_bind (by decide) hgap.bind

theorem announces_exportStatement : Announces Export.statement := by
  have hexport : "export".toList ∈ declarationWords := by decide
  have hstar : ∀ {β : Type} (next : Unit → Pattern β),
      Opens (blanks >>= fun _ => word "*" >>= next) endsAnnouncement := fun next =>
    Opens.blanks_bind (opens_word_bind (x := '*') (by decide) (by decide))
  have hbrace : ∀ {β : Type} (next : Capture → Pattern β),
      Opens (blanks >>= fun _ => braceList >>= next) endsAnnouncement := fun next =>
    Opens.blanks_bind (Opens.bind (opens_word_bind (x := '\x7b') (by decide) (by decide)))
  refine Announces.orElse (announces_word_bind hexport (hstar _)) ?_
  refine Announces.orElse (announces_word_bind hexport (hbrace _)) ?_
  refine Announces.orElse (announces_word_bind hexport opens_gap.bind) ?_
  exact Announces.orElse (announces_word_bind hexport opens_gap.bind)
    (announces_word_bind hexport opens_gap.bind)

/-! ### Lines that begin otherwise -/

section
variable {Q : List Char → Prop} {before : Option Char} {s t : List Char}

/-- A line in which no block comment opens is calm if its head is. -/
theorem calm_line (hline : '\n' ∉ s) (hopen : ¬ ['/', '*'] <:+: s)
    (hhead : before.all (· == '\n') = true → Q (s ++ '\n' :: t)) :
    Calm Q before s ('\n' :: t) := by
  induction s generalizing before with
  | nil => trivial
  | cons x s ih =>
      refine ⟨fun hmark => hopen ?_, hhead, ih (fun h => hline (List.mem_cons_of_mem x h))
        (fun h => hopen (h.trans (List.suffix_cons x s).isInfix)) fun hx => absurd hx ?_⟩
      · obtain ⟨rfl, hstar⟩ := List.cons_prefix_cons.1 hmark
        cases s with
        | nil => exact absurd (List.cons_prefix_cons.1 hstar).1 (by decide)
        | cons y s =>
            obtain ⟨rfl, -⟩ := List.cons_prefix_cons.1 hstar
            exact ⟨[], s, rfl⟩
      · have hne : x ≠ '\n' := fun e => hline (e ▸ List.mem_cons_self)
        simpa using hne

/-- **A text is calm** if no block comment opens in it and none of its lines begins with a word of
declarations. -/
theorem calm_lines (hQ : ∀ r, firstWord r ∉ declarationWords → Q r) (s t : List Char)
    (hopen : ¬ ['/', '*'] <:+: s)
    (hlines : ∀ line ∈ splitOn '\n' s, firstWord line ∉ declarationWords) :
    Calm Q (some '\n') (s ++ ['\n']) t := by
  -- induction on the length of the text that is left, a line at a time
  induction hn : s.length using Nat.strongRecOn generalizing s with
  | ind n ih =>
      have hfirst : ∀ line r, '\n' ∉ line → line ∈ splitOn '\n' s → ¬ ['/', '*'] <:+: line →
          Calm Q (some '\n') line ('\n' :: r) := fun line r hline hmem hno =>
        calm_line hline hno fun _ => hQ _ (by rw [firstWord_line]; exact hlines line hmem)
      by_cases hmem : '\n' ∈ s
      · obtain ⟨line, more, rfl, hline⟩ := List.eq_append_cons_of_mem hmem
        have hsplit : splitOn '\n' (line ++ '\n' :: more) = line :: splitOn '\n' more := by
          rw [splitOn_append_sep, splitOn_of_not_mem hline]
          rfl
        have hmore := ih more.length (by simp only [← hn, List.length_append, List.length_cons]; omega)
          more (fun h => hopen (h.trans ⟨line ++ ['\n'], [], by simp⟩))
          (fun l hl => hlines l (by rw [hsplit]; exact List.mem_cons_of_mem line hl)) rfl
        rw [List.append_assoc, List.cons_append, calm_append_iff]
        refine ⟨hfirst line _ hline (by rw [hsplit]; exact List.mem_cons_self)
          (fun h => hopen (h.trans (List.prefix_append line _).isInfix)), ?_⟩
        refine calm_newline_cons (fun hhead => hQ _ ?_) hmore
        rw [firstWord_cons (by decide) (by decide)]
        exact nil_not_mem_declarationWords
      · rw [calm_append_iff]
        refine ⟨hfirst s _ hmem (by rw [splitOn_of_not_mem hmem]; exact List.mem_singleton_self s)
          hopen, ?_⟩
        refine calm_newline_cons (fun hhead => hQ _ ?_) trivial
        rw [firstWord_cons (by decide) (by decide)]
        exact nil_not_mem_declarationWords

end

end SourceOutline
