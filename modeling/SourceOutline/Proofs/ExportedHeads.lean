/-
**Heads as export statements.**

A head that begins with `export` is also looked at as an export statement.  The two patterns differ:
that of statements tries five forms in turn and stops behind a name, a parenthesis or a brace.  Here
every head, with whatever blanks it is written, is led through the forms to the one that takes it.

Main definitions:

* `Written.Reserved` — a word that no default name begins with stands here;
* `Written.opensEarlierForm` — the first letters for which an earlier form than a declaration is tried.

Main results:

* `Written.takes_statement_declaration`, `Written.takes_statement_default` — what follows `export`, or
  `export default`, decides between the forms;
* `Written.FunctionHead.takes_default` — a default function is taken up to the parenthesis
  of its parameters;
* `Written.FunctionHead.takes_declaration` — another exported function up to its name.
-/

import SourceOutline.Proofs.ExportRoundTrip
import SourceOutline.Proofs.WrittenHeads

set_option autoImplicit false

namespace SourceOutline

open Text Pattern

/-! ### Blanks -/

namespace Written

open Printed (Name)

variable {α β : Type} {t : List Char}

theorem Blanks.takes (b : Blanks) (ht : Stops isBlank t) : Takes blanks b.text t fun _ => True :=
  takes_many b.isBlank_of_mem ht

theorem Gap.takes (g : Gap) (ht : Stops isBlank t) : Takes gap g.text t fun _ => True := by
  obtain ⟨x, s, hg⟩ := List.exists_cons_of_ne_nil g.ne_nil
  have hblank := g.isBlank_of_mem
  rw [hg] at hblank ⊢
  exact takes_oneOrMore (hblank x List.mem_cons_self)
    (fun y hy => hblank y (List.mem_cons_of_mem x hy)) ht

/-- After blanks the sequence goes on behind them, or before one of them. -/
theorem Blanks.refuses_bind (b : Blanks) {next : Unit → Pattern β} (ht : Stops isBlank t)
    (hopens : Opens (next ()) (!isBlank ·)) (h : Refuses (next ()) t) :
    Refuses (blanks >>= next) (b.text ++ t) := by
  refine refuses_many_bind ht fun u v huv => ?_
  cases v with
  | nil => exact h
  | cons x v =>
      refine hopens.refuses ?_
      rw [List.cons_append, stops_cons, b.isBlank_of_mem x (by simp [huv])]
      rfl

theorem Gap.refuses_bind (g : Gap) {next : Unit → Pattern β} (ht : Stops isBlank t)
    (hopens : Opens (next ()) (!isBlank ·)) (h : Refuses (next ()) t) :
    Refuses (gap >>= next) (g.text ++ t) := by
  refine refuses_bind_of_forall fun before found hfound => ?_
  obtain ⟨x, s, hg⟩ := List.exists_cons_of_ne_nil g.ne_nil
  have hmem := g.isBlank_of_mem
  rw [hg] at hmem hfound
  obtain ⟨mid, hmid, hfound⟩ := mem_outcomes_bind.1 hfound
  rw [List.cons_append, outcomes_one_cons, if_pos (hmem x List.mem_cons_self),
    List.mem_singleton] at hmid
  subst hmid
  simp only [outcomes_many, List.mem_map] at hfound
  obtain ⟨stop, hstop, rfl⟩ := hfound
  obtain ⟨u, v, huv, hrest⟩ := rest_of_mem_runs ht hstop
  rw [hrest]
  cases v with
  | nil => exact h
  | cons y v =>
      refine hopens.refuses ?_
      rw [List.cons_append, stops_cons, hmem y (by simp [huv])]
      rfl

/-- Blanks, of which at least one is wanted. -/
theorem Blanks.refuses_gap_bind (b : Blanks) {next : Unit → Pattern β} (ht : Stops isBlank t)
    (hopens : Opens (next ()) (!isBlank ·)) (h : Refuses (next ()) t) :
    Refuses (gap >>= next) (b.text ++ t) := by
  by_cases hb : b.text = []
  · rw [hb]
    exact (refuses_gap ht).bind
  · exact Gap.refuses_bind ⟨b, hb⟩ ht hopens h

/-- A text that begins with a blank. -/
theorem Gap.stops (g : Gap) {test : Char → Bool} (htest : ∀ x, isBlank x = true → test x = false)
    (t : List Char) : Stops test (g.text ++ t) := by
  obtain ⟨x, s, hg⟩ := List.exists_cons_of_ne_nil g.ne_nil
  rw [hg, List.cons_append, stops_cons]
  exact htest x (g.isBlank_of_mem x (by simp [hg]))

/-- Blanks, and behind them something else. -/
theorem Blanks.stops (b : Blanks) {test : Char → Bool}
    (htest : ∀ x, isBlank x = true → test x = false) (ht : Stops test t) :
    Stops test (b.text ++ t) := by
  cases hb : b.text with
  | nil => exact ht
  | cons x s =>
      rw [List.cons_append, stops_cons]
      exact htest x (b.isBlank_of_mem x (by simp [hb]))

/-- A keyword that may be absent is taken where it stands. -/
theorem takes_keywordText (keyword : String) (g : Option Gap) (hblank : Stops isBlank t)
    (habsent : Refuses (word keyword) t) :
    Takes (optional do word keyword; gap) (keywordText keyword g) t fun _ => True := by
  cases g with
  | some g =>
      have htakes : Takes (do word keyword; gap) (keyword.toList ++ g.text) t fun _ => True :=
        (takes_word _ _).bind fun _ _ => g.takes hblank
      exact htakes.optional.mono fun _ _ => trivial
  | none => exact habsent.bind.optional.mono fun _ _ => trivial

/-! ### Names and what separates them -/

/-- A name begins neither with a blank nor with a mark. -/
theorem stops_name (name : Name) {test : Char → Bool}
    (htest : ∀ x, isIdentStart x = true → test x = false) (t : List Char) :
    Stops test (name.text ++ t) := by
  obtain ⟨c, more, hname, hc, -⟩ := isIdent_iff.1 name.isIdent_text
  rw [hname, List.cons_append, stops_cons]
  exact htest c hc

theorem stops_isBlank_name (name : Name) (t : List Char) : Stops isBlank (name.text ++ t) :=
  stops_name name (fun _ h => isBlank_eq_false_of_isIdentStart h) t

theorem stops_mark_name (name : Name) {mark : Char} (hmark : isIdentPart mark = false)
    (t : List Char) : Stops (· == mark) (name.text ++ t) := by
  refine stops_name name (fun x hx => ?_) t
  rw [beq_eq_false_iff_ne]
  exact ne_of_isIdentPart (isIdentPart_of_isIdentStart hx) hmark

/-- The separator begins with a blank or a star. -/
theorem Separator.stops (separator : Separator) {test : Char → Bool}
    (hblank : ∀ x, isBlank x = true → test x = false) (hstar : test '*' = false) (t : List Char) :
    Stops test (separator.text ++ t) := by
  cases separator with
  | star before behind =>
      rw [Separator.text, List.append_assoc]
      exact before.stops hblank (by simpa using hstar)
  | gap g => exact g.stops hblank t

theorem Separator.takes (separator : Separator) (name : Name) :
    Takes Export.starOrGap separator.text (name.text ++ t) fun _ => True := by
  have hname := stops_isBlank_name name t
  cases separator with
  | star before behind =>
      refine Takes.orElse_left ((before.takes (by simp [isBlank])).bind fun _ _ => ?_)
      exact (takes_word "*" _).bind fun _ _ => behind.takes hname
  | gap g =>
      refine Takes.orElse_right (g.toBlanks.refuses_bind hname ?_ ?_) (g.takes hname)
      · exact opens_word_bind (x := '*') rfl (by decide)
      · exact (refuses_word_of_head '*' rfl (stops_mark_name name (by decide) t)).bind

/-- Parameters begin with a blank or a parenthesis. -/
theorem ParameterList.stops (list : ParameterList) {test : Char → Bool}
    (hblank : ∀ x, isBlank x = true → test x = false) (hparen : test '(' = false) (t : List Char) :
    Stops test (list.text ++ t) := by
  rw [ParameterList.text, List.append_assoc]
  exact list.before.stops hblank (by simpa using hparen)

/-! ### The choice between the forms -/

/-- Forms that want a mark behind `export` refuse what begins otherwise. -/
theorem refuses_markForms (g : Gap) (hblank : Stops isBlank t) (hstar : Stops (· == '*') t)
    (hbrace : Stops (· == '\x7b') t) :
    Refuses Export.allForm ("export".toList ++ (g.text ++ t)) ∧
      Refuses Export.namedForm ("export".toList ++ (g.text ++ t)) := by
  refine ⟨refuses_word_bind (g.toBlanks.refuses_bind hblank ?_ ?_),
    refuses_word_bind (g.toBlanks.refuses_bind hblank ?_ ?_)⟩
  · exact opens_word_bind (x := '*') rfl (by decide)
  · exact (refuses_word_of_head '*' rfl hstar).bind
  · exact Opens.bind (opens_word_bind (x := '\x7b') rfl (by decide))
  · exact (Printed.refuses_braceList hbrace).bind

/-- The characters that the forms before a declaration want behind `export`, and blanks. -/
def opensEarlierForm (c : Char) : Bool :=
  isBlank c || c == '*' || c == '\x7b' || c == 'd'

/-- **What begins with no such character is taken as a declaration**, if it is one. -/
theorem takes_statement_declaration (g : Gap) {s : List Char} {Q : Export.Form → Prop}
    (hs : Stops opensEarlierForm (s ++ t))
    (h : Takes Export.declarationForm ("export".toList ++ (g.text ++ s)) t Q) :
    Takes Export.statement ("export".toList ++ (g.text ++ s)) t Q := by
  have hsplit : "export".toList ++ (g.text ++ s) ++ t = "export".toList ++ (g.text ++ (s ++ t)) := by
    simp
  have hblank : Stops isBlank (s ++ t) := hs.mono fun x hx => by simp [opensEarlierForm, hx]
  obtain ⟨hall, hnamed⟩ := refuses_markForms g hblank
    (hs.mono fun x hx => by simp [opensEarlierForm, beq_iff_eq.1 hx])
    (hs.mono fun x hx => by simp [opensEarlierForm, beq_iff_eq.1 hx])
  refine Takes.orElse_right (hsplit ▸ hall) (Takes.orElse_right (hsplit ▸ hnamed)
    (Takes.orElse_right (hsplit ▸ refuses_word_bind (g.refuses_bind hblank ?_ ?_))
      (Takes.orElse_left h)))
  · exact opens_word_bind (x := 'd') rfl (by decide)
  · refine (refuses_word_of_head 'd' rfl (hs.mono fun x hx => ?_)).bind
    simp [opensEarlierForm, beq_iff_eq.1 hx]

/-- A word that no default name begins with stands here. -/
def Reserved (rest : List Char) : Prop :=
  ∃ w ∈ ["function", "class", "async"], ∃ more, rest = w.toList ++ more ∧ Stops isWord more

/-- The first letter of a reserved word. -/
theorem Reserved.stops {rest : List Char} (h : Reserved rest) {test : Char → Bool}
    (ha : test 'a' = false) (hc : test 'c' = false) (hf : test 'f' = false) : Stops test rest := by
  obtain ⟨w, hw, more, rfl, -⟩ := h
  simp only [List.mem_cons, List.not_mem_nil, or_false] at hw
  rcases hw with rfl | rfl | rfl
  · simpa using hf
  · simpa using hc
  · simpa using ha

theorem Reserved.outcomes_ne_nil {rest : List Char} (h : Reserved rest) (before : Option Char) :
    Export.reservedWord.outcomes ⟨before, rest⟩ ≠ [] := by
  obtain ⟨w, hw, more, rfl, hmore⟩ := h
  have hword : Takes (word "function" <|> word "class" <|> word "new" <|> word "async") w.toList more
        (fun _ => True) ∧ ∃ y, w.toList.getLast? = some y ∧ isWord y = true := by
    simp only [List.mem_cons, List.not_mem_nil, or_false] at hw
    rcases hw with rfl | rfl | rfl
    · exact ⟨Takes.orElse_left (takes_word _ _), 'n', rfl, by decide⟩
    · exact ⟨Takes.orElse_right (refuses_word_of_head 'f' rfl (by simp))
        (Takes.orElse_left (takes_word _ _)), 's', rfl, by decide⟩
    · exact ⟨Takes.orElse_right (refuses_word_of_head 'f' rfl (by simp))
        (Takes.orElse_right (refuses_word_of_head 'c' rfl (by simp))
          (Takes.orElse_right (refuses_word_of_head 'n' rfl (by simp)) (takes_word _ _))),
        'c', rfl, by decide⟩
  obtain ⟨htakes, y, hy, hyword⟩ := hword
  obtain ⟨_, -, hfirst⟩ := htakes before
  rw [hy, Option.some_or] at hfirst
  have hedge : wordEdge.first? ⟨some y, more⟩ = some ((), ⟨some y, more⟩) := by
    rw [first?, outcomes_wordEdge hyword hmore, List.head?_cons]
  intro hnil
  have hnone : Export.reservedWord.first? ⟨before, w.toList ++ more⟩ = none := by
    rw [first?, hnil, List.head?_nil]
  rw [show Export.reservedWord.first? ⟨before, w.toList ++ more⟩ = _ from
    first?_bind hfirst hedge] at hnone
  exact absurd hnone (by simp)

/-- A reserved word is no default name. -/
theorem refuses_defaultNameForm (g d : Gap) {rest : List Char} (h : Reserved rest) :
    Refuses Export.defaultNameForm
      ("export".toList ++ (g.text ++ ("default".toList ++ (d.text ++ rest)))) := by
  have hname : Opens identifier (!isBlank ·) :=
    opens_identifier fun x hx => by rw [isBlank_eq_false_of_isIdentStart hx]; rfl
  have hdotted : Opens dottedName (!isBlank ·) := Opens.captured hname.bind
  refine refuses_word_bind (g.refuses_bind (by simp [isBlank]) ?_ (refuses_word_bind ?_))
  · exact opens_word_bind (x := 'd') rfl (by decide)
  refine d.refuses_bind (h.stops (by decide) (by decide) (by decide)) ?_ ?_
  · exact Opens.notAhead_bind hdotted.bind
  · exact refuses_notAhead_bind h.outcomes_ne_nil

/-- The letters that a declaration begins with. -/
def isDeclarationLetter (c : Char) : Bool :=
  c == 'a' || c == 'c' || c == 'l' || c == 'v' || c == 'f'

theorem isBlank_of_isDeclarationLetter (x : Char) (h : isDeclarationLetter x = true) :
    (!isBlank x) = true := by
  simp only [isDeclarationLetter, Bool.or_eq_true, beq_iff_eq] at h
  rcases h with (((rfl | rfl) | rfl) | rfl) | rfl <;> decide

theorem opens_declarationKeyword : Opens Export.declarationKeyword isDeclarationLetter := by
  have hvariable : Opens (word "const" <|> word "let" <|> word "var") isDeclarationLetter :=
    Opens.orElse (opens_word (x := 'c') rfl (by decide))
      (Opens.orElse (opens_word (x := 'l') rfl (by decide)) (opens_word (x := 'v') rfl (by decide)))
  exact Opens.orElse hvariable.bind (Opens.orElse (opens_word_bind (x := 'f') rfl (by decide))
    (opens_word_bind (x := 'c') rfl (by decide)))

/-- What begins with `default` declares nothing. -/
theorem refuses_declarationForm (g : Gap) (rest : List Char) :
    Refuses Export.declarationForm ("export".toList ++ (g.text ++ ("default".toList ++ rest))) := by
  have hopens : ∀ {γ : Type} (next : Option Export.BlockKind → Pattern γ),
      Opens (do
        let _ ← optional do word "async"; gap
        let keyword ← Export.declarationKeyword
        next keyword) isDeclarationLetter := fun next =>
    Opens.optional_bind (opens_word_bind (x := 'a') rfl (by decide))
      fun _ => opens_declarationKeyword.bind
  refine refuses_word_bind (g.refuses_bind (by simp [isBlank]) ?_ ?_)
  · exact (hopens _).mono isBlank_of_isDeclarationLetter
  · exact (hopens _).refuses (by simp [isDeclarationLetter])

/-- **What follows `export default` and begins with a reserved word is taken as an expression.** -/
theorem takes_statement_default (g d : Gap) {s : List Char} {Q : Export.Form → Prop}
    (hreserved : Reserved (s ++ t))
    (h : Takes (Export.inlineFunction <|> Export.inlineClass <|> Export.inlineExpression) s t Q) :
    Takes Export.statement
      ("export".toList ++ (g.text ++ ("default".toList ++ (d.text ++ s)))) t Q := by
  have hsplit : "export".toList ++ (g.text ++ ("default".toList ++ (d.text ++ s))) ++ t =
      "export".toList ++ (g.text ++ ("default".toList ++ (d.text ++ (s ++ t)))) := by
    simp
  obtain ⟨hall, hnamed⟩ := refuses_markForms g (t := "default".toList ++ (d.text ++ (s ++ t)))
    (by simp [isBlank]) (by simp) (by simp)
  refine Takes.orElse_right (hsplit ▸ hall) (Takes.orElse_right (hsplit ▸ hnamed)
    (Takes.orElse_right (hsplit ▸ refuses_defaultNameForm g d hreserved)
      (Takes.orElse_right (hsplit ▸ refuses_declarationForm g _) ?_)))
  refine (takes_word _ _).bind fun _ _ => (g.takes (by simp [isBlank])).bind fun _ _ => ?_
  refine (takes_word _ _).bind fun _ _ => (d.takes ?_).bind fun _ _ => h
  exact hreserved.stops (by decide) (by decide) (by decide)

/-! ### Functions -/

namespace FunctionHead

variable (head : FunctionHead)

theorem words_append (t : List Char) :
    head.words ++ t = keywordText "async" head.asynchronous ++
      ("function".toList ++ (head.separator.text ++ (head.name.text ++ t))) := by
  simp [words]

/-- The words of a function begin with `async` or `function`. -/
theorem reserved_words (t : List Char) : Reserved (head.words ++ t) := by
  rw [words_append]
  cases head.asynchronous with
  | none =>
      refine ⟨"function", by simp, _, rfl, ?_⟩
      exact head.separator.stops (fun _ h => isWord_eq_false_of_isBlank h) (by decide) _
  | some g =>
      refine ⟨"async", by simp, _, List.append_assoc _ _ _, ?_⟩
      exact g.stops (fun _ h => isWord_eq_false_of_isBlank h) _

/-- The keyword `async` is taken if it stands before `function`. -/
theorem takes_async (t : List Char) :
    Takes (optional do word "async"; gap) (keywordText "async" head.asynchronous)
      ("function".toList ++ t) fun _ => True :=
  takes_keywordText "async" head.asynchronous (by simp [isBlank])
    (refuses_word_of_head 'a' rfl (by simp))

/-- The name is taken whole, since parameters follow it. -/
theorem takes_name (t : List Char) :
    Takes identifier head.name.text (head.parameters.text ++ t) (·.text = head.name.text) :=
  takes_identifier head.name.isIdent_text
    (head.parameters.stops (fun _ h => isIdentPart_eq_false_of_isBlank h) (by decide) t)

/-- **An exported function is taken up to its name**, as a declaration. -/
theorem takes_declaration (g : Gap) (t : List Char) :
    Takes Export.statement ("export".toList ++ (g.text ++ head.words)) (head.parameters.text ++ t)
      (· = .block .declaration .function ⟨.ofList head.name.text, .ofList head.name.text⟩) := by
  have hreserved := head.reserved_words (head.parameters.text ++ t)
  have hblank : Stops isBlank (head.words ++ (head.parameters.text ++ t)) :=
    hreserved.stops (by decide) (by decide) (by decide)
  refine takes_statement_declaration g (hreserved.stops (by decide) (by decide) (by decide)) ?_
  refine (takes_word _ _).bind fun _ _ => (g.takes hblank).bind fun _ _ => ?_
  rw [words]
  refine Takes.bind (P := fun _ => True) ?_ fun _ _ => ?_
  · rw [List.append_assoc]
    exact head.takes_async _
  refine (Printed.takes_declarationKeyword_block .function).bind ?_
  rintro _ rfl
  refine (head.separator.takes head.name).bind fun _ _ => ?_
  exact (head.takes_name t).map fun _ h => by rw [h]

/-- The separator of a default function is taken as blanks, perhaps a star, and blanks. -/
theorem takes_inlineSeparator (t : List Char) {β : Type} {next : Pattern β} {s : List Char}
    {Q : β → Prop} (h : Takes next (head.name.text ++ s) t Q) :
    Takes (do blanks; let _ ← optional (word "*"); blanks; next)
      (head.separator.text ++ (head.name.text ++ s)) t Q := by
  have hname := stops_isBlank_name head.name (s ++ t)
  cases head.separator with
  | star before behind =>
      rw [Separator.text, List.append_assoc]
      refine (before.takes (by simp [isBlank])).bind fun _ _ => ?_
      refine Takes.bind (s := "*".toList) (takes_word "*" _).optional fun _ _ => ?_
      refine (behind.takes ?_).bind fun _ _ => h
      rw [List.append_assoc]
      exact hname
  | gap g =>
      have hstar := stops_mark_name head.name (by decide : isIdentPart '*' = false) (s ++ t)
      rw [← List.append_assoc] at hname hstar
      refine (g.toBlanks.takes hname).bind fun _ _ => ?_
      refine (refuses_word_of_head '*' rfl hstar).optional.bind_nil fun _ _ => ?_
      exact (takes_blanks_nil hname).bind_nil fun _ _ => h

/-- **A default function is taken up to the parenthesis of its parameters.** -/
theorem takes_default (g d : Gap) (t : List Char) :
    Takes Export.statement
      ("export".toList ++ (g.text ++ ("default".toList ++ (d.text ++
        (head.words ++ (head.parameters.before.text ++ "(".toList))))))
      (head.parameters.inner ++ ')' :: (head.parameters.behind.text ++ t))
      (· = .block .defaultExpression .function ⟨"default", .ofList head.name.text⟩) := by
  have hlist : head.parameters.before.text ++ "(".toList ++
      (head.parameters.inner ++ ')' :: (head.parameters.behind.text ++ t)) =
        head.parameters.text ++ t := by
    simp [ParameterList.text]
  refine takes_statement_default g d ?_ (Takes.orElse_left ?_)
  · rw [List.append_assoc]
    exact head.reserved_words _
  rw [words_append]
  refine Takes.bind (P := fun _ => True) ?_ fun _ _ => ?_
  · rw [List.append_assoc]
    exact head.takes_async _
  refine takes_wholeWord_bind (y := 'n') rfl (by decide) ?_ (head.takes_inlineSeparator _ ?_)
  · rw [List.append_assoc]
    exact head.separator.stops (fun _ h => isWord_eq_false_of_isBlank h) (by decide) _
  have hname := (head.takes_name t).optional
  rw [← hlist] at hname
  refine hname.bind ?_
  rintro _ ⟨name, rfl, htext⟩
  refine (head.parameters.before.takes (by simp [isBlank])).bind fun _ _ => ?_
  refine (takes_word "(" _).map fun _ _ => ?_
  simp [htext]

end FunctionHead

end Written

end SourceOutline
