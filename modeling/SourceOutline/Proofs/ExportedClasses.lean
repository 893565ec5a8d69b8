/-
**Classes as export statements.**

The head of a class may run its name into the keyword of its base, as in `class Aextends B`: a cut in
the middle of the identifier gives a name and the keyword.  The pattern of export statements does not
cut there.  It takes the whole identifier as the name of a declaration, which does no harm, but it
does not recognise such a head behind `default`.

Main definitions:

* `Written.ClassHead.isWhole` — the name of a class ends where its identifier ends.

Main results:

* `Written.ClassHead.takes_declaration` — an exported class is taken up to the end of an identifier;
* `Written.ClassHead.takes_default` — a default class whose name is whole is taken up to its brace;
* `Written.ClassHead.takes_default_cut` — any other default class is taken as an expression.
-/

import SourceOutline.Proofs.ExportedHeads

set_option autoImplicit false

namespace SourceOutline

open Text Pattern

namespace Pattern

variable {α β γ : Type}

/-- After a part that may be absent the sequence goes on behind it or where it began. -/
theorem refuses_optional_bind {p : Pattern α} {next : Option α → Pattern β} {rest : List Char}
    (h : Refuses (p >>= fun a => next (some a)) rest) (h' : Refuses (next none) rest) :
    Refuses (optional p >>= next) rest := by
  intro before
  refine List.eq_nil_iff_forall_not_mem.2 fun found hfound => ?_
  obtain ⟨mid, hmid, hfound⟩ := mem_outcomes_bind.1 hfound
  rcases mem_outcomes_optional.1 hmid with ⟨a, ha, hmem⟩ | rfl
  · rw [ha] at hfound
    have hall : found ∈ (p >>= fun a => next (some a)).outcomes ⟨before, rest⟩ :=
      mem_outcomes_bind.2 ⟨_, hmem, hfound⟩
    rw [h before] at hall
    exact List.not_mem_nil hall
  · exact List.not_mem_nil (h' before ▸ hfound)

theorem refuses_bind_assoc {p : Pattern α} {q : α → Pattern β} {next : β → Pattern γ}
    {rest : List Char} (h : Refuses (p >>= fun a => q a >>= next) rest) :
    Refuses (p >>= q >>= next) rest := by
  intro before
  have hnone := h before
  simp only [outcomes_bind, List.flatMap_assoc] at hnone ⊢
  exact hnone

/-- A test of the place leaves it as it is. -/
theorem refuses_edge_bind {test : Option Char → Option Char → Bool} {next : Unit → Pattern β}
    {rest : List Char} (h : Refuses (next ()) rest) : Refuses (edge test >>= next) rest := by
  refine refuses_bind_of_forall fun before found hfound => ?_
  obtain ⟨-, hplace⟩ := mem_outcomes_edge.1 hfound
  rw [hplace]
  exact h

end Pattern

namespace Written

open Printed (Name)

/-- What may stand between the name of a default class and its brace. -/
def extendsClause : Pattern Unit := do
  gap
  word "extends"
  gap
  oneOrMore isBasePart

/-- Where no base can be read and no brace follows the blanks, the head of a default class does not
end. -/
theorem refuses_closing {β : Type} {next : Unit → Pattern β} {b : Blanks} {rest t : List Char}
    (hrest : rest = b.text ++ t) (hclause : Refuses extendsClause rest) (hblank : Stops isBlank t)
    (hbrace : Stops (· == '\x7b') t) :
    Refuses (do let _ ← optional extendsClause; blanks; word "\x7b" >>= next) rest := by
  refine refuses_optional_bind hclause.bind ?_
  rw [hrest]
  exact b.refuses_bind hblank (opens_word_bind (x := '\x7b') rfl (by decide))
    (refuses_word_of_head '\x7b' rfl hbrace).bind

theorem isBlank_of_isBasePart (x : Char) (h : isBasePart x = true) : (!isBlank x) = true := by
  rcases Bool.or_eq_true_iff.1 h with hpart | hpoint
  · rw [isBlank_eq_false_of_isIdentPart hpart]
    rfl
  · rw [beq_iff_eq.1 hpoint]
    decide

/-- A second `extends`, in the place of a base, has no base of its own. -/
theorem refuses_second_extends (clause : BaseClause) (last : Blanks) (t : List Char) :
    Refuses (do word "extends"; gap; oneOrMore isBasePart)
      (clause.first :: clause.more ++ (last.text ++ '\x7b' :: t)) := by
  have hopens : Opens (oneOrMore isBasePart) (!isBlank ·) := by
    intro c found hfound
    obtain ⟨s, hne, hs, hreads⟩ := reads_of_mem_outcomes_oneOrMore hfound
    obtain ⟨x, more, rfl⟩ := List.exists_cons_of_ne_nil hne
    exact ⟨x, more, isBlank_of_isBasePart x (hs x List.mem_cons_self), hreads⟩
  have hlast : Refuses (gap >>= fun _ => oneOrMore isBasePart) (last.text ++ '\x7b' :: t) :=
    last.refuses_gap_bind (stops_cons.2 (by decide)) hopens
      (refuses_one (stops_cons.2 (by decide))).bind
  have hpart : ∀ x ∈ clause.first :: clause.more, isBasePart x = true := by
    intro x hx
    rcases List.mem_cons.1 hx with rfl | hx
    · rw [isBasePart, isIdentPart_of_isIdentStart clause.isIdentStart_first, Bool.true_or]
    · exact clause.isBasePart_of_mem x hx
  refine refuses_bind_of_forall fun before found hfound => ?_
  have hrest := (reads_of_mem_outcomes_word hfound).1
  rcases List.append_eq_append_iff.1 hrest with ⟨more, hword, hmore⟩ | ⟨more, hbase, hmore⟩
  · cases more with
    | nil =>
        rw [List.nil_append] at hmore
        exact hmore ▸ hlast
    | cons x more =>
        -- what follows a base does not go on with letters
        have hletter : x ∈ "extends".toList := by simp [hword]
        have hstops : Stops isIdentPart (last.text ++ '\x7b' :: t) :=
          last.stops (fun _ h => isIdentPart_eq_false_of_isBlank h) (stops_cons.2 (by decide))
        rw [hmore, List.cons_append, stops_cons] at hstops
        have hletters : ∀ y ∈ "extends".toList, isIdentPart y = true :=
          List.all_eq_true.1 (by decide)
        rw [hletters x hletter] at hstops
        exact absurd hstops (by decide)
  · cases more with
    | nil => exact hmore ▸ hlast
    | cons x more =>
        have hx : isBasePart x = true := hpart x (by rw [hbase]; simp)
        rw [hmore]
        exact (refuses_gap (stops_cons.2 (by simpa using isBlank_of_isBasePart x hx))).bind

/-- A longer name that begins with `extends` is not that keyword. -/
theorem refuses_extends_of_longer {name t : List Char} (hname : ∀ x ∈ name, isIdentPart x = true)
    (hlonger : "extends".toList.length < name.length) :
    Refuses (do word "extends"; gap; oneOrMore isBasePart) (name ++ t) := by
  refine refuses_bind_of_forall fun before found hfound => ?_
  have hrest := (reads_of_mem_outcomes_word hfound).1
  rcases List.append_eq_append_iff.1 hrest with ⟨more, hword, -⟩ | ⟨more, hbase, hmore⟩
  · have hlength := congrArg List.length hword
    rw [List.length_append] at hlength
    omega
  · cases more with
    | nil =>
        have hlength := congrArg List.length hbase
        rw [List.length_append, List.length_nil] at hlength
        omega
    | cons x more =>
        have hx : isIdentPart x = true := hname x (by rw [hbase]; simp)
        rw [hmore]
        exact (refuses_gap (stops_cons.2 (isBlank_eq_false_of_isIdentPart hx))).bind

namespace ClassHead

variable (head : ClassHead)

/-- The name of a class ends where its identifier ends: no base follows it without a blank. -/
def isWhole : Bool :=
  head.base.isNone || !head.behind.text.isEmpty

/-- The word `class` stands before a blank. -/
theorem reserved_class (t : List Char) : Reserved ("class".toList ++ (head.gap.text ++ t)) :=
  ⟨"class", by simp, _, rfl, head.gap.stops (fun _ h => isWord_eq_false_of_isBlank h) _⟩

/-! ### Declarations -/

/-- The identifier that begins with the name of the class. -/
theorem isIdent_takeWhile_tail : isIdent (head.tail.takeWhile isIdentPart) = true := by
  obtain ⟨c, more, hname, hc, -⟩ := isIdent_iff.1 head.name.isIdent_text
  have hpart := isIdentPart_of_isIdentStart hc
  rw [tail, hname, List.cons_append, List.takeWhile_cons_of_pos (by simpa using hpart)]
  exact isIdent_iff.2 ⟨c, _, rfl, hc, fun x hx =>
    List.all_eq_true.1 List.all_takeWhile x hx⟩

theorem stops_dropWhile_tail (t : List Char) :
    Stops isIdentPart (head.tail.dropWhile isIdentPart ++ '\x7b' :: t) := by
  cases hrest : head.tail.dropWhile isIdentPart with
  | nil => exact stops_cons.2 (by decide)
  | cons x rest =>
      have hnot := List.head?_dropWhile_not isIdentPart head.tail
      rw [hrest] at hnot
      rw [List.cons_append, stops_cons]
      simpa using hnot

/-- **An exported class is taken up to the end of an identifier**, as a declaration. -/
theorem takes_declaration (g : Gap) (t : List Char) :
    Takes Export.statement
      ("export".toList ++ (g.text ++ ("class".toList ++ (head.gap.text ++
        head.tail.takeWhile isIdentPart))))
      (head.tail.dropWhile isIdentPart ++ '\x7b' :: t) fun form =>
        ∃ item, form = .block .declaration .classDecl item := by
  let name : Name := ⟨head.tail.takeWhile isIdentPart, head.isIdent_takeWhile_tail⟩
  have hstops : ∀ {test : Char → Bool}, test 'c' = false → ∀ u,
      Stops test ("class".toList ++ (head.gap.text ++ name.text) ++ u) := fun h u => stops_cons.2 h
  refine takes_statement_declaration g (hstops (by decide) _) ?_
  refine (takes_word _ _).bind fun _ _ => (g.takes (hstops (by decide) _)).bind fun _ _ => ?_
  refine (refuses_word_of_head 'a' rfl (hstops (by decide) _)).bind.optional.bind_nil fun _ _ => ?_
  refine (Printed.takes_declarationKeyword_block .classDecl).bind ?_
  rintro _ rfl
  refine (Separator.takes (.gap head.gap) name).bind fun _ _ => ?_
  exact (takes_identifier name.isIdent_text (head.stops_dropWhile_tail t)).map fun _ _ => ⟨_, rfl⟩

/-! ### Default classes -/

theorem refuses_inlineFunction (t : List Char) :
    Refuses Export.inlineFunction ("class".toList ++ t) := by
  have hopens : Opens Export.inlineFunction fun c => c == 'a' || c == 'f' :=
    Opens.optional_bind (opens_word_bind (x := 'a') rfl (by decide))
      fun _ => opens_word_bind (x := 'f') rfl (by decide)
  exact hopens.refuses (stops_cons.2 (by decide))

/-- What follows a name that is whole does not continue it. -/
theorem stops_behind (hwhole : head.isWhole = true) (t : List Char) :
    Stops isIdentPart
      (head.behind.text ++ (baseText head.base ++ (head.last.text ++ '\x7b' :: t))) := by
  have hblank : ∀ x, isBlank x = true → isIdentPart x = false := fun _ h =>
    isIdentPart_eq_false_of_isBlank h
  have hlast : Stops isIdentPart (head.last.text ++ '\x7b' :: t) :=
    head.last.stops hblank (stops_cons.2 (by decide))
  cases hbase : head.base with
  | none => exact head.behind.stops hblank hlast
  | some clause =>
      have hne : head.behind.text ≠ [] := by
        simpa [isWhole, hbase] using hwhole
      exact Gap.stops ⟨head.behind, hne⟩ hblank _

/-- A base, or nothing, is taken up to the brace. -/
theorem takes_base (hwhole : head.isWhole = true) {β : Type} (b : β) (t : List Char) :
    Takes (do let _ ← optional extendsClause; blanks; word "\x7b"; return b)
      (head.behind.text ++ (baseText head.base ++ (head.last.text ++ "\x7b".toList))) t (· = b) := by
  have hbrace : Stops isBlank ("\x7b".toList ++ t) := stops_cons.2 (by decide)
  cases hbase : head.base with
  | none =>
      -- no base: the blanks on both sides of it are one run
      let all : Blanks := ⟨head.behind.text ++ head.last.text, fun x hx => by
        rcases List.mem_append.1 hx with hx | hx
        · exact head.behind.isBlank_of_mem x hx
        · exact head.last.isBlank_of_mem x hx⟩
      have hall : head.behind.text ++ (baseText none ++ (head.last.text ++ "\x7b".toList)) =
          all.text ++ "\x7b".toList := by
        simp [all, baseText]
      have hrefuses : Refuses extendsClause (all.text ++ "\x7b".toList ++ t) := by
        rw [List.append_assoc]
        exact all.refuses_gap_bind hbrace (opens_word_bind (x := 'e') rfl (by decide))
          (refuses_word_of_head 'e' rfl (stops_cons.2 (by decide))).bind
      rw [hall]
      refine hrefuses.optional.bind_nil fun _ _ => ?_
      exact (all.takes hbrace).bind fun _ _ => (takes_word _ t).map fun _ _ => rfl
  | some clause =>
      have hne : head.behind.text ≠ [] := by
        simpa [isWhole, hbase] using hwhole
      have hlast : Stops isBasePart (head.last.text ++ "\x7b".toList ++ t) := by
        rw [List.append_assoc]
        refine head.last.stops (fun x hx => ?_) (stops_cons.2 (by decide))
        rw [isBasePart, isIdentPart_eq_false_of_isBlank hx, Bool.false_or, beq_eq_false_iff_ne]
        rintro rfl
        exact absurd hx (by decide)
      have hfirst : isBasePart clause.first = true := by
        rw [isBasePart, isIdentPart_of_isIdentStart clause.isIdentStart_first, Bool.true_or]
      have hclause : Takes extendsClause
          (head.behind.text ++ ("extends".toList ++ (clause.gap.text ++ clause.first :: clause.more)))
          (head.last.text ++ "\x7b".toList ++ t) fun _ => True := by
        refine (Gap.takes ⟨head.behind, hne⟩ (stops_cons.2 (by decide))).bind fun _ _ => ?_
        refine (takes_word _ _).bind fun _ _ => (clause.gap.takes ?_).bind fun _ _ => ?_
        · exact stops_cons.2 (isBlank_eq_false_of_isIdentStart clause.isIdentStart_first)
        · exact takes_oneOrMore hfirst clause.isBasePart_of_mem hlast
      have hsplit : head.behind.text ++ (baseText (some clause) ++
          (head.last.text ++ "\x7b".toList)) = head.behind.text ++ ("extends".toList ++
            (clause.gap.text ++ clause.first :: clause.more)) ++
              (head.last.text ++ "\x7b".toList) := by
        simp [baseText, BaseClause.text_eq]
      rw [hsplit]
      refine hclause.optional.bind fun _ _ => (head.last.takes hbrace).bind fun _ _ => ?_
      exact (takes_word _ t).map fun _ _ => rfl

/-- **A default class whose name is whole is taken up to its brace.** -/
theorem takes_default (hwhole : head.isWhole = true) (g d : Gap) (t : List Char) :
    Takes Export.statement
      ("export".toList ++ (g.text ++ ("default".toList ++ (d.text ++ ("class".toList ++
        (head.gap.text ++ (head.tail ++ "\x7b".toList))))))) t fun form =>
          ∃ item, form = .block .defaultExpression .classDecl item := by
  have hreserved := head.reserved_class (head.tail ++ '\x7b' :: t)
  refine takes_statement_default g d (by simpa using hreserved) (Takes.orElse_right ?_
    (Takes.orElse_left ?_))
  · rw [List.append_assoc]
    exact refuses_inlineFunction _
  refine takes_wholeWord_bind (y := 's') rfl (by decide) ?_ ?_
  · rw [List.append_assoc]
    exact head.gap.stops (fun _ h => isWord_eq_false_of_isBlank h) _
  have hname : Takes (do Pattern.gap; identifier) (head.gap.text ++ head.name.text)
      (head.behind.text ++ (baseText head.base ++ (head.last.text ++ "\x7b".toList)) ++ t)
      (·.text = head.name.text) := by
    refine (head.gap.takes (stops_isBlank_name head.name _)).bind fun _ _ =>
      takes_identifier head.name.isIdent_text ?_
    simpa using head.stops_behind hwhole t
  have hsplit : head.gap.text ++ (head.tail ++ "\x7b".toList) = head.gap.text ++ head.name.text ++
      (head.behind.text ++ (baseText head.base ++ (head.last.text ++ "\x7b".toList))) := by
    simp [tail]
  rw [hsplit]
  exact hname.optional.bind fun _ _ => (head.takes_base hwhole _ t).mono fun form h => ⟨_, h⟩

/-- A name that is cut is followed by the keyword of a base, without a blank. -/
theorem exists_clause_of_cut (hcut : head.isWhole = false) :
    ∃ clause, head.base = some clause ∧ head.tail = head.name.text ++ "extends".toList ++
      (clause.gap.text ++ (clause.first :: clause.more ++ head.last.text)) := by
  cases hbase : head.base with
  | none => simp [isWhole, hbase] at hcut
  | some clause =>
      have hbehind : head.behind.text = [] := by
        simpa [isWhole, hbase] using hcut
      exact ⟨clause, rfl, by simp [tail, hbase, hbehind, baseText, BaseClause.text_eq]⟩

/-- A cut name is not read as the name of a default class: the whole identifier would be its name,
and then its base is missing. -/
theorem refuses_inlineClass (hcut : head.isWhole = false) (t : List Char) :
    Refuses Export.inlineClass
      ("class".toList ++ (head.gap.text ++ (head.tail ++ '\x7b' :: t))) := by
  obtain ⟨clause, -, htail⟩ := head.exists_clause_of_cut hcut
  let behind := clause.first :: clause.more ++ (head.last.text ++ '\x7b' :: t)
  have hident : isIdent (head.name.text ++ "extends".toList) = true := by
    obtain ⟨c, more, hname, hc, hmore⟩ := isIdent_iff.1 head.name.isIdent_text
    refine isIdent_iff.2 ⟨c, more ++ "extends".toList, by rw [hname]; rfl, hc, fun x hx => ?_⟩
    rcases List.mem_append.1 hx with hx | hx
    · exact hmore x hx
    · exact (List.all_eq_true.1 (by decide) : ∀ y ∈ "extends".toList, isIdentPart y = true) x hx
  have hlonger : "extends".toList.length < (head.name.text ++ "extends".toList).length := by
    have := List.length_pos_iff.2 (ne_nil_of_isIdent head.name.isIdent_text)
    rw [List.length_append]
    omega
  have hfirst : isBlank clause.first = false ∧ clause.first ≠ '\x7b' :=
    ⟨isBlank_eq_false_of_isIdentStart clause.isIdentStart_first,
      ne_of_isIdentPart (isIdentPart_of_isIdentStart clause.isIdentStart_first) (by decide)⟩
  have hopens : Opens identifier (!isBlank ·) :=
    opens_identifier fun x hx => by rw [isBlank_eq_false_of_isIdentStart hx]; rfl
  have hsplit : head.tail ++ '\x7b' :: t =
      head.name.text ++ "extends".toList ++ (clause.gap.text ++ behind) := by
    rw [htail]
    simp [behind]
  rw [hsplit]
  have hblank := stops_isBlank_of_isIdent hident (clause.gap.text ++ behind)
  refine refuses_word_bind (refuses_edge_bind (refuses_optional_bind
    (refuses_bind_assoc (head.gap.refuses_bind hblank hopens.bind
      (refuses_identifier_bind hident ?_ fun capture rest hrest => ?_))) ?_))
  · exact clause.gap.stops (fun _ h => isIdentPart_eq_false_of_isBlank h) _
  · rcases hrest with rfl | ⟨x, hx, hpart⟩
    · -- the whole identifier was read
      exact refuses_closing rfl (clause.gap.refuses_bind (stops_cons.2 hfirst.1)
        (opens_word_bind (x := 'e') rfl (by decide)) (refuses_second_extends clause head.last t))
        (stops_cons.2 hfirst.1) (stops_cons.2 (by simpa using hfirst.2))
    · -- the reading stopped within the identifier
      obtain ⟨more, rfl⟩ := List.head?_eq_some_iff.1 hx
      have hx := isBlank_eq_false_of_isIdentPart hpart
      exact refuses_closing (b := ⟨[], by simp⟩) rfl (refuses_gap (stops_cons.2 hx)).bind
        (stops_cons.2 hx) (stops_cons.2 (by simpa using ne_of_isIdentPart hpart (by decide)))
  · -- without a name
    have hmark : Stops (· == '\x7b')
        (head.name.text ++ "extends".toList ++ (clause.gap.text ++ behind)) :=
      stops_mark_name ⟨_, hident⟩ (by decide) _
    exact refuses_closing rfl (head.gap.refuses_bind hblank
      (opens_word_bind (x := 'e') rfl (by decide))
      (refuses_extends_of_longer (isIdentPart_of_mem hident) hlonger)) hblank hmark

/-- **Any other default class is taken as an expression.** -/
theorem takes_default_cut (hcut : head.isWhole = false) (g d : Gap) (t : List Char) :
    Takes Export.statement
      ("export".toList ++ (g.text ++ ("default".toList ++ (d.text ++ []))))
      ("class".toList ++ (head.gap.text ++ (head.tail ++ '\x7b' :: t)))
      fun form => ∃ item, form = .line .defaultExpression item := by
  refine takes_statement_default g d (head.reserved_class _) ?_
  refine Takes.orElse_right (refuses_inlineFunction _) (Takes.orElse_right
    (head.refuses_inlineClass hcut t) ?_)
  intro before
  exact ⟨_, ⟨_, rfl⟩, rfl⟩

end ClassHead

end Written

end SourceOutline
