/-
**Heads as they stand in a text.**

Whatever text a file has, the head of a function or of a class that was found in it consists of
certain parts: keywords that may be absent, with any blanks behind them, a name, parameters or a base
class, and the brace that opens the body.  Each part is a structure that carries what is known of its
text, and the head is their concatenation.

Main definitions:

* `Written.Blanks`, `Written.Gap`, `Written.Separator` — what stands between words;
* `Written.ParameterList`, `Written.BaseClause` — parameters and base classes;
* `Written.FunctionHead`, `Written.ClassHead` — heads, with their `text`;
* `Pattern.EndsWith` — every outcome of a pattern ends with a given character.

Main results:

* `exists_functionHead`, `exists_classHead` — **what the outcomes of the two patterns read**;
* `Written.ClassHead.brace_not_mem_front` — the head of a class holds one opening brace, its last
  character;
* `endsWith_functionHead`, `endsWith_classHead`, `endsWith_methodHead` — a head ends with the brace of
  its body.
-/

import SourceOutline.Declaration.Class
import SourceOutline.Declaration.Function
import SourceOutline.Proofs.Readings
import SourceOutline.Proofs.Specifiers

set_option autoImplicit false

namespace SourceOutline

open Text Pattern

/-! ### Parts of heads -/

namespace Written

open Printed (Name)

/-- Blanks, perhaps none. -/
structure Blanks where
  text : List Char
  isBlank_of_mem : ∀ x ∈ text, isBlank x = true

/-- At least one blank. -/
structure Gap extends Blanks where
  ne_nil : text ≠ []

/-- A keyword and the blanks behind it, or nothing. -/
def keywordText (keyword : String) (gap : Option Gap) : List Char :=
  gap.elim [] fun g => keyword.toList ++ g.text

/-- What stands between the keyword of a function and its name. -/
inductive Separator where
  | star (before behind : Blanks)
  | gap (gap : Gap)

/-- The separator as it is written. -/
def Separator.text : Separator → List Char
  | star before behind => before.text ++ '*' :: behind.text
  | gap g => g.text

/-- Parameters between parentheses, with the blanks around these. -/
structure ParameterList where
  before : Blanks
  inner : List Char
  paren_not_mem : ')' ∉ inner
  behind : Blanks

/-- The parameters as they are written. -/
def ParameterList.text (list : ParameterList) : List Char :=
  list.before.text ++ '(' :: (list.inner ++ ')' :: list.behind.text)

/-- The characters of a base class. -/
def isBasePart (c : Char) : Bool :=
  isIdentPart c || c == '.'

/-- What a class extends. -/
structure BaseClause where
  gap : Gap
  first : Char
  more : List Char
  isIdentStart_first : isIdentStart first = true
  isBasePart_of_mem : ∀ x ∈ more, isBasePart x = true

/-- The base class as it is written, behind its keyword. -/
def BaseClause.text (clause : BaseClause) : List Char :=
  "extends".toList ++ (clause.gap.text ++ clause.first :: clause.more)

theorem BaseClause.text_eq (clause : BaseClause) :
    clause.text = "extends".toList ++ (clause.gap.text ++ clause.first :: clause.more) := rfl

/-- What a class extends, or nothing. -/
def baseText (base : Option BaseClause) : List Char :=
  base.elim [] BaseClause.text

/-- The head of a function. -/
structure FunctionHead where
  exported : Option Gap
  defaulted : Option Gap
  asynchronous : Option Gap
  separator : Separator
  name : Name
  parameters : ParameterList

namespace FunctionHead

/-- The words behind `export` and `default`. -/
def words (head : FunctionHead) : List Char :=
  keywordText "async" head.asynchronous ++
    ("function".toList ++ (head.separator.text ++ head.name.text))

/-- The head as it is written, without its brace. -/
def front (head : FunctionHead) : List Char :=
  keywordText "export" head.exported ++
    (keywordText "default" head.defaulted ++ (head.words ++ head.parameters.text))

/-- The head as it is written. -/
def text (head : FunctionHead) : List Char :=
  head.front ++ ['\x7b']

end FunctionHead

/-- The head of a class. -/
structure ClassHead where
  exported : Option Gap
  defaulted : Option Gap
  gap : Gap
  name : Name
  behind : Blanks
  base : Option BaseClause
  last : Blanks

namespace ClassHead

/-- The head behind the blanks that follow its keyword, without its brace. -/
def tail (head : ClassHead) : List Char :=
  head.name.text ++ (head.behind.text ++ (baseText head.base ++ head.last.text))

/-- The head as it is written, without its brace. -/
def front (head : ClassHead) : List Char :=
  keywordText "export" head.exported ++
    (keywordText "default" head.defaulted ++ ("class".toList ++ (head.gap.text ++ head.tail)))

/-- The head as it is written. -/
def text (head : ClassHead) : List Char :=
  head.front ++ ['\x7b']

end ClassHead

/-! ### Where no brace stands -/

theorem Blanks.not_mem (blanks : Blanks) {mark : Char} (hmark : isBlank mark = false) :
    mark ∉ blanks.text := by
  intro hmem
  rw [blanks.isBlank_of_mem mark hmem] at hmark
  exact absurd hmark (by decide)

theorem not_mem_keywordText {keyword : String} {mark : Char} (hkeyword : mark ∉ keyword.toList)
    (hmark : isBlank mark = false) (gap : Option Gap) : mark ∉ keywordText keyword gap := by
  cases gap with
  | none => simp [keywordText]
  | some gap =>
      simp only [keywordText, Option.elim_some, List.mem_append, not_or]
      exact ⟨hkeyword, gap.not_mem hmark⟩

theorem not_mem_baseText {mark : Char} (hblank : isBlank mark = false)
    (hmark : isBasePart mark = false) (base : Option BaseClause) : mark ∉ baseText base := by
  have hpart : isIdentPart mark = false := (Bool.or_eq_false_iff.1 hmark).1
  cases base with
  | none => simp [baseText]
  | some clause =>
      have hkeyword := not_mem_of_isIdent (by decide : isIdent "extends".toList = true) hpart
      have hfirst : clause.first ≠ mark :=
        ne_of_isIdentPart (isIdentPart_of_isIdentStart clause.isIdentStart_first) hpart
      have hmore : mark ∉ clause.more := by
        intro hmem
        rw [clause.isBasePart_of_mem _ hmem] at hmark
        exact absurd hmark (by decide)
      simp only [baseText, Option.elim_some, BaseClause.text_eq, List.mem_append, not_or]
      exact ⟨hkeyword, clause.gap.not_mem hblank,
        List.not_mem_cons_of_ne_of_not_mem hfirst.symm hmore⟩

/-- Before its brace the head of a class holds only blanks, letters and points. -/
theorem ClassHead.not_mem_front (head : ClassHead) {mark : Char} (hblank : isBlank mark = false)
    (hmark : isBasePart mark = false) : mark ∉ head.front := by
  have hpart : isIdentPart mark = false := (Bool.or_eq_false_iff.1 hmark).1
  have hword : ∀ {word : List Char}, isIdent word = true → mark ∉ word := fun h =>
    not_mem_of_isIdent h hpart
  simp only [front, tail, List.mem_append, not_or]
  refine ⟨not_mem_keywordText (hword ?_) hblank _, not_mem_keywordText (hword ?_) hblank _,
    hword ?_, head.gap.not_mem hblank, hword head.name.isIdent_text, head.behind.not_mem hblank,
    not_mem_baseText hblank hmark _, head.last.not_mem hblank⟩ <;> decide

/-- The head of a class holds one opening brace, its last character. -/
theorem ClassHead.brace_not_mem_front (head : ClassHead) : '\x7b' ∉ head.front :=
  head.not_mem_front (by decide) (by decide)

/-- The words of a function hold neither a brace nor a parenthesis. -/
theorem FunctionHead.not_mem_words (head : FunctionHead) {mark : Char}
    (hmark : mark = '\x7b' ∨ mark = '(' ∨ mark = ')') : mark ∉ head.words := by
  have hblank : isBlank mark = false := by rcases hmark with rfl | rfl | rfl <;> decide
  have hpart : isIdentPart mark = false := by rcases hmark with rfl | rfl | rfl <;> decide
  have hletters : mark ∉ "async".toList ∧ mark ∉ "function".toList ∧ mark ≠ '*' := by
    rcases hmark with rfl | rfl | rfl <;> decide
  have hname := not_mem_of_isIdent head.name.isIdent_text hpart
  have hseparator : mark ∉ head.separator.text := by
    cases head.separator with
    | star before behind =>
        simp [Separator.text, before.not_mem hblank, behind.not_mem hblank, hletters.2.2]
    | gap gap => exact gap.not_mem hblank
  simp only [words, List.mem_append, not_or]
  exact ⟨not_mem_keywordText hletters.1 hblank _, hletters.2.1, hseparator, hname⟩

end Written

/-! ### What the patterns read -/

namespace Pattern

open Written

variable {α β : Type}

theorem exists_blanks {c : Cursor} {found : Unit × Cursor} (h : found ∈ blanks.outcomes c) :
    ∃ b : Blanks, c.Reads b.text found.2 := by
  obtain ⟨s, hs, hreads⟩ := reads_of_mem_outcomes_many h
  exact ⟨⟨s, hs⟩, hreads⟩

theorem exists_gap {c : Cursor} {found : Unit × Cursor} (h : found ∈ gap.outcomes c) :
    ∃ g : Gap, c.Reads g.text found.2 := by
  obtain ⟨s, hne, hs, hreads⟩ := reads_of_mem_outcomes_oneOrMore h
  exact ⟨⟨⟨s, hs⟩, hne⟩, hreads⟩

theorem exists_optionalKeyword {keyword : String} {c : Cursor} {found : Bool × Cursor}
    (h : found ∈ (Declaration.optionalKeyword keyword).outcomes c) :
    ∃ g : Option Gap, c.Reads (keywordText keyword g) found.2 := by
  obtain ⟨mid, hmid, h⟩ := mem_outcomes_bind.1 h
  rw [outcomes_pure, List.mem_singleton] at h
  subst h
  rcases mem_outcomes_optional.1 hmid with ⟨_, -, hmem⟩ | rfl
  · obtain ⟨word, hword, hgap⟩ := mem_outcomes_bind.1 hmem
    obtain ⟨g, hg⟩ := exists_gap hgap
    exact ⟨some g, (reads_of_mem_outcomes_word hword).append hg⟩
  · exact ⟨none, Cursor.Reads.nil c⟩

theorem exists_name {c : Cursor} {found : Capture × Cursor} (h : found ∈ identifier.outcomes c) :
    ∃ name : Printed.Name, found.1.text = name.text ∧ c.Reads name.text found.2 := by
  obtain ⟨hcapture, name, hname, hreads⟩ := reads_of_mem_outcomes_identifier h
  exact ⟨⟨name, hname⟩, by rw [hcapture, hreads.text_eq], hreads⟩

theorem exists_separator {c : Cursor} {found : Unit × Cursor}
    (h : found ∈ Export.starOrGap.outcomes c) :
    ∃ s : Separator, c.Reads s.text found.2 := by
  simp only [Export.starOrGap, outcomes_orElse, List.mem_append] at h
  rcases h with h | h
  · obtain ⟨mid, hbefore, h⟩ := mem_outcomes_bind.1 h
    obtain ⟨before, hbefore⟩ := exists_blanks hbefore
    obtain ⟨mid', hstar, h⟩ := mem_outcomes_bind.1 h
    obtain ⟨behind, hbehind⟩ := exists_blanks h
    exact ⟨.star before behind, hbefore.append ((reads_of_mem_outcomes_word hstar).append hbehind)⟩
  · obtain ⟨g, hg⟩ := exists_gap h
    exact ⟨.gap g, hg⟩

theorem exists_parameterList {c : Cursor} {found : Capture × Cursor}
    (h : found ∈ Declaration.parameters.outcomes c) :
    ∃ list : ParameterList, found.1.text = list.inner ∧ c.Reads (list.text ++ ['\x7b']) found.2 := by
  obtain ⟨_, hbefore, h⟩ := mem_outcomes_bind.1 h
  obtain ⟨before, hbefore⟩ := exists_blanks hbefore
  obtain ⟨_, hopen, h⟩ := mem_outcomes_bind.1 h
  obtain ⟨inner, hinner, h⟩ := mem_outcomes_bind.1 h
  obtain ⟨hcapture, _, hmany⟩ := mem_outcomes_captured.1 hinner
  obtain ⟨s, hs, hreads⟩ := reads_of_mem_outcomes_many hmany
  obtain ⟨_, hclose, h⟩ := mem_outcomes_bind.1 h
  obtain ⟨_, hbehind, h⟩ := mem_outcomes_bind.1 h
  obtain ⟨behind, hbehind⟩ := exists_blanks hbehind
  obtain ⟨_, hbrace, h⟩ := mem_outcomes_bind.1 h
  rw [outcomes_pure, List.mem_singleton] at h
  subst h
  have hparen : ')' ∉ s := fun hmem => absurd (hs _ hmem) (by decide)
  refine ⟨⟨before, s, hparen, behind⟩, by rw [hcapture, hreads.text_eq], ?_⟩
  have hall := hbefore.append ((reads_of_mem_outcomes_word hopen).append (hreads.append
    ((reads_of_mem_outcomes_word hclose).append (hbehind.append
      (reads_of_mem_outcomes_word hbrace)))))
  simpa [ParameterList.text] using hall

theorem exists_baseClause {c : Cursor} {found : Option Unit × Cursor}
    (h : found ∈ (optional do
      word "extends"
      gap
      let _ ← one isIdentStart
      many fun c => isIdentPart c || c == '.').outcomes c) :
    ∃ base : Option BaseClause, c.Reads (baseText base) found.2 := by
  rcases mem_outcomes_optional.1 h with ⟨_, -, h⟩ | rfl
  · obtain ⟨_, hword, h⟩ := mem_outcomes_bind.1 h
    obtain ⟨_, hgap, h⟩ := mem_outcomes_bind.1 h
    obtain ⟨g, hg⟩ := exists_gap hgap
    obtain ⟨first, hfirst, h⟩ := mem_outcomes_bind.1 h
    obtain ⟨hstart, hfirst⟩ := reads_of_mem_outcomes_one hfirst
    obtain ⟨more, hmore, hmany⟩ := reads_of_mem_outcomes_many h
    exact ⟨some ⟨g, first.1, more, hstart, hmore⟩,
      (reads_of_mem_outcomes_word hword).append (hg.append (hfirst.append hmany))⟩
  · exact ⟨none, Cursor.Reads.nil c⟩

end Pattern

open Pattern

/-- **What the head of a function reads**, and what is found in it. -/
theorem exists_functionHead {c : Cursor} {found : Declaration.FunctionHead × Cursor}
    (h : found ∈ Declaration.functionHead.outcomes c) :
    ∃ head : Written.FunctionHead, c.Reads head.text found.2 ∧
      found.1.name.text = head.name.text ∧ found.1.parameters.text = head.parameters.inner := by
  obtain ⟨_, hexported, h⟩ := mem_outcomes_bind.1 h
  obtain ⟨exported, hexported⟩ := exists_optionalKeyword hexported
  obtain ⟨_, hdefaulted, h⟩ := mem_outcomes_bind.1 h
  obtain ⟨defaulted, hdefaulted⟩ := exists_optionalKeyword hdefaulted
  obtain ⟨_, hasync, h⟩ := mem_outcomes_bind.1 h
  obtain ⟨asynchronous, hasync⟩ := exists_optionalKeyword hasync
  obtain ⟨_, hword, h⟩ := mem_outcomes_bind.1 h
  obtain ⟨_, hseparator, h⟩ := mem_outcomes_bind.1 h
  obtain ⟨separator, hseparator⟩ := exists_separator hseparator
  obtain ⟨_, hname, h⟩ := mem_outcomes_bind.1 h
  obtain ⟨name, hnameText, hname⟩ := exists_name hname
  obtain ⟨_, hlist, h⟩ := mem_outcomes_bind.1 h
  obtain ⟨list, hlistText, hlist⟩ := exists_parameterList hlist
  rw [outcomes_pure, List.mem_singleton] at h
  subst h
  refine ⟨⟨exported, defaulted, asynchronous, separator, name, list⟩, ?_, hnameText, hlistText⟩
  have hall := hexported.append (hdefaulted.append (hasync.append
    ((reads_of_mem_outcomes_word hword).append (hseparator.append (hname.append hlist)))))
  simpa [Written.FunctionHead.text, Written.FunctionHead.front, Written.FunctionHead.words] using hall

/-- **What the head of a class reads**, and what is found in it. -/
theorem exists_classHead {c : Cursor} {found : Capture × Cursor}
    (h : found ∈ Declaration.classHead.outcomes c) :
    ∃ head : Written.ClassHead, c.Reads head.text found.2 ∧
      found.1.text = head.name.text := by
  obtain ⟨_, hexported, h⟩ := mem_outcomes_bind.1 h
  obtain ⟨exported, hexported⟩ := exists_optionalKeyword hexported
  obtain ⟨_, hdefaulted, h⟩ := mem_outcomes_bind.1 h
  obtain ⟨defaulted, hdefaulted⟩ := exists_optionalKeyword hdefaulted
  obtain ⟨_, hword, h⟩ := mem_outcomes_bind.1 h
  obtain ⟨_, hgap, h⟩ := mem_outcomes_bind.1 h
  obtain ⟨gap, hgap⟩ := exists_gap hgap
  obtain ⟨_, hname, h⟩ := mem_outcomes_bind.1 h
  obtain ⟨name, hnameText, hname⟩ := exists_name hname
  obtain ⟨_, hbehind, h⟩ := mem_outcomes_bind.1 h
  obtain ⟨behind, hbehind⟩ := exists_blanks hbehind
  obtain ⟨_, hbase, h⟩ := mem_outcomes_bind.1 h
  obtain ⟨base, hbase⟩ := exists_baseClause hbase
  obtain ⟨_, hlast, h⟩ := mem_outcomes_bind.1 h
  obtain ⟨last, hlast⟩ := exists_blanks hlast
  obtain ⟨_, hbrace, h⟩ := mem_outcomes_bind.1 h
  rw [outcomes_pure, List.mem_singleton] at h
  subst h
  refine ⟨⟨exported, defaulted, gap, name, behind, base, last⟩, ?_, hnameText⟩
  have hall := hexported.append (hdefaulted.append ((reads_of_mem_outcomes_word hword).append
    (hgap.append (hname.append (hbehind.append (hbase.append (hlast.append
      (reads_of_mem_outcomes_word hbrace))))))))
  simpa [Written.ClassHead.text, Written.ClassHead.front, Written.ClassHead.tail] using hall

/-! ### How heads end -/

namespace Pattern

variable {α β : Type}

/-- Every outcome covers a text that ends with a given character. -/
def EndsWith (p : Pattern α) (x : Char) : Prop :=
  ∀ c, ∀ found ∈ p.outcomes c, ∃ s, c.Reads (s ++ [x]) found.2

/-- A sequence ends as its second part does. -/
theorem EndsWith.bind {p : Pattern α} {next : α → Pattern β} {x : Char}
    (h : ∀ a, EndsWith (next a) x) : EndsWith (p >>= next) x := by
  intro c found hfound
  obtain ⟨mid, hmid, hfound⟩ := mem_outcomes_bind.1 hfound
  obtain ⟨s, hs⟩ := reaches_of_mem_outcomes _ _ _ hmid
  obtain ⟨t, ht⟩ := h _ _ _ hfound
  exact ⟨s ++ t, by simpa using hs.append ht⟩

/-- A last step that only computes does not matter. -/
theorem EndsWith.map {p : Pattern α} {f : α → β} {x : Char} (h : EndsWith p x) :
    EndsWith (do let a ← p; return f a) x := by
  intro c found hfound
  obtain ⟨mid, hmid, hfound⟩ := mem_outcomes_bind.1 hfound
  rw [outcomes_pure, List.mem_singleton] at hfound
  subst hfound
  exact h c mid hmid

end Pattern

theorem endsWith_parameters : EndsWith Declaration.parameters '\x7b' := by
  intro c found h
  obtain ⟨list, -, hreads⟩ := exists_parameterList h
  exact ⟨list.text, hreads⟩

theorem endsWith_methodHead : EndsWith Declaration.methodHead '\x7b' :=
  EndsWith.bind fun _ => EndsWith.bind fun _ => EndsWith.bind fun _ => EndsWith.bind fun _ =>
    endsWith_parameters.map

theorem endsWith_functionHead : EndsWith Declaration.functionHead '\x7b' := by
  intro c found h
  obtain ⟨head, hreads, -⟩ := exists_functionHead h
  exact ⟨head.front, hreads⟩

theorem endsWith_classHead : EndsWith Declaration.classHead '\x7b' := by
  intro c found h
  obtain ⟨head, hreads, -⟩ := exists_classHead h
  exact ⟨head.front, hreads⟩

end SourceOutline
