/-
**Heads of declarations with and without carriage returns.**

The heads of classes, functions and methods, and the comments above them, are found again when each
line feed has a carriage return before it.  Names come out the same, parameters with their own line
ends changed, and comments say the same.

Main definitions:

* `Declaration.FunctionHead.Same`, `Declaration.MethodHead.Same` — the same head, up to the line
  ends among its parameters;
* `Declaration.Header.Same` — the same head under a comment that says the same.

Main results:

* `Declaration.mirrors_classHead`, `Declaration.mirrors_functionHead`,
  `Declaration.mirrors_methodHead` — the heads;
* `Declaration.mirrors_leadingComment` — the comments;
* `Declaration.mirrors_header` — **a head is found again with its comment**.
-/

import SourceOutline.Proofs.Calm
import SourceOutline.Proofs.Mirrors

set_option autoImplicit false

namespace SourceOutline

open Text Pattern

namespace Declaration

variable {m m' : Mode}

/-! ### Keywords and parameters -/

theorem mirrors_optionalKeyword {keyword : String} (hkeyword : Inline keyword.toList) :
    Mirrors m .stray Eq (optionalKeyword keyword) (optionalKeyword keyword) := by
  have hword : Mirrors m .stray (fun _ _ => True) (do word keyword; gap) (do word keyword; gap) :=
    (mirrors_word hkeyword).bind fun _ _ _ => mirrors_gap
  refine (hword.optional (Mode.le_stray m)).bind fun a b hab => ?_
  refine mirrors_pure ?_ (Mode.le_refl _)
  cases hab <;> rfl

theorem mirrors_starOrGap :
    Mirrors .loose .stray (fun _ _ => True) Export.starOrGap Export.starOrGap := by
  have hstar : Mirrors .loose .loose (fun _ _ => True) (do blanks; word "*"; blanks)
      (do blanks; word "*"; blanks) :=
    mirrors_blanks.bind fun _ _ _ => (mirrors_word (by decide)).bind fun _ _ _ => mirrors_blanks
  exact (hstar.mono (Mode.le_refl _) (Mode.le_stray _)).orElse mirrors_gap

/-- Parameters are found again with their own line ends changed. -/
theorem mirrors_parameters :
    Mirrors .loose .exact (fun a b => b.text = crlf a.text) parameters parameters := by
  have hinner : Mirrors .exact .stray (fun _ _ => True) (many (· != ')')) (many (· != ')')) :=
    (mirrors_many (by decide) (by decide)).mono (Mode.exact_le _) (Mode.le_stray _)
  exact
    mirrors_blanks.bind fun _ _ _ =>
    (mirrors_word (by decide)).bind fun _ _ _ =>
    hinner.captured_bind (by decide) fun _ _ hinner _ =>
    (mirrors_blanks.mono (Mode.exact_le _) (Mode.le_refl _)).bind fun _ _ _ =>
    (mirrors_word (by decide)).bind fun _ _ _ =>
    mirrors_pure hinner (Mode.le_refl _)

/-! ### The three heads -/

theorem mirrors_classHead : Mirrors m .exact (fun a b => b.text = a.text) classHead classHead := by
  have hextends : Mirrors .loose .loose (fun _ _ => True)
      (do word "extends"; gap; let _ ← one isIdentStart; many fun c => isIdentPart c || c == '.')
      (do word "extends"; gap; let _ ← one isIdentStart; many fun c => isIdentPart c || c == '.') :=
    (mirrors_word (by decide)).bind fun _ _ _ => mirrors_gap.bind fun _ _ _ =>
      (mirrors_one isIdentStart_newline isIdentStart_return).bind fun _ _ _ =>
        mirrors_many_inline (by decide) (by decide) (Mode.exact_le _)
  exact
    (mirrors_optionalKeyword (by decide)).bind fun _ _ _ =>
    (mirrors_optionalKeyword (by decide)).bind fun _ _ _ =>
    (mirrors_word (by decide)).bind fun _ _ _ =>
    mirrors_gap.bind fun _ _ _ =>
    mirrors_identifier.bind fun _ _ hname =>
    mirrors_blanks.bind fun _ _ _ =>
    (hextends.optional (Mode.le_refl _)).bind fun _ _ _ =>
    mirrors_blanks.bind fun _ _ _ =>
    (mirrors_word (by decide)).bind fun _ _ _ =>
    mirrors_pure hname (Mode.le_refl _)

/-- The same head of a function, up to the line ends among its parameters. -/
structure FunctionHead.Same (a b : FunctionHead) : Prop where
  name_eq : b.name.text = a.name.text
  parameters_eq : b.parameters.text = crlf a.parameters.text

theorem mirrors_functionHead :
    Mirrors m .exact FunctionHead.Same functionHead functionHead :=
  (mirrors_optionalKeyword (by decide)).bind fun _ _ _ =>
  (mirrors_optionalKeyword (by decide)).bind fun _ _ _ =>
  (mirrors_optionalKeyword (by decide)).bind fun _ _ _ =>
  (mirrors_word (by decide)).bind fun _ _ _ =>
  mirrors_starOrGap.bind fun _ _ _ =>
  mirrors_identifier.bind fun _ _ hname =>
  mirrors_parameters.bind fun _ _ hparameters =>
  mirrors_pure ⟨hname, hparameters⟩ (Mode.le_refl _)

/-- The same head of a method, up to the line ends among its parameters. -/
structure MethodHead.Same (a b : MethodHead) : Prop where
  isStatic_eq : b.isStatic = a.isStatic
  modifier_eq : b.modifier = a.modifier
  name_eq : b.name.text = a.name.text
  parameters_eq : b.parameters.text = crlf a.parameters.text

theorem mirrors_modifier : Mirrors m .stray Eq modifier modifier := by
  have hword : ∀ (s : String) (found : Modifier), Inline s.toList →
      Mirrors m .loose Eq (do word s; return found) (do word s; return found) :=
    fun s found hs => (mirrors_word hs).bind fun _ _ _ => mirrors_pure rfl (Mode.le_refl _)
  have hwords := (hword "async" .async (by decide)).orElse
    ((hword "get" .get (by decide)).orElse (hword "set" .set (by decide)))
  exact hwords.bind fun _ _ hfound => mirrors_gap.bind fun _ _ _ =>
    mirrors_pure hfound (Mode.le_refl _)

theorem mirrors_methodHead : Mirrors m .exact MethodHead.Same methodHead methodHead := by
  have hstar : Mirrors .stray .stray (fun _ _ => True) (do word "*"; blanks)
      (do word "*"; blanks) :=
    (mirrors_word (by decide)).bind fun _ _ _ =>
      mirrors_blanks.mono (Mode.le_refl _) (Mode.le_stray _)
  refine
    (mirrors_optionalKeyword (by decide)).bind fun _ _ hstatic =>
    (mirrors_modifier.optional (Mode.le_refl _)).bind fun _ _ hmodifier =>
    (hstar.optional (Mode.le_refl _)).bind fun _ _ _ =>
    mirrors_identifier.bind fun _ _ hname =>
    mirrors_parameters.bind fun _ _ hparameters =>
    mirrors_pure ⟨hstatic.symm, ?_, hname, hparameters⟩ (Mode.le_refl _)
  cases hmodifier with
  | some h => rw [h]
  | none => rfl

/-- The head of a method reads the same in one line. -/
theorem MethodHead.Same.signature_eq {a b : MethodHead} (h : a.Same b) :
    b.signature = a.signature := by
  rw [signature, signature, h.isStatic_eq, h.modifier_eq, h.name_eq, h.parameters_eq, collapse_crlf]

/-! ### Comments -/

theorem mirrors_blockComment :
    Mirrors .loose .loose (fun a b => b.summary? = a.summary?) blockComment blockComment := by
  refine
    mirrors_blanks.bind fun _ _ _ =>
    (mirrors_word (by decide)).bind fun _ _ _ =>
    (mirrors_upTo (by decide)).captured.bind fun _ _ hbody =>
    (mirrors_word (by decide)).bind fun _ _ _ =>
    mirrors_blanks.bind fun _ _ _ =>
    mirrors_pure ?_ (Mode.le_refl _)
  rw [LeadingComment.summary?, LeadingComment.summary?, hbody.1]
  exact Comment.summary?_block_crlf _

/-- A comment ends with its line, with or without a carriage return. -/
theorem mirrors_commentEnd :
    Mirrors .exact .exact (fun _ _ => True) (do let _ ← optional (word "\r"); word "\n")
      (do let _ ← optional (word "\r"); word "\n") := by
  have houtcomes : ∀ before rest,
      (do let _ ← optional (word "\r"); word "\n" : Pattern Unit).outcomes
        ⟨before, '\r' :: '\n' :: rest⟩ = [((), ⟨some '\n', rest⟩)] := by
    intro before rest
    simp [Pattern.optional, word, outcomes_exactly, Cursor.skip?_cons]
  have hnewline : ∀ before rest,
      (do let _ ← optional (word "\r"); word "\n" : Pattern Unit).outcomes
        ⟨before, '\n' :: rest⟩ = [((), ⟨some '\n', rest⟩)] := by
    intro before rest
    simp [Pattern.optional, word, outcomes_exactly, Cursor.skip?_cons]
  have hother : ∀ before x rest, x ≠ '\n' → x ≠ '\r' →
      (do let _ ← optional (word "\r"); word "\n" : Pattern Unit).outcomes
        ⟨before, x :: rest⟩ = [] := by
    intro before x rest hx hx'
    simp [Pattern.optional, word, outcomes_exactly, Cursor.skip?_cons, Ne.symm hx, Ne.symm hx']
  refine ⟨fun {c c'} hreturn hfollows => ?_, fun hidle => absurd hidle (Mode.not_idle_exact _)⟩
  obtain rfl := hfollows.eq_crlf
  obtain ⟨before, rest⟩ := c
  cases rest with
  | nil => exact echoes_nil
  | cons x rest =>
      by_cases hx : x = '\n'
      · subst hx
        rw [Cursor.crlf, crlf_newline_cons, houtcomes, hnewline]
        exact echoes_singleton ⟨trivial, Mode.follows_crlf _ ⟨some '\n', rest⟩⟩
      · have hx' : x ≠ '\r' := fun h => hreturn (h ▸ List.mem_cons_self)
        rw [Cursor.crlf, crlf_cons hx, hother _ _ _ hx hx', hother _ _ _ hx hx']
        exact echoes_nil

theorem mirrors_commentLine :
    Mirrors .exact .exact (fun _ _ => True) commentLine commentLine :=
  (mirrors_padding (Mode.le_refl _)).bind fun _ _ _ =>
  (mirrors_word (by decide)).bind fun _ _ _ =>
  (mirrors_many_inline (by decide) (by decide) (Mode.le_refl _)).bind fun _ _ _ =>
  mirrors_commentEnd

theorem advances_commentLine : Advances commentLine := by
  intro c found hfound
  obtain ⟨pad, line, -, -, hreads⟩ := commentLine_of_mem_outcomes hfound
  rw [hreads.1]
  simp only [List.length_append, List.length_cons]
  omega

theorem mirrors_lineComments :
    Mirrors .loose .loose (fun a b => b.summary? = a.summary?) lineComments lineComments := by
  have hlines : Mirrors .exact .exact (fun a b => b.summary? = a.summary?) commentLines
      commentLines := by
    have hrun := mirrors_commentLine.bind fun _ _ _ =>
      mirrors_commentLine.star advances_commentLine advances_commentLine
    refine mirrors_lineStart.bind fun _ _ _ => hrun.captured.bind fun a b hab =>
      mirrors_pure ?_ (Mode.le_refl _)
    rw [LeadingComment.summary?, LeadingComment.summary?, hab.1]
    exact Comment.summary?_lines_crlf _
  have hrefuses := refuses_commentLines (x := '\n') rfl rfl
  exact mirrors_blanks.bind fun _ _ _ =>
    (hlines.mono (Mode.le_refl _) (Mode.exact_le _)).anywhere hrefuses hrefuses

theorem mirrors_leadingComment :
    Mirrors .exact .loose (Option.Rel fun a b => b.summary? = a.summary?) leadingComment
      leadingComment :=
  ((mirrors_blockComment.orElse mirrors_lineComments).mono (Mode.exact_le _)
    (Mode.le_refl _)).optional (Mode.exact_le _)

/-! ### Heads with their comments -/

/-- The same head under a comment that says the same. -/
structure Header.Same {α : Type} (R : α → α → Prop) (a b : Header α) : Prop where
  summary_eq : b.summary? = a.summary?
  start_eq : b.start = a.start.crlf
  parts : R a.parts b.parts

/-- **A head is found again with its comment.** -/
theorem mirrors_header {α : Type} {R : α → α → Prop} {p : Pattern α}
    (hp : Mirrors .exact .exact R p p) (hopens : Opens p (!isBlank ·)) :
    Mirrors .exact .exact (Header.Same R) (header p) (header p) := by
  refine mirrors_leadingComment.bind fun comment comment' hcomment => ?_
  have hsummary : comment'.bind LeadingComment.summary? =
      comment.bind LeadingComment.summary? := by
    cases hcomment with
    | some h => exact h
    | none => rfl
  have hhead : Mirrors .exact .exact (Header.Same R) (headOfLine p comment)
      (headOfLine p comment') :=
    mirrors_lineStart.bind fun _ _ _ =>
    (mirrors_padding (Mode.le_refl _)).bind fun _ _ _ =>
    mirrors_here.bind fun _ _ hstart =>
    hp.bind fun _ _ hparts =>
    mirrors_pure ⟨congrArg (Option.map String.ofList) hsummary, hstart, hparts⟩ (Mode.le_refl _)
  exact hhead.anywhere (refuses_headOfLine rfl rfl hopens comment)
    (refuses_headOfLine rfl rfl hopens comment')

end Declaration

end SourceOutline
