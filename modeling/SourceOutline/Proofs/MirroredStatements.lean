/-
**Statements with and without carriage returns.**

Import statements are found again when each line feed has a carriage return before it, and so are
export statements, up to the line ends in their lists of names.  There is one exception.  A default
export of a name may end with its line, and a line is taken to end in front of a line feed only.  So
with a carriage return there the name is an expression.

Main definitions:

* `Import.Clause.crlf` — what an import says, with the line ends of its list changed;
* `Export.Form.Same` — two exports that say the same, up to the line ends of their lists.

Main results:

* `mirrors_keywordAtLineStart`, `Import.mirrors_statement` — keywords and import statements are
  found again;
* `Export.mirrors_statementUntil` — **with carriage returns a default name ends with a semicolon or
  with the text**, and all other export statements are found again.
-/

import SourceOutline.Proofs.DefaultNames
import SourceOutline.Proofs.MirroredHeads

set_option autoImplicit false

namespace SourceOutline

open Text Pattern

variable {m m' : Mode}

/-- What begins with a certain character covers something. -/
theorem Pattern.Opens.advances {α : Type} {p : Pattern α} {test : Char → Bool} (h : Opens p test) :
    Advances p := by
  intro c found hfound
  obtain ⟨x, s, -, hreads⟩ := h c found hfound
  rw [hreads.1]
  simp only [List.length_append, List.length_cons]
  omega

/-! ### Keywords, semicolons and lists -/

theorem mirrors_keywordAtLineStart {keyword : String} (hkeyword : Inline keyword.toList) :
    Mirrors .exact .exact (fun a b => b = a.crlf) (keywordAtLineStart keyword)
      (keywordAtLineStart keyword) :=
  mirrors_lineStart.bind fun _ _ _ =>
  (mirrors_padding (Mode.le_refl _)).bind fun _ _ _ =>
  mirrors_here.bind fun _ _ hstart =>
  (mirrors_word hkeyword).bind fun _ _ _ =>
  mirrors_wordEdge.bind fun _ _ _ =>
  mirrors_pure hstart (Mode.le_refl _)

theorem mirrors_optionalSemicolon :
    Mirrors .exact .exact (fun _ _ => True) optionalSemicolon optionalSemicolon := by
  have hsemicolon : Mirrors .exact .exact (fun _ _ => True) (do padding; word ";")
      (do padding; word ";") :=
    (mirrors_padding (Mode.le_refl _)).bind fun _ _ _ => mirrors_word (by decide)
  exact (hsemicolon.optional (Mode.le_refl _)).bind fun _ _ _ =>
    mirrors_pure trivial (Mode.le_refl _)

/-- A list of names is found again with its own line ends changed. -/
theorem mirrors_braceList :
    Mirrors m .exact (fun a b => b.text = crlf a.text) braceList braceList := by
  have hinner : Mirrors .exact .stray (fun _ _ => True) (many (· != '\x7d')) (many (· != '\x7d')) :=
    (mirrors_many (by decide) (by decide)).mono (Mode.exact_le _) (Mode.le_stray _)
  exact
    (mirrors_word (by decide)).bind fun _ _ _ =>
    hinner.captured_bind (by decide) fun _ _ hnames _ =>
    mirrors_pure hnames (Mode.le_refl _)

/-! ### Import statements -/

namespace Import

/-- What a statement says, with the line ends of its list changed. -/
def Clause.crlf (clause : Clause) : Clause :=
  { clause with specifiers := clause.specifiers.map ImportSpecifier.crlf }

theorem mirrors_fromModule : Mirrors m .exact Eq fromModule fromModule :=
  (mirrors_word (by decide)).bind fun _ _ _ =>
  mirrors_blanks.bind fun _ _ _ =>
  mirrors_literal.bind fun _ _ hsource =>
  mirrors_optionalSemicolon.bind fun _ _ _ =>
  mirrors_pure (congrArg String.ofList hsource.symm) (Mode.le_refl _)

theorem mirrors_starBinding :
    Mirrors m m' (fun a b => b.text = a.text) starBinding starBinding :=
  (mirrors_word (by decide)).bind fun _ _ _ =>
  mirrors_blanks.bind fun _ _ _ =>
  (mirrors_word (by decide)).bind fun _ _ _ =>
  mirrors_gap.bind fun _ _ _ =>
  mirrors_identifier

theorem mirrors_moreBindings :
    Mirrors m .exact (fun a b => b = a.map ImportSpecifier.crlf) moreBindings moreBindings := by
  refine Mirrors.orElse (mirrors_braceList.bind fun _ _ hnames => mirrors_pure ?_ (Mode.le_refl _))
    (mirrors_starBinding.bind fun _ _ hbinding => mirrors_pure ?_ (Mode.le_refl _))
  · rw [hnames, Specifier.imports_crlf]
  · rw [hbinding]
    rfl

theorem mirrors_defaultForm :
    Mirrors .exact .exact (fun a b => b = a.crlf) defaultForm defaultForm := by
  refine
    (mirrors_word (by decide)).bind fun _ _ _ =>
    mirrors_gap.bind fun _ _ _ =>
    mirrors_identifier.bind fun _ _ hbinding =>
    mirrors_gap.bind fun _ _ _ =>
    mirrors_fromModule.bind fun _ _ hsource =>
    mirrors_pure ?_ (Mode.le_refl _)
  rw [hbinding, hsource]
  rfl

theorem mirrors_defaultAndMoreForm :
    Mirrors .exact .exact (fun a b => b = a.crlf) defaultAndMoreForm defaultAndMoreForm := by
  refine
    (mirrors_word (by decide)).bind fun _ _ _ =>
    mirrors_gap.bind fun _ _ _ =>
    mirrors_identifier.bind fun _ _ hbinding =>
    mirrors_blanks.bind fun _ _ _ =>
    (mirrors_word (by decide)).bind fun _ _ _ =>
    mirrors_blanks.bind fun _ _ _ =>
    mirrors_moreBindings.bind fun _ _ hmore =>
    (mirrors_blanks.mono (Mode.exact_le _) (Mode.le_refl _)).bind fun _ _ _ =>
    mirrors_fromModule.bind fun _ _ hsource =>
    mirrors_pure ?_ (Mode.le_refl _)
  rw [hbinding, hmore, hsource]
  rfl

theorem mirrors_namespaceForm :
    Mirrors .exact .exact (fun a b => b = a.crlf) namespaceForm namespaceForm := by
  refine
    (mirrors_word (by decide)).bind fun _ _ _ =>
    mirrors_blanks.bind fun _ _ _ =>
    mirrors_starBinding.bind fun _ _ hbinding =>
    mirrors_gap.bind fun _ _ _ =>
    mirrors_fromModule.bind fun _ _ hsource =>
    mirrors_pure ?_ (Mode.le_refl _)
  rw [hbinding, hsource]
  rfl

theorem mirrors_namedForm :
    Mirrors .exact .exact (fun a b => b = a.crlf) namedForm namedForm := by
  refine
    (mirrors_word (by decide)).bind fun _ _ _ =>
    mirrors_blanks.bind fun _ _ _ =>
    mirrors_braceList.bind fun _ _ hnames =>
    (mirrors_blanks.mono (Mode.exact_le _) (Mode.le_refl _)).bind fun _ _ _ =>
    mirrors_fromModule.bind fun _ _ hsource =>
    mirrors_pure ?_ (Mode.le_refl _)
  rw [hnames, hsource, Specifier.imports_crlf]
  rfl

theorem mirrors_sideEffectForm :
    Mirrors .exact .exact (fun a b => b = a.crlf) sideEffectForm sideEffectForm := by
  refine
    (mirrors_word (by decide)).bind fun _ _ _ =>
    mirrors_blanks.bind fun _ _ _ =>
    mirrors_literal.bind fun _ _ hsource =>
    mirrors_optionalSemicolon.bind fun _ _ _ =>
    mirrors_pure ?_ (Mode.le_refl _)
  rw [hsource]
  rfl

/-- **An import statement is found again.** -/
theorem mirrors_statement :
    Mirrors .exact .exact (fun a b => b = a.crlf) statement statement :=
  mirrors_defaultForm.orElse <| mirrors_defaultAndMoreForm.orElse <|
    mirrors_namespaceForm.orElse <| mirrors_namedForm.orElse mirrors_sideEffectForm

end Import

/-! ### Export statements -/

namespace Export

/-- Two statements say the same, up to the line ends in the entries of a list. -/
inductive Form.Same : Form → Form → Prop
  | whole (kind : ExportKind) (items : List ExportedItem) (source : Option String) :
    Same (.whole kind items source) (.whole kind (items.map ExportedItem.crlf) source)
  | block (kind : ExportKind) (keyword : BlockKind) {item : ExportedItem}
    (h : item.crlf = item) : Same (.block kind keyword item) (.block kind keyword item)
  | line (kind : ExportKind) {item : ExportedItem} (h : item.crlf = item) :
    Same (.line kind item) (.line kind item)

theorem mirrors_allForm : Mirrors .exact .exact Form.Same allForm allForm := by
  have hname : Mirrors .loose .stray (fun a b => b.text = a.text ∧ '\n' ∉ a.text)
      (do word "as"; gap; let newName ← identifier; gap; return newName)
      (do word "as"; gap; let newName ← identifier; gap; return newName) :=
    (mirrors_word (by decide)).bind fun _ _ _ =>
    mirrors_gap.bind fun _ _ _ =>
    mirrors_identifier_inline.bind fun _ _ hname =>
    mirrors_gap.bind fun _ _ _ =>
    mirrors_pure hname (Mode.le_refl _)
  refine
    (mirrors_word (by decide)).bind fun _ _ _ =>
    mirrors_blanks.bind fun _ _ _ =>
    (mirrors_word (by decide)).bind fun _ _ _ =>
    mirrors_blanks.bind fun _ _ _ =>
    (hname.optional (Mode.le_stray _)).bind fun _ _ hnewName =>
    Import.mirrors_fromModule.bind fun _ _ hsource =>
    mirrors_pure ?_ (Mode.le_refl _)
  rw [hsource]
  cases hnewName with
  | none => exact .whole .reExportAll [⟨"*", "*"⟩] _
  | @some a b h =>
      have hitem : ExportedItem.crlf ⟨.ofList a.text, "*"⟩ = ⟨.ofList a.text, "*"⟩ :=
        ExportedItem.crlf_eq_self_iff.2 (by simpa [ExportedItem.SpansLines] using h.2)
      have hsame := Form.Same.whole .reExportAll [⟨.ofList a.text, "*"⟩]
      rw [List.map_singleton, hitem] at hsame
      rw [Option.map_some, Option.map_some, h.1]
      exact hsame _

theorem mirrors_namedForm : Mirrors .exact .exact Form.Same namedForm namedForm := by
  have hsource : Mirrors .exact .exact (fun a b => b.text = a.text)
      (do blanks; word "from"; blanks; literal) (do blanks; word "from"; blanks; literal) :=
    (mirrors_blanks.mono (Mode.exact_le _) (Mode.le_refl _)).bind fun _ _ _ =>
    (mirrors_word (by decide)).bind fun _ _ _ =>
    mirrors_blanks.bind fun _ _ _ =>
    mirrors_literal
  refine
    (mirrors_word (by decide)).bind fun _ _ _ =>
    mirrors_blanks.bind fun _ _ _ =>
    mirrors_braceList.bind fun _ _ hnames =>
    (hsource.optional (Mode.le_refl _)).bind fun _ _ hsource =>
    mirrors_optionalSemicolon.bind fun _ _ _ => ?_
  cases hsource with
  | none =>
      refine mirrors_pure ?_ (Mode.le_refl _)
      rw [hnames, Specifier.exports_crlf]
      exact .whole _ _ _
  | some h =>
      refine mirrors_pure ?_ (Mode.le_refl _)
      rw [hnames, h, Specifier.exports_crlf]
      exact .whole _ _ _

theorem mirrors_declarationKeyword :
    Mirrors m m' Eq declarationKeyword declarationKeyword := by
  have hword : ∀ (p : Pattern Unit) (found : Option BlockKind),
      Mirrors m .exact (fun _ _ => True) p p →
        Mirrors m m' Eq (do p; return found) (do p; return found) :=
    fun p found hp => hp.bind fun _ _ _ => mirrors_pure rfl (Mode.exact_le _)
  exact (hword _ none ((mirrors_word (by decide)).orElse
    ((mirrors_word (by decide)).orElse (mirrors_word (by decide))))).orElse
    ((hword _ _ (mirrors_word (by decide))).orElse (hword _ _ (mirrors_word (by decide))))

theorem mirrors_async :
    Mirrors m .stray (fun _ _ => True) (optional do word "async"; gap)
      (optional do word "async"; gap) := by
  have hasync : Mirrors m .stray (fun _ _ => True) (do word "async"; gap)
      (do word "async"; gap) :=
    (mirrors_word (by decide)).bind fun _ _ _ => mirrors_gap
  exact (hasync.optional (Mode.le_stray _)).imp fun _ _ _ => trivial

theorem mirrors_declarationForm :
    Mirrors .exact .exact Form.Same declarationForm declarationForm := by
  have hname : Mirrors .stray .exact (fun a b => b.text = a.text ∧ '\n' ∉ a.text) identifier
      identifier := mirrors_identifier_inline
  refine
    (mirrors_word (by decide)).bind fun _ _ _ =>
    mirrors_gap.bind fun _ _ _ =>
    mirrors_async.bind fun _ _ _ =>
    mirrors_declarationKeyword.bind fun keyword _ hkeyword =>
    Declaration.mirrors_starOrGap.bind fun _ _ _ =>
    hname.bind fun a _ hname => ?_
  obtain rfl := hkeyword
  rw [hname.1]
  have hitem : ExportedItem.crlf ⟨.ofList a.text, .ofList a.text⟩ =
      ⟨.ofList a.text, .ofList a.text⟩ :=
    ExportedItem.crlf_eq_self_iff.2 (by simpa [ExportedItem.SpansLines] using hname.2)
  cases keyword with
  | none => exact mirrors_pure (.line _ hitem) (Mode.le_refl _)
  | some keyword => exact mirrors_pure (.block _ keyword hitem) (Mode.le_refl _)

/-! ### Default expressions -/

/-- The names of a function or class written in place, which may have no name of its own. -/
theorem same_inlineBlock (keyword : BlockKind) {name name' : Option Capture} {other : String}
    (hname : Option.Rel (fun a b => b.text = a.text ∧ '\n' ∉ a.text) name name')
    (hother : '\n' ∉ other.toList) :
    Form.Same
      (.block .defaultExpression keyword
        ⟨"default", (name.map fun name => String.ofList name.text).getD other⟩)
      (.block .defaultExpression keyword
        ⟨"default", (name'.map fun name => String.ofList name.text).getD other⟩) := by
  cases hname with
  | none =>
      exact .block _ _ (ExportedItem.crlf_eq_self_iff.2
        (by simpa [ExportedItem.SpansLines] using hother))
  | some h =>
      rw [Option.map_some, Option.map_some, h.1]
      exact .block _ _ (ExportedItem.crlf_eq_self_iff.2
        (by simpa [ExportedItem.SpansLines] using h.2))

theorem mirrors_inlineFunction :
    Mirrors m .exact Form.Same inlineFunction inlineFunction := by
  have hstar : Mirrors .loose .loose (fun _ _ => True) (optional (word "*"))
      (optional (word "*")) :=
    ((mirrors_word (by decide)).optional (Mode.le_refl _)).imp fun _ _ _ => trivial
  refine
    mirrors_async.bind fun _ _ _ =>
    (mirrors_word (by decide)).bind fun _ _ _ =>
    mirrors_wordEdge.bind fun _ _ _ =>
    mirrors_blanks.bind fun _ _ _ =>
    hstar.bind fun _ _ _ =>
    mirrors_blanks.bind fun _ _ _ =>
    (mirrors_identifier_inline.optional (Mode.le_refl _)).bind fun _ _ hname =>
    mirrors_blanks.bind fun _ _ _ =>
    (mirrors_word (by decide)).bind fun _ _ _ =>
    mirrors_pure (same_inlineBlock _ hname (by decide)) (Mode.le_refl _)

theorem mirrors_inlineClass :
    Mirrors m .exact Form.Same inlineClass inlineClass := by
  have hgap : Mirrors .exact .stray (fun _ _ => True) gap gap :=
    mirrors_gap.mono (Mode.exact_le _) (Mode.le_refl _)
  have hname : Mirrors .exact .exact (fun a b => b.text = a.text ∧ '\n' ∉ a.text)
      (do gap; identifier) (do gap; identifier) :=
    hgap.bind fun _ _ _ => mirrors_identifier_inline
  have hextends : Mirrors .exact .exact (fun _ _ => True)
      (do gap; word "extends"; gap; oneOrMore fun c => isIdentPart c || c == '.')
      (do gap; word "extends"; gap; oneOrMore fun c => isIdentPart c || c == '.') :=
    hgap.bind fun _ _ _ =>
    (mirrors_word (by decide)).bind fun _ _ _ =>
    mirrors_gap.bind fun _ _ _ =>
    (mirrors_one (by decide) (by decide)).bind fun _ _ _ =>
    mirrors_many_inline (by decide) (by decide) (Mode.le_refl _)
  refine
    (mirrors_word (by decide)).bind fun _ _ _ =>
    mirrors_wordEdge.bind fun _ _ _ =>
    (hname.optional (Mode.le_refl _)).bind fun _ _ hname =>
    (hextends.optional (Mode.le_refl _)).bind fun _ _ _ =>
    (mirrors_blanks.mono (Mode.exact_le _) (Mode.le_refl _)).bind fun _ _ _ =>
    (mirrors_word (by decide)).bind fun _ _ _ =>
    mirrors_pure (same_inlineBlock _ hname (by decide)) (Mode.le_refl _)

theorem mirrors_inlineExpression :
    Mirrors m .exact Form.Same inlineExpression inlineExpression := by
  have hexact : Mirrors .exact .exact Form.Same inlineExpression inlineExpression :=
    (mirrors_edge fun _ => rfl).bind fun _ _ _ => mirrors_pure (.line _ rfl) (Mode.le_refl _)
  have hrefuses : ∀ rest, Refuses inlineExpression ('\n' :: rest) := fun _ _ => rfl
  exact hexact.anywhere hrefuses hrefuses

theorem mirrors_defaultExpressionForm :
    Mirrors .exact .exact Form.Same defaultExpressionForm defaultExpressionForm :=
  (mirrors_word (by decide)).bind fun _ _ _ =>
  mirrors_gap.bind fun _ _ _ =>
  (mirrors_word (by decide)).bind fun _ _ _ =>
  mirrors_gap.bind fun _ _ _ =>
  mirrors_inlineFunction.orElse (mirrors_inlineClass.orElse mirrors_inlineExpression)

/-! ### Default names -/

theorem mirrors_dottedName :
    Mirrors .exact .exact (fun a b => b.text = a.text ∧ '\n' ∉ a.text) dottedName dottedName := by
  have hpart : Mirrors .exact .exact (fun a b => b.text = a.text) (do word "."; identifier)
      (do word "."; identifier) :=
    (mirrors_word (by decide)).bind (k := .exact) fun _ _ _ => mirrors_identifier
  have hadvances : Advances (do word "."; identifier) :=
    Opens.advances (opens_word_bind (x := '.') rfl (by decide : ('.' == '.') = true))
  have hparts : Mirrors .exact .exact (fun _ _ => True)
      (do let _ ← identifier; star do word "."; identifier)
      (do let _ ← identifier; star do word "."; identifier) :=
    mirrors_identifier.bind fun _ _ _ => hpart.star hadvances hadvances
  refine hparts.captured.imp fun a b hab => ?_
  obtain ⟨htext, v, hv⟩ := hab
  have hmem : (a, a.stop) ∈ dottedName.outcomes a.start := mem_outcomes_captured.2 ⟨rfl, v, hv⟩
  obtain ⟨-, x, s, hx, hs, hreads⟩ := reads_of_mem_outcomes_dottedName hmem
  have hinline : '\n' ∉ a.text := by
    rw [show a.text = x :: s from hreads.text_eq, List.mem_cons, not_or]
    refine ⟨?_, fun hmem => absurd (hs _ hmem) (by decide)⟩
    rintro rfl
    exact absurd hx (by decide)
  exact ⟨htext.trans (crlf_of_not_mem hinline), hinline⟩

theorem mirrors_reservedWord :
    Mirrors .exact .exact (fun _ _ => True) reservedWord reservedWord := by
  have hwords : Mirrors .exact .exact (fun _ _ => True)
      (word "function" <|> word "class" <|> word "new" <|> word "async")
      (word "function" <|> word "class" <|> word "new" <|> word "async") :=
    (mirrors_word (by decide)).orElse ((mirrors_word (by decide)).orElse
      ((mirrors_word (by decide)).orElse (mirrors_word (by decide))))
  exact hwords.bind fun _ _ _ => mirrors_wordEdge

/-- A default name is found again. -/
theorem mirrors_defaultName :
    Mirrors .exact .exact (fun a b => b.text = a.text ∧ '\n' ∉ a.text) defaultName defaultName := by
  have hname : Mirrors .exact .exact (fun a b => b.text = a.text ∧ '\n' ∉ a.text) unreservedName
      unreservedName :=
    mirrors_reservedWord.notAhead.bind fun _ _ _ =>
    mirrors_dottedName.bind fun _ _ hname =>
    (mirrors_padding (Mode.le_refl _)).bind fun _ _ _ =>
    mirrors_pure hname (Mode.le_refl _)
  have hidentifier : Opens identifier (!isBlank ·) :=
    opens_identifier fun x hx => by rw [isBlank_eq_false_of_isIdentStart hx]; rfl
  have hopens : Opens unreservedName (!isBlank ·) :=
    Opens.notAhead_bind (Opens.bind (Opens.captured (Opens.bind hidentifier)))
  have hrefuses : ∀ rest, Refuses unreservedName ('\n' :: rest) := fun rest =>
    hopens.refuses (stops_cons.2 (by decide))
  exact
    (mirrors_word (by decide)).bind fun _ _ _ =>
    mirrors_gap.bind fun _ _ _ =>
    (mirrors_word (by decide)).bind fun _ _ _ =>
    mirrors_gap.bind fun _ _ _ =>
    hname.anywhere hrefuses hrefuses

/-- With carriage returns a line ends only with the text. -/
theorem mirrors_textEnd : Mirrors .exact .exact (fun _ _ => True) textEnd lineEnd := by
  refine ⟨fun {c c'} _ hfollows => ?_, fun hidle => absurd hidle (Mode.not_idle_exact _)⟩
  obtain rfl := hfollows.eq_crlf
  have hsame : c.crlf.rest.head?.all (· == '\n') = c.rest.head?.isNone := by
    obtain ⟨before, rest⟩ := c
    cases rest with
    | nil => rfl
    | cons x rest =>
        by_cases hx : x = '\n'
        · subst hx
          rfl
        · simp [Cursor.crlf, crlf_cons hx, hx]
  rw [textEnd, lineEnd, outcomes_edge, outcomes_edge, hsame]
  split
  · exact echoes_singleton ⟨trivial, Mode.follows_crlf _ _⟩
  · exact echoes_nil

/-- **With carriage returns, a default name ends with a semicolon or with the text**, and all other
export statements are found again. -/
theorem mirrors_statementUntil :
    Mirrors .exact .exact Form.Same (statementUntil textEnd)
      (statementUntil lineEnd) := by
  have hend : Mirrors .exact .exact (fun _ _ => True) (word ";" <|> textEnd)
      (word ";" <|> lineEnd) :=
    (mirrors_word (by decide)).orElse mirrors_textEnd
  have hname : Mirrors .exact .exact Form.Same (defaultNameUntil textEnd)
      (defaultNameUntil lineEnd) := by
    refine mirrors_defaultName.bind fun a b hab => hend.bind fun _ _ _ =>
      mirrors_pure ?_ (Mode.le_refl _)
    have hitem : ExportedItem.crlf ⟨"default", .ofList a.text⟩ = ⟨"default", .ofList a.text⟩ :=
      ExportedItem.crlf_eq_self_iff.2 (by simpa [ExportedItem.SpansLines] using hab.2)
    have hsame := Form.Same.whole .default [⟨"default", .ofList a.text⟩] none
    rw [nameForm, nameForm, hab.1]
    rwa [List.map_singleton, hitem] at hsame
  exact mirrors_allForm.orElse <| mirrors_namedForm.orElse <| hname.orElse <|
    mirrors_declarationForm.orElse mirrors_defaultExpressionForm

end Export

end SourceOutline
