/-
**Heads of declarations are read back.**

Each pattern of heads takes the head that is written for it, whatever the names in it are: a method
may be called `get`, `static` or `async`, and a name may begin with any keyword.  And it takes no head
that is written for another pattern.

Main results:

* `Printed.takes_classHead`, `Printed.takes_functionHead`, `Printed.takes_methodHead` — each head is
  taken by its pattern;
* `Printed.Method.refuses` — a method's head is taken for nothing else;
* `Printed.FunctionDeclaration.refuses_classHead`, `Printed.ClassDeclaration.refuses_functionHead` —
  nor are classes and functions taken for each other.
-/

import SourceOutline.Proofs.Declarations

set_option autoImplicit false

namespace SourceOutline.Printed

open Text Pattern

/-! ### Heads are taken -/

section
variable {t : List Char}

/-- A keyword that may be absent is taken where it stands. -/
theorem takes_keywordText (keyword : String) (present : Bool) (hblank : Stops isBlank t)
    (habsent : present = false → Refuses (do word keyword; gap) t) :
    Takes (optional do word keyword; gap) (keywordText keyword present) t (·.isSome = present) := by
  cases present with
  | true =>
      have htakes : Takes (do word keyword; gap) (keyword.toList ++ [' ']) t fun _ => True :=
        (takes_word _ _).bind fun _ _ => takes_gap_space hblank
      refine htakes.optional.mono fun found hfound => ?_
      obtain ⟨a, rfl, -⟩ := hfound
      rfl
  | false =>
      refine (habsent rfl).optional.mono fun found hfound => ?_
      rw [hfound]
      rfl

theorem takes_optionalKeyword (keyword : String) (present : Bool) (hblank : Stops isBlank t)
    (habsent : present = false → Refuses (do word keyword; gap) t) :
    Takes (Declaration.optionalKeyword keyword) (keywordText keyword present) t (· = present) :=
  (takes_keywordText keyword present hblank habsent).map fun _ h => h

namespace Parameters

theorem list_eq (p : Parameters) :
    p.list = "(".toList ++ (p.text ++ (")".toList ++ ([' '] ++ "\x7b".toList))) := rfl

theorem stops_list {test : Char → Bool} (h : test '(' = false) (p : Parameters) (t : List Char) :
    Stops test (p.list ++ t) := by
  simpa [list_eq] using h

theorem takes_list (p : Parameters) : Takes Declaration.parameters p.list t (·.text = p.text) := by
  have hrun : ∀ x ∈ p.text, (x != ')') = true := by
    intro x hx
    simp only [bne_iff_ne, ne_eq]
    rintro rfl
    exact p.marks_not_mem ')' (by simp) hx
  refine (takes_blanks_nil (p.stops_list (by decide) t)).bind_nil fun _ _ => ?_
  refine (takes_word _ _).bind fun _ _ => ?_
  refine (takes_many hrun (by simp)).captured.bind fun capture hcapture => ?_
  refine (takes_word _ _).bind fun _ _ => ?_
  refine (takes_blanks_space (by simp [isBlank])).bind fun _ _ => ?_
  exact (takes_word _ t).map fun _ _ => hcapture

end Parameters

/-- The head of a class behind its name. -/
theorem takes_baseText (base : Option Base) {β : Type} (b : β) :
    Takes
      (do
        let _ ← optional do
          word "extends"
          gap
          let _ ← one isIdentStart
          many fun c => isIdentPart c || c == '.'
        blanks
        word "\x7b"
        return b)
      (baseText base ++ "\x7b".toList) t (· = b) := by
  cases base with
  | none =>
      refine (Refuses.optional (refuses_word_of_head 'e' rfl (by simp [baseText])).bind).bind_nil
        fun _ _ => ?_
      refine (takes_blanks_nil (by simp [baseText, isBlank])).bind_nil fun _ _ => ?_
      exact (takes_word _ t).map fun _ _ => rfl
  | some base =>
      obtain ⟨c, rest, hfirst, hc, hrest⟩ := isIdent_iff.1 base.first.isIdent_text
      -- the first character of the base, and the others
      let more := rest ++ base.more.flatMap fun name => '.' :: name.text
      have htext : base.text = [c] ++ more := by simp [Base.text, hfirst, more]
      have hmore : ∀ x ∈ more, (isIdentPart x || x == '.') = true := by
        intro x hx
        rcases List.mem_append.1 hx with hx | hx
        · simp [hrest x hx]
        · obtain ⟨name, -, hx⟩ := List.mem_flatMap.1 hx
          rcases List.mem_cons.1 hx with rfl | hx
          · simp
          · simp [isIdentPart_of_mem name.isIdent_text x hx]
      have hblank : isBlank c = false := isBlank_eq_false_of_isIdentStart hc
      have hspace : (isIdentPart ' ' || ' ' == '.') = false := by decide
      have hsplit : baseText (some base) ++ "\x7b".toList =
          ("extends".toList ++ ([' '] ++ ([c] ++ more))) ++ ([' '] ++ "\x7b".toList) := by
        simp [baseText, htext]
      rw [hsplit]
      refine Takes.bind (Takes.optional (P := fun _ => True) ?_) fun _ _ => ?_
      · refine (takes_word _ _).bind fun _ _ => ?_
        refine (takes_gap_space (by simpa using hblank)).bind fun _ _ => ?_
        exact (takes_one hc _).bind fun _ _ => takes_many hmore (by simpa using hspace)
      · refine (takes_blanks_space (by simp [isBlank])).bind fun _ _ => ?_
        exact (takes_word _ t).map fun _ _ => rfl

theorem ClassDeclaration.head_eq (c : ClassDeclaration) :
    c.head = "class".toList ++ ([' '] ++ (c.name.text ++ ([' '] ++ (baseText c.base ++
      "\x7b".toList)))) := rfl

/-- The head of a class is taken, and the name found. -/
theorem takes_classHead (c : ClassDeclaration) :
    Takes Declaration.classHead c.head t (·.text = c.name.text) := by
  have hbase : ∀ u, Stops isBlank (baseText c.base ++ "\x7b".toList ++ u) := by
    intro u
    cases c.base <;> simp [baseText, isBlank]
  refine (takes_optionalKeyword "export" false (by simp [ClassDeclaration.head_eq, isBlank])
    fun _ => (refuses_word_of_head 'e' rfl (by simp [ClassDeclaration.head_eq])).bind).bind_nil
    fun _ _ => ?_
  refine (takes_optionalKeyword "default" false (by simp [ClassDeclaration.head_eq, isBlank])
    fun _ => (refuses_word_of_head 'd' rfl (by simp [ClassDeclaration.head_eq])).bind).bind_nil
    fun _ _ => ?_
  refine (takes_word _ _).bind fun _ _ => ?_
  refine (takes_gap_space ?_).bind fun _ _ => ?_
  · rw [List.append_assoc]
    exact stops_isBlank_of_isIdent c.name.isIdent_text _
  refine (takes_identifier c.name.isIdent_text ?_).bind fun name hname => ?_
  · simp only [List.cons_append, List.nil_append, stops_cons]
    decide
  refine (takes_blanks_space (hbase t)).bind fun _ _ => ?_
  exact (takes_baseText c.base name).mono fun found hfound => hfound ▸ hname

namespace FunctionDeclaration

/-- The words behind `export` begin with one of two letters. -/
theorem stops_words {test : Char → Bool} (ha : test 'a' = false) (hf : test 'f' = false)
    (f : FunctionDeclaration) (t : List Char) : Stops test (f.words ++ t) := by
  cases hasync : f.isAsync with
  | true => simpa [words, keywordText, hasync] using ha
  | false => simpa [words, keywordText, hasync] using hf

theorem words_append (f : FunctionDeclaration) (t : List Char) :
    f.words ++ t = keywordText "async" f.isAsync ++ ("function".toList ++
      ((generatorText f.isGenerator ++ [' ']) ++ (f.name.text ++ t))) := by
  simp [words]

end FunctionDeclaration

/-- The star of a generator may stand between the keyword and the name. -/
theorem takes_starOrGap (isGenerator : Bool) {name : List Char} (hname : isIdent name = true) :
    Takes Export.starOrGap (generatorText isGenerator ++ [' ']) (name ++ t) fun _ => True := by
  cases isGenerator with
  | true =>
      refine Takes.orElse_left ?_
      refine (takes_blanks_nil (by simp [generatorText, isBlank])).bind_nil fun _ _ => ?_
      exact (takes_word "*" _).bind fun _ _ =>
        takes_blanks_space (stops_isBlank_of_isIdent hname t)
  | false => exact takes_starOrGap_space hname

/-- The head of a function is taken, and its name and parameters found. -/
theorem takes_functionHead (f : FunctionDeclaration) :
    Takes Declaration.functionHead f.head t fun found =>
      found.name.text = f.name.text ∧ found.parameters.text = f.parameters.text := by
  have hblank : ∀ u, Stops isBlank (f.words ++ u) := f.stops_words (by decide) (by decide)
  refine (takes_optionalKeyword "export" f.isExported ?_ fun _ => ?_).bind fun _ _ => ?_
  · rw [List.append_assoc]
    exact hblank _
  · rw [List.append_assoc]
    exact (refuses_word_of_head 'e' rfl (f.stops_words (by decide) (by decide) _)).bind
  refine (takes_optionalKeyword "default" false ?_ fun _ => ?_).bind_nil fun _ _ => ?_
  · rw [List.append_assoc]
    exact hblank _
  · rw [List.append_assoc]
    exact (refuses_word_of_head 'd' rfl (f.stops_words (by decide) (by decide) _)).bind
  rw [f.words_append]
  refine (takes_optionalKeyword "async" f.isAsync (by simp [isBlank]) fun _ => ?_).bind fun _ _ => ?_
  · exact (refuses_word_of_head 'a' rfl (by simp)).bind
  refine (takes_word _ _).bind fun _ _ => ?_
  refine Takes.bind (P := fun _ => True) ?_ fun _ _ => ?_
  · rw [List.append_assoc]
    exact takes_starOrGap f.isGenerator f.name.isIdent_text
  refine (takes_identifier f.name.isIdent_text (f.parameters.stops_list (by decide) t)).bind
    fun name hname => ?_
  exact f.parameters.takes_list.map fun _ hlist => ⟨hname, hlist⟩

/-- The words of an exported function are taken as an export statement that declares it. -/
theorem takes_exportStatement_function (f : FunctionDeclaration) :
    Takes Export.statement ("export".toList ++ ([' '] ++ f.words)) (f.parameters.list ++ t)
      (· = .block .declaration .function ⟨.ofList f.name.text, .ofList f.name.text⟩) := by
  have hstops : ∀ {test : Char → Bool}, test 'a' = false → test 'f' = false →
      Stops test (f.words ++ (f.parameters.list ++ t)) := fun ha hf => f.stops_words ha hf _
  have hblank : Stops isBlank (f.words ++ (f.parameters.list ++ t)) :=
    hstops (by decide) (by decide)
  have hform : Takes Export.declarationForm ("export".toList ++ ([' '] ++ f.words))
      (f.parameters.list ++ t)
      (· = .block .declaration .function ⟨.ofList f.name.text, .ofList f.name.text⟩) := by
    refine (takes_word _ _).bind fun _ _ => (takes_gap_space hblank).bind fun _ _ => ?_
    refine (takes_keywordText "async" f.isAsync (by simp [isBlank]) fun _ => ?_).bind fun _ _ => ?_
    · exact (refuses_word_of_head 'a' rfl (by simp)).bind
    refine (takes_declarationKeyword_block .function).bind ?_
    rintro _ rfl
    refine (takes_starOrGap f.isGenerator f.name.isIdent_text).bind fun _ _ => ?_
    exact (takes_identifier f.name.isIdent_text (f.parameters.stops_list (by decide) t)).map
      fun _ h => by rw [h]
  have hsplit : "export".toList ++ ([' '] ++ f.words) ++ (f.parameters.list ++ t) =
      "export".toList ++ ' ' :: (f.words ++ (f.parameters.list ++ t)) := by simp
  refine Takes.orElse_right ?_ (Takes.orElse_right ?_ (Takes.orElse_right ?_
    (Takes.orElse_left hform)))
  · rw [hsplit]
    exact refuses_allForm hblank (hstops (by decide) (by decide))
  · rw [hsplit]
    exact refuses_namedForm hblank (hstops (by decide) (by decide))
  · rw [hsplit]
    exact refuses_defaultNameForm hblank (hstops (by decide) (by decide))

/-! ### Methods -/

/-- A method's head behind its words begins with a star or a name. -/
theorem Method.stops_tail {test : Char → Bool} (hstar : test '*' = false)
    (hpart : ∀ x, isIdentPart x = true → test x = false) (m : Method) (t : List Char) :
    Stops test (m.tail ++ t) := by
  obtain ⟨c, rest, hname, hc, -⟩ := isIdent_iff.1 m.name.isIdent_text
  cases hgenerator : m.isGenerator with
  | true => simpa [tail, generatorText, hgenerator] using hstar
  | false =>
      simpa [tail, generatorText, hgenerator, hname] using hpart c (isIdentPart_of_isIdentStart hc)

/-- No keyword stands there that has a blank behind it. -/
theorem Method.stops_isBlank_tail (m : Method) {keyword rest : List Char}
    (hkeyword : keyword.all isIdentPart = true) (h : m.tail ++ t = keyword ++ rest) :
    Stops isBlank rest := by
  have hletters := List.all_eq_true.1 hkeyword
  cases hgenerator : m.isGenerator with
  | true =>
      have hstar : isIdentPart '*' = false := by decide
      have h' : [] ++ '*' :: (m.name.text ++ m.parameters.list ++ t) = keyword ++ rest := by
        simpa [tail, generatorText, hgenerator] using h
      exact stops_isBlank_of_keyword hletters (by simp) (stops_cons.2 hstar)
        (stops_cons.2 (by decide)) h'
  | false =>
      have h' : m.name.text ++ (m.parameters.list ++ t) = keyword ++ rest := by
        simpa [tail, generatorText, hgenerator] using h
      exact stops_isBlank_of_keyword hletters (isIdentPart_of_mem m.name.isIdent_text)
        (m.parameters.stops_list (by decide) t) (m.parameters.stops_list (by decide) t) h'

theorem Method.refuses_keyword_tail (m : Method) {keyword : String}
    (hkeyword : keyword.toList.all isIdentPart = true) :
    Refuses (do word keyword; gap) (m.tail ++ t) := by
  refine refuses_bind_of_forall fun before found hfound => refuses_gap ?_
  exact m.stops_isBlank_tail hkeyword (reads_of_mem_outcomes_word hfound).1

theorem Method.refuses_modifier_tail (m : Method) :
    Refuses Declaration.modifier (m.tail ++ t) := by
  refine refuses_bind_of_forall fun before found hfound => Refuses.bind (refuses_gap ?_)
  have hword : ∀ {keyword : String} {a : Declaration.Modifier},
      keyword.toList.all isIdentPart = true →
      found ∈ (do word keyword; return a : Pattern Declaration.Modifier).outcomes
        ⟨before, m.tail ++ t⟩ → Stops isBlank found.2.rest := by
    intro keyword a hkeyword hmem
    obtain ⟨mid, hmid, hmem⟩ := mem_outcomes_bind.1 hmem
    rw [outcomes_pure, List.mem_singleton] at hmem
    subst hmem
    exact m.stops_isBlank_tail hkeyword (reads_of_mem_outcomes_word hmid).1
  simp only [outcomes_orElse, List.mem_append] at hfound
  rcases hfound with h | h | h
  · exact hword (by decide) h
  · exact hword (by decide) h
  · exact hword (by decide) h

/-- A modifier is taken, or none where there is none. -/
theorem Method.takes_modifier (m : Method) :
    Takes (optional Declaration.modifier) (modifierText m.modifier) (m.tail ++ t)
      (· = m.modifier) := by
  have hblank : Stops isBlank (m.tail ++ t) :=
    m.stops_tail (by decide) (fun _ => isBlank_eq_false_of_isIdentPart) t
  cases hmodifier : m.modifier with
  | none => exact m.refuses_modifier_tail.optional
  | some modifier =>
      have htakes : Takes Declaration.modifier (modifier.label.toList ++ [' ']) (m.tail ++ t)
          (· = modifier) := by
        refine Takes.bind (P := (· = modifier)) ?_ fun found hfound =>
          (takes_gap_space hblank).map fun _ _ => hfound
        cases modifier with
        | async => exact Takes.orElse_left ((takes_word "async" _).map fun _ _ => rfl)
        | get =>
            refine Takes.orElse_right (refuses_word_of_head 'a' rfl ?_).bind ?_
            · simp [Declaration.Modifier.label]
            · exact Takes.orElse_left ((takes_word "get" _).map fun _ _ => rfl)
        | set =>
            refine Takes.orElse_right (refuses_word_of_head 'a' rfl ?_).bind (Takes.orElse_right
              (refuses_word_of_head 'g' rfl ?_).bind ?_)
            · simp [Declaration.Modifier.label]
            · simp [Declaration.Modifier.label]
            · exact (takes_word "set" _).map fun _ _ => rfl
      exact htakes.optional.mono fun found ⟨a, hfound, ha⟩ => by rw [hfound, ha]

/-- `static` is no modifier, and no modifier is taken for it. -/
theorem Method.refuses_static (m : Method) :
    Refuses (do word "static"; gap) (modifierText m.modifier ++ m.tail ++ t) := by
  cases hmodifier : m.modifier with
  | none => exact m.refuses_keyword_tail (by decide)
  | some modifier =>
      refine Refuses.bind (refuses_word ?_)
      cases modifier <;> simp [modifierText, Declaration.Modifier.label]

/-- The head of a method is taken, and its words, name and parameters found. -/
theorem takes_methodHead (m : Method) :
    Takes Declaration.methodHead m.head t fun found =>
      found.isStatic = m.isStatic ∧ found.modifier = m.modifier ∧
        found.name.text = m.name.text ∧ found.parameters.text = m.parameters.text := by
  have hname := m.name.isIdent_text
  have hblank : ∀ u, Stops isBlank (m.name.text ++ u) := stops_isBlank_of_isIdent hname
  refine (takes_optionalKeyword "static" m.isStatic ?_ fun _ => m.refuses_static).bind
    fun _ hstatic => ?_
  · cases hmodifier : m.modifier with
    | none => exact m.stops_tail (by decide) (fun _ => isBlank_eq_false_of_isIdentPart) t
    | some modifier => cases modifier <;> simp [modifierText, Declaration.Modifier.label, isBlank]
  refine m.takes_modifier.bind fun _ hmodifier => ?_
  refine Takes.bind (P := fun _ => True) ?_ fun _ _ => ?_
  · rw [List.append_assoc]
    cases m.isGenerator with
    | true =>
        have hstar : Takes (do word "*"; blanks) ("*".toList ++ [])
            (m.name.text ++ (m.parameters.list ++ t)) fun _ => True :=
          (takes_word "*" _).bind fun _ _ => takes_blanks_nil (hblank _)
        exact hstar.optional.mono fun _ _ => trivial
    | false =>
        obtain ⟨c, rest, htext, hc, -⟩ := isIdent_iff.1 hname
        have hne : c ≠ '*' := ne_of_isIdentPart (isIdentPart_of_isIdentStart hc) (by decide)
        have hstar : Refuses (do word "*"; blanks) (m.name.text ++ (m.parameters.list ++ t)) :=
          (refuses_word_of_head '*' rfl (by simpa [htext] using hne)).bind
        exact hstar.optional.mono fun _ _ => trivial
  refine (takes_identifier hname (m.parameters.stops_list (by decide) t)).bind fun _ hfound => ?_
  exact m.parameters.takes_list.map fun _ hlist => ⟨hstatic, hmodifier, hfound, hlist⟩

/-! ### Heads are refused by the other patterns -/

/-- After a keyword that may be absent the sequence goes on behind it or where it began. -/
theorem refuses_optionalKeyword_bind {β : Type} {keyword : String} {next : Bool → Pattern β}
    {rest : List Char}
    (h : Refuses (word keyword >>= fun _ => gap >>= fun _ => next true) rest)
    (h' : Refuses (next false) rest) :
    Refuses (Declaration.optionalKeyword keyword >>= next) rest := by
  intro before
  refine List.eq_nil_iff_forall_not_mem.2 fun found hfound => ?_
  obtain ⟨mid, hmid, hfound⟩ := mem_outcomes_bind.1 hfound
  obtain ⟨opt, hopt, hmid⟩ := mem_outcomes_bind.1 hmid
  rw [outcomes_pure, List.mem_singleton] at hmid
  subst hmid
  rcases mem_outcomes_optional.1 hopt with ⟨a, ha, hmem⟩ | rfl
  · rw [ha] at hfound
    obtain ⟨stop, hstop, hmem⟩ := mem_outcomes_bind.1 hmem
    have hall : found ∈ (word keyword >>= fun _ => gap >>= fun _ => next true).outcomes
        ⟨before, rest⟩ :=
      mem_outcomes_bind.2 ⟨stop, hstop, mem_outcomes_bind.2 ⟨_, hmem, hfound⟩⟩
    rw [h before] at hall
    exact List.not_mem_nil hall
  · exact List.not_mem_nil (h' before ▸ hfound)

/-- A keyword that does not stand here is passed over. -/
theorem refuses_optionalKeyword_bind_of_head {β : Type} {keyword : String}
    {next : Bool → Pattern β} {rest : List Char} (c : Char)
    (hkeyword : keyword.toList.head? = some c) (hrest : Stops (· == c) rest)
    (h : Refuses (next false) rest) : Refuses (Declaration.optionalKeyword keyword >>= next) rest :=
  refuses_optionalKeyword_bind (refuses_word_of_head c hkeyword hrest).bind h

theorem refuses_classHead {rest : List Char} (he : Stops (· == 'e') rest)
    (hd : Stops (· == 'd') rest) (hc : Stops (· == 'c') rest) :
    Refuses Declaration.classHead rest :=
  refuses_optionalKeyword_bind_of_head 'e' rfl he (refuses_optionalKeyword_bind_of_head 'd' rfl hd
    (refuses_word_of_head 'c' rfl hc).bind)

theorem refuses_functionHead {rest : List Char} (he : Stops (· == 'e') rest)
    (hd : Stops (· == 'd') rest) (ha : Stops (· == 'a') rest) (hf : Stops (· == 'f') rest) :
    Refuses Declaration.functionHead rest :=
  refuses_optionalKeyword_bind_of_head 'e' rfl he (refuses_optionalKeyword_bind_of_head 'd' rfl hd
    (refuses_optionalKeyword_bind_of_head 'a' rfl ha (refuses_word_of_head 'f' rfl hf).bind))

theorem refuses_exportStatement {rest : List Char} (he : Stops (· == 'e') rest) :
    Refuses Export.statement rest := by
  have hword : ∀ {β : Type} {next : Unit → Pattern β}, Refuses (word "export" >>= next) rest :=
    (refuses_word_of_head 'e' rfl he).bind
  exact hword.orElse (hword.orElse (hword.orElse (hword.orElse hword)))

/-- A function is no class. -/
theorem FunctionDeclaration.refuses_classHead (f : FunctionDeclaration) :
    Refuses Declaration.classHead (f.head ++ t) := by
  cases hexported : f.isExported with
  | false =>
      simp only [head, hexported, keywordText, Bool.false_eq_true, if_false, List.nil_append,
        List.append_assoc]
      exact Printed.refuses_classHead (f.stops_words (by decide) (by decide) _)
        (f.stops_words (by decide) (by decide) _) (f.stops_words (by decide) (by decide) _)
  | true =>
      have hhead : f.head ++ t =
          "export".toList ++ ' ' :: (f.words ++ (f.parameters.list ++ t)) := by
        simp [head, hexported, keywordText]
      rw [hhead]
      refine refuses_optionalKeyword_bind (refuses_word_bind (refuses_gap_bind_space
        (f.stops_words (by decide) (by decide) _) ?_)) ?_
      · exact refuses_optionalKeyword_bind_of_head 'd' rfl
          (f.stops_words (by decide) (by decide) _)
          (refuses_word_of_head 'c' rfl (f.stops_words (by decide) (by decide) _)).bind
      · exact refuses_optionalKeyword_bind_of_head 'd' rfl (by simp)
          (refuses_word_of_head 'c' rfl (by simp)).bind

/-- A class is no function. -/
theorem ClassDeclaration.refuses_functionHead (c : ClassDeclaration) :
    Refuses Declaration.functionHead (c.head ++ t) :=
  Printed.refuses_functionHead (by simp [head_eq]) (by simp [head_eq]) (by simp [head_eq])
    (by simp [head_eq])

theorem ClassDeclaration.refuses_exportStatement (c : ClassDeclaration) :
    Refuses Export.statement (c.head ++ t) :=
  Printed.refuses_exportStatement (by simp [head_eq])

/-- A method is taken for no other head, unless it is for the sake of its modifier `async`. -/
theorem Method.refuses {α : Type} {p : Pattern α} (hp : Announces p) (m : Method)
    (hasync : Refuses p ("async".toList ++ ' ' :: (m.tail ++ t))) : Refuses p (m.head ++ t) := by
  have hspace : isIdentPart ' ' = false := by decide
  intro before
  refine List.eq_nil_iff_forall_not_mem.2 fun found hfound => ?_
  obtain ⟨word, hword, x, s, hx, hparen, hrest⟩ := hp _ found hfound
  replace hrest : m.head ++ t = word ++ x :: s := hrest
  obtain ⟨hparts, hne⟩ := isIdentPart_of_mem_declarationWords hword
  have hfirst : firstWord (m.head ++ t) = word := by
    rw [hrest]
    exact firstWord_word (List.all_eq_true.2 hparts) hx hne s
  -- another word cannot stand first
  have hother : ∀ other, firstWord (m.head ++ t) = other → other ∉ declarationWords → False :=
    fun other hother hnot => hnot (hother ▸ hfirst ▸ hword)
  cases hstatic : m.isStatic with
  | true =>
      have hhead : m.head ++ t =
          "static".toList ++ ' ' :: (modifierText m.modifier ++ m.tail ++ t) := by
        simp [head, hstatic, keywordText]
      refine hother "static".toList ?_ (by decide)
      rw [hhead]
      exact firstWord_word (by decide) hspace (by decide) _
  | false =>
      cases hmodifier : m.modifier with
      | some modifier =>
          have hhead : m.head ++ t = modifier.label.toList ++ ' ' :: (m.tail ++ t) := by
            simp [head, hstatic, hmodifier, keywordText, modifierText]
          have hlabel : modifier.label.toList.all isIdentPart = true ∧
              modifier.label.toList ≠ [] := by
            cases modifier <;> decide
          have hfirst' : firstWord (m.head ++ t) = modifier.label.toList := by
            rw [hhead]
            exact firstWord_word hlabel.1 hspace hlabel.2 _
          cases modifier with
          | async =>
              rw [hhead] at hfound
              exact List.not_mem_nil (hasync before ▸ hfound)
          | get => exact hother _ hfirst' (by decide)
          | set => exact hother _ hfirst' (by decide)
      | none =>
          have hhead : m.head ++ t = m.tail ++ t := by
            simp [head, hstatic, hmodifier, keywordText, modifierText]
          cases hgenerator : m.isGenerator with
          | true =>
              refine hother [] ?_ nil_not_mem_declarationWords
              have hstar : m.tail ++ t = '*' :: (m.name.text ++ m.parameters.list ++ t) := by
                simp [tail, generatorText, hgenerator]
              rw [hhead, hstar]
              exact firstWord_cons (by decide) (by decide) _
          | false =>
              have hname : m.head ++ t = m.name.text ++ '(' :: (m.parameters.list.tail ++ t) := by
                simp [hhead, tail, generatorText, hgenerator, Parameters.list_eq]
              have hfirst' : firstWord (m.head ++ t) = m.name.text := by
                rw [hname]
                exact firstWord_word (List.all_eq_true.2 (isIdentPart_of_mem m.name.isIdent_text))
                  (by decide) (ne_nil_of_isIdent m.name.isIdent_text) _
              rw [hname, ← hfirst', hfirst] at hrest
              exact hparen (List.cons.inj (List.append_cancel_left hrest)).1.symm

theorem refuses_starOrGap {rest : List Char} (hblank : Stops isBlank rest)
    (hstar : Stops (· == '*') rest) : Refuses Export.starOrGap rest :=
  (refuses_blanks_bind_nil hblank (refuses_word_of_head '*' rfl hstar).bind).orElse
    (refuses_gap hblank)

/-- A method with the modifier `async` is no function, since it is not called `function`. -/
theorem Method.refuses_function_tail {β : Type} (m : Method) {next : Unit → Pattern β} :
    Refuses (word "function" >>= fun _ => Export.starOrGap >>= next) (m.tail ++ t) := by
  cases hgenerator : m.isGenerator with
  | true =>
      refine (refuses_word_of_head 'f' rfl ?_).bind
      simp [tail, generatorText, hgenerator]
  | false =>
      have htail : m.tail ++ t = m.name.text ++ '(' :: (m.parameters.list.tail ++ t) := by
        simp [tail, generatorText, hgenerator, Parameters.list_eq]
      have hname : m.name.text ≠ "function".toList := by
        intro h
        have hcontrol := m.not_isControlWord
        rw [h] at hcontrol
        exact absurd hcontrol (by decide)
      rw [htail]
      refine refuses_bind_of_forall fun before found hfound => Refuses.bind ?_
      have hrest := (reads_of_mem_outcomes_word hfound).1
      rcases List.append_eq_append_iff.1 hrest with ⟨more, hword, hmore⟩ | ⟨more, hword, hmore⟩
      · cases more with
        | nil => exact absurd (by simpa using hword.symm) hname
        | cons x more =>
            obtain ⟨rfl, -⟩ := List.cons.inj hmore
            have hmem : '(' ∈ "function".toList := by simp [hword]
            exact absurd hmem (by decide)
      · cases more with
        | nil => exact absurd (by simpa using hword) hname
        | cons x more =>
            have hx : isIdentPart x = true :=
              isIdentPart_of_mem m.name.isIdent_text x (by simp [hword])
            have hne : x ≠ '*' := ne_of_isIdentPart hx (by decide)
            rw [hmore]
            exact refuses_starOrGap (by simpa using isBlank_eq_false_of_isIdentPart hx)
              (by simpa using hne)

theorem Method.refuses_functionHead (m : Method) :
    Refuses Declaration.functionHead (m.head ++ t) := by
  refine m.refuses announces_functionHead ?_
  refine refuses_optionalKeyword_bind_of_head 'e' rfl (by simp) ?_
  refine refuses_optionalKeyword_bind_of_head 'd' rfl (by simp) ?_
  refine refuses_optionalKeyword_bind (refuses_word_bind (refuses_gap_bind_space ?_ ?_)) ?_
  · exact m.stops_tail (by decide) (fun _ => isBlank_eq_false_of_isIdentPart) t
  · exact m.refuses_function_tail
  · exact (refuses_word_of_head 'f' rfl (by simp)).bind

theorem Method.refuses_classHead (m : Method) :
    Refuses Declaration.classHead (m.head ++ t) :=
  m.refuses announces_classHead (Printed.refuses_classHead (by simp) (by simp) (by simp))

theorem Method.refuses_exportStatement (m : Method) :
    Refuses Export.statement (m.head ++ t) :=
  m.refuses announces_exportStatement (Printed.refuses_exportStatement (by simp))

/-! ### Declarations in which no head is found -/

/-- A head begins with a character of a name, or with the star of a generator. -/
theorem Method.stops_head {test : Char → Bool} (hstar : test '*' = false)
    (hpart : ∀ x, isIdentPart x = true → test x = false) (m : Method) (t : List Char) :
    Stops test (m.head ++ t) := by
  cases hstatic : m.isStatic with
  | true => simpa [head, keywordText, hstatic] using hpart 's' (by decide)
  | false =>
      cases hmodifier : m.modifier with
      | none => simpa [head, keywordText, modifierText, hstatic, hmodifier] using
          m.stops_tail hstar hpart t
      | some modifier =>
          have hlabel : Stops test (modifier.label.toList ++ (' ' :: (m.tail ++ t))) := by
            cases modifier with
            | async => simpa [Declaration.Modifier.label] using hpart 'a' (by decide)
            | get => simpa [Declaration.Modifier.label] using hpart 'g' (by decide)
            | set => simpa [Declaration.Modifier.label] using hpart 's' (by decide)
          simpa [head, keywordText, modifierText, hstatic, hmodifier] using hlabel

theorem FunctionDeclaration.stops_head {test : Char → Bool}
    (hpart : ∀ x, isIdentPart x = true → test x = false) (f : FunctionDeclaration) (t : List Char) :
    Stops test (f.head ++ t) := by
  cases hexported : f.isExported with
  | true => simpa [head, keywordText, hexported] using hpart 'e' (by decide)
  | false =>
      simpa [head, keywordText, hexported] using
        f.stops_words (hpart 'a' (by decide)) (hpart 'f' (by decide)) (f.parameters.list ++ t)

theorem ClassDeclaration.stops_head {test : Char → Bool}
    (hpart : ∀ x, isIdentPart x = true → test x = false) (c : ClassDeclaration) (t : List Char) :
    Stops test (c.head ++ t) := by
  simpa [head_eq] using hpart 'c' (by decide)

theorem slash_of_isIdentPart (x : Char) (h : isIdentPart x = true) : (x == '/') = false := by
  have hne : x ≠ '/' := ne_of_isIdentPart h (by decide)
  simpa using hne

end

end SourceOutline.Printed
