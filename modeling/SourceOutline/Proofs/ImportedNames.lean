/-
**What an import binds.**

An import names nothing, a default, a namespace, a default and a namespace, a list, or a default and a
list.  Which of these it is follows from the form of the statement alone.  The names of defaults and
namespaces are identifiers, those of a list are what its entries can be.

Main definitions:

* `ImportSpecifier.WellFormed` — the names that one binding has, by the name of its kind;
* `Import.Shape`, `Import.WellFormed` — the kinds of all bindings of an import, and the bindings.

Main results:

* `Import.wellFormed_imports` — a list between braces gives named bindings only;
* `Import.yields_statement` — one step for each form of statement;
* `imports_wellFormed` — **the bindings of every import are well formed.**
-/

import SourceOutline.Proofs.ListedNames

set_option autoImplicit false

namespace SourceOutline

open Text Pattern

/-! ### One binding -/

/-- The name in the other module is given exactly if the binding is one of a list, and the name in
this file exactly if anything is bound.  A name that no list gave is an identifier. -/
structure ImportSpecifier.WellFormed (s : ImportSpecifier) : Prop where
  importedName_isSome_iff : s.importedName?.isSome ↔ s.label = "named"
  bindingName_eq_none_iff : s.bindingName? = none ↔ s.label = "side-effect"
  isIdent_binding : s.label = "default" ∨ s.label = "namespace" →
    ∃ binding, s.bindingName? = some binding ∧ isIdent binding.toList = true
  listed : s.label = "named" → ∃ imported binding, s.importedName? = some imported ∧
    s.bindingName? = some binding ∧ Specifier.Listed imported.toList binding.toList

namespace ImportSpecifier

theorem isSome_importedName?_iff (s : ImportSpecifier) :
    s.importedName?.isSome ↔ s.label = "named" := by
  cases s <;> simp [importedName?, label]

theorem bindingName?_eq_none_iff (s : ImportSpecifier) :
    s.bindingName? = none ↔ s.label = "side-effect" := by
  cases s <;> simp [bindingName?, label]

theorem wellFormed_sideEffect : sideEffect.WellFormed where
  importedName_isSome_iff := isSome_importedName?_iff _
  bindingName_eq_none_iff := bindingName?_eq_none_iff _
  isIdent_binding := fun h => by simp [label] at h
  listed := fun h => by simp [label] at h

theorem wellFormed_defaultExport {name : List Char} (h : isIdent name = true) :
    (defaultExport (.ofList name)).WellFormed where
  importedName_isSome_iff := isSome_importedName?_iff _
  bindingName_eq_none_iff := bindingName?_eq_none_iff _
  isIdent_binding := fun _ => ⟨_, rfl, by rw [String.toList_ofList, h]⟩
  listed := fun h => by simp [label] at h

theorem wellFormed_allExports {name : List Char} (h : isIdent name = true) :
    (allExports (.ofList name)).WellFormed where
  importedName_isSome_iff := isSome_importedName?_iff _
  bindingName_eq_none_iff := bindingName?_eq_none_iff _
  isIdent_binding := fun _ => ⟨_, rfl, by rw [String.toList_ofList, h]⟩
  listed := fun h => by simp [label] at h

theorem wellFormed_named {name newName : List Char} (h : Specifier.Listed name newName) :
    (named (.ofList name) (.ofList newName)).WellFormed where
  importedName_isSome_iff := isSome_importedName?_iff _
  bindingName_eq_none_iff := bindingName?_eq_none_iff _
  isIdent_binding := fun h => by simp [label] at h
  listed := fun _ => ⟨_, _, rfl, rfl, by rwa [String.toList_ofList, String.toList_ofList]⟩

end ImportSpecifier

open ImportSpecifier

/-! ### The bindings of a statement -/

namespace Import

/-- What an import can bind, by the names of the kinds in order. -/
inductive Shape : List String → Prop where
  | sideEffect : Shape ["side-effect"]
  | defaultExport : Shape ["default"]
  | allExports : Shape ["namespace"]
  | defaultAndAll : Shape ["default", "namespace"]
  | named (n : Nat) : Shape (List.replicate n "named")
  | defaultAndNamed (n : Nat) : Shape ("default" :: List.replicate n "named")

/-- The bindings have one of the shapes, and each has the names of its kind. -/
structure WellFormed (specifiers : List ImportSpecifier) : Prop where
  shape : Shape (specifiers.map (·.label))
  each : ∀ s ∈ specifiers, s.WellFormed

/-- A list between braces gives named bindings only, as many as it has entries. -/
theorem label_imports (text : List Char) :
    (Specifier.imports text).map (·.label) =
      List.replicate (Specifier.entries text).length "named" := by
  rw [Specifier.imports, List.map_map]
  exact List.map_const'

theorem wellFormed_of_mem_imports {text : List Char} (hbrace : '\x7d' ∉ text) :
    ∀ s ∈ Specifier.imports text, s.WellFormed := by
  intro s hs
  obtain ⟨names, hnames, rfl⟩ := List.mem_map.1 hs
  exact wellFormed_named (Specifier.listed_of_mem_entries hbrace hnames)

theorem wellFormed_imports {text : List Char} (hbrace : '\x7d' ∉ text) :
    WellFormed (Specifier.imports text) where
  shape := label_imports text ▸ .named _
  each := wellFormed_of_mem_imports hbrace

theorem yields_starBinding : Yields starBinding fun name => isIdent name.text = true :=
  yields_bind fun _ => yields_bind fun _ => yields_bind fun _ => yields_bind fun _ =>
    yields_identifier

/-- What may follow a default binding makes well-formed bindings with it. -/
theorem yields_moreBindings {binding : List Char} (h : isIdent binding = true) :
    Yields moreBindings fun more => WellFormed (.defaultExport (.ofList binding) :: more) := by
  refine .orElse ?_ ?_
  · refine yields_braceList.bind fun names hbrace => yields_pure ?_
    constructor
    · rw [List.map_cons, label_imports]
      exact .defaultAndNamed _
    · exact List.forall_mem_cons.2 ⟨wellFormed_defaultExport h, wellFormed_of_mem_imports hbrace⟩
  · refine yields_starBinding.bind fun name hname => yields_pure ?_
    constructor
    · exact .defaultAndAll
    · intro s hs
      simp only [List.mem_cons, List.not_mem_nil, or_false] at hs
      rcases hs with rfl | rfl
      · exact wellFormed_defaultExport h
      · exact wellFormed_allExports hname

theorem yields_statement : Yields statement fun clause => WellFormed clause.specifiers := by
  have hfrom : ∀ specifiers, WellFormed specifiers →
      Yields (do let source ← fromModule; return (⟨source, specifiers⟩ : Clause))
        fun clause => WellFormed clause.specifiers :=
    fun _ h => yields_bind fun _ => yields_pure h
  refine .orElse ?_ (.orElse ?_ (.orElse ?_ (.orElse ?_ ?_)))
  · refine yields_bind fun _ => yields_bind fun _ => yields_identifier.bind fun name hname =>
      yields_bind fun _ => hfrom _ ?_
    exact ⟨.defaultExport, List.forall_mem_singleton.2 (wellFormed_defaultExport hname)⟩
  · exact yields_bind fun _ => yields_bind fun _ => yields_identifier.bind fun name hname =>
      yields_bind fun _ => yields_bind fun _ => yields_bind fun _ =>
        (yields_moreBindings hname).bind fun more hmore => yields_bind fun _ => hfrom _ hmore
  · refine yields_bind fun _ => yields_bind fun _ => yields_starBinding.bind fun name hname =>
      yields_bind fun _ => hfrom _ ?_
    exact ⟨.allExports, List.forall_mem_singleton.2 (wellFormed_allExports hname)⟩
  · exact yields_bind fun _ => yields_bind fun _ => yields_braceList.bind fun names hbrace =>
      yields_bind fun _ => hfrom _ (wellFormed_imports hbrace)
  · refine yields_bind fun _ => yields_bind fun _ => yields_bind fun _ => yields_bind fun _ =>
      yields_pure ?_
    exact ⟨.sideEffect, List.forall_mem_singleton.2 wellFormed_sideEffect⟩

end Import

/-! ### The imports of a file -/

/-- **The bindings of every import are well formed.** -/
theorem imports_wellFormed (path : String) (text : List Char) (e : ImportEdge)
    (h : e ∈ (SourceFile.ofText path text).imports) : Import.WellFormed e.specifiers := by
  obtain ⟨find, -, hrecord⟩ := List.mem_filterMap.1 h
  obtain ⟨⟨clause, stop⟩, hfirst, rfl⟩ := Option.map_eq_some_iff.1 hrecord
  exact Import.yields_statement _ _ (List.mem_of_mem_head? hfirst)

/-- A default with a list, one entry of which renames and one of which is two words. -/
theorem wellFormed_default_and_list :
    let file := SourceFile.ofText "p.js" "import a, {b as c, d e} from \"m\"\n".toList
    let e : ImportEdge := ⟨"import a, {b as c, d e} from \"m\"", "m",
      [.defaultExport "a", .named "b" "c", .named "d e" "d e"], "p.js", ⟨1, 1⟩, ⟨0, 32⟩⟩
    e ∈ file.imports ∧ Import.WellFormed e.specifiers := by
  intro file e
  have hmem : e ∈ file.imports := by decide +kernel
  exact ⟨hmem, imports_wellFormed "p.js" _ e hmem⟩

end SourceOutline
