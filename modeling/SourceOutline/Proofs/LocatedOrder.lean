/-
**The order of what is located.**

Files are searched in the order of their paths, and each gives its elements as its outline lists
them: classes with their methods, then functions.  That is the order of the text except where a
function stands before a class or method of the same name, or a class inside another has an element
of the name of a method that stands further below in the outer class.  Among files, the order of
paths is kept if there are no links, whose elements bear the path that the link leads to.

Main definitions:

* `Element.ComesBefore` — the order by path, then by position;
* `SourceFile.KeepsOrder` — a text whose elements of a name are listed as they stand;
* `SourceFile.ListedLate` — the elements that an outline lists behind another wherever they stand;
* `FileSystem.sourceFile?` — the source file that a search makes of a path.

Main results:

* `SourceFile.pairwise_elements` — all others are listed as they stand;
* `SourceFile.pairwise_start_iff` — **when the elements of a file are listed as they stand**;
* `FileSystem.locate_eq_flatMap` — a search lists the elements of the files it makes;
* `FileSystem.located_ordered_iff` — **when the elements of a name are located in order**.
-/

import SourceOutline.Proofs.ClassNesting
import SourceOutline.Proofs.Locating

set_option autoImplicit false

namespace SourceOutline

open Text Pattern

/-! ### One file -/

/-- By path, component by component, and within a file by position. -/
def Element.ComesBefore (e f : Element) : Prop :=
  (Path.parse e.path).parts < (Path.parse f.path).parts ∨
    e.path = f.path ∧ e.span.start ≤ f.span.start

namespace SourceFile

variable {file : SourceFile} {name : String}

variable (file name) in
/-- The elements of a name are listed as they stand: no function comes before a class or method, and
no method comes behind an element of a class that lies inside the method's own class. -/
structure KeepsOrder : Prop where
  functions_last : ∀ f ∈ file.outline.value.elements, f.kind = .function → f.name = name →
    ∀ e ∈ file.outline.value.elements, e.kind ≠ .function → e.name = name →
      e.span.start ≤ f.span.start
  methods_first : ∀ g ∈ file.groups, ∀ m ∈ g.methods, m.name = name →
    ∀ h ∈ file.groups, h.owner.InBodyOf g.owner → ∀ e ∈ h.elements, e.name = name →
      m.span.start ≤ e.span.start

variable (file name) in
/-- The elements of a name, as the outline lists them. -/
def named : List Element :=
  file.outline.value.elements.filter (·.name == name)

/-- Of two classes with their methods the first begins first, and it ends before the second or holds
it. -/
theorem pairwise_groups (file : SourceFile) :
    file.groups.Pairwise fun g h => g.owner.span.start < h.owner.span.start ∧
      (g.owner.span.stop ≤ h.owner.span.start ∨ h.owner.InBodyOf g.owner) := by
  refine List.pairwise_filterMap.2 ((pairwise_findAll _ _).imp_of_mem ?_)
  intro f f' hf hf' hlt g hg h hh
  obtain ⟨close, hclose, rfl⟩ := Option.map_eq_some_iff.1 hg
  obtain ⟨close', hclose', rfl⟩ := Option.map_eq_some_iff.1 hh
  have hrecord :
      Declaration.classRecord? file f = some (Declaration.classElement file f close) := by
    rw [Declaration.classRecord?, hclose]
    rfl
  have hrecord' : Declaration.classRecord? file f' =
      some (Declaration.classElement file f' close') := by
    rw [Declaration.classRecord?, hclose']
    rfl
  obtain ⟨hstart, -, hnested⟩ :=
    Declaration.nested_of_classRecord? hf hf' hlt.2 hrecord hrecord'
  exact ⟨hstart, hnested⟩

section
variable {g : ClassGroup} (hg : g ∈ file.groups)

include hg

theorem kind_of_mem_group {e : Element} (he : e ∈ g.elements) : e.kind ≠ .function := by
  have hplaced := wellPlaced_of_mem_groups hg
  rcases List.mem_cons.1 he with rfl | hmethod
  · rw [hplaced.kind_owner]
    decide
  · rw [hplaced.kind_method e hmethod]
    decide

theorem start_le_of_mem_group {e : Element} (he : e ∈ g.elements) :
    g.owner.span.start ≤ e.span.start := by
  rcases List.mem_cons.1 he with rfl | hmethod
  · exact Int.le_refl _
  · exact Int.le_of_lt ((wellPlaced_of_mem_groups hg).inside e hmethod).1

/-- A class and its methods are listed as they stand. -/
theorem pairwise_group : g.elements.Pairwise fun e f => e.span.start ≤ f.span.start := by
  have hplaced := wellPlaced_of_mem_groups hg
  refine List.pairwise_cons.2 ⟨fun m hm => ?_, hplaced.apart.imp_of_mem fun {m n} hm _ hmn => ?_⟩
  · exact start_le_of_mem_group hg (List.mem_cons_of_mem _ hm)
  · have := hplaced.inside m hm
    omega

/-- Only a method can come behind an element of a later class, and only if that class lies inside
its own. -/
theorem start_le_of_later {h : ClassGroup} (hh : h ∈ file.groups)
    (hstart : g.owner.span.start < h.owner.span.start)
    (hnested : g.owner.span.stop ≤ h.owner.span.start ∨ h.owner.InBodyOf g.owner) {e f : Element}
    (he : e ∈ g.elements) (hf : f ∈ h.elements)
    (hinside : e ∈ g.methods → h.owner.InBodyOf g.owner → e.span.start ≤ f.span.start) :
    e.span.start ≤ f.span.start := by
  have hlater := start_le_of_mem_group hh hf
  rcases List.mem_cons.1 he with rfl | hmethod
  · omega
  · rcases hnested with hapart | hbody
    · have := (wellPlaced_of_mem_groups hg).inside e hmethod
      omega
    · exact hinside hmethod hbody

end

variable (file) in
/-- The second element is listed behind the first because of what the two are. -/
inductive ListedLate (e f : Element) : Prop where
  /-- Functions are listed behind all classes and methods. -/
  | function (he : e.kind ≠ .function) (hf : f.kind = .function)
  /-- A class is listed with its methods, and an inner class behind all of them. -/
  | inner (g h : ClassGroup) (hg : g ∈ file.groups) (he : e ∈ g.methods) (hh : h ∈ file.groups)
      (hbody : h.owner.InBodyOf g.owner) (hf : f ∈ h.elements)

/-- **All others are listed as they stand.** -/
theorem pairwise_elements (file : SourceFile) :
    file.outline.value.elements.Pairwise fun e f =>
      e.span.start ≤ f.span.start ∨ file.ListedLate e f := by
  have hfunctions := orderedFunctions file (file.groups.flatMap ClassGroup.elements) file.exports
  rw [file.elements_eq, List.pairwise_append, List.pairwise_flatMap]
  refine ⟨⟨?_, ?_⟩, ?_, ?_⟩
  · intro g hg
    exact (pairwise_group hg).imp Or.inl
  · refine (pairwise_groups file).imp_of_mem ?_
    intro g h hg hh hgh e he f hf
    by_cases hinner : e ∈ g.methods ∧ h.owner.InBodyOf g.owner
    · exact Or.inr (.inner g h hg hinner.1 hh hinner.2 hf)
    · left
      refine start_le_of_later hg hh hgh.1 hgh.2 he hf ?_
      intro hmethod hbody
      exact absurd ⟨hmethod, hbody⟩ hinner
  · exact hfunctions.inOrder.imp fun hlt => Or.inl (Int.le_of_lt hlt)
  · intro e he f hf
    obtain ⟨g, hg, he⟩ := List.mem_flatMap.1 he
    exact Or.inr (.function (kind_of_mem_group hg he) (hfunctions.kind_eq f hf))

/-- What holds of each class and those that follow it holds of any class and those inside it. -/
theorem forall_inside {R : ClassGroup → ClassGroup → Prop} (h : file.groups.Pairwise R)
    {outer inner : ClassGroup} (houter : outer ∈ file.groups) (hinner : inner ∈ file.groups)
    (hbody : inner.owner.InBodyOf outer.owner) : R outer inner := by
  have hstart : outer.owner.span.start < inner.owner.span.start := by
    have hfirst := hbody.1
    rw [Element.bodyStart] at hfirst
    omega
  obtain ⟨i, hi, rfl⟩ := List.getElem_of_mem houter
  obtain ⟨j, hj, rfl⟩ := List.getElem_of_mem hinner
  rcases Nat.lt_trichotomy i j with hij | rfl | hji
  · exact List.pairwise_iff_getElem.1 h i j hi hj hij
  · exact absurd hstart (Int.lt_irrefl _)
  · have hlater := List.pairwise_iff_getElem.1 (pairwise_groups file) j i hj hi hji
    omega

/-- **When the elements of a name are listed as they stand.** -/
theorem pairwise_start_iff (file : SourceFile) (name : String) :
    ((file.named name).Pairwise fun e f => e.span.start ≤ f.span.start) ↔ file.KeepsOrder name := by
  constructor
  · intro h
    have hfunctions := orderedFunctions file (file.groups.flatMap ClassGroup.elements) file.exports
    have helements := file.elements_eq
    generalize (findAll (Declaration.header Declaration.functionHead) file.text).filterMap
      (Declaration.functionRecord? file (file.groups.flatMap ClassGroup.elements) file.exports) =
        functions at hfunctions helements
    have hclass : ∀ e ∈ file.outline.value.elements, e.kind ≠ .function →
        e ∈ file.groups.flatMap ClassGroup.elements := by
      intro e he hkind
      rw [helements] at he
      rcases List.mem_append.1 he with he | he
      · exact he
      · exact absurd (hfunctions.kind_eq e he) hkind
    have hfunction : ∀ f ∈ file.outline.value.elements, f.kind = .function → f ∈ functions := by
      intro f hf hkind
      rw [helements] at hf
      rcases List.mem_append.1 hf with hf | hf
      · obtain ⟨g, hg, hf⟩ := List.mem_flatMap.1 hf
        exact absurd hkind (kind_of_mem_group hg hf)
      · exact hf
    rw [named, helements, List.filter_append, List.pairwise_append, List.filter_flatMap,
      List.pairwise_flatMap, ← List.filter_flatMap] at h
    simp only [List.mem_filter, beq_iff_eq] at h
    obtain ⟨⟨-, hgroups⟩, -, hcross⟩ := h
    constructor
    · intro f hf hkind hfname e he hekind hename
      exact hcross e ⟨hclass e he hekind, hename⟩ f ⟨hfunction f hf hkind, hfname⟩
    · intro g hg m hm hmname h hh hbody e he hename
      exact forall_inside hgroups hg hh hbody m ⟨List.mem_cons_of_mem _ hm, hmname⟩ e ⟨he, hename⟩
  · rintro ⟨hlast, hfirst⟩
    refine ((pairwise_elements file).filter _).imp_of_mem ?_
    intro e f he hf hef
    simp only [List.mem_filter, beq_iff_eq] at he hf
    rcases hef with hle | hlate
    · exact hle
    · cases hlate with
      | function hekind hfkind => exact hlast f hf.1 hfkind hf.2 e he.1 hekind he.2
      | inner g h hg hm hh hbody hfh => exact hfirst g hg e hm he.2 h hh hbody f hfh hf.2

/-- The elements of a file bear its path. -/
theorem path_of_mem_elements {e : Element} (he : e ∈ file.outline.value.elements) :
    e.path = file.path := by
  rw [file.elements_eq] at he
  rcases List.mem_append.1 he with he | he
  · obtain ⟨g, hg, he⟩ := List.mem_flatMap.1 he
    obtain ⟨find, -, hgroup⟩ := List.mem_filterMap.1 hg
    obtain ⟨close, -, rfl⟩ := Option.map_eq_some_iff.1 hgroup
    rcases List.mem_cons.1 he with rfl | hmethod
    · rfl
    · rw [records_methodFindings, List.mem_filterMap] at hmethod
      obtain ⟨head, -, hmethod⟩ := hmethod
      obtain ⟨-, stop, -, rfl⟩ := Declaration.methodRecord?_eq_some_iff.1 hmethod
      rfl
  · obtain ⟨find, -, hfunction⟩ := List.mem_filterMap.1 he
    obtain ⟨-, -, close, -, rfl⟩ := Declaration.functionRecord?_eq_some_iff.1 hfunction
    rfl

/-- Within a file, elements are in order if they are listed as they stand. -/
theorem pairwise_comesBefore_iff (file : SourceFile) (name : String) :
    (file.named name).Pairwise Element.ComesBefore ↔ file.KeepsOrder name := by
  rw [← pairwise_start_iff]
  refine List.Pairwise.iff_of_mem fun {e f} he hf => ?_
  have hpath : e.path = f.path :=
    (path_of_mem_elements (List.mem_filter.1 he).1).trans
      (path_of_mem_elements (List.mem_filter.1 hf).1).symm
  rw [Element.ComesBefore, hpath]
  exact ⟨fun h => (h.resolve_left (lt_irrefl _)).2, fun h => Or.inr ⟨rfl, h⟩⟩

end SourceFile

/-! ### All files -/

namespace FileSystem

section
variable (fs : FileSystem) (root : Path)

/-- The source file that a search makes of a path, if the path can be read and lies below the
root. -/
def sourceFile? (file : Path) : Option SourceFile :=
  if file.isSource then
    match fs.read file, fs.relativePath file root with
    | .ok octets, .ok relative => some (.ofText relative.render (sourceText octets))
    | _, _ => none
  else
    none

variable {fs root} {name : String}

theorem Contributes.value_eq {file : Path} {part : Reported (List Element)}
    (h : fs.Contributes root name file part) :
    part.value = (fs.sourceFile? root file).toList.flatMap (·.named name) := by
  cases h with
  | other hsource => simp [sourceFile?, hsource]
  | unreadable hsource hread => simp [sourceFile?, hsource, hread]
  | outlined hsource hread hrelative houtline =>
      subst houtline
      simp [sourceFile?, hsource, hread, hrelative, SourceFile.named]

/-- A search lists the elements of the files that it makes. -/
theorem locate_eq_flatMap {load : Yaml.Loader} {elements : List Element}
    (h : (fs.locate load name (some root)).value = .ok elements) :
    ∃ config files, fs.scanConfig load root = .ok config ∧
      fs.sourceFiles root config = .ok files ∧
      elements = (files.filterMap (fs.sourceFile? root)).flatMap (·.named name) := by
  cases hconfig : fs.scanConfig load root with
  | error failure =>
      rw [locate_of_scanConfig_error hconfig] at h
      exact absurd h (by simp)
  | ok config =>
      cases hfiles : fs.sourceFiles root config with
      | error failure =>
          rw [locate_of_sourceFiles_error hconfig hfiles] at h
          exact absurd h (by simp)
      | ok files =>
          rw [locate_of_sourceFiles hconfig hfiles] at h
          refine ⟨config, files, rfl, hfiles, ?_⟩
          rcases @locateIn_cases fs root name files with
            ⟨parts, hparts⟩ | ⟨-, -, failure, -, hvalue⟩
          · rw [locateIn_of_contributes hparts] at h
            rw [← Except.ok.inj h, List.filterMap_eq_flatMap_toList, List.flatMap_assoc]
            clear h hfiles
            induction hparts with
            | nil => rfl
            | cons hfile _ ih => rw [List.flatMap_cons, List.flatMap_cons, ih, hfile.value_eq]
          · exact absurd (hvalue.symm.trans h) (by simp)

end

section
variable {fs : FileSystem} (htree : fs.tree.wellFormed = true) {root : Path}

include htree

section
variable (hfree : fs.ResolvesFreely root) {config : ScanConfig} {files : List Path}
  (hfiles : fs.sourceFiles root config = .ok files)
  (hlinks : ∀ node, fs.stat root = .ok node → node.linkCount = 0)

include hfree hfiles hlinks

/-- Without links, the path of a source file consists of the names that lead to it. -/
theorem path_of_sourceFile? {path : Path} (hpath : path ∈ files) {file : SourceFile}
    (hfile : fs.sourceFile? root path = some file) :
    path.parts = root.parts ++ (Path.parse file.path).parts := by
  obtain ⟨hsource, octets, relative, hread, hrelative, rfl⟩ :
      path.isSource = true ∧ ∃ octets relative, fs.read path = .ok octets ∧
        fs.relativePath path root = .ok relative ∧
        file = .ofText relative.render (sourceText octets) := by
    rw [sourceFile?] at hfile
    split at hfile
    · next hsource =>
        split at hfile
        · next octets relative hread hrelative =>
            exact ⟨hsource, octets, relative, hread, hrelative, (Option.some.inj hfile).symm⟩
        · exact absurd hfile (by simp)
    · exact absurd hfile (by simp)
  obtain ⟨node, names, found, hroot, rfl, hne, hfound, hlink⟩ :=
    names_of_mem_straight htree hfiles hlinks hpath
  have hnames := relativePath_of_at? htree hroot hfree hfound hlink
  obtain rfl := Except.ok.inj (hrelative.symm.trans hnames)
  rw [SourceFile.ofText_path, Path.parse_render hne (isEntryName_below htree hroot hfound)]

/-- **Without links, files are searched in the order of the paths that their elements bear.** -/
theorem pairwise_sourceFile? :
    (files.filterMap (fs.sourceFile? root)).Pairwise fun f g =>
      (Path.parse f.path).parts < (Path.parse g.path).parts := by
  refine List.pairwise_filterMap.2 ((pairwise_sourceFiles htree hfiles).imp_of_mem ?_)
  intro p q hp hq hlt f hf g hg
  rw [path_of_sourceFile? htree hfree hfiles hlinks hp hf,
    path_of_sourceFile? htree hfree hfiles hlinks hq hg] at hlt
  rcases lt_trichotomy (Path.parse f.path).parts (Path.parse g.path).parts with h | h | h
  · exact h
  · exact absurd hlt (by rw [h]; exact lt_irrefl _)
  · exact absurd hlt (lt_asymm (List.append_left_lt h))

end

/-- **When the elements of a name are located in order**: within every file they are listed as they
stand, and those of a file come before those of the files that are searched after it.  The second
holds by itself where there are no links below the root. -/
theorem located_ordered_iff {load : Yaml.Loader} {name : String} {elements : List Element}
    (h : (fs.locate load name (some root)).value = .ok elements) :
    ∃ config files, fs.scanConfig load root = .ok config ∧
      fs.sourceFiles root config = .ok files ∧
      let scanned := files.filterMap (fs.sourceFile? root)
      (elements.Pairwise Element.ComesBefore ↔ (∀ file ∈ scanned, file.KeepsOrder name) ∧
        scanned.Pairwise fun f g => ∀ e ∈ f.named name, ∀ e' ∈ g.named name, e.ComesBefore e') ∧
      (fs.ResolvesFreely root → (∀ node, fs.stat root = .ok node → node.linkCount = 0) →
        scanned.Pairwise fun f g => ∀ e ∈ f.named name, ∀ e' ∈ g.named name,
          e.ComesBefore e') := by
  obtain ⟨config, files, hconfig, hfiles, rfl⟩ := locate_eq_flatMap h
  refine ⟨config, files, hconfig, hfiles, ?_, fun hfree hlinks => ?_⟩
  · rw [List.pairwise_flatMap]
    simp only [SourceFile.pairwise_comesBefore_iff]
  · refine (pairwise_sourceFile? htree hfree hfiles hlinks).imp fun {f g} hlt e he e' he' => ?_
    refine Or.inl ?_
    rw [SourceFile.path_of_mem_elements (List.mem_filter.1 he).1,
      SourceFile.path_of_mem_elements (List.mem_filter.1 he').1]
    exact hlt

end

/-- A class before a function, in a tree without links. -/
theorem located_ordered_iff_class :
    let octets := "class A \x7b\n  foo() \x7b\n  \x7d\n\x7d\nfunction foo() \x7b\n\x7d\n".toList.map
      fun c => UInt8.ofNat c.toNat
    let node : Node := .directory [("a.js", .file octets)]
    let fs : FileSystem := ⟨.directory [("r", node)], [], .free⟩
    let root : Path := ⟨.root, ["r"]⟩
    let load : Yaml.Loader := fun _ => .error ⟨.yaml, "malformed document"⟩
    ∃ elements, (fs.locate load "foo" (some root)).value = .ok elements ∧ elements.length = 2 ∧
      (elements.Pairwise Element.ComesBefore ↔
        ∀ file ∈ [Path.mk .root ["r", "a.js"]].filterMap (fs.sourceFile? root),
          file.KeepsOrder "foo") := by
  intro octets node fs root load
  have hstat : fs.stat root = .ok node := rfl
  have hconfig : fs.scanConfig load root = .ok .default := rfl
  have hfiles : fs.sourceFiles root .default = .ok [⟨.root, ["r", "a.js"]⟩] := by
    refine sourceFiles_of_selected [["a.js"]] rfl hstat (by decide +kernel) ?_ ?_ (by decide)
    · simp only [node, nesting, nestingEntries_cons, nestingAt, nestingEntries]
      decide +kernel
    · simp only [node, selected, selectedEntries_cons, selectedAt, selectedEntries]
      decide +kernel
  have hcount : (fs.locate load "foo" (some root)).value.map List.length = .ok 2 := by
    rw [locate_of_sourceFiles hconfig hfiles]
    decide +kernel
  cases hvalue : (fs.locate load "foo" (some root)).value with
  | error failure => exact absurd hcount (by rw [hvalue]; simp [Except.map])
  | ok elements =>
      obtain ⟨config, files, hconfig', hfiles', hiff, hlinks⟩ :=
        located_ordered_iff (by decide) hvalue
      obtain rfl := Except.ok.inj (hconfig.symm.trans hconfig')
      obtain rfl := Except.ok.inj (hfiles.symm.trans hfiles')
      refine ⟨elements, rfl, Except.ok.inj (hvalue ▸ hcount),
        hiff.trans ⟨And.left, fun h => ⟨h, ?_⟩⟩⟩
      refine hlinks (resolvesFreely_of_linkCount (by decide) root) fun found hfound => ?_
      rw [hstat] at hfound
      rw [← Except.ok.inj hfound]
      decide

/-- A function before a class that has a method of its name. -/
theorem located_unordered :
    let octets := "function foo() \x7b\n\x7d\nclass A \x7b\n  foo() \x7b\n  \x7d\n\x7d\n".toList.map
      fun c => UInt8.ofNat c.toNat
    let fs : FileSystem := ⟨.directory [("r", .directory [("a.js", .file octets)])], [], .free⟩
    let load : Yaml.Loader := fun _ => .error ⟨.yaml, "malformed document"⟩
    let value := (fs.locate load "foo" (some ⟨.root, ["r"]⟩)).value
    fs.tree.wellFormed = true ∧ fs.tree.linkCount = 0 ∧
      (value.map (·.map fun e => (e.path, e.span.start))) = .ok [("a.js", 31), ("a.js", 0)] ∧
      ∀ elements, value = .ok elements → ¬ elements.Pairwise Element.ComesBefore := by
  intro octets fs load value
  have hstat : fs.stat ⟨.root, ["r"]⟩ = .ok (.directory [("a.js", .file octets)]) := rfl
  have hconfig : fs.scanConfig load ⟨.root, ["r"]⟩ = .ok .default := rfl
  have hfiles : fs.sourceFiles ⟨.root, ["r"]⟩ .default = .ok [⟨.root, ["r", "a.js"]⟩] := by
    refine sourceFiles_of_selected [["a.js"]] rfl hstat (by decide +kernel) ?_ ?_ (by decide)
    · simp only [nesting, nestingEntries_cons, nestingAt, nestingEntries]
      decide +kernel
    · simp only [selected, selectedEntries_cons, selectedAt, selectedEntries]
      decide +kernel
  have hvalue : value.map (·.map fun e => (e.path, e.span.start)) =
      .ok [("a.js", 31), ("a.js", 0)] := by
    simp only [value]
    rw [locate_of_sourceFiles hconfig hfiles]
    decide +kernel
  refine ⟨by decide, by decide, hvalue, fun elements helements hordered => ?_⟩
  rw [helements] at hvalue
  obtain ⟨e, rest, rfl, he, hrest⟩ := List.map_eq_cons_iff.1 (Except.ok.inj hvalue)
  obtain ⟨f, more, rfl, hf, -⟩ := List.map_eq_cons_iff.1 hrest
  obtain ⟨hpath, hstart⟩ := Prod.mk.inj he
  obtain ⟨hpath', hstart'⟩ := Prod.mk.inj hf
  rcases (List.pairwise_cons.1 hordered).1 f (by simp) with hlt | ⟨-, hle⟩
  · rw [hpath, hpath'] at hlt
    exact lt_irrefl _ hlt
  · omega

end FileSystem

end SourceOutline
