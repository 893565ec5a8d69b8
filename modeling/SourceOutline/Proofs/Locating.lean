/-
**Locating the elements of a name.**

A search goes through the files below a root.  A file gives its elements of the name, or is left out
with a warning, or ends the whole search: that is a file that can be read and has no path below the
root, and if nothing is refused while paths are resolved, it is a link that leads out of the root.
Where there are no links, the path of a file below the root consists of the names that lead to it,
so asking for the outline of that path reads the same file once more.

Main definitions:

* `FileSystem.Contributes`, `FileSystem.HasNoPath` — what a search gets from one file;
* `FileSystem.LeadsOutside` — a path that leads out of a root.

Main results:

* `FileSystem.locateIn_of_contributes`, `FileSystem.locateIn_cases` — a search puts together what
  the files contribute, unless one of them has no path below the root;
* `FileSystem.relativePath_of_at?` — the path below the root of a file that is no link;
* `FileSystem.locate_eq_outlines` — **locating a name is outlining each file**;
* `FileSystem.locate_fails_iff` — **when a search fails**.
-/

import SourceOutline.Lookup
import SourceOutline.Proofs.FileSelection
import SourceOutline.Proofs.RepositoryRoots
import Mathlib.Data.List.Forall2

set_option autoImplicit false

namespace SourceOutline.FileSystem

open Text

/-! ### What files contribute -/

section
variable (fs : FileSystem) (root : Path) (name : String)

/-- What a search gets from one file: nothing if it is no source file, a warning if it cannot be
read, and otherwise the elements of the name. -/
inductive Contributes (file : Path) : Reported (List Element) → Prop where
  | other (hsource : file.isSource = false) : Contributes file ⟨[], []⟩
  | unreadable {e : Error} (hsource : file.isSource = true) (hread : fs.read file = .error e) :
      Contributes file ⟨[], [.unreadable file.render e]⟩
  | outlined {octets : List UInt8} {relative : Path} {outline : Reported Outline}
      (hsource : file.isSource = true) (hread : fs.read file = .ok octets)
      (hrelative : fs.relativePath file root = .ok relative)
      (houtline : outline = (SourceFile.ofText relative.render (sourceText octets)).outline) :
      Contributes file ⟨outline.value.elements.filter (·.name == name), outline.warnings⟩

/-- A source file that can be read has no path below the root. -/
def HasNoPath (file : Path) (failure : Failure) : Prop :=
  file.isSource = true ∧ (∃ octets, fs.read file = .ok octets) ∧
    fs.relativePath file root = .error failure

variable {fs root name}

/-- A file contributes something, or it has no path. -/
theorem exists_contributes (file : Path) :
    (∃ part, fs.Contributes root name file part) ∨ ∃ failure, fs.HasNoPath root file failure := by
  by_cases hsource : file.isSource = true
  · cases hread : fs.read file with
    | error e => exact Or.inl ⟨_, .unreadable hsource hread⟩
    | ok octets =>
        cases hrelative : fs.relativePath file root with
        | error failure => exact Or.inr ⟨failure, hsource, ⟨octets, hread⟩, hrelative⟩
        | ok relative => exact Or.inl ⟨_, .outlined hsource hread hrelative rfl⟩
  · exact Or.inl ⟨_, .other (by simpa using hsource)⟩

theorem HasNoPath.not_contributes {file : Path} {failure : Failure}
    (h : fs.HasNoPath root file failure) {part : Reported (List Element)} :
    ¬ fs.Contributes root name file part := by
  obtain ⟨hsource, ⟨octets, hread⟩, hrelative⟩ := h
  intro hpart
  cases hpart with
  | other hother => exact absurd hsource (by simp [hother])
  | unreadable _ herror => exact absurd hread (by simp [herror])
  | outlined _ _ hok => exact absurd hrelative (by simp [hok])

/-- What one file contributes comes before what the others give. -/
theorem Contributes.locateIn_cons {file : Path} {part : Reported (List Element)}
    (h : fs.Contributes root name file part) (rest : List Path) :
    fs.locateIn root name (file :: rest) =
      ⟨(fs.locateIn root name rest).value.map (part.value ++ ·),
        part.warnings ++ (fs.locateIn root name rest).warnings⟩ := by
  have hnone : ∀ value : Except Failure (List Element), value.map ([] ++ ·) = value := by
    intro value
    cases value <;> rfl
  cases h with
  | other hsource =>
      rw [locateIn, if_neg (by simp [hsource]), hnone]
      rfl
  | unreadable hsource hread => simp only [locateIn, hsource, hread, if_true, hnone]; rfl
  | outlined hsource hread hrelative houtline =>
      subst houtline
      simp only [locateIn, hsource, hread, hrelative, if_true]

/-- A search puts together what the files contribute. -/
theorem locateIn_of_contributes {files : List Path} {parts : List (Reported (List Element))}
    (h : List.Forall₂ (fs.Contributes root name) files parts) :
    fs.locateIn root name files =
      ⟨.ok (parts.flatMap (·.value)), parts.flatMap (·.warnings)⟩ := by
  induction h with
  | nil => rfl
  | cons hfile _ ih =>
      rw [hfile.locateIn_cons, ih]
      rfl

/-- All files contribute something, or one of them has no path and the search fails. -/
theorem locateIn_cases (root : Path) (name : String) (files : List Path) :
    (∃ parts, List.Forall₂ (fs.Contributes root name) files parts) ∨
      ∃ file ∈ files, ∃ failure, fs.HasNoPath root file failure ∧
        (fs.locateIn root name files).value = .error failure := by
  induction files with
  | nil => exact Or.inl ⟨[], .nil⟩
  | cons file rest ih =>
      rcases exists_contributes file with ⟨part, hpart⟩ | ⟨failure, hfailure⟩
      · rcases ih with ⟨parts, hparts⟩ | ⟨other, hother, failure, hfailure, hvalue⟩
        · exact Or.inl ⟨part :: parts, .cons hpart hparts⟩
        · refine Or.inr ⟨other, List.mem_cons_of_mem _ hother, failure, hfailure, ?_⟩
          rw [hpart.locateIn_cons, hvalue]
          rfl
      · refine Or.inr ⟨file, List.mem_cons_self, failure, hfailure, ?_⟩
        obtain ⟨hsource, ⟨octets, hread⟩, hrelative⟩ := hfailure
        simp only [locateIn, hsource, hread, hrelative, if_true]

/-- If all files contribute something, none of them is without a path. -/
theorem contributes_of_forall₂ {files : List Path} {parts : List (Reported (List Element))}
    (h : List.Forall₂ (fs.Contributes root name) files parts) :
    ∀ file ∈ files, ∃ part, fs.Contributes root name file part := by
  induction h with
  | nil => simp
  | cons hfile _ ih => exact List.forall_mem_cons.2 ⟨⟨_, hfile⟩, ih⟩

/-- A search fails exactly if a file has no path. -/
theorem locateIn_fails_iff (files : List Path) :
    (∃ failure, (fs.locateIn root name files).value = .error failure) ↔
      ∃ file ∈ files, ∃ failure, fs.HasNoPath root file failure := by
  constructor
  · rintro ⟨failure, hvalue⟩
    rcases locateIn_cases root name files with ⟨parts, hparts⟩ | ⟨file, hfile, other, hother, -⟩
    · rw [locateIn_of_contributes hparts] at hvalue
      exact absurd hvalue (by simp)
    · exact ⟨file, hfile, other, hother⟩
  · rintro ⟨file, hfile, failure, hfailure⟩
    rcases locateIn_cases root name files with ⟨parts, hparts⟩ | ⟨-, -, other, -, hvalue⟩
    · obtain ⟨part, hpart⟩ := contributes_of_forall₂ hparts file hfile
      exact absurd hpart hfailure.not_contributes
    · exact ⟨other, hvalue⟩

end

/-! ### Files below a root -/

section
variable {fs : FileSystem} (htree : fs.tree.wellFormed = true) {root : Path} {node : Node}
  (hroot : fs.stat root = .ok node)

/-- A path that can be read leads to a file. -/
theorem stat_of_read {file : Path} {octets : List UInt8} (h : fs.read file = .ok octets) :
    fs.stat file = .ok (.file octets) := by
  rw [read] at h
  split at h
  · exact absurd h (by simp)
  · next node hstat =>
      split at h
      · cases node with
        | file content => rw [hstat, Except.ok.inj h]
        | link target => exact absurd h (by simp)
        | directory entries => exact absurd h (by simp)
      · exact absurd h (by simp)

include htree hroot

/-- Where a file that can be read lies, as seen from the root. -/
theorem exists_place (hfree : fs.ResolvesFreely root) {file : Path} {octets : List UInt8}
    (hnode : node.isLink = false) (hread : fs.read file = .ok octets)
    (hfile : fs.ResolvesFreely file) :
    ∃ place base, fs.location? file = some place ∧ fs.location? root = some base ∧
      fs.relativePath file root =
        if base.isPrefixOf place then .ok ⟨.relative, place.drop base.length⟩
        else .error (.outside (Path.render ⟨.root, place⟩) (Path.render ⟨.root, base⟩)) := by
  obtain ⟨place, hplace, -, hresolve⟩ := resolve_of_stat htree hfile (stat_of_read hread) rfl
  obtain ⟨base, hbase, -, hresolve'⟩ := resolve_of_stat htree hfree hroot hnode
  exact ⟨place, base, hplace, hbase, relativePath_of_resolve hresolve hresolve'⟩

/-- The names that lead to a node below the root are names of entries. -/
theorem isEntryName_below {names : List String} {found : Node}
    (hfound : node.at? names = some found) : ∀ name ∈ names, isEntryName name = true := by
  obtain ⟨base, -, hat, -⟩ := exists_location hroot
  have hbelow : fs.tree.at? (base ++ names) = some found := by
    rw [Node.at?_append, hat, Option.bind_some, hfound]
  exact fun name hname =>
    Node.isEntryName_of_at? htree hbelow name (List.mem_append_right _ hname)

/-- **The path below the root of a file that is no link** consists of the names that lead to it. -/
theorem relativePath_of_at? (hfree : fs.ResolvesFreely root) {names : List String} {found : Node}
    (hfound : node.at? names = some found) (hlink : found.isLink = false) :
    fs.relativePath ⟨root.anchor, root.parts ++ names⟩ root = .ok ⟨.relative, names⟩ := by
  have hnode : node.isLink = false := by
    cases node with
    | file content => rfl
    | directory entries => rfl
    | link target =>
        cases names with
        | nil => exact Option.some.inj hfound ▸ hlink
        | cons name rest => exact absurd hfound (by simp [Node.child?])
  obtain ⟨base, hbase, -, hresolve⟩ := resolve_of_stat htree hfree hroot hnode
  obtain ⟨base', hbase', hresolve'⟩ := resolve_below htree hfree hroot hfound hlink
  obtain rfl : base' = base := Option.some.inj (hbase'.symm.trans hbase)
  rw [relativePath_of_resolve hresolve' hresolve,
    if_pos (List.isPrefixOf_iff_prefix.2 (List.prefix_append _ _)), List.drop_left]

end

/-! ### Outlining each file -/

theorem exists?_of_stat {fs : FileSystem} (htree : fs.tree.wellFormed = true) {path : Path}
    {node : Node} (h : fs.stat path = .ok node) : fs.exists? path = .ok true := by
  simp [exists?, leadsTo, hasNull_of_stat htree h, h]

/-- The outline of a file is that of the text that it is read as. -/
theorem outlineOf_of_read {fs : FileSystem} {file : String} {root : Option Path}
    {base relative : Path} {octets : List UInt8} (hbase : fs.rootOr root = .ok base)
    (hthere : fs.exists? (base.join (Path.parse file)) = .ok true)
    (hsource : (base.join (Path.parse file)).isSource = true)
    (hread : fs.read (base.join (Path.parse file)) = .ok octets)
    (hrelative : fs.relativePath (base.join (Path.parse file)) base = .ok relative) :
    fs.outlineOf file root =
      .ok (SourceFile.ofText relative.render (sourceText octets)).outline := by
  simp only [outlineOf, hbase, hthere, hsource, hread, hrelative, bind, Except.bind,
    Except.mapError, pure, Except.pure]
  rfl

section
variable {fs : FileSystem} (htree : fs.tree.wellFormed = true) {root : Path}

include htree

/-- The outline of a file that is no link, asked for by its path below the root. -/
theorem outlineOf_of_at? (hfree : fs.ResolvesFreely root) {node found : Node}
    {names : List String} {octets : List UInt8} (hroot : fs.stat root = .ok node)
    (hfound : node.at? names = some found) (hne : names ≠ [])
    (hlink : found.isLink = false)
    (hread : fs.read ⟨root.anchor, root.parts ++ names⟩ = .ok octets)
    (hsource : Path.isSource ⟨root.anchor, root.parts ++ names⟩ = true) :
    fs.outlineOf (Path.render ⟨.relative, names⟩) (some root) =
      .ok (SourceFile.ofText (Path.render ⟨.relative, names⟩) (sourceText octets)).outline := by
  have hrelative := relativePath_of_at? htree hroot hfree hfound hlink
  have hpath : root.join (Path.parse (Path.render ⟨.relative, names⟩)) =
      ⟨root.anchor, root.parts ++ names⟩ := by
    rw [Path.parse_render hne (isEntryName_below htree hroot hfound)]
    rfl
  have hthere := exists?_of_stat htree (stat_of_read hread)
  rw [← hpath] at hread hsource hrelative hthere
  exact outlineOf_of_read rfl hthere hsource hread hrelative

variable (fs root) in
/-- The outline of a file, asked for by its path below the root. -/
def OutlinedAs (file : Path) (outline : Reported Outline) : Prop :=
  ∃ relative, fs.relativePath file root = .ok relative ∧
    fs.outlineOf relative.render (some root) = .ok outline

section
variable {config : ScanConfig} {files : List Path}
  (hfiles : fs.sourceFiles root config = .ok files)
  (hlinks : ∀ node, fs.stat root = .ok node → node.linkCount = 0) {file : Path}
  (hfile : file ∈ files)

include hfiles hlinks hfile

/-- Without links, every path that is listed leads straight down to a file. -/
theorem names_of_mem_straight :
    ∃ node names found, fs.stat root = .ok node ∧ file = ⟨root.anchor, root.parts ++ names⟩ ∧
      names ≠ [] ∧ node.at? names = some found ∧ found.isLink = false := by
  obtain ⟨node, names, found, hroot, hnode, rfl, hfound, hkind⟩ :=
    names_of_mem_sourceFiles htree hfiles hfile
  refine ⟨node, names, found, hroot, rfl, ?_, hfound, ?_⟩
  · rintro rfl
    exact absurd hnode (by rw [Option.some.inj hfound, hkind]; decide)
  · cases found with
    | file content => rfl
    | directory entries => rfl
    | link target => exact absurd hfound (at?_ne_link (hlinks node hroot) names target)

/-- What a search gets from a file that can be read is what the outline of the file gives. -/
theorem exists_outline (hfree : fs.ResolvesFreely root) (name : String)
    (hsource : file.isSource = true) (hread : ∃ octets, fs.read file = .ok octets) :
    ∃ outline, fs.OutlinedAs root file outline ∧ fs.Contributes root name file
      ⟨outline.value.elements.filter (·.name == name), outline.warnings⟩ := by
  obtain ⟨octets, hread⟩ := hread
  obtain ⟨node, names, found, hroot, rfl, hne, hfound, hlink⟩ :=
    names_of_mem_straight htree hfiles hlinks hfile
  have hrelative := relativePath_of_at? htree hroot hfree hfound hlink
  exact ⟨_, ⟨_, hrelative, outlineOf_of_at? htree hfree hroot hfound hne hlink hread hsource⟩,
    .outlined hsource hread hrelative rfl⟩

end

omit htree in
/-- A search puts together what the outlines of the files give. -/
theorem exists_outlines {name : String} {files : List Path}
    (h : ∀ file ∈ files, file.isSource = true →
      ∃ outline, fs.OutlinedAs root file outline ∧ fs.Contributes root name file
        ⟨outline.value.elements.filter (·.name == name), outline.warnings⟩) :
    ∃ outlines, List.Forall₂ (fs.OutlinedAs root) (files.filter Path.isSource) outlines ∧
      fs.locateIn root name files =
        ⟨.ok (outlines.flatMap fun outline => outline.value.elements.filter (·.name == name)),
          outlines.flatMap (·.warnings)⟩ := by
  induction files with
  | nil => exact ⟨[], .nil, rfl⟩
  | cons file rest ih =>
      obtain ⟨hfile, hrest⟩ := List.forall_mem_cons.1 h
      obtain ⟨outlines, houtlines, hlocate⟩ := ih hrest
      by_cases hsource : file.isSource = true
      · obtain ⟨outline, houtline, hpart⟩ := hfile hsource
        refine ⟨outline :: outlines, ?_, ?_⟩
        · rw [List.filter_cons_of_pos hsource]
          exact .cons houtline houtlines
        · rw [hpart.locateIn_cons, hlocate]
          rfl
      · refine ⟨outlines, ?_, ?_⟩
        · rwa [List.filter_cons_of_neg hsource]
        · rw [(Contributes.other (by simpa using hsource)).locateIn_cons, hlocate]
          rfl

section
variable {load : Yaml.Loader} {config : ScanConfig}

omit htree in
/-- Without settings, a search fails. -/
theorem locate_of_scanConfig_error {failure : Failure}
    (hconfig : fs.scanConfig load root = .error failure) (name : String) :
    fs.locate load name (some root) = ⟨.error failure, []⟩ := by
  simp only [locate, rootOr, searchedFiles, hconfig, bind, Except.bind]

variable (hconfig : fs.scanConfig load root = .ok config)

include hconfig

omit htree in
/-- Without files, a search fails. -/
theorem locate_of_sourceFiles_error {failure : Failure}
    (hfiles : fs.sourceFiles root config = .error failure) (name : String) :
    fs.locate load name (some root) = ⟨.error failure, []⟩ := by
  simp only [locate, rootOr, searchedFiles, hconfig, hfiles, bind, Except.bind]

omit htree in
/-- A search goes through the files that the settings of the repository select. -/
theorem locate_of_sourceFiles {files : List Path} (hfiles : fs.sourceFiles root config = .ok files)
    (name : String) : fs.locate load name (some root) = fs.locateIn root name files := by
  simp only [locate, rootOr, searchedFiles, hconfig, hfiles, bind, Except.bind]

end

/-- **Locating a name is outlining each file** that the settings of the repository select.  In a tree
without links whose source files can be read, the elements of a name are those that the outlines of
the files give, one file after the other; each outline is the one that is asked for by the path of
the file below the root.  The root may be reached through links, if none of them is refused; where
there are no links at all, `resolvesFreely_of_linkCount` says that nothing is. -/
theorem locate_eq_outlines (load : Yaml.Loader) (root : Path) (name : String)
    (hfree : fs.ResolvesFreely root)
    (hlinks : ∀ node, fs.stat root = .ok node → node.linkCount = 0)
    (hread : ∀ config files, fs.scanConfig load root = .ok config →
      fs.sourceFiles root config = .ok files → ∀ file ∈ files, file.isSource = true →
        ∃ octets, fs.read file = .ok octets) :
    match fs.scanConfig load root with
    | .error failure => fs.locate load name (some root) = ⟨.error failure, []⟩
    | .ok config =>
      match fs.sourceFiles root config with
      | .error failure => fs.locate load name (some root) = ⟨.error failure, []⟩
      | .ok files => ∃ outlines,
          List.Forall₂ (fs.OutlinedAs root) (files.filter Path.isSource) outlines ∧
            fs.locate load name (some root) =
              ⟨.ok (outlines.flatMap fun outline =>
                outline.value.elements.filter (·.name == name)), outlines.flatMap (·.warnings)⟩ := by
  cases hconfig : fs.scanConfig load root with
  | error failure => exact locate_of_scanConfig_error hconfig name
  | ok config =>
      dsimp only
      cases hfiles : fs.sourceFiles root config with
      | error failure => exact locate_of_sourceFiles_error hconfig hfiles name
      | ok files =>
          dsimp only
          rw [locate_of_sourceFiles hconfig hfiles name]
          exact exists_outlines fun file hfile hsource =>
            exists_outline htree hfiles hlinks hfile hfree name hsource
              (hread config files hconfig hfiles file hfile hsource)

end

/-- A search below a directory of the root that has no directory nested too deep. -/
theorem sourceFiles_of_selected {fs : FileSystem} {root : Path} {config : ScanConfig} {node : Node}
    (found : List (List String)) (hnull : hasNull root = false) (hroot : fs.stat root = .ok node)
    (hlist : (fs.searchBelow root config).canList [] = true)
    (hshallow : nesting (fs.searchBelow root config) [] node ≤ fs.process.directoryDepth)
    (hfound : selected (fs.searchBelow root config) [] node = found)
    (hsorted : (found.map fun names => Path.mk root.anchor (root.parts ++ names)).Pairwise
      fun f g => f.precedes g = true) :
    fs.sourceFiles root config =
      .ok (found.map fun names => Path.mk root.anchor (root.parts ++ names)) := by
  simp only [sourceFiles, hnull, hroot, hlist, hfound, Nat.not_lt.2 hshallow, Bool.not_true,
    Bool.false_eq_true, if_false]
  exact congrArg Except.ok (List.mergeSort_of_pairwise hsorted)

/-- Two files, one of them in a directory of its own, and settings that leave out a third one. -/
theorem locate_eq_outlines_two :
    let octets (text : String) : List UInt8 := text.toList.map fun c => UInt8.ofNat c.toNat
    let settings := octets "scan:\n  exclude_dirs: [old]\n"
    let document : Yaml.Document := ⟨[.mapping [(CodePoint.ofText "scan".toList, 1)],
      .mapping [(CodePoint.ofText "exclude_dirs".toList, 2)], .list [3],
      .text (CodePoint.ofText "old".toList)], 0⟩
    let load : Yaml.Loader := fun content =>
      if content = settings then .ok document else .error ⟨.yaml, "malformed document"⟩
    let source : Node := .file (octets "function f() \x7b\x7d\n")
    let node : Node := .directory [(".jsoutline", .file settings), ("a.js", source),
      ("lib", .directory [("b.js", source)]), ("old", .directory [("c.js", source)])]
    let fs : FileSystem := ⟨.directory [("r", node)], [], .free⟩
    let root : Path := ⟨.root, ["r"]⟩
    let config : ScanConfig := ⟨ScanConfig.default.extensions, [CodePoint.ofText "old".toList]⟩
    let files : List Path := [⟨.root, ["r", "a.js"]⟩, ⟨.root, ["r", "lib", "b.js"]⟩]
    fs.scanConfig load root = .ok config ∧ fs.sourceFiles root config = .ok files ∧
      ∃ outlines, List.Forall₂ (fs.OutlinedAs root) files outlines ∧
        fs.locate load "f" (some root) =
          ⟨.ok (outlines.flatMap fun outline => outline.value.elements.filter (·.name == "f")),
            outlines.flatMap (·.warnings)⟩ := by
  intro octets settings document load source node fs root config files
  have hstat : fs.stat root = .ok node := rfl
  have hconfig : fs.scanConfig load root = .ok config := by decide +kernel
  have hfiles : fs.sourceFiles root config = .ok files := by
    refine sourceFiles_of_selected [["a.js"], ["lib", "b.js"]] rfl hstat (by decide +kernel) ?_ ?_
      (by decide)
    · simp only [node, nesting, nestingEntries_cons, nestingAt, nestingEntries]
      decide +kernel
    · simp only [node, selected, selectedEntries_cons, selectedAt, selectedEntries]
      decide +kernel
  refine ⟨hconfig, hfiles, ?_⟩
  have h := @locate_eq_outlines fs (by decide) load root "f"
    (resolvesFreely_of_linkCount (by decide) root)
    (fun found hfound => by rw [hstat] at hfound; rw [← Except.ok.inj hfound]; decide)
    (fun found listed hfound hlisted => by
      obtain rfl := Except.ok.inj (hconfig.symm.trans hfound)
      obtain rfl := Except.ok.inj (hfiles.symm.trans hlisted)
      simp only [files, List.forall_mem_cons]
      exact ⟨fun _ => ⟨_, rfl⟩, fun _ => ⟨_, rfl⟩, by simp⟩)
  rw [hconfig] at h
  dsimp only at h
  rw [hfiles] at h
  exact h

/-! ### Searches that fail -/

section
variable {fs : FileSystem} (htree : fs.tree.wellFormed = true) {root : Path} {node : Node}
  (hroot : fs.stat root = .ok node)

/-- The path leads to a place outside of that of the root. -/
def LeadsOutside (fs : FileSystem) (root file : Path) : Prop :=
  ∃ place base, fs.location? file = some place ∧ fs.location? root = some base ∧ ¬ base <+: place

include hroot

/-- Nothing is found under a name that a root has no entry of. -/
theorem stat_child {base : List String} (hbase : fs.location? root = some base) {name : String}
    (hname : isEntryName name = true) (hsize : name.utf8ByteSize ≤ maxName)
    (hchild : node.child? name = none) :
    fs.stat (root.child name) =
      .error (if maxPath < (root.child name).render.utf8ByteSize then .nameTooLong
        else if node.isDirectory then
          if fs.process.maySearch base then .missing else .denied
        else .notDirectory) := by
  obtain ⟨-, hdot, hup, -⟩ := isEntryName_iff.1 hname
  obtain ⟨place, hplace, hat, -⟩ := exists_location hroot
  obtain rfl : base = place := Option.some.inj (hbase.symm.trans hplace)
  obtain ⟨links, hwalk⟩ := walk_append (walk_of_location? hbase) [name]
  obtain ⟨expand, hexpand⟩ := exists_descend fs.tree fs.process.maySearch links
  have hsteps : steps (root.child name) = root.parts ++ [name] :=
    if_neg fun h => absurd (Path.mk.inj h).2 (by simp)
  have hend : walk fs.tree fs.process.maySearch maxLinks (fs.startOf (root.child name))
      (steps (root.child name)) =
      .error (if node.isDirectory then
        if fs.process.maySearch base then .missing else .denied else .notDirectory) := by
    rw [hsteps]
    refine (hwalk.trans (by rw [hexpand])).trans ?_
    cases node with
    | file content => simp [descend, hat, Node.isDirectory]
    | link target => simp [descend, hat, Node.isDirectory]
    | directory entries =>
        have hnone : fs.tree.at? (base ++ [name]) = none := by
          rw [at?_append_singleton hat]
          exact hchild
        cases hsearch : fs.process.maySearch base with
        | false =>
            rw [descend_denied hat hsearch]
            rfl
        | true =>
            rw [descend_cons hat hsearch hdot hup, hnone, if_neg (by omega)]
            rfl
  rw [stat, follow]
  split
  · rfl
  · rw [hend]
    rfl

/-- The path of the settings cannot be looked up: it is too long, or the root may not be
searched. -/
def HidesSettings (fs : FileSystem) (root : Path) (node : Node) : Prop :=
  maxPath < (root.child configFileName).render.utf8ByteSize ∨
    node.isDirectory = true ∧ ∃ base, fs.location? root = some base ∧
      fs.process.maySearch base = false

include htree

/-- The path of settings that are not there is refused exactly if it cannot be looked up. -/
theorem refuses_settings_iff (hconfig : node.child? configFileName = none) :
    fs.Refuses (root.child configFileName) ↔ fs.HidesSettings root node := by
  obtain ⟨base, hbase, -⟩ := exists_location hroot
  have hstat := stat_child hroot hbase (by decide) (by decide) hconfig
  have hnull : hasNull (root.child configFileName) = false := by
    have hroot := hasNull_of_stat htree hroot
    simp only [hasNull, Path.child, List.any_append, Bool.or_eq_false_iff] at hroot ⊢
    exact ⟨hroot, by decide⟩
  rw [refuses_iff hnull, hstat, HidesSettings]
  by_cases hlong : maxPath < (root.child configFileName).render.utf8ByteSize
  · simp [hlong, Cause.isRefusal]
  · cases node.isDirectory <;> cases hsearch : fs.process.maySearch base <;>
      simp [hlong, hbase, hsearch, Cause.isRefusal]

/-- A root without settings has the default ones, unless their path cannot be looked up. -/
theorem scanConfig_of_child? (hconfig : node.child? configFileName = none) (load : Yaml.Loader) :
    (fs.HidesSettings root node ∧ ∃ failure, fs.scanConfig load root = .error failure) ∨
      (¬ fs.HidesSettings root node ∧ fs.scanConfig load root = .ok .default) := by
  rw [← refuses_settings_iff htree hroot hconfig]
  by_cases hrefuses : fs.Refuses (root.child configFileName)
  · obtain ⟨cause, hrefused⟩ := id hrefuses
    have hexists : fs.exists? (root.child configFileName) = _ :=
      leadsTo_eq_error_iff.2 ⟨cause, hrefused, rfl⟩
    refine Or.inl ⟨hrefuses, .refused ⟨cause, (root.child configFileName).render⟩, ?_⟩
    rw [scanConfig, hexists]
    rfl
  · have hexists : fs.exists? (root.child configFileName) = .ok false := by
      refine (leadsTo_eq_false_iff htree).2 ⟨hrefuses, fun found hfound => ?_⟩
      obtain ⟨base, hbase, -⟩ := exists_location hroot
      have hstat := stat_child hroot hbase (by decide) (by decide) hconfig
      exact absurd (hstat.symm.trans hfound) (by simp)
    refine Or.inr ⟨hrefuses, ?_⟩
    rw [scanConfig, hexists]
    rfl

/-- A file that can be read has no path below the root exactly if it leads out of it. -/
theorem relativePath_fails_iff (hnode : node.isDirectory = true) (hfree : fs.ResolvesFreely root)
    {file : Path} (hfile : fs.ResolvesFreely file) {octets : List UInt8}
    (hread : fs.read file = .ok octets) :
    (∃ failure, fs.relativePath file root = .error failure) ↔ fs.LeadsOutside root file := by
  have hlink : node.isLink = false := by
    cases node with
    | file content => rfl
    | directory entries => rfl
    | link target => exact absurd hnode (by simp [Node.isDirectory])
  obtain ⟨place, base, hplace, hbase, hrelative⟩ :=
    exists_place htree hroot hfree hlink hread hfile
  by_cases hbelow : base <+: place
  · rw [hrelative, if_pos (List.isPrefixOf_iff_prefix.2 hbelow)]
    refine ⟨by rintro ⟨failure, h⟩; exact absurd h (by simp), ?_⟩
    rintro ⟨place', base', hplace', hbase', hnot⟩
    rw [hplace] at hplace'
    rw [hbase] at hbase'
    exact absurd hbelow (Option.some.inj hplace' ▸ Option.some.inj hbase' ▸ hnot)
  · rw [hrelative, if_neg (by simpa [List.isPrefixOf_iff_prefix] using hbelow)]
    exact ⟨fun _ => ⟨place, base, hplace, hbase, hbelow⟩, fun _ => ⟨_, rfl⟩⟩

/-- A listed file that has no path below the root is a link, if the root resolves freely. -/
theorem exists_link (hfree : fs.ResolvesFreely root) {config : ScanConfig} {files : List Path}
    (hfiles : fs.sourceFiles root config = .ok files) {file : Path} (hfile : file ∈ files)
    {failure : Failure} (hfailure : fs.relativePath file root = .error failure) :
    ∃ names target,
      file = ⟨root.anchor, root.parts ++ names⟩ ∧ node.at? names = some (.link target) := by
  obtain ⟨node', names, found, hroot', -, rfl, hfound, hkind⟩ :=
    names_of_mem_sourceFiles htree hfiles hfile
  obtain rfl : node = node' := Except.ok.inj (hroot.symm.trans hroot')
  refine ⟨names, ?_⟩
  cases found with
  | link target => exact ⟨target, rfl, hfound⟩
  | directory entries => exact absurd hkind (by simp [Node.isDirectory])
  | file content =>
      rw [relativePath_of_at? htree hroot hfree hfound rfl] at hfailure
      exact absurd hfailure (by simp)

/-- A listed file that resolves freely has no path below the root exactly if it is a source file that
can be read and leads out of the root. -/
theorem hasNoPath_iff (hfree : fs.ResolvesFreely root) {config : ScanConfig} {files : List Path}
    (hfiles : fs.sourceFiles root config = .ok files) {file : Path} (hfile : file ∈ files)
    (hfileFree : fs.ResolvesFreely file) :
    (∃ failure, fs.HasNoPath root file failure) ↔
      file.isSource = true ∧ (∃ octets, fs.read file = .ok octets) ∧ fs.LeadsOutside root file := by
  obtain ⟨node', -, -, hroot', hnode, -⟩ := names_of_mem_sourceFiles htree hfiles hfile
  obtain rfl : node = node' := Except.ok.inj (hroot.symm.trans hroot')
  constructor
  · rintro ⟨failure, hsource, ⟨octets, hread⟩, hfailure⟩
    exact ⟨hsource, ⟨octets, hread⟩,
      (relativePath_fails_iff htree hroot hnode hfree hfileFree hread).1 ⟨failure, hfailure⟩⟩
  · rintro ⟨hsource, ⟨octets, hread⟩, houtside⟩
    obtain ⟨failure, hfailure⟩ :=
      (relativePath_fails_iff htree hroot hnode hfree hfileFree hread).2 houtside
    exact ⟨failure, hsource, ⟨octets, hread⟩, hfailure⟩

/-- **When a search fails.**  Below a root without settings of its own, a search fails if and only
if the path of the settings cannot be looked up, directories are nested too deep, or a source file
that can be read has no path below the root; otherwise every file contributes its elements of the
name or is left out, and one that cannot be read gives a warning.  If the root resolves freely, a
file without a path is a link, and if that does so too, it is one that leads out of the root. -/
theorem locate_fails_iff (hconfig : node.child? configFileName = none) (load : Yaml.Loader)
    (name : String) :
    ((∃ failure, (fs.locate load name (some root)).value = .error failure) ↔
        fs.HidesSettings root node ∨ fs.NestsTooDeep root .default node ∨
          ∃ files, fs.sourceFiles root .default = .ok files ∧
            ∃ file ∈ files, ∃ failure, fs.HasNoPath root file failure) ∧
      (fs.ResolvesFreely root → ∀ files, fs.sourceFiles root .default = .ok files →
        ∀ file ∈ files,
          (∀ failure, fs.HasNoPath root file failure → ∃ names target,
            file = ⟨root.anchor, root.parts ++ names⟩ ∧ node.at? names = some (.link target)) ∧
          (fs.ResolvesFreely file → ((∃ failure, fs.HasNoPath root file failure) ↔
            file.isSource = true ∧ (∃ octets, fs.read file = .ok octets) ∧
              fs.LeadsOutside root file))) ∧
      ((∀ failure, (fs.locate load name (some root)).value ≠ .error failure) →
        ∃ files parts, fs.sourceFiles root .default = .ok files ∧
          List.Forall₂ (fs.Contributes root name) files parts ∧
          fs.locate load name (some root) =
            ⟨.ok (parts.flatMap (·.value)), parts.flatMap (·.warnings)⟩) := by
  rw [and_left_comm]
  refine ⟨fun hfree files hfiles file hfile => ?_, ?_⟩
  · exact ⟨fun failure h => exists_link htree hroot hfree hfiles hfile h.2.2,
      hasNoPath_iff htree hroot hfree hfiles hfile⟩
  rcases scanConfig_of_child? htree hroot hconfig load with
    ⟨hhidden, e, hsettings⟩ | ⟨hseen, hsettings⟩
  · have hlocate := locate_of_scanConfig_error hsettings name
    exact ⟨⟨fun _ => Or.inl hhidden, fun _ => ⟨_, by rw [hlocate]⟩⟩,
      fun h => absurd (by rw [hlocate]) (h _)⟩
  · rcases sourceFiles_cases htree hroot .default with
      ⟨hdeep, hfiles⟩ | ⟨hshallow, files, hfiles⟩
    · have hlocate := locate_of_sourceFiles_error hsettings hfiles name
      exact ⟨⟨fun _ => Or.inr (Or.inl hdeep), fun _ => ⟨_, by rw [hlocate]⟩⟩,
        fun h => absurd (by rw [hlocate]) (h _)⟩
    · rw [locate_of_sourceFiles hsettings hfiles name, locateIn_fails_iff]
      refine ⟨⟨fun h => Or.inr (Or.inr ⟨files, hfiles, h⟩), ?_⟩, fun hok => ?_⟩
      · rintro (hhidden | hdeep | ⟨files', hfiles', h⟩)
        · exact absurd hhidden hseen
        · exact absurd hdeep hshallow
        · rwa [Except.ok.inj (hfiles.symm.trans hfiles')]
      · rcases locateIn_cases root name files with ⟨parts, hparts⟩ | ⟨-, -, failure, -, hvalue⟩
        · exact ⟨files, parts, hfiles, hparts, locateIn_of_contributes hparts⟩
        · exact absurd hvalue (hok failure)

end

/-- A link that leads nowhere is left out. -/
theorem locate_fails_iff_dangling :
    let octets := "function f() \x7b\x7d\n".toList.map fun c => UInt8.ofNat c.toNat
    let node : Node := .directory [("a.js", .file octets), ("l.js", .link "../o.js")]
    let fs : FileSystem := ⟨.directory [("r", node)], [], .free⟩
    let root : Path := ⟨.root, ["r"]⟩
    let load : Yaml.Loader := fun _ => .error ⟨.yaml, "malformed document"⟩
    ∃ parts, List.Forall₂ (fs.Contributes root "f")
        [⟨.root, ["r", "a.js"]⟩, ⟨.root, ["r", "l.js"]⟩] parts ∧
      fs.locate load "f" (some root) =
        ⟨.ok (parts.flatMap (·.value)), parts.flatMap (·.warnings)⟩ := by
  intro octets node fs root load
  have hstat : fs.stat root = .ok node := rfl
  have hconfig : fs.scanConfig load root = .ok .default := rfl
  have hfiles : fs.sourceFiles root .default =
      .ok [⟨.root, ["r", "a.js"]⟩, ⟨.root, ["r", "l.js"]⟩] := by
    refine sourceFiles_of_selected [["a.js"], ["l.js"]] rfl hstat (by decide +kernel) ?_ ?_
      (by decide)
    · simp only [node, nesting, nestingEntries_cons, nestingAt, nestingEntries]
      decide +kernel
    · simp only [node, selected, selectedEntries_cons, selectedAt, selectedEntries]
      decide +kernel
  obtain ⟨-, -, hparts⟩ := locate_fails_iff (by decide) hstat rfl load "f"
  obtain ⟨files, parts, hfiles', hparts, hlocate⟩ := hparts fun failure hfailure => by
    have hok : (fs.locate load "f" (some root)).value.toBool = true := by
      rw [locate_of_sourceFiles hconfig hfiles]
      decide +kernel
    rw [hfailure] at hok
    exact absurd hok (by simp [Except.toBool])
  obtain rfl := Except.ok.inj (hfiles.symm.trans hfiles')
  exact ⟨parts, hparts, hlocate⟩

/-- A link out of the root loses the function of the other file. -/
theorem locate_fails_outside :
    let octets := "function f() \x7b\x7d\n".toList.map fun c => UInt8.ofNat c.toNat
    let node : Node := .directory [("a.js", .file octets), ("l.js", .link "../o.js")]
    let fs : FileSystem := ⟨.directory [("r", node), ("o.js", .file [])], [], .free⟩
    let root : Path := ⟨.root, ["r"]⟩
    fs.tree.wellFormed = true ∧ fs.stat root = .ok node ∧ node.child? configFileName = none ∧
      ((fs.locateIn root "f" [⟨.root, ["r", "a.js"]⟩]).value.map (·.map (·.name))) = .ok ["f"] ∧
      ∀ load, (fs.locate load "f" (some root)).value = .error (.outside "/o.js" "/r") := by
  intro octets node fs root
  have hstat : fs.stat root = .ok node := rfl
  have hfiles : fs.sourceFiles root .default =
      .ok [⟨.root, ["r", "a.js"]⟩, ⟨.root, ["r", "l.js"]⟩] := by
    refine sourceFiles_of_selected [["a.js"], ["l.js"]] rfl hstat (by decide +kernel) ?_ ?_
      (by decide)
    · simp only [node, nesting, nestingEntries_cons, nestingAt, nestingEntries]
      decide +kernel
    · simp only [node, selected, selectedEntries_cons, selectedAt, selectedEntries]
      decide +kernel
  refine ⟨by decide, hstat, rfl, by decide +kernel, fun load => ?_⟩
  have hconfig : fs.scanConfig load root = .ok .default := rfl
  rw [locate_of_sourceFiles hconfig hfiles]
  decide +kernel

end SourceOutline.FileSystem
