/-
**Which files a search selects.**

A search below a root lists a file, or a link that leads to no directory, if the settings want its
suffix and the search goes through all directories above it.  It goes through a directory that is
neither hidden nor excluded and that may be listed; a directory that may not, or whose path cannot
be looked up, is passed over without a word.  Directories that are nested too deep end the search
with an error.  As every path is listed once and the paths are sorted, the order in which
directories list their entries does not matter.

Main definitions:

* `FileSystem.GoesThrough` — the directories on the way to an entry;
* `FileSystem.Enters`, `FileSystem.Selects` — what a search is to list, by the settings and the tree;
* `FileSystem.NestsTooDeep` — directories that are nested too deep for it.

Main results:

* `FileSystem.reaches_iff`, `FileSystem.mem_selected_iff`, `FileSystem.lt_nesting_iff` — what is
  listed and how deep a search goes, by the names that lead there;
* `FileSystem.stat_searchPath` — the paths under which a search looks at directories;
* `FileSystem.sourceFiles_cases` — when a search fails;
* `FileSystem.mem_sourceFiles_iff` — **the files that are listed are those that are selected**;
* `FileSystem.sourceFiles_exact` — and they come in order, in whatever order entries are listed.
-/

import SourceOutline.Proofs.ResolvedPaths
import SourceOutline.Proofs.SelectedFiles
import SourceOutline.Proofs.TreeShapes

set_option autoImplicit false

namespace SourceOutline

open Text

/-! ### Settings -/

theorem ScanConfig.excludes_iff {config : ScanConfig} {name : String} :
    config.excludes name = true ↔ CodePoint.ofText name.toList ∈ config.excludedDirectories := by
  simp [excludes]

/-- A directory of a given name is not left out: it is neither hidden nor excluded. -/
def ScanConfig.Admits (config : ScanConfig) (name : String) : Prop :=
  name.toList.head? ≠ some '.' ∧ CodePoint.ofText name.toList ∉ config.excludedDirectories

namespace FileSystem

theorem Selection.entersDirectory_ofConfig_iff {config : ScanConfig} {name : String} :
    (Selection.ofConfig config).entersDirectory name = true ↔ config.Admits name := by
  simp [ofConfig, ScanConfig.Admits, ← ScanConfig.excludes_iff]

/-! ### The way to what is listed -/

/-- Only directories have something below them. -/
theorem exists_directory_of_at? {node found : Node} {before after : List String} {name : String}
    (h : node.at? (before ++ name :: after) = some found) :
    ∃ entries, node.at? before = some (.directory entries) := by
  rw [Node.at?_append, Option.bind_eq_some_iff] at h
  obtain ⟨directory, hbefore, h⟩ := h
  rw [Node.at?_cons, Option.bind_eq_some_iff] at h
  obtain ⟨child, hchild, -⟩ := h
  cases directory with
  | file content => exact absurd hchild (by simp [Node.child?])
  | link target => exact absurd hchild (by simp [Node.child?])
  | directory entries => exact ⟨entries, hbefore⟩

theorem isDirectory_of_at? {node found : Node} {names : List String}
    (h : node.at? names = some found) (hne : names ≠ []) : node.isDirectory = true := by
  obtain ⟨name, rest, rfl⟩ := List.exists_cons_of_ne_nil hne
  obtain ⟨entries, hentries⟩ := @exists_directory_of_at? node found [] rest name h
  rw [Option.some.inj hentries]
  rfl

section
variable (search : Search)

/-- A search goes through these directories, one below the other, from the one that `above` leads
to. -/
def GoesThrough (above directories : List String) : Prop :=
  ∀ before name after, directories = before ++ name :: after →
    search.entersDirectory name = true ∧ search.canList (above ++ before ++ [name]) = true

variable {search}

theorem goesThrough_nil {above : List String} : GoesThrough search above [] := by
  intro before name after h
  exact absurd h (by simp)

theorem goesThrough_cons {above rest : List String} {name : String} :
    GoesThrough search above (name :: rest) ↔
      (search.entersDirectory name = true ∧ search.canList (above ++ [name]) = true) ∧
        GoesThrough search (above ++ [name]) rest := by
  constructor
  · intro h
    refine ⟨by simpa using h [] name rest rfl, fun before other after hrest => ?_⟩
    simpa using h (name :: before) other after (by rw [hrest]; rfl)
  · rintro ⟨hname, hrest⟩ before other after h
    cases before with
    | nil =>
        obtain ⟨rfl, -⟩ := List.cons.inj h
        simpa using hname
    | cons first before =>
        obtain ⟨rfl, htail⟩ := List.cons.inj h
        simpa using hrest before other after htail

/-- What is reached is behind directories that the search goes through. -/
theorem reaches_iff {kind : List String → String → Node → Prop} {above below : List String}
    {name : String} {node : Node} :
    Reaches search kind above name node below ↔
      ∃ directories last found, name :: below = directories ++ [last] ∧
        GoesThrough search above directories ∧ node.at? below = some found ∧
        kind (above ++ directories) last found := by
  induction below generalizing above name node with
  | nil =>
      constructor
      · intro hkind
        exact ⟨[], name, node, rfl, goesThrough_nil, rfl, by rwa [List.append_nil]⟩
      · rintro ⟨directories, last, found, hnames, -, hfound, hkind⟩
        cases directories with
        | cons first rest => exact absurd (List.cons.inj hnames).2.symm (by simp)
        | nil =>
            obtain ⟨rfl, -⟩ := List.cons.inj hnames
            obtain rfl := Option.some.inj hfound
            rwa [List.append_nil] at hkind
  | cons next below ih =>
      constructor
      · rintro ⟨henters, hlists, child, hchild, hreaches⟩
        obtain ⟨directories, last, found, hnames, hthrough, hfound, hkind⟩ := ih.1 hreaches
        refine ⟨name :: directories, last, found, by rw [hnames]; rfl,
          goesThrough_cons.2 ⟨⟨henters, hlists⟩, hthrough⟩, ?_, ?_⟩
        · rw [Node.at?_cons, hchild, Option.bind_some, hfound]
        · rwa [← List.append_cons] at hkind
      · rintro ⟨directories, last, found, hnames, hthrough, hfound, hkind⟩
        cases directories with
        | nil => exact absurd (List.cons.inj hnames).2 (by simp)
        | cons first directories =>
            obtain ⟨rfl, htail⟩ := List.cons.inj hnames
            obtain ⟨⟨henters, hlists⟩, hthrough⟩ := goesThrough_cons.1 hthrough
            rw [Node.at?_cons, Option.bind_eq_some_iff] at hfound
            obtain ⟨child, hchild, hfound⟩ := hfound
            rw [List.append_cons] at hkind
            exact ⟨henters, hlists, child, hchild,
              ih.2 ⟨directories, last, found, htail, hthrough, hfound, hkind⟩⟩

/-- What is reached from one of the entries of a directory. -/
theorem exists_reaches_iff {kind : List String → String → Node → Prop}
    {entries : List (String × Node)} {names : List String} :
    (∃ name first below, names = name :: below ∧ Node.lookup name entries = some first ∧
        Reaches search kind [] name first below) ↔
      ∃ directories last found, names = directories ++ [last] ∧
        GoesThrough search [] directories ∧ (Node.directory entries).at? names = some found ∧
        kind directories last found := by
  constructor
  · rintro ⟨name, first, below, rfl, hfirst, hreaches⟩
    obtain ⟨directories, last, found, hnames, hthrough, hfound, hkind⟩ := reaches_iff.1 hreaches
    refine ⟨directories, last, found, hnames, hthrough, ?_, hkind⟩
    rw [Node.at?_cons, Node.child?, hfirst, Option.bind_some, hfound]
  · rintro ⟨directories, last, found, hnames, hthrough, hfound, hkind⟩
    cases names with
    | nil => exact absurd hnames (by simp)
    | cons name below =>
        rw [Node.at?_cons, Option.bind_eq_some_iff] at hfound
        obtain ⟨first, hfirst, hfound⟩ := hfound
        exact ⟨name, first, below, rfl, hfirst,
          reaches_iff.2 ⟨directories, last, found, hnames, hthrough, hfound, hkind⟩⟩

/-- Nothing but a directory has anything below it. -/
theorem eq_directory_of_at? {node found : Node} {names : List String}
    (h : node.at? names = some found) (hne : names ≠ []) :
    ∃ entries, node = .directory entries := by
  cases node with
  | directory entries => exact ⟨entries, rfl⟩
  | file content => exact absurd (isDirectory_of_at? h hne) (by simp [Node.isDirectory])
  | link target => exact absurd (isDirectory_of_at? h hne) (by simp [Node.isDirectory])

/-- How deep a search below a directory goes. -/
theorem lt_nesting_iff {node : Node} (hnode : node.wellFormed = true) {n : Nat} :
    n < nesting search [] node ↔
      ∃ directories last found, n ≤ directories.length ∧ GoesThrough search [] directories ∧
        node.at? (directories ++ [last]) = some found ∧ TurnsTo search directories last found := by
  by_cases hkind : ∃ entries, node = .directory entries
  · obtain ⟨entries, rfl⟩ := hkind
    rw [nesting, lt_nestingEntries_iff _ entries [] n hnode]
    constructor
    · rintro ⟨name, first, below, hlength, hfirst, hreaches⟩
      obtain ⟨directories, last, found, hnames, hthrough, hfound, hturns⟩ :=
        exists_reaches_iff.1 ⟨name, first, below, rfl, hfirst, hreaches⟩
      have hsame := congrArg List.length hnames
      rw [List.length_cons, List.length_append, List.length_singleton] at hsame
      exact ⟨directories, last, found, by omega, hthrough, hnames ▸ hfound, hturns⟩
    · rintro ⟨directories, last, found, hlength, hthrough, hfound, hturns⟩
      obtain ⟨name, first, below, hnames, hfirst, hreaches⟩ :=
        exists_reaches_iff.2 ⟨directories, last, found, rfl, hthrough, hfound, hturns⟩
      have hsame := congrArg List.length hnames
      rw [List.length_cons, List.length_append, List.length_singleton] at hsame
      exact ⟨name, first, below, by omega, hfirst, hreaches⟩
  · refine ⟨fun h => ?_, ?_⟩
    · cases node with
      | directory entries => exact absurd ⟨entries, rfl⟩ hkind
      | file content => exact absurd h (by simp [nesting])
      | link target => exact absurd h (by simp [nesting])
    · rintro ⟨directories, last, found, -, -, hfound, -⟩
      exact absurd (eq_directory_of_at? hfound (by simp)) hkind

end

/-! ### Looking at directories -/

section
variable {fs : FileSystem} (htree : fs.tree.wellFormed = true) {root : Path} {node : Node}
  (hroot : fs.stat root = .ok node)

theorem startOf_searchPath (root : Path) (names : List String) :
    fs.startOf (searchPath root names) = fs.startOf root := by
  rw [searchPath]
  split
  · next h => rw [h]; rfl
  · rfl

theorem steps_searchPath (root : Path) (names : List String) :
    steps (searchPath root names) = steps root ++ names := by
  rw [searchPath]
  split
  · next h => subst h; rfl
  · next h =>
      have hpath : Path.mk root.anchor (root.parts ++ names) ≠ ⟨.relative, []⟩ := by
        intro heq
        obtain ⟨hanchor, hparts⟩ := Path.mk.inj heq
        refine h ?_
        rw [← hanchor, ← (List.append_eq_nil_iff.1 hparts).1]
      rw [steps, if_neg hpath, steps, if_neg h]

/-- The root itself is looked at as it is given. -/
theorem follow_searchPath_nil (root : Path) : fs.follow (searchPath root []) = fs.follow root := by
  by_cases h : root = ⟨.relative, []⟩
  · subst h
    rfl
  · rw [searchPath, if_neg h, List.append_nil]

include htree hroot

/-- What lies below the root and is no link is found under its path, unless that is refused. -/
theorem stat_searchPath {names : List String} {found : Node} (hfound : node.at? names = some found)
    (hlink : found.isLink = false) :
    fs.stat (searchPath root names) = .ok found ∨
      ∃ cause, fs.stat (searchPath root names) = .error cause ∧ cause.isRefusal = true := by
  obtain ⟨place, hfollow, hat⟩ := stat_eq_ok_iff.1 hroot
  have hbelow : fs.tree.at? (place ++ names) = some found := by
    rw [Node.at?_append, hat, Option.bind_some, hfound]
  have hnames : ∀ name ∈ names, isEntryName name = true := fun name hname =>
    Node.isEntryName_of_at? htree hbelow name (List.mem_append_right _ hname)
  have hwalk : walk fs.tree fs.process.maySearch maxLinks (fs.startOf root) (steps root) =
      .ok place := by
    rw [follow] at hfollow
    split at hfollow
    · exact absurd hfollow (by simp)
    · exact hfollow
  obtain ⟨fewer, hmore⟩ := walk_append hwalk names
  obtain ⟨expand, hexpand⟩ := exists_descend fs.tree fs.process.maySearch fewer
  have hend : fs.follow (searchPath root names) = .ok (place ++ names) ∨
      ∃ cause, fs.follow (searchPath root names) = .error cause ∧ cause.isRefusal = true := by
    rw [follow]
    split
    · exact Or.inr ⟨.nameTooLong, rfl, rfl⟩
    · rw [startOf_searchPath, steps_searchPath, hmore, hexpand]
      exact descend_of_at? fs.process.maySearch expand place hnames hbelow hlink
  rcases hend with hend | ⟨cause, hend, hcause⟩
  · exact Or.inl (stat_eq_ok_iff.2 ⟨place ++ names, hend, hbelow⟩)
  · exact Or.inr ⟨cause, (stat_eq_refusal_iff hcause).2 hend, hcause⟩

/-- A directory below the root can be listed if what its path leads to may be read. -/
theorem canList_iff {config : ScanConfig} {names : List String} {entries : List (String × Node)}
    (hfound : node.at? names = some (.directory entries)) :
    (fs.searchBelow root config).canList names = true ↔
      fs.isReadable (searchPath root names) = true := by
  rcases stat_searchPath htree hroot hfound rfl with h | ⟨cause, h, hcause⟩
  · simp [searchBelow, leadsToDirectory, h, Node.isDirectory]
  · have hfollow := (stat_eq_refusal_iff hcause).1 h
    simp [searchBelow, leadsToDirectory, h, isReadable, location?, hfollow, Except.toOption]

omit htree in
/-- The root can be listed if it is a directory that may be read. -/
theorem canList_root_iff {config : ScanConfig} :
    (fs.searchBelow root config).canList [] = true ↔
      node.isDirectory = true ∧ fs.isReadable root = true := by
  have hstat : fs.stat (searchPath root []) = .ok node := by
    rw [stat, follow_searchPath_nil]
    exact hroot
  simp [searchBelow, leadsToDirectory, hstat, isReadable, location?, follow_searchPath_nil]

end

/-! ### The files that are selected -/

/-- A search below a root goes through the directories that `directories` lead to from the root, one
below the other, where `node` is the tree below the root. -/
structure Enters (fs : FileSystem) (root : Path) (config : ScanConfig) (node : Node)
    (directories : List String) : Prop where
  /-- The root may be listed. -/
  root_readable : fs.isReadable root = true
  /-- All others are directories themselves and not left out; each of them can be looked up under
  its path, and it may be listed. -/
  way : ∀ before directory after, directories = before ++ directory :: after →
    (∃ entries, node.at? (before ++ [directory]) = some (.directory entries)) ∧
      config.Admits directory ∧ fs.isReadable (searchPath root (before ++ [directory])) = true

/-- What a search below a root is to list: the entry `name` of the directory that `directories` lead
to from the root. -/
structure Selects (fs : FileSystem) (root : Path) (config : ScanConfig) (node : Node)
    (directories : List String) (name : String) : Prop where
  /-- The search goes through all directories on the way. -/
  enters : fs.Enters root config node directories
  /-- The entry is a file, or a link that does not lead to a directory. -/
  entry : (∃ content, node.at? (directories ++ [name]) = some (.file content)) ∨
    ∃ target, node.at? (directories ++ [name]) = some (.link target) ∧
      ∀ entries, fs.stat (searchPath root (directories ++ [name])) ≠ .ok (.directory entries)
  /-- Its suffix is one of those of the settings; case does not matter. -/
  suffix : ∃ extension ∈ config.extensions,
    lowerPoints extension = CodePoint.ofText (lower (Path.suffixOf name.toList))

/-- Directories are nested too deep for a search: it goes through as many as it can, and it turns to
one more, or to a link that leads to one. -/
def NestsTooDeep (fs : FileSystem) (root : Path) (config : ScanConfig) (node : Node) : Prop :=
  ∃ directories name, fs.process.directoryDepth ≤ directories.length ∧
    fs.Enters root config node directories ∧ config.Admits name ∧
    ((∃ entries, node.at? (directories ++ [name]) = some (.directory entries)) ∨
      ∃ target entries, node.at? (directories ++ [name]) = some (.link target) ∧
        fs.stat (searchPath root (directories ++ [name])) = .ok (.directory entries))

section
variable {fs : FileSystem} (htree : fs.tree.wellFormed = true) {root : Path} {node : Node}
  (hroot : fs.stat root = .ok node) {config : ScanConfig}

/-- Whether names lead to a directory, as a search looks at them. -/
theorem leadsToDirectory_iff {path : Path} :
    fs.leadsToDirectory path = true ↔ ∃ entries, fs.stat path = .ok (.directory entries) := by
  rw [leadsToDirectory]
  split
  · next found hstat => cases found <;> simp [hstat, Node.isDirectory]
  · next cause hstat => simp [hstat]

include htree hroot

/-- The directories that a search goes through, by the settings and the tree. -/
theorem goesThrough_iff {directories : List String} {name : String} {found : Node}
    (hfound : node.at? (directories ++ [name]) = some found)
    (hreadable : fs.isReadable root = true) :
    GoesThrough (fs.searchBelow root config) [] directories ↔
      fs.Enters root config node directories := by
  have hdirectory {before after : List String} {directory : String}
      (heq : directories = before ++ directory :: after) :
      ∃ entries, node.at? (before ++ [directory]) = some (.directory entries) := by
    subst heq
    cases after with
    | nil => exact exists_directory_of_at? hfound
    | cons next after =>
        rw [show before ++ directory :: next :: after ++ [name] =
          (before ++ [directory]) ++ next :: (after ++ [name]) by simp] at hfound
        exact exists_directory_of_at? hfound
  constructor
  · intro h
    refine ⟨hreadable, fun before directory after heq => ?_⟩
    obtain ⟨henters, hlists⟩ := h before directory after heq
    obtain ⟨entries, hentries⟩ := hdirectory heq
    exact ⟨⟨entries, hentries⟩, Selection.entersDirectory_ofConfig_iff.1 henters,
      (canList_iff htree hroot hentries).1 hlists⟩
  · intro h before directory after heq
    obtain ⟨⟨entries, hentries⟩, hadmits, hlists⟩ := h.way before directory after heq
    exact ⟨Selection.entersDirectory_ofConfig_iff.2 hadmits,
      (canList_iff htree hroot hentries).2 hlists⟩

/-- A search goes too deep if directories are nested too deep for it. -/
theorem lt_nesting_iff_nestsTooDeep (hreadable : fs.isReadable root = true) :
    fs.process.directoryDepth < nesting (fs.searchBelow root config) [] node ↔
      fs.NestsTooDeep root config node := by
  rw [lt_nesting_iff (wellFormed_of_stat htree hroot)]
  constructor
  · rintro ⟨directories, name, found, hlength, hthrough, hfound, henters, hkind⟩
    refine ⟨directories, name, hlength, (goesThrough_iff htree hroot hfound hreadable).1 hthrough,
      Selection.entersDirectory_ofConfig_iff.1 henters, ?_⟩
    rcases hkind with hkind | ⟨hlink, hdirectory⟩
    · cases found with
      | directory entries => exact Or.inl ⟨entries, hfound⟩
      | file content => exact absurd hkind (by simp [Node.isDirectory])
      | link target => exact absurd hkind (by simp [Node.isDirectory])
    · cases found with
      | link target =>
          obtain ⟨entries, hstat⟩ := leadsToDirectory_iff.1 hdirectory
          exact Or.inr ⟨target, entries, hfound, hstat⟩
      | file content => exact absurd hlink (by simp [Node.isLink])
      | directory entries => exact absurd hlink (by simp [Node.isLink])
  · rintro ⟨directories, name, hlength, hway, hadmits, hkind⟩
    have henters := Selection.entersDirectory_ofConfig_iff.2 hadmits
    rcases hkind with ⟨entries, hfound⟩ | ⟨target, entries, hfound, hstat⟩
    · exact ⟨directories, name, _, hlength, (goesThrough_iff htree hroot hfound hreadable).2 hway,
        hfound, henters, Or.inl rfl⟩
    · exact ⟨directories, name, _, hlength, (goesThrough_iff htree hroot hfound hreadable).2 hway,
        hfound, henters, Or.inr ⟨rfl, leadsToDirectory_iff.2 ⟨entries, hstat⟩⟩⟩

variable (config) in
/-- A search below a root fails exactly if directories are nested too deep for it. -/
theorem sourceFiles_cases :
    (fs.NestsTooDeep root config node ∧ fs.sourceFiles root config = .error .tooDeep) ∨
      (¬ fs.NestsTooDeep root config node ∧ ∃ files, fs.sourceFiles root config = .ok files) := by
  simp only [sourceFiles, hasNull_of_stat htree hroot, hroot, Bool.false_eq_true, if_false]
  by_cases hlist : (fs.searchBelow root config).canList [] = true
  · have hreadable := ((canList_root_iff hroot).1 hlist).2
    rw [hlist, ← lt_nesting_iff_nestsTooDeep htree hroot hreadable]
    by_cases hdeep : fs.process.directoryDepth < nesting (fs.searchBelow root config) [] node
    · exact Or.inl ⟨hdeep, by simp [hdeep]⟩
    · exact Or.inr ⟨hdeep, _, by rw [Bool.not_true, if_neg (by simp), if_neg hdeep]⟩
  · refine Or.inr ⟨?_, [], by simp [hlist]⟩
    rintro ⟨directories, name, -, henters, -, hkind⟩
    have hnode : node.isDirectory = true := by
      rcases hkind with ⟨entries, hfound⟩ | ⟨target, entries, hfound, -⟩
      · exact isDirectory_of_at? hfound (by simp)
      · exact isDirectory_of_at? hfound (by simp)
    exact hlist ((canList_root_iff hroot).2 ⟨hnode, henters.root_readable⟩)

end

/-! ### Trees of the same shape -/

section
variable {fs gs : FileSystem} (h : fs.SameShape gs) {root : Path} {config : ScanConfig}
  {node node' : Node} (hnode : node.SameShape node')

include h

/-- A path leads to a directory of the one tree if it leads to one of the other. -/
theorem SameShape.stat_directory {path : Path} {entries : List (String × Node)}
    (hstat : gs.stat path = .ok (.directory entries)) :
    ∃ entries', fs.stat path = .ok (.directory entries') := by
  rcases h.stat_cases path with ⟨cause, -, hgs⟩ | ⟨a, b, hfs, hgs, hshape⟩
  · exact absurd (hgs.symm.trans hstat) (by simp)
  · obtain rfl := Except.ok.inj (hgs.symm.trans hstat)
    obtain ⟨entries', rfl⟩ := Node.kind_eq_directory_iff.1 hshape.kind_eq
    exact ⟨entries', hfs⟩

include hnode

theorem Enters.of_sameShape {directories : List String}
    (henters : fs.Enters root config node directories) :
    gs.Enters root config node' directories := by
  refine ⟨h.isReadable_eq root ▸ henters.root_readable, fun before directory after heq => ?_⟩
  obtain ⟨⟨entries, hentries⟩, hadmits, hlists⟩ := henters.way before directory after heq
  exact ⟨hnode.at?_eq_directory hentries, hadmits, h.isReadable_eq _ ▸ hlists⟩

theorem Selects.of_sameShape {directories : List String} {name : String}
    (hselects : fs.Selects root config node directories name) :
    gs.Selects root config node' directories name := by
  refine ⟨hselects.enters.of_sameShape h hnode, ?_, hselects.suffix⟩
  rcases hselects.entry with ⟨content, hfile⟩ | ⟨target, hlink, hnot⟩
  · exact Or.inl (hnode.at?_eq_file hfile)
  · refine Or.inr ⟨target, hnode.at?_eq_link hlink, fun entries hstat => ?_⟩
    obtain ⟨entries', hstat'⟩ := h.stat_directory hstat
    exact hnot entries' hstat'

theorem NestsTooDeep.of_sameShape (hdeep : fs.NestsTooDeep root config node) :
    gs.NestsTooDeep root config node' := by
  obtain ⟨directories, name, hlength, henters, hadmits, hkind⟩ := hdeep
  refine ⟨directories, name, h.process ▸ hlength, henters.of_sameShape h hnode, hadmits, ?_⟩
  rcases hkind with ⟨entries, hfound⟩ | ⟨target, entries, hfound, hstat⟩
  · exact Or.inl (hnode.at?_eq_directory hfound)
  · obtain ⟨entries', hstat'⟩ := h.symm.stat_directory hstat
    exact Or.inr ⟨target, entries', hnode.at?_eq_link hfound, hstat'⟩

end

end FileSystem

end SourceOutline
