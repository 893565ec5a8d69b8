/-
**What does not depend on contents and listings.**

Two trees have the same shape if the same names lead to entries of the same kind in both: a file, a
link with a given target, or a directory.  What files hold and in which order directories list their
entries makes no difference.  Paths are followed and resolved by the shape of a tree alone, so they
lead to the same places in trees of the same shape.

Main definitions:

* `FileSystem.Node.Kind`, `FileSystem.Node.SameShape` — kinds of entries, and trees of one shape;
* `FileSystem.Node.Reordered` — a tree whose directories list their entries in other orders;
* `FileSystem.SameShape` — file systems of one shape.

Main results:

* `FileSystem.Node.Reordered.sameShape`, `FileSystem.Node.sameShape_put` — listing entries in
  another order keeps the shape, and so does writing a file anew;
* `FileSystem.walk_congr`, `FileSystem.SameShape.stat_cases` — **paths lead to the same places**;
* `FileSystem.SameShape.resolve_eq`, `FileSystem.SameShape.relativePath_eq`,
  `FileSystem.SameShape.repositoryRoot_eq` — and are resolved to the same paths.
-/

import SourceOutline.Proofs.PathFollowing
import SourceOutline.Repository

set_option autoImplicit false

namespace SourceOutline.FileSystem

namespace Node

/-! ### Shapes -/

/-- What an entry is, whatever it holds. -/
inductive Kind where
  | file
  | link (target : String)
  | directory
  deriving DecidableEq

/-- The kind of a node. -/
def kind : Node → Kind
  | file _ => .file
  | link target => .link target
  | directory _ => .directory

/-- The same names lead to entries of the same kind. -/
def SameShape (a b : Node) : Prop :=
  ∀ names, (a.at? names).map kind = (b.at? names).map kind

theorem kind_eq_file_iff {node : Node} : node.kind = .file ↔ ∃ content, node = file content := by
  cases node <;> simp [kind]

theorem kind_eq_link_iff {node : Node} {target : String} :
    node.kind = .link target ↔ node = link target := by
  cases node <;> simp [kind]

theorem kind_eq_directory_iff {node : Node} :
    node.kind = .directory ↔ ∃ entries, node = directory entries := by
  cases node <;> simp [kind]

theorem isFile_eq (node : Node) : node.isFile = decide (node.kind = .file) := by
  cases node <;> rfl

namespace SameShape

theorem refl (a : Node) : SameShape a a := fun _ => rfl

theorem symm {a b : Node} (h : SameShape a b) : SameShape b a := fun names => (h names).symm

theorem trans {a b c : Node} (h : SameShape a b) (h' : SameShape b c) : SameShape a c :=
  fun names => (h names).trans (h' names)

theorem kind_eq {a b : Node} (h : SameShape a b) : a.kind = b.kind :=
  Option.some.inj (h [])

/-- What is at a place of one tree is in the other, with the same shape. -/
theorem exists_at? {a b found : Node} (h : SameShape a b) {names : List String}
    (hfound : a.at? names = some found) :
    ∃ other, b.at? names = some other ∧ SameShape found other := by
  have hnames := h names
  rw [hfound, Option.map_some, eq_comm, Option.map_eq_some_iff] at hnames
  obtain ⟨other, hother, -⟩ := hnames
  refine ⟨other, hother, fun more => ?_⟩
  have hmore := h (names ++ more)
  rwa [at?_append, at?_append, hfound, hother] at hmore

theorem at?_eq_none {a b : Node} (h : SameShape a b) {names : List String}
    (hnone : a.at? names = none) : b.at? names = none := by
  have hnames := h names
  rwa [hnone, Option.map_none, eq_comm, Option.map_eq_none_iff] at hnames

theorem at?_eq_link {a b : Node} (h : SameShape a b) {names : List String} {target : String}
    (hlink : a.at? names = some (link target)) : b.at? names = some (link target) := by
  obtain ⟨other, hother, hshape⟩ := h.exists_at? hlink
  rw [hother, kind_eq_link_iff.1 hshape.kind_eq.symm]

theorem at?_eq_file {a b : Node} (h : SameShape a b) {names : List String} {content : List UInt8}
    (hfile : a.at? names = some (file content)) : ∃ content', b.at? names = some (file content') := by
  obtain ⟨other, hother, hshape⟩ := h.exists_at? hfile
  obtain ⟨content', rfl⟩ := kind_eq_file_iff.1 hshape.kind_eq.symm
  exact ⟨content', hother⟩

theorem at?_eq_directory {a b : Node} (h : SameShape a b) {names : List String}
    {entries : List (String × Node)} (hdirectory : a.at? names = some (directory entries)) :
    ∃ entries', b.at? names = some (directory entries') := by
  obtain ⟨other, hother, hshape⟩ := h.exists_at? hdirectory
  obtain ⟨entries', rfl⟩ := kind_eq_directory_iff.1 hshape.kind_eq.symm
  exact ⟨entries', hother⟩

end SameShape

/-- Directories have the same shape if their entries do. -/
theorem sameShape_directory {entries entries' : List (String × Node)}
    (h : ∀ name names, ((lookup name entries).bind (·.at? names)).map kind =
      ((lookup name entries').bind (·.at? names)).map kind) :
    SameShape (directory entries) (directory entries') := by
  intro names
  cases names with
  | nil => rfl
  | cons name rest => exact h name rest

/-! ### Listing entries in another order -/

/-- The directories of the second tree list the entries of the first, in any order. -/
inductive Reordered : Node → Node → Prop where
  | refl (node : Node) : Reordered node node
  | trans {a b c : Node} (h : Reordered a b) (h' : Reordered b c) : Reordered a c
  | list {entries entries' : List (String × Node)} (h : entries.Perm entries') :
      Reordered (directory entries) (directory entries')
  | inside {node node' : Node} (before after : List (String × Node)) (name : String)
      (h : Reordered node node') :
      Reordered (directory (before ++ (name, node) :: after))
        (directory (before ++ (name, node') :: after))

theorem lookup_eq_none_iff {name : String} {entries : List (String × Node)} :
    lookup name entries = none ↔ ∀ entry ∈ entries, entry.1 ≠ name := by
  induction entries with
  | nil => simp [lookup]
  | cons entry rest ih =>
      obtain ⟨key, node⟩ := entry
      rw [lookup, List.forall_mem_cons, ← ih]
      by_cases hkey : key = name <;> simp [hkey]

/-- Entries are well formed if all of them have names that entries can have, each of its own. -/
theorem wellFormedEntries_iff {entries : List (String × Node)} :
    wellFormedEntries entries = true ↔
      (∀ entry ∈ entries, isEntryName entry.1 = true ∧ entry.2.wellFormed = true) ∧
        entries.Pairwise fun e f => f.1 ≠ e.1 := by
  induction entries with
  | nil => simp [wellFormedEntries]
  | cons entry rest ih =>
      obtain ⟨key, node⟩ := entry
      simp only [wellFormedEntries, Bool.and_eq_true, Option.isNone_iff_eq_none,
        lookup_eq_none_iff, ih, List.forall_mem_cons, List.pairwise_cons]
      constructor
      · rintro ⟨⟨⟨hkey, hother⟩, hnode⟩, hall, hpairs⟩
        exact ⟨⟨⟨hkey, hnode⟩, hall⟩, hother, hpairs⟩
      · rintro ⟨⟨⟨hkey, hnode⟩, hall⟩, hother, hpairs⟩
        exact ⟨⟨⟨hkey, hother⟩, hnode⟩, hall, hpairs⟩

/-- Among entries with names of their own, each is found under its name. -/
theorem lookup_eq_some_iff {name : String} {node : Node} {entries : List (String × Node)}
    (hentries : entries.Pairwise fun e f => f.1 ≠ e.1) :
    lookup name entries = some node ↔ (name, node) ∈ entries := by
  induction entries with
  | nil => simp [lookup]
  | cons entry rest ih =>
      obtain ⟨key, first⟩ := entry
      obtain ⟨hkey, hrest⟩ := List.pairwise_cons.1 hentries
      rw [lookup, List.mem_cons, Prod.mk.injEq]
      by_cases hname : key = name
      · subst hname
        have hnot : (key, node) ∉ rest := fun hmem => hkey _ hmem rfl
        simp [hnot, eq_comm]
      · rw [if_neg (by simpa using hname), ih hrest]
        simp [Ne.symm hname]

namespace Reordered

theorem wellFormed {a b : Node} (h : Reordered a b) (ha : a.wellFormed = true) :
    b.wellFormed = true := by
  induction h with
  | refl node => exact ha
  | trans _ _ ih ih' => exact ih' (ih ha)
  | list h =>
      obtain ⟨hnames, hpairs⟩ := wellFormedEntries_iff.1 ha
      refine wellFormedEntries_iff.2 ⟨fun entry hentry => hnames entry (h.mem_iff.2 hentry), ?_⟩
      exact (h.pairwise_iff (fun hne => hne.symm)).1 hpairs
  | inside before after name _ ih =>
      obtain ⟨hnames, hpairs⟩ := wellFormedEntries_iff.1 ha
      refine wellFormedEntries_iff.2 ⟨?_, ?_⟩
      · simp only [List.forall_mem_append, List.forall_mem_cons] at hnames ⊢
        exact ⟨hnames.1, ⟨hnames.2.1.1, ih hnames.2.1.2⟩, hnames.2.2⟩
      · simpa only [List.pairwise_append, List.pairwise_cons, List.mem_cons, forall_eq_or_imp]
          using hpairs

end Reordered

/-! ### Writing a file anew -/

theorem lookup_replace (name key : String) (node : Node) (entries : List (String × Node)) :
    lookup name (replace key node entries) =
      if key == name then some node else lookup name entries := by
  induction entries with
  | nil => rfl
  | cons entry rest ih =>
      obtain ⟨first, old⟩ := entry
      rw [replace]
      by_cases hkey : first = key
      · subst hkey
        simp only [beq_self_eq_true, if_true, lookup]
        split <;> rfl
      · rw [if_neg (by simpa using hkey), lookup, ih, lookup]
        by_cases hname : first = name
        · subst hname
          simp [Ne.symm hkey]
        · simp [hname]

section
variable {tree : Node} {place : List String} {old : List UInt8}
  (h : tree.at? place = some (file old)) (new : List UInt8)

include h

/-- The directory around a file, and the entry on the way to it. -/
theorem exists_entry_of_at? {name : String} {rest : List String} (hplace : place = name :: rest) :
    ∃ entries below, tree = directory entries ∧ lookup name entries = some below ∧
      below.at? rest = some (file old) := by
  subst hplace
  rw [at?_cons, Option.bind_eq_some_iff] at h
  obtain ⟨below, hbelow, h⟩ := h
  cases tree with
  | file content => exact absurd hbelow (by simp [child?])
  | link target => exact absurd hbelow (by simp [child?])
  | directory entries => exact ⟨entries, below, rfl, hbelow, h⟩

/-- **Writing a file anew does not change the shape.** -/
theorem sameShape_put : SameShape tree (tree.put place (file new)) := by
  induction place generalizing tree with
  | nil =>
      obtain rfl := Option.some.inj h
      intro names
      cases names <;> rfl
  | cons name rest ih =>
      obtain ⟨entries, below, rfl, hbelow, hfile⟩ := exists_entry_of_at? h rfl
      simp only [put, hbelow, Option.getD_some]
      refine sameShape_directory fun key names => ?_
      rw [lookup_replace]
      split
      · next hkey =>
          obtain rfl := beq_iff_eq.1 hkey
          rw [hbelow, Option.bind_some, Option.bind_some]
          exact ih hfile names
      · rfl

theorem at?_put : (tree.put place (file new)).at? place = some (file new) := by
  induction place generalizing tree with
  | nil =>
      obtain rfl := Option.some.inj h
      rfl
  | cons name rest ih =>
      obtain ⟨entries, below, rfl, hbelow, hfile⟩ := exists_entry_of_at? h rfl
      simp only [put, hbelow, Option.getD_some, at?_cons, child?, lookup_replace, beq_self_eq_true,
        if_true, Option.bind_some]
      exact ih hfile

end

end Node

/-! ### Following paths -/

theorem descend_congr {a b : Node} (h : a.SameShape b) (maySearch : List String → Bool)
    (expand : List String → List String → Except Cause (List String)) (here names : List String) :
    descend a maySearch expand here names = descend b maySearch expand here names := by
  induction names generalizing here with
  | nil => rfl
  | cons name rest ih =>
      by_cases hdirectory : ∃ entries, a.at? here = some (.directory entries)
      · obtain ⟨entries, hhere⟩ := hdirectory
        obtain ⟨entries', hhere'⟩ := h.at?_eq_directory hhere
        cases hsearch : maySearch here with
        | false => rw [descend_denied hhere hsearch, descend_denied hhere' hsearch]
        | true =>
            by_cases hdot : name = "."
            · subst hdot
              rw [(descend_dots hhere hsearch rest).1, (descend_dots hhere' hsearch rest).1, ih]
            by_cases hup : name = ".."
            · subst hup
              rw [(descend_dots hhere hsearch rest).2, (descend_dots hhere' hsearch rest).2, ih]
            rw [descend_cons hhere hsearch hdot hup, descend_cons hhere' hsearch hdot hup]
            split
            · rfl
            · cases hnext : a.at? (here ++ [name]) with
              | none => rw [h.at?_eq_none hnext]
              | some next =>
                  cases next with
                  | link target => rw [h.at?_eq_link hnext]
                  | file content =>
                      obtain ⟨content', hnext'⟩ := h.at?_eq_file hnext
                      rw [hnext']
                      exact ih _
                  | directory below =>
                      obtain ⟨below', hnext'⟩ := h.at?_eq_directory hnext
                      rw [hnext']
                      exact ih _
      · have hdirectory' : ¬ ∃ entries, b.at? here = some (.directory entries) := by
          rintro ⟨entries, hhere⟩
          exact hdirectory (h.symm.at?_eq_directory hhere)
        rw [descend_notDirectory (not_exists.1 hdirectory),
          descend_notDirectory (not_exists.1 hdirectory')]

/-- **Names lead to the same places** in trees of the same shape. -/
theorem walk_congr {a b : Node} (h : a.SameShape b) (maySearch : List String → Bool)
    (links : Nat) : walk a maySearch links = walk b maySearch links := by
  induction links with
  | zero =>
      funext here names
      exact descend_congr h _ _ here names
  | succ links ih =>
      funext here names
      rw [walk, walk, ih]
      exact descend_congr h _ _ here names

/-- The same process in the same working directory, and trees of the same shape. -/
structure SameShape (fs gs : FileSystem) : Prop where
  tree : fs.tree.SameShape gs.tree
  workingDirectory : fs.workingDirectory = gs.workingDirectory
  process : fs.process = gs.process

namespace SameShape

variable {fs gs : FileSystem}

theorem symm (h : fs.SameShape gs) : gs.SameShape fs :=
  ⟨h.tree.symm, h.workingDirectory.symm, h.process.symm⟩

variable (h : fs.SameShape gs)

include h

theorem startOf_eq (path : Path) : fs.startOf path = gs.startOf path := by
  rw [startOf, startOf, h.workingDirectory]

theorem follow_eq (path : Path) : fs.follow path = gs.follow path := by
  rw [follow, follow, walk_congr h.tree, h.startOf_eq, h.process]

theorem location?_eq (path : Path) : fs.location? path = gs.location? path := by
  rw [location?, location?, h.follow_eq]

theorem isReadable_eq (path : Path) : fs.isReadable path = gs.isReadable path := by
  rw [isReadable, isReadable, h.location?_eq, h.process]

/-- **A path leads to nodes of the same shape**, or fails for the same cause. -/
theorem stat_cases (path : Path) :
    (∃ cause, fs.stat path = .error cause ∧ gs.stat path = .error cause) ∨
      ∃ a b, fs.stat path = .ok a ∧ gs.stat path = .ok b ∧ a.SameShape b := by
  rw [stat, stat, h.follow_eq]
  cases gs.follow path with
  | error cause => exact Or.inl ⟨cause, rfl, rfl⟩
  | ok place =>
      simp only [bind, Except.bind]
      cases hplace : fs.tree.at? place with
      | none =>
          rw [h.tree.at?_eq_none hplace]
          exact Or.inl ⟨_, rfl, rfl⟩
      | some node =>
          obtain ⟨other, hother, hshape⟩ := h.tree.exists_at? hplace
          rw [hother]
          exact Or.inr ⟨node, other, rfl, rfl, hshape⟩

/-- A test that looks at the kind only gives the same answer. -/
theorem leadsTo_eq {test : Node → Bool} (htest : ∀ {a b : Node}, a.kind = b.kind → test a = test b)
    (path : Path) : fs.leadsTo test path = gs.leadsTo test path := by
  rw [leadsTo, leadsTo]
  rcases h.stat_cases path with ⟨cause, hfs, hgs⟩ | ⟨a, b, hfs, hgs, hshape⟩
  · rw [hfs, hgs]
  · rw [hfs, hgs]
    simp only [htest hshape.kind_eq]

theorem exists?_eq (path : Path) : fs.exists? path = gs.exists? path :=
  h.leadsTo_eq (fun _ => rfl) path

theorem isFile?_eq (path : Path) : fs.isFile? path = gs.isFile? path :=
  h.leadsTo_eq (fun hkind => by rw [Node.isFile_eq, Node.isFile_eq, hkind]) path

/-! ### Resolving paths -/

theorem absoluteNames_eq (path : Path) : fs.absoluteNames path = gs.absoluteNames path := by
  rw [absoluteNames, absoluteNames, h.startOf_eq]

theorem linkOf?_eq (path : Path) : fs.linkOf? path = gs.linkOf? path := by
  rw [linkOf?, linkOf?, h.absoluteNames_eq]
  split
  · next target hlink => rw [h.tree.at?_eq_link hlink]
  · next hnot =>
      split
      · next target hlink => exact absurd (h.symm.tree.at?_eq_link hlink) (hnot target)
      · rfl

theorem canLookUp_eq (path : Path) : fs.canLookUp path = gs.canLookUp path := by
  simp only [canLookUp, h.absoluteNames_eq, h.process]

theorem linkAt?_eq : fs.linkAt? = gs.linkAt? := by
  funext path
  rw [linkAt?, linkAt?, h.canLookUp_eq, h.linkOf?_eq]

theorem resolve_eq (path : Path) : fs.resolve path = gs.resolve path := by
  have hresolved : fs.resolvedPath? path = gs.resolvedPath? path := by
    simp only [resolvedPath?, h.linkAt?_eq, h.absoluteNames_eq, h.process]
  rw [resolve, resolve, hresolved]
  split
  · rfl
  · split
    · rfl
    · next absolute _ =>
        rcases h.stat_cases absolute with ⟨cause, hfs, hgs⟩ | ⟨a, b, hfs, hgs, -⟩
        · rw [hfs, hgs]
        · rw [hfs, hgs]

theorem relativePath_eq (file root : Path) :
    fs.relativePath file root = gs.relativePath file root := by
  simp only [relativePath, resolved, h.resolve_eq]

theorem firstWithGit_eq (paths : List Path) : fs.firstWithGit paths = gs.firstWithGit paths := by
  induction paths with
  | nil => rfl
  | cons path rest ih => simp only [firstWithGit, h.exists?_eq, ih]

theorem repositoryRoot_eq (start : Path) : fs.repositoryRoot start = gs.repositoryRoot start := by
  simp only [repositoryRoot, resolved, h.resolve_eq, h.isFile?_eq, h.firstWithGit_eq]

end SameShape

end SourceOutline.FileSystem
