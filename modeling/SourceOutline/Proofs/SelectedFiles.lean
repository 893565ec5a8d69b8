/-
**The files that a search goes through.**

A search enters the directories of a tree that it may enter and lists the files and links in them
that it is to list.  Each of them is found once, under the names that lead to it, and the paths come
in the order of their components.

Main definitions:

* `FileSystem.Reaches` — a search goes from an entry on to one behind it;
* `FileSystem.ListsEntry`, `FileSystem.TurnsTo` — what a search lists, and the directories that it
  turns to.

Main results:

* `Path.precedes_iff` — paths are compared as lists of components;
* `FileSystem.mem_selectedEntries_iff`, `FileSystem.nodup_selectedEntries` — what is found among
  entries, and that it is found once;
* `FileSystem.lt_nestingEntries_iff` — how deep a search goes;
* `FileSystem.names_of_mem_sourceFiles` — every path that is listed leads from the root to a file or
  a link;
* `FileSystem.pairwise_sourceFiles` — **the paths come in order**.
-/

import SourceOutline.Proofs.PathFollowing
import SourceOutline.Repository
import Mathlib.Data.List.Lex
import Mathlib.Data.String.Basic

set_option autoImplicit false

namespace SourceOutline

/-! ### The order of paths -/

theorem Path.textBefore_iff {a b : String} : textBefore a b = true ↔ a < b := by
  rw [textBefore, List.lex_eq_true_iff_lex]
  simp only [decide_eq_true_eq]
  exact Iff.rfl

/-- Paths are compared as lists of components. -/
theorem Path.precedes_iff {a b : Path} : a.precedes b = true ↔ a.parts ≤ b.parts := by
  rw [precedes, Bool.not_eq_true', ← Bool.not_eq_true, List.lex_eq_true_iff_lex]
  simp only [textBefore_iff]
  exact not_lt (α := List String)

namespace FileSystem

/-! ### Searching a tree -/

namespace Node

theorem wellFormed_of_at? {node found : Node} {names : List String}
    (hnode : node.wellFormed = true) (h : node.at? names = some found) :
    found.wellFormed = true := by
  induction names generalizing node with
  | nil => exact Option.some.inj h ▸ hnode
  | cons name rest ih =>
      rw [at?_cons, Option.bind_eq_some_iff] at h
      obtain ⟨next, hnext, h⟩ := h
      cases node with
      | file content => exact absurd hnext (by simp [child?])
      | link target => exact absurd hnext (by simp [child?])
      | directory entries => exact ih (wellFormed_of_lookup hnext hnode).2 h

/-- What a name leads to among entries, of which the first may be meant. -/
theorem lookup_cons_iff {key : String} {first : Node} {rest : List (String × Node)}
    (h : wellFormedEntries ((key, first) :: rest) = true) :
    first.wellFormed = true ∧ wellFormedEntries rest = true ∧
      ∀ {name : String} {node : Node}, lookup name ((key, first) :: rest) = some node ↔
        name = key ∧ node = first ∨ lookup name rest = some node := by
  simp only [wellFormedEntries, Bool.and_eq_true, Option.isNone_iff_eq_none] at h
  obtain ⟨⟨⟨-, hkey⟩, hfirst⟩, hrest⟩ := h
  refine ⟨hfirst, hrest, fun {name node} => ?_⟩
  rw [lookup]
  by_cases hname : key = name
  · subst hname
    simp [hkey, eq_comm]
  · simp [hname, Ne.symm hname]

end Node

section
variable (search : Search)

/-- What a search finds at one entry. -/
def selectedAt (above : List String) (name : String) : Node → List (List String)
  | .directory entries =>
    if search.entersDirectory name && search.canList (above ++ [name]) then
      selectedEntries search (above ++ [name]) entries
    else []
  | .link _ =>
    if search.isDirectory (above ++ [name]) then []
    else if search.listsFile name then [above ++ [name]] else []
  | .file _ => if search.listsFile name then [above ++ [name]] else []

theorem selectedEntries_cons (above : List String) (name : String) (node : Node)
    (rest : List (String × Node)) :
    selectedEntries search above ((name, node) :: rest) =
      selectedAt search above name node ++ selectedEntries search above rest := by
  rw [selectedEntries.eq_def]
  cases node <;> rfl

/-- What a search finds at a file or a link is the entry itself. -/
theorem selectedAt_of_isDirectory (above : List String) (name : String) (node : Node)
    (hnode : node.isDirectory = false) :
    selectedAt search above name node = [] ∨
      selectedAt search above name node = [above ++ [name]] := by
  cases node with
  | directory entries => exact absurd hnode (by simp [Node.isDirectory])
  | file content =>
      simp only [selectedAt]
      split <;> simp
  | link target =>
      simp only [selectedAt]
      split
      · simp
      · split <;> simp

/-! ### Going through directories -/

/-- A search goes from an entry, which has the name `name` in the directory that `above` leads to,
on to what `below` leads to: it enters the entry and all directories behind it, and what stands at
the end is of a given kind. -/
def Reaches (kind : List String → String → Node → Prop) :
    (above : List String) → (name : String) → (node : Node) → (below : List String) → Prop
  | above, name, node, [] => kind above name node
  | above, name, node, next :: below =>
    search.entersDirectory name = true ∧ search.canList (above ++ [name]) = true ∧
      ∃ found, node.child? next = some found ∧ Reaches kind (above ++ [name]) next found below

/-- A search lists an entry: a file, or a link that does not lead to a directory. -/
def ListsEntry (above : List String) (name : String) (node : Node) : Prop :=
  search.listsFile name = true ∧ node.isDirectory = false ∧
    (node.isLink = true → search.isDirectory (above ++ [name]) = false)

/-- A search turns to an entry: a directory, or a link that leads to one. -/
def TurnsTo (above : List String) (name : String) (node : Node) : Prop :=
  search.entersDirectory name = true ∧
    (node.isDirectory = true ∨ node.isLink = true ∧ search.isDirectory (above ++ [name]) = true)

/-- Nothing is behind a file or a link. -/
theorem reaches_iff_of_isDirectory {kind : List String → String → Node → Prop} {node : Node}
    (hnode : node.isDirectory = false) (above : List String) (name : String)
    (below : List String) :
    Reaches search kind above name node below ↔ below = [] ∧ kind above name node := by
  cases below with
  | nil => exact ⟨fun h => ⟨rfl, h⟩, And.right⟩
  | cons next below =>
      refine ⟨?_, fun h => absurd h.1 (by simp)⟩
      rintro ⟨-, -, found, hchild, -⟩
      cases node with
      | directory entries => exact absurd hnode (by simp [Node.isDirectory])
      | file content => exact absurd hchild (by simp [Node.child?])
      | link target => exact absurd hchild (by simp [Node.child?])

/-! ### What is found -/

/-- A file or a link is found under its own name only. -/
theorem mem_selectedAt_iff_of_isDirectory {node : Node} (hnode : node.isDirectory = false)
    (name : String) (above names : List String) :
    names ∈ selectedAt search above name node ↔
      ∃ below, names = above ++ name :: below ∧
        Reaches search (ListsEntry search) above name node below := by
  have hself : names ∈ selectedAt search above name node ↔
      names = above ++ [name] ∧ ListsEntry search above name node := by
    cases node with
    | directory entries => exact absurd hnode (by simp [Node.isDirectory])
    | file content =>
        simp only [selectedAt, ListsEntry, Node.isLink]
        split <;> simp_all
    | link target =>
        simp only [selectedAt, ListsEntry, Node.isLink]
        split
        · simp_all
        · split <;> simp_all
  simp only [hself, reaches_iff_of_isDirectory search hnode]
  constructor
  · rintro ⟨rfl, hlisted⟩
    exact ⟨[], rfl, rfl, hlisted⟩
  · rintro ⟨below, rfl, rfl, hlisted⟩
    exact ⟨rfl, hlisted⟩

mutual

/-- **What a search finds at an entry** is what it lists from there. -/
theorem mem_selectedAt_iff : ∀ (node : Node) (name : String) (above : List String),
    node.wellFormed = true → ∀ names, names ∈ selectedAt search above name node ↔
      ∃ below, names = above ++ name :: below ∧
        Reaches search (ListsEntry search) above name node below
  | .file content, name, above, _, names =>
      mem_selectedAt_iff_of_isDirectory search rfl name above names
  | .link target, name, above, _, names =>
      mem_selectedAt_iff_of_isDirectory search rfl name above names
  | .directory entries, name, above, hnode, names => by
      have hentries := mem_selectedEntries_iff entries (above ++ [name]) hnode names
      by_cases henters : (search.entersDirectory name && search.canList (above ++ [name])) = true
      · rw [selectedAt, if_pos henters, hentries]
        rw [Bool.and_eq_true] at henters
        constructor
        · rintro ⟨next, found, below, rfl, hfound, hlisted⟩
          exact ⟨next :: below, by simp, henters.1, henters.2, found, hfound, hlisted⟩
        · rintro ⟨below, rfl, hlisted⟩
          cases below with
          | nil => exact absurd hlisted.2.1 (by simp [Node.isDirectory])
          | cons next below =>
              obtain ⟨-, -, found, hfound, hlisted⟩ := hlisted
              exact ⟨next, found, below, by simp, hfound, hlisted⟩
      · rw [selectedAt, if_neg henters]
        refine ⟨fun h => absurd h List.not_mem_nil, ?_⟩
        rintro ⟨below, rfl, hlisted⟩
        cases below with
        | nil => exact absurd hlisted.2.1 (by simp [Node.isDirectory])
        | cons next below =>
            exact absurd (Bool.and_eq_true _ _ ▸ ⟨hlisted.1, hlisted.2.1⟩) henters

/-- **What a search finds among entries** is what it lists from one of them. -/
theorem mem_selectedEntries_iff : ∀ (entries : List (String × Node)) (above : List String),
    Node.wellFormedEntries entries = true →
      ∀ names, names ∈ selectedEntries search above entries ↔
        ∃ name node below, names = above ++ name :: below ∧
          Node.lookup name entries = some node ∧
          Reaches search (ListsEntry search) above name node below
  | [], above, _, names => by simp [selectedEntries, Node.lookup]
  | (key, first) :: rest, above, hentries, names => by
      obtain ⟨hfirst, hrest, hlookup⟩ := Node.lookup_cons_iff hentries
      rw [selectedEntries_cons, List.mem_append, mem_selectedAt_iff first key above hfirst,
        mem_selectedEntries_iff rest above hrest]
      constructor
      · rintro (⟨below, rfl, hlisted⟩ | ⟨name, node, below, rfl, hnode, hlisted⟩)
        · exact ⟨key, first, below, rfl, hlookup.2 (Or.inl ⟨rfl, rfl⟩), hlisted⟩
        · exact ⟨name, node, below, rfl, hlookup.2 (Or.inr hnode), hlisted⟩
      · rintro ⟨name, node, below, rfl, hnode, hlisted⟩
        rcases hlookup.1 hnode with ⟨rfl, rfl⟩ | hnode
        · exact Or.inl ⟨below, rfl, hlisted⟩
        · exact Or.inr ⟨name, node, below, rfl, hnode, hlisted⟩

end

variable {search} in
/-- What is listed is a file or a link. -/
theorem Reaches.exists_at? {above below : List String} {name : String} {node : Node}
    (h : Reaches search (ListsEntry search) above name node below) :
    ∃ found, node.at? below = some found ∧ found.isDirectory = false := by
  induction below generalizing above name node with
  | nil => exact ⟨node, rfl, h.2.1⟩
  | cons next below ih =>
      obtain ⟨-, -, found, hchild, hlisted⟩ := h
      obtain ⟨stop, hstop, hkind⟩ := ih hlisted
      exact ⟨stop, by rw [Node.at?_cons, hchild, Option.bind_some, hstop], hkind⟩

/-- What a search finds among entries: names that lead to a file or a link. -/
theorem mem_selectedEntries {entries : List (String × Node)} {above names : List String}
    (hentries : Node.wellFormedEntries entries = true)
    (h : names ∈ selectedEntries search above entries) :
    ∃ below found, names = above ++ below ∧ (Node.directory entries).at? below = some found ∧
      found.isDirectory = false := by
  obtain ⟨name, node, below, rfl, hnode, hlisted⟩ :=
    (mem_selectedEntries_iff search entries above hentries names).1 h
  obtain ⟨stop, hstop, hkind⟩ := hlisted.exists_at?
  refine ⟨name :: below, stop, rfl, ?_, hkind⟩
  rw [Node.at?_cons, Node.child?, hnode, Option.bind_some, hstop]

mutual

theorem nodup_selectedAt : ∀ (node : Node) (name : String) (above : List String),
    node.wellFormed = true → (selectedAt search above name node).Nodup
  | .file content, name, above, _ => by
      rcases selectedAt_of_isDirectory search above name (.file content) rfl with hnone | hself
      · rw [hnone]; exact List.nodup_nil
      · rw [hself]; exact List.pairwise_singleton _ _
  | .link target, name, above, _ => by
      rcases selectedAt_of_isDirectory search above name (.link target) rfl with hnone | hself
      · rw [hnone]; exact List.nodup_nil
      · rw [hself]; exact List.pairwise_singleton _ _
  | .directory entries, name, above, hnode => by
      rw [selectedAt]
      split
      · exact nodup_selectedEntries entries _ hnode
      · exact List.nodup_nil

/-- Nothing is found twice. -/
theorem nodup_selectedEntries : ∀ (entries : List (String × Node)) (above : List String),
    Node.wellFormedEntries entries = true → (selectedEntries search above entries).Nodup
  | [], above, _ => by
      rw [selectedEntries]
      exact List.nodup_nil
  | (name, node) :: rest, above, hentries => by
      have hname : Node.lookup name rest = none := by
        simp only [Node.wellFormedEntries, Bool.and_eq_true, Option.isNone_iff_eq_none] at hentries
        exact hentries.1.1.2
      obtain ⟨hnode, hrest, -⟩ := Node.lookup_cons_iff hentries
      rw [selectedEntries_cons, List.nodup_append]
      refine ⟨nodup_selectedAt node name above hnode, nodup_selectedEntries rest above hrest, ?_⟩
      intro names h names' h'
      obtain ⟨below, rfl, -⟩ := (mem_selectedAt_iff search node name above hnode names).1 h
      obtain ⟨other, found, below', rfl, hfound, -⟩ :=
        (mem_selectedEntries_iff search rest above hrest names').1 h'
      rintro heq
      -- the other entries have other names
      obtain ⟨rfl, -⟩ := List.cons.inj (List.append_cancel_left heq)
      exact absurd (hname.symm.trans hfound) (by simp)

end

/-! ### How deep a search goes -/

/-- How many directories, each inside the one before, a search goes into from one entry on. -/
def nestingAt (above : List String) (name : String) : Node → Nat
  | .directory entries =>
    if search.entersDirectory name then
      (if search.canList (above ++ [name]) then nestingEntries search (above ++ [name]) entries
        else 0) + 1
    else 0
  | .link _ => if search.entersDirectory name && search.isDirectory (above ++ [name]) then 1 else 0
  | .file _ => 0

theorem nestingEntries_cons (above : List String) (name : String) (node : Node)
    (rest : List (String × Node)) :
    nestingEntries search above ((name, node) :: rest) =
      max (nestingAt search above name node) (nestingEntries search above rest) := by
  rw [nestingEntries.eq_def]
  cases node <;> rfl

mutual

/-- **A search goes deeper than `n` directories** from an entry on if it turns to one that has at
least `n` of them above it. -/
theorem lt_nestingAt_iff : ∀ (node : Node) (name : String) (above : List String) (n : Nat),
    node.wellFormed = true → (n < nestingAt search above name node ↔
      ∃ below, n ≤ below.length ∧ Reaches search (TurnsTo search) above name node below)
  | .file content, name, above, n, _ => by
      have hkind : (Node.file content).isDirectory = false := rfl
      simp [nestingAt, reaches_iff_of_isDirectory search hkind, TurnsTo, Node.isDirectory,
        Node.isLink]
  | .link target, name, above, n, _ => by
      have hkind : (Node.link target).isDirectory = false := rfl
      simp only [nestingAt, reaches_iff_of_isDirectory search hkind, TurnsTo, Node.isDirectory,
        Node.isLink, Bool.and_eq_true]
      constructor
      · intro h
        split at h
        · next hturns => exact ⟨[], by omega, rfl, hturns.1, Or.inr ⟨trivial, hturns.2⟩⟩
        · omega
      · rintro ⟨below, hlength, rfl, henters, hdirectory⟩
        rw [if_pos ⟨henters, (hdirectory.resolve_left (by simp)).2⟩]
        exact Nat.lt_succ_of_le hlength
  | .directory entries, name, above, n, hnode => by
      have hentries := fun n => lt_nestingEntries_iff entries (above ++ [name]) n hnode
      rw [nestingAt]
      constructor
      · intro h
        split at h
        · next henters =>
            cases n with
            | zero => exact ⟨[], Nat.zero_le _, henters, Or.inl rfl⟩
            | succ n =>
                split at h
                · next hlists =>
                    obtain ⟨next, found, below, hlength, hfound, hturns⟩ :=
                      (hentries n).1 (Nat.lt_of_succ_lt_succ h)
                    exact ⟨next :: below, Nat.succ_le_succ hlength, henters, hlists, found, hfound,
                      hturns⟩
                · omega
        · omega
      · rintro ⟨below, hlength, hturns⟩
        cases below with
        | nil =>
            rw [if_pos hturns.1]
            exact Nat.lt_succ_of_le (Nat.le_trans hlength (Nat.zero_le _))
        | cons next below =>
            obtain ⟨henters, hlists, found, hfound, hturns⟩ := hturns
            rw [if_pos henters, if_pos hlists]
            cases n with
            | zero => exact Nat.succ_pos _
            | succ n =>
                exact Nat.succ_lt_succ ((hentries n).2
                  ⟨next, found, below, Nat.le_of_succ_le_succ hlength, hfound, hturns⟩)

/-- A search goes deeper than `n` directories among entries if it does so from one of them on. -/
theorem lt_nestingEntries_iff : ∀ (entries : List (String × Node)) (above : List String)
    (n : Nat), Node.wellFormedEntries entries = true →
      (n < nestingEntries search above entries ↔
        ∃ name node below, n ≤ below.length ∧ Node.lookup name entries = some node ∧
          Reaches search (TurnsTo search) above name node below)
  | [], above, n, _ => by simp [nestingEntries, Node.lookup]
  | (key, first) :: rest, above, n, hentries => by
      obtain ⟨hfirst, hrest, hlookup⟩ := Node.lookup_cons_iff hentries
      rw [nestingEntries_cons, lt_max_iff, lt_nestingAt_iff first key above n hfirst,
        lt_nestingEntries_iff rest above n hrest]
      constructor
      · rintro (⟨below, hlength, hturns⟩ | ⟨name, node, below, hlength, hnode, hturns⟩)
        · exact ⟨key, first, below, hlength, hlookup.2 (Or.inl ⟨rfl, rfl⟩), hturns⟩
        · exact ⟨name, node, below, hlength, hlookup.2 (Or.inr hnode), hturns⟩
      · rintro ⟨name, node, below, hlength, hnode, hturns⟩
        rcases hlookup.1 hnode with ⟨rfl, rfl⟩ | hnode
        · exact Or.inl ⟨below, hlength, hturns⟩
        · exact Or.inr ⟨name, node, below, hlength, hnode, hturns⟩

end

end

/-! ### The files below a root -/

section
variable {fs : FileSystem} (htree : fs.tree.wellFormed = true) {root : Path} {config : ScanConfig}
  {files : List Path} (hfiles : fs.sourceFiles root config = .ok files)

include htree hfiles

omit hfiles in
/-- What a path leads to is a tree of such names as well. -/
theorem wellFormed_of_stat {path : Path} {node : Node} (h : fs.stat path = .ok node) :
    node.wellFormed = true := by
  obtain ⟨place, -, hplace, -⟩ := exists_location h
  exact Node.wellFormed_of_at? htree hplace

/-- The paths that are listed are those that the search finds, in order. -/
theorem exists_selected : hasNull root = false ∧
    (files = [] ∨ ∃ (node : Node) (found : List (List String)), fs.stat root = .ok node ∧
      (∀ names ∈ found, node.isDirectory = true ∧
        ∃ stop, node.at? names = some stop ∧ stop.isDirectory = false) ∧
      found.Nodup ∧
      files = (found.map fun names => Path.mk root.anchor (root.parts ++ names)).mergeSort
        Path.precedes) := by
  rw [sourceFiles] at hfiles
  split at hfiles
  · exact absurd hfiles (by simp)
  · next hnull =>
      refine ⟨by simpa using hnull, ?_⟩
      cases hstat : fs.stat root with
      | error cause =>
          rw [hstat] at hfiles
          exact Or.inl (Except.ok.inj hfiles).symm
      | ok node =>
          rw [hstat] at hfiles
          dsimp only at hfiles
          have hnode := wellFormed_of_stat htree hstat
          split at hfiles
          · exact Or.inl (Except.ok.inj hfiles).symm
          · split at hfiles
            · exact absurd hfiles (by simp)
            · refine Or.inr ⟨node, _, rfl, ?_, ?_, (Except.ok.inj hfiles).symm⟩
              · intro names hnames
                cases node with
                | file content => exact absurd hnames (by simp [selected])
                | link target => exact absurd hnames (by simp [selected])
                | directory entries =>
                    rw [selected] at hnames
                    obtain ⟨below, stop, rfl, hstop⟩ := mem_selectedEntries _ hnode hnames
                    exact ⟨rfl, stop, hstop⟩
              · cases node with
                | file content => simp [selected]
                | link target => simp [selected]
                | directory entries =>
                    rw [selected]
                    exact nodup_selectedEntries _ entries [] hnode

/-- Every path that is listed leads from the root to a file or a link. -/
theorem names_of_mem_sourceFiles {file : Path} (h : file ∈ files) :
    ∃ node names found, fs.stat root = .ok node ∧ node.isDirectory = true ∧
      file = ⟨root.anchor, root.parts ++ names⟩ ∧ node.at? names = some found ∧
      found.isDirectory = false := by
  rcases (exists_selected htree hfiles).2 with rfl | ⟨node, found, hstat, hfound, -, rfl⟩
  · exact absurd h List.not_mem_nil
  · obtain ⟨names, hnames, rfl⟩ := List.mem_map.1 (List.mem_mergeSort.1 h)
    obtain ⟨hnode, stop, hstop⟩ := hfound names hnames
    exact ⟨node, names, stop, hstat, hnode, rfl, hstop⟩

/-- **The paths come in order**, each of them once. -/
theorem pairwise_sourceFiles : files.Pairwise fun f g => f.parts < g.parts := by
  rcases (exists_selected htree hfiles).2 with rfl | ⟨node, found, -, -, hnodup, rfl⟩
  · exact List.Pairwise.nil
  · let path (names : List String) : Path := ⟨root.anchor, root.parts ++ names⟩
    have hsorted := @List.pairwise_mergeSort _ Path.precedes
      (fun a b c hab hbc => Path.precedes_iff.2
        (le_trans (Path.precedes_iff.1 hab) (Path.precedes_iff.1 hbc)))
      (fun a b => by
        rw [Bool.or_eq_true, Path.precedes_iff, Path.precedes_iff]
        exact le_total a.parts b.parts)
      (found.map path)
    have hdistinct : ((found.map path).mergeSort Path.precedes).Pairwise
        fun f g => f.parts ≠ g.parts := by
      have hperm := List.mergeSort_perm (found.map path) Path.precedes
      refine (hperm.pairwise_iff fun h => h.symm).2 ?_
      refine List.pairwise_map.2 (hnodup.imp fun {a b} hab heq => ?_)
      exact hab (List.append_cancel_left heq)
    exact hsorted.imp₂ (fun f g hle hne => lt_of_le_of_ne (Path.precedes_iff.1 hle) hne) hdistinct

end

end FileSystem

end SourceOutline
