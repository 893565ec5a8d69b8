/-
**Where paths lead.**

A path is followed name by name, and a link on the way is replaced by the names of its target.  Here
this is a relation between places of a tree: what a process may do is left out, how many links are
followed is a bound that may be larger than it need be, names that lead on from a place lead on from
where the names before them have led, and they lead to one place only.  Where no link stands in the
way, the names of entries lead where they say.

Main definitions:

* `FileSystem.isEntryName`, `FileSystem.Node.wellFormed` — names that entries can have, and trees
  whose entries have such names;
* `FileSystem.Leads` — names lead from one place of a tree to another.

Main results:

* `FileSystem.leads_of_walk`, `FileSystem.walk_append` — what a walk reaches, the names lead to, and
  how it goes on from there;
* `FileSystem.Leads.mono`, `FileSystem.Leads.exists_mid`, `FileSystem.Leads.unique` — the bound, the
  places on the way, and the one place at the end.
-/

import SourceOutline.FileSystem.Walk
import Mathlib.Data.Nat.Find

set_option autoImplicit false

namespace SourceOutline.FileSystem

open Text

/-! ### Names of entries -/

/-- A name that an entry of a directory can have. -/
def isEntryName (name : String) : Bool :=
  name != "" && name != "." && name != ".." && !name.toList.contains '/' &&
    !name.toList.contains '\x00'

theorem isEntryName_iff {name : String} :
    isEntryName name = true ↔ name ≠ "" ∧ name ≠ "." ∧ name ≠ ".." ∧ '/' ∉ name.toList ∧
      '\x00' ∉ name.toList := by
  simp [isEntryName, and_assoc]

namespace Node

/-- Whether a node is a link. -/
def isLink : Node → Bool
  | link _ => true
  | _ => false

mutual

/-- Whether the entries of all directories of a tree have names that entries can have, and no two of
a directory have the same. -/
def wellFormed : Node → Bool
  | directory entries => wellFormedEntries entries
  | _ => true

/-- Whether entries, and all entries below them, have such names. -/
def wellFormedEntries : List (String × Node) → Bool
  | [] => true
  | (name, node) :: rest =>
    isEntryName name && (lookup name rest).isNone && wellFormed node && wellFormedEntries rest

end

mutual

/-- The names that lead to the links of a tree. -/
def linkNames : Node → List (List String)
  | file _ => []
  | link _ => [[]]
  | directory entries => linkNamesOf entries

/-- The names that lead to the links among entries and below them. -/
def linkNamesOf : List (String × Node) → List (List String)
  | [] => []
  | (name, node) :: rest => (linkNames node).map (name :: ·) ++ linkNamesOf rest

end

mutual

theorem length_linkNames : ∀ node : Node, node.linkNames.length = node.linkCount
  | file _ => rfl
  | link _ => rfl
  | directory entries => length_linkNamesOf entries

theorem length_linkNamesOf :
    ∀ entries : List (String × Node), (linkNamesOf entries).length = linkCountOf entries
  | [] => rfl
  | (name, node) :: rest => by
      rw [linkNamesOf, linkCountOf, List.length_append, List.length_map, length_linkNames node,
        length_linkNamesOf rest]

end

theorem mem_linkNamesOf {name : String} {entries : List (String × Node)} {node : Node}
    {names : List String} (hnode : lookup name entries = some node)
    (hnames : names ∈ node.linkNames) : name :: names ∈ linkNamesOf entries := by
  induction entries with
  | nil => exact absurd hnode (by simp [lookup])
  | cons entry rest ih =>
      obtain ⟨key, first⟩ := entry
      rw [lookup] at hnode
      rw [linkNamesOf, List.mem_append]
      split at hnode
      · next hkey =>
          obtain rfl := Option.some.inj hnode
          exact Or.inl (List.mem_map.2 ⟨names, hnames, by rw [beq_iff_eq.1 hkey]⟩)
      · exact Or.inr (ih hnode)

/-- Every link of a tree is listed. -/
theorem mem_linkNames {node : Node} {names : List String} {target : String}
    (h : node.at? names = some (.link target)) : names ∈ node.linkNames := by
  induction names generalizing node with
  | nil =>
      obtain rfl := Option.some.inj h
      exact List.mem_singleton_self _
  | cons name rest ih =>
      rw [at?_cons, Option.bind_eq_some_iff] at h
      obtain ⟨next, hnext, h⟩ := h
      cases node with
      | file content => exact absurd hnext (by simp [child?])
      | link target => exact absurd hnext (by simp [child?])
      | directory entries => exact mem_linkNamesOf hnext (ih h)

theorem wellFormed_of_lookup {name : String} {entries : List (String × Node)} {node : Node}
    (hnode : lookup name entries = some node) (h : wellFormedEntries entries = true) :
    isEntryName name = true ∧ node.wellFormed = true := by
  induction entries with
  | nil => exact absurd hnode (by simp [lookup])
  | cons entry rest ih =>
      obtain ⟨key, first⟩ := entry
      rw [lookup] at hnode
      simp only [wellFormedEntries, Bool.and_eq_true] at h
      split at hnode
      · next hkey =>
          obtain rfl := Option.some.inj hnode
          exact ⟨beq_iff_eq.1 hkey ▸ h.1.1.1, h.1.2⟩
      · exact ih hnode h.2

/-- Whatever names lead to a node of a tree, entries can have these names. -/
theorem isEntryName_of_at? {node found : Node} {names : List String}
    (hnode : node.wellFormed = true) (h : node.at? names = some found) :
    ∀ name ∈ names, isEntryName name = true := by
  induction names generalizing node with
  | nil => simp
  | cons name rest ih =>
      rw [at?_cons, Option.bind_eq_some_iff] at h
      obtain ⟨next, hnext, h⟩ := h
      cases node with
      | file content => exact absurd hnext (by simp [child?])
      | link target => exact absurd hnext (by simp [child?])
      | directory entries =>
          obtain ⟨hname, hbelow⟩ := wellFormed_of_lookup hnext hnode
          exact List.forall_mem_cons.2 ⟨hname, ih hbelow h⟩

end Node

/-! ### Following names -/

/-- Following at most `links` links, `names` lead from the place `here` to the place `stop`. -/
inductive Leads (tree : Node) : Nat → List String → List String → List String → Prop where
  | stay {links : Nat} {here : List String} : Leads tree links here [] here
  | dot {links : Nat} {here : List String} {name : String} {rest stop : List String}
      {entries : List (String × Node)} (hname : name = ".")
      (hdirectory : tree.at? here = some (.directory entries))
      (h : Leads tree links here rest stop) : Leads tree links here (name :: rest) stop
  | up {links : Nat} {here : List String} {name : String} {rest stop : List String}
      {entries : List (String × Node)} (hname : name = "..")
      (hdirectory : tree.at? here = some (.directory entries))
      (h : Leads tree links here.dropLast rest stop) : Leads tree links here (name :: rest) stop
  | enter {links : Nat} {here : List String} {name : String} {rest stop : List String} {node : Node}
      (hdot : name ≠ ".") (hup : name ≠ "..")
      (hnode : tree.at? (here ++ [name]) = some node) (hlink : node.isLink = false)
      (h : Leads tree links (here ++ [name]) rest stop) : Leads tree links here (name :: rest) stop
  | follow {links : Nat} {here : List String} {name : String} {rest stop : List String}
      {target : String} (hdot : name ≠ ".") (hup : name ≠ "..")
      (hnode : tree.at? (here ++ [name]) = some (.link target))
      (h : Leads tree links (targetStart here target.toList) (targetNames target.toList ++ rest)
        stop) : Leads tree (links + 1) here (name :: rest) stop

section
variable {tree : Node} {maySearch : List String → Bool}

/-- The entry of a directory. -/
theorem at?_append_singleton {here : List String} {entries : List (String × Node)}
    (h : tree.at? here = some (.directory entries)) (name : String) :
    tree.at? (here ++ [name]) = Node.lookup name entries := by
  rw [Node.at?_append, h, Option.bind_some, Node.at?_cons]
  cases hchild : Node.child? (.directory entries) name with
  | none => exact hchild.symm
  | some node => exact hchild.symm

/-- Nothing is looked up in a directory that may not be searched. -/
theorem descend_denied {expand : List String → List String → Except Cause (List String)}
    {here : List String} {entries : List (String × Node)}
    (hdirectory : tree.at? here = some (.directory entries)) (hsearch : maySearch here = false)
    (name : String) (rest : List String) :
    descend tree maySearch expand here (name :: rest) = .error .denied := by
  simp [descend, hdirectory, hsearch]

/-- A dot stays, and two dots lead one level up. -/
theorem descend_dots {expand : List String → List String → Except Cause (List String)}
    {here : List String} {entries : List (String × Node)}
    (hdirectory : tree.at? here = some (.directory entries)) (hsearch : maySearch here = true)
    (rest : List String) :
    descend tree maySearch expand here ("." :: rest) = descend tree maySearch expand here rest ∧
      descend tree maySearch expand here (".." :: rest) =
        descend tree maySearch expand here.dropLast rest := by
  simp [descend, hdirectory, hsearch]

/-- Where a name is entered that is no dot, a link is followed and anything else is a step. -/
theorem descend_cons {expand : List String → List String → Except Cause (List String)}
    {here rest : List String} {name : String} {entries : List (String × Node)}
    (hdirectory : tree.at? here = some (.directory entries)) (hsearch : maySearch here = true)
    (hdot : name ≠ ".") (hup : name ≠ "..") :
    descend tree maySearch expand here (name :: rest) =
      if name.utf8ByteSize > maxName then .error .nameTooLong
      else
        match tree.at? (here ++ [name]) with
        | none => .error .missing
        | some (.link target) =>
          expand (targetStart here target.toList) (targetNames target.toList ++ rest)
        | some _ => descend tree maySearch expand (here ++ [name]) rest := by
  rw [at?_append_singleton hdirectory, descend, hdirectory]
  refine (if_neg (by simpa using hsearch)).trans ?_
  exact (if_neg (by simpa using hdot)).trans (if_neg (by simpa using hup))

/-- Only a directory leads on. -/
theorem descend_notDirectory {here rest : List String} {name : String}
    {expand : List String → List String → Except Cause (List String)}
    (h : ∀ entries, tree.at? here ≠ some (.directory entries)) :
    descend tree maySearch expand here (name :: rest) = .error .notDirectory := by
  rw [descend]
  split
  · next entries hhere => exact absurd hhere (h entries)
  · rfl

/-- What is walked on from is a directory that may be searched. -/
theorem exists_directory_of_descend {here rest stop : List String} {name : String}
    {expand : List String → List String → Except Cause (List String)}
    (h : descend tree maySearch expand here (name :: rest) = .ok stop) :
    maySearch here = true ∧ ∃ entries, tree.at? here = some (.directory entries) := by
  by_cases hdirectory : ∃ entries, tree.at? here = some (.directory entries)
  · obtain ⟨entries, hhere⟩ := hdirectory
    cases hsearch : maySearch here with
    | true => exact ⟨rfl, entries, hhere⟩
    | false => exact absurd h (by simp [descend_denied hhere hsearch])
  · exact absurd h (by simp [descend_notDirectory (not_exists.1 hdirectory)])

/-- What a walk reaches, names lead to. -/
theorem leads_of_descend {links : Nat}
    {expand : List String → List String → Except Cause (List String)}
    (hexpand : ∀ {start names stop}, expand start names = .ok stop →
      ∃ fewer, links = fewer + 1 ∧ Leads tree fewer start names stop)
    {here names stop : List String} (h : descend tree maySearch expand here names = .ok stop) :
    Leads tree links here names stop := by
  induction names generalizing here with
  | nil =>
      obtain rfl := Except.ok.inj h
      exact .stay
  | cons name rest ih =>
      obtain ⟨hsearch, entries, hhere⟩ := exists_directory_of_descend h
      by_cases hdot : name = "."
      · subst hdot
        exact .dot rfl hhere (ih ((descend_dots hhere hsearch rest).1 ▸ h))
      by_cases hup : name = ".."
      · subst hup
        exact .up rfl hhere (ih ((descend_dots hhere hsearch rest).2 ▸ h))
      rw [descend_cons hhere hsearch hdot hup] at h
      split at h
      · exact absurd h (by simp)
      · cases hnode : tree.at? (here ++ [name]) with
        | none => simp [hnode] at h
        | some node =>
            rw [hnode] at h
            cases node with
            | file content => exact .enter hdot hup hnode rfl (ih h)
            | directory entries => exact .enter hdot hup hnode rfl (ih h)
            | link target =>
                obtain ⟨fewer, rfl, h⟩ := hexpand h
                exact .follow hdot hup hnode h

theorem leads_of_walk {links : Nat} {here names stop : List String}
    (h : walk tree maySearch links here names = .ok stop) : Leads tree links here names stop := by
  induction links generalizing here names stop with
  | zero => exact leads_of_descend (fun hexpand => absurd hexpand (by simp)) h
  | succ links ih => exact leads_of_descend (fun hexpand => ⟨links, rfl, ih hexpand⟩) h

theorem exists_descend (tree : Node) (maySearch : List String → Bool) (links : Nat) :
    ∃ expand, walk tree maySearch links = descend tree maySearch expand := by
  cases links with
  | zero => exact ⟨_, rfl⟩
  | succ links => exact ⟨_, rfl⟩

/-- Names that follow others are walked from the place that those have led to. -/
theorem descend_append (links : Nat)
    {expand : List String → List String → Except Cause (List String)} {more : List String}
    (hwalk : walk tree maySearch links = descend tree maySearch expand)
    (hexpand : ∀ {start names place}, expand start names = .ok place →
      ∃ fewer, expand start (names ++ more) = walk tree maySearch fewer place more)
    {here names place : List String} (h : descend tree maySearch expand here names = .ok place) :
    ∃ fewer, descend tree maySearch expand here (names ++ more) =
      walk tree maySearch fewer place more := by
  induction names generalizing here with
  | nil =>
      obtain rfl := Except.ok.inj h
      exact ⟨links, by rw [hwalk, List.nil_append]⟩
  | cons name rest ih =>
      obtain ⟨hsearch, entries, hhere⟩ := exists_directory_of_descend h
      by_cases hdot : name = "."
      · subst hdot
        rw [List.cons_append, (descend_dots hhere hsearch _).1]
        exact ih ((descend_dots hhere hsearch rest).1 ▸ h)
      by_cases hup : name = ".."
      · subst hup
        rw [List.cons_append, (descend_dots hhere hsearch _).2]
        exact ih ((descend_dots hhere hsearch rest).2 ▸ h)
      rw [List.cons_append, descend_cons hhere hsearch hdot hup]
      rw [descend_cons hhere hsearch hdot hup] at h
      split at h
      · exact absurd h (by simp)
      · next hsize =>
          rw [if_neg hsize]
          cases hnode : tree.at? (here ++ [name]) with
          | none => simp [hnode] at h
          | some node =>
              rw [hnode] at h
              cases node with
              | file content => exact ih h
              | directory entries => exact ih h
              | link target => simpa using hexpand h

theorem walk_append {links : Nat} {here names place : List String}
    (h : walk tree maySearch links here names = .ok place) (more : List String) :
    ∃ fewer, walk tree maySearch links here (names ++ more) =
      walk tree maySearch fewer place more := by
  induction links generalizing here names place with
  | zero => exact descend_append 0 rfl (fun hexpand => absurd hexpand (by simp)) h
  | succ links ih => exact descend_append (links + 1) rfl (fun hexpand => ih hexpand) h

namespace Leads

/-- More links may be followed. -/
theorem mono {links more : Nat} {here names stop : List String}
    (h : Leads tree links here names stop) (hle : links ≤ more) :
    Leads tree more here names stop := by
  induction h generalizing more with
  | stay => exact .stay
  | dot hname hdirectory _ ih => exact .dot hname hdirectory (ih hle)
  | up hname hdirectory _ ih => exact .up hname hdirectory (ih hle)
  | enter hdot hup hnode hlink _ ih => exact .enter hdot hup hnode hlink (ih hle)
  | follow hdot hup hnode _ ih =>
      cases more with
      | zero => omega
      | succ more => exact .follow hdot hup hnode (ih (by omega))

/-- What names lead to, they reach through the place that the first of them lead to. -/
theorem exists_mid {links : Nat} {here names more stop : List String}
    (h : Leads tree links here (names ++ more) stop) :
    ∃ mid, Leads tree links here names mid ∧ Leads tree links mid more stop := by
  generalize hall : names ++ more = all at h
  induction h generalizing names with
  | stay =>
      obtain ⟨rfl, rfl⟩ := List.append_eq_nil_iff.1 hall
      exact ⟨_, .stay, .stay⟩
  | @dot links here name rest stop entries hname hdirectory h ih =>
      cases names with
      | nil =>
          subst hall
          exact ⟨_, .stay, .dot hname hdirectory h⟩
      | cons name names =>
          obtain ⟨rfl, rfl⟩ := List.cons.inj hall
          obtain ⟨mid, hmid, hmore⟩ := ih rfl
          exact ⟨mid, .dot hname hdirectory hmid, hmore⟩
  | @up links here name rest stop entries hname hdirectory h ih =>
      cases names with
      | nil =>
          subst hall
          exact ⟨_, .stay, .up hname hdirectory h⟩
      | cons name names =>
          obtain ⟨rfl, rfl⟩ := List.cons.inj hall
          obtain ⟨mid, hmid, hmore⟩ := ih rfl
          exact ⟨mid, .up hname hdirectory hmid, hmore⟩
  | @enter links here name rest stop node hdot hup hnode hlink h ih =>
      cases names with
      | nil =>
          subst hall
          exact ⟨_, .stay, .enter hdot hup hnode hlink h⟩
      | cons name names =>
          obtain ⟨rfl, rfl⟩ := List.cons.inj hall
          obtain ⟨mid, hmid, hmore⟩ := ih rfl
          exact ⟨mid, .enter hdot hup hnode hlink hmid, hmore⟩
  | @follow links here name rest stop target hdot hup hnode h ih =>
      cases names with
      | nil =>
          subst hall
          exact ⟨_, .stay, .follow hdot hup hnode h⟩
      | cons name names =>
          obtain ⟨rfl, rfl⟩ := List.cons.inj hall
          obtain ⟨mid, hmid, hmore⟩ := ih (List.append_assoc _ _ _)
          exact ⟨mid, .follow hdot hup hnode hmid, hmore.mono (Nat.le_succ _)⟩

/-- Names lead to one place at most. -/
theorem unique {links links' : Nat} {here names stop stop' : List String}
    (h : Leads tree links here names stop) (h' : Leads tree links' here names stop') :
    stop = stop' := by
  induction h generalizing links' with
  | stay =>
      cases h'
      rfl
  | dot hname _ _ ih =>
      cases h' with
      | dot _ _ h' => exact ih h'
      | up hname' => exact absurd (hname.symm.trans hname') (by decide)
      | enter hdot => exact absurd hname hdot
      | follow hdot => exact absurd hname hdot
  | up hname _ _ ih =>
      cases h' with
      | dot hname' => exact absurd (hname.symm.trans hname') (by decide)
      | up _ _ h' => exact ih h'
      | enter _ hup => exact absurd hname hup
      | follow _ hup => exact absurd hname hup
  | enter hdot hup hnode hlink _ ih =>
      cases h' with
      | dot hname => exact absurd hname hdot
      | up hname => exact absurd hname hup
      | enter _ _ _ _ h' => exact ih h'
      | follow _ _ hnode' =>
          rw [hnode] at hnode'
          exact absurd hlink (by rw [Option.some.inj hnode']; simp [Node.isLink])
  | follow hdot hup hnode _ ih =>
      cases h' with
      | dot hname => exact absurd hname hdot
      | up hname => exact absurd hname hup
      | enter _ _ hnode' hlink' =>
          rw [hnode] at hnode'
          exact absurd hlink' (by rw [← Option.some.inj hnode']; simp [Node.isLink])
      | follow _ _ hnode' h' =>
          rw [hnode] at hnode'
          obtain rfl := Node.link.inj (Option.some.inj hnode')
          exact ih h'

/-- There is a least number of links that names take. -/
theorem exists_least {links : Nat} {here names stop : List String}
    (h : Leads tree links here names stop) :
    ∃ least ≤ links, Leads tree least here names stop ∧
      ∀ fewer < least, ∀ place, ¬ Leads tree fewer here names place := by
  classical
  have hex : ∃ n, Leads tree n here names stop := ⟨links, h⟩
  refine ⟨Nat.find hex, Nat.find_min' hex h, Nat.find_spec hex, fun fewer hlt place hplace => ?_⟩
  exact Nat.find_min hex hlt (hplace.unique h ▸ hplace)

/-- Names lead from a place of the tree. -/
theorem exists_start {links : Nat} {here names stop : List String}
    (h : Leads tree links here names stop) (hstop : (tree.at? stop).isSome = true) :
    (tree.at? here).isSome = true := by
  have hparent : ∀ {name : String} {node : Node}, tree.at? (here ++ [name]) = some node →
      (tree.at? here).isSome = true := by
    intro name node hnode
    rw [Node.at?_append, Option.bind_eq_some_iff] at hnode
    obtain ⟨directory, hhere, -⟩ := hnode
    rw [hhere]
    rfl
  cases h with
  | stay => exact hstop
  | dot _ hdirectory => rw [hdirectory]; rfl
  | up _ hdirectory => rw [hdirectory]; rfl
  | enter _ _ hnode => exact hparent hnode
  | follow _ _ hnode => exact hparent hnode

/-- Names that lead somewhere are dots or names of entries. -/
theorem null_not_mem (htree : tree.wellFormed = true) {links : Nat}
    {here names stop : List String} (h : Leads tree links here names stop) :
    ∀ name ∈ names, '\x00' ∉ name.toList := by
  have hentry : ∀ {here : List String} {name : String} {node : Node},
      tree.at? (here ++ [name]) = some node → '\x00' ∉ name.toList := by
    intro here name node hnode
    have hname := Node.isEntryName_of_at? htree hnode name (by simp)
    exact (isEntryName_iff.1 hname).2.2.2.2
  induction h with
  | stay => simp
  | dot hname _ _ ih => exact List.forall_mem_cons.2 ⟨by rw [hname]; decide, ih⟩
  | up hname _ _ ih => exact List.forall_mem_cons.2 ⟨by rw [hname]; decide, ih⟩
  | enter _ _ hnode _ _ ih => exact List.forall_mem_cons.2 ⟨hentry hnode, ih⟩
  | follow _ _ hnode _ ih =>
      exact List.forall_mem_cons.2 ⟨hentry hnode, (List.forall_mem_append.1 ih).2⟩

end Leads

variable (maySearch) in
/-- Names of entries lead along the tree, unless one of them is too long or a directory on the way
may not be searched. -/
theorem descend_of_at? (expand : List String → List String → Except Cause (List String))
    (here : List String) {names : List String} {node : Node}
    (hnames : ∀ name ∈ names, isEntryName name = true)
    (hnode : tree.at? (here ++ names) = some node) (hlink : node.isLink = false) :
    descend tree maySearch expand here names = .ok (here ++ names) ∨
      ∃ cause, descend tree maySearch expand here names = .error cause ∧
        cause.isRefusal = true := by
  induction names generalizing here with
  | nil => exact Or.inl (by rw [List.append_nil]; rfl)
  | cons name rest ih =>
      obtain ⟨hname, hrest⟩ := List.forall_mem_cons.1 hnames
      obtain ⟨-, hdot, hup, -⟩ := isEntryName_iff.1 hname
      obtain ⟨entries, next, hhere, hnext, hbelow⟩ :
          ∃ entries next, tree.at? here = some (.directory entries) ∧
            tree.at? (here ++ [name]) = some next ∧ next.at? rest = some node := by
        rw [Node.at?_append, Option.bind_eq_some_iff] at hnode
        obtain ⟨directory, hhere, hnode⟩ := hnode
        rw [Node.at?_cons, Option.bind_eq_some_iff] at hnode
        obtain ⟨next, hchild, hbelow⟩ := hnode
        cases directory with
        | file content => exact absurd hchild (by simp [Node.child?])
        | link target => exact absurd hchild (by simp [Node.child?])
        | directory entries =>
            exact ⟨entries, next, hhere, (at?_append_singleton hhere name).trans hchild, hbelow⟩
      have hbelow' : tree.at? (here ++ [name] ++ rest) = some node := by
        rw [Node.at?_append, hnext]
        exact hbelow
      have ih := ih (here ++ [name]) hrest hbelow'
      rw [← List.append_cons] at ih
      cases hsearch : maySearch here with
      | false => exact Or.inr ⟨.denied, descend_denied hhere hsearch name rest, rfl⟩
      | true =>
          rw [descend_cons hhere hsearch hdot hup, hnext]
          split
          · exact Or.inr ⟨.nameTooLong, rfl, rfl⟩
          · cases next with
            | file content => exact ih
            | directory entries => exact ih
            | link target =>
                -- a link has nothing below it, so it would be the last node
                cases rest with
                | nil =>
                    obtain rfl := Option.some.inj hbelow
                    exact absurd hlink (by simp [Node.isLink])
                | cons name rest => exact absurd hbelow (by simp [Node.child?])

/-- A tree without links has none below any of its places. -/
theorem at?_ne_link {node : Node} (h : node.linkCount = 0) (below : List String)
    (target : String) : node.at? below ≠ some (.link target) := by
  intro hlink
  have hmem := Node.mem_linkNames hlink
  rw [List.eq_nil_of_length_eq_zero ((Node.length_linkNames node).trans h)] at hmem
  exact absurd hmem List.not_mem_nil

end

/-! ### The place at the end of a path -/

section
variable {fs : FileSystem} {path : Path} {node : Node} {place : List String}

theorem follow_of_location? (h : fs.location? path = some place) : fs.follow path = .ok place := by
  rw [location?] at h
  cases hfollow : fs.follow path with
  | error cause =>
      rw [hfollow] at h
      exact absurd h (by simp [Except.toOption])
  | ok stop =>
      rw [hfollow] at h
      exact congrArg Except.ok (Option.some.inj h)

/-- The names of a path lead to the place that it leads to. -/
theorem walk_of_follow (h : fs.follow path = .ok place) :
    walk fs.tree fs.process.maySearch maxLinks (fs.startOf path) path.parts = .ok place := by
  rw [follow] at h
  split at h
  · exact absurd h (by simp)
  · rw [steps] at h
    split at h
    · next hpath =>
        -- the dot for the working directory stays there
        obtain ⟨expand, hexpand⟩ := exists_descend fs.tree fs.process.maySearch maxLinks
        rw [hexpand] at h ⊢
        obtain ⟨hsearch, entries, hhere⟩ := exists_directory_of_descend h
        rw [(descend_dots hhere hsearch []).1] at h
        rw [hpath] at h ⊢
        exact h
    · exact h

theorem walk_of_location? (h : fs.location? path = some place) :
    walk fs.tree fs.process.maySearch maxLinks (fs.startOf path) path.parts = .ok place :=
  walk_of_follow (follow_of_location? h)

/-- A path leads to a node exactly if it leads to the place of the node. -/
theorem stat_eq_ok_iff :
    fs.stat path = .ok node ↔
      ∃ place, fs.follow path = .ok place ∧ fs.tree.at? place = some node := by
  rw [stat]
  cases hfollow : fs.follow path with
  | error cause => simp [bind, Except.bind]
  | ok place =>
      cases hnode : fs.tree.at? place with
      | none => simp [hnode, bind, Except.bind, throw, throwThe, MonadExceptOf.throw]
      | some found => simp [hnode, bind, Except.bind, pure, Except.pure]

/-- A path that is refused is not followed. -/
theorem stat_eq_refusal_iff {cause : Cause} (hcause : cause.isRefusal = true) :
    fs.stat path = .error cause ↔ fs.follow path = .error cause := by
  rw [stat]
  cases hfollow : fs.follow path with
  | error other => simp [bind, Except.bind]
  | ok place =>
      have hmissing : cause ≠ .missing := by
        rintro rfl
        exact absurd hcause (by decide)
      cases hnode : fs.tree.at? place with
      | none =>
          simp [hnode, bind, Except.bind, throw, throwThe, MonadExceptOf.throw, Ne.symm hmissing]
      | some found => simp [hnode, bind, Except.bind, pure, Except.pure]

/-- A node at the end of a path has a place. -/
theorem exists_location (h : fs.stat path = .ok node) :
    ∃ place, fs.location? path = some place ∧ fs.tree.at? place = some node ∧
      Leads fs.tree maxLinks (fs.startOf path) path.parts place := by
  obtain ⟨place, hfollow, hnode⟩ := stat_eq_ok_iff.1 h
  exact ⟨place, by rw [location?, hfollow]; rfl, hnode, leads_of_walk (walk_of_follow hfollow)⟩

end

end SourceOutline.FileSystem
