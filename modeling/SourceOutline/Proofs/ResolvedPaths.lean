/-
**Resolved paths.**

A path is resolved by a procedure of its own: it takes up the target of each link in turn, keeps
lists of the links that it is about to resolve and of those that it has resolved, and goes on without
a path that leads anywhere.
Where following the path does lead somewhere, and no link on the way is left out because it cannot
be looked up, the resolved path names that place.  So a file that can be read has a path below a
root exactly if it lies below the place that the root leads to.

Main definitions:

* `FileSystem.Names` — a path without links that names a place;
* `FileSystem.Settles`, `FileSystem.settledCount` — links that are resolved by following few links;
* `FileSystem.Resolving` — what holds while links are resolved inside others;
* `FileSystem.ResolvesFreely` — nothing is refused while a path is resolved.

Main results:

* `FileSystem.resolvesTo_of_leads` — **links are resolved where they are followed**;
* `FileSystem.resolvesFreely_of_linkCount` — where there are no links, nothing can be refused;
* `FileSystem.resolve_of_stat` — the resolved form of a path that leads to a node;
* `FileSystem.resolve_below` — that of a node which is reached from there without links;
* `FileSystem.relativePath_of_resolve` — when a path lies below a root;
* `Path.parse_render` — a relative path is read back from its text.
-/

import SourceOutline.Proofs.PathFollowing
import SourceOutline.Proofs.Specifiers
import SourceOutline.Repository
import Mathlib.Data.Finset.Card
import Mathlib.Data.Finset.Dedup

set_option autoImplicit false

namespace SourceOutline

/-! ### The text of a path -/

/-- Pieces without the separator are what the joined text is split into. -/
theorem Text.splitOn_intercalate {sep : Char} {pieces : List (List Char)} (hne : pieces ≠ [])
    (hpieces : ∀ piece ∈ pieces, sep ∉ piece) :
    splitOn sep ([sep].intercalate pieces) = pieces := by
  induction pieces with
  | nil => exact absurd rfl hne
  | cons piece rest ih =>
      obtain ⟨hpiece, hrest⟩ := List.forall_mem_cons.1 hpieces
      cases rest with
      | nil => simpa [List.intercalate] using splitOn_of_not_mem hpiece
      | cons next more =>
          have hjoin : [sep].intercalate (piece :: next :: more) =
              piece ++ sep :: [sep].intercalate (next :: more) := by
            simp [List.intercalate, List.intersperse]
          rw [hjoin, splitOn_append_sep, splitOn_of_not_mem hpiece, ih (by simp) hrest]
          rfl

/-- A path of names is read back from its text. -/
theorem Path.parse_render {names : List String} (hne : names ≠ [])
    (hnames : ∀ name ∈ names, FileSystem.isEntryName name = true) :
    Path.parse (Path.render ⟨.relative, names⟩) = ⟨.relative, names⟩ := by
  have hplain := fun name hname => FileSystem.isEntryName_iff.1 (hnames name hname)
  have hsplit : Text.splitOn '/' (Path.render ⟨.relative, names⟩).toList =
      names.map String.toList := by
    have htext : (Path.render ⟨.relative, names⟩).toList =
        ['/'].intercalate (names.map String.toList) := by
      obtain ⟨first, rest, rfl⟩ := List.exists_cons_of_ne_nil hne
      simp [Path.render, Path.Anchor.render, String.toList_intercalate]
    rw [htext]
    refine Text.splitOn_intercalate (by simpa using hne) fun piece hpiece => ?_
    obtain ⟨name, hname, rfl⟩ := List.mem_map.1 hpiece
    exact (hplain name hname).2.2.2.1
  have hparts : Path.components (Path.render ⟨.relative, names⟩).toList = names := by
    rw [Path.components, hsplit, List.filter_eq_self.2 ?_, List.map_map]
    · exact (List.map_congr_left fun name _ => String.ofList_toList).trans (List.map_id' names)
    · intro piece hpiece
      obtain ⟨name, hname, rfl⟩ := List.mem_map.1 hpiece
      obtain ⟨hempty, hdot, -⟩ := hplain name hname
      have hdot' : name.toList ≠ ['.'] := fun h => hdot (String.toList_inj.1 h)
      simpa [hdot'] using hempty
  have hanchor : Path.anchorOf (Path.render ⟨.relative, names⟩).toList = .relative := by
    -- a slash at the head of the text would be preceded by an empty name
    cases htext : (Path.render ⟨.relative, names⟩).toList with
    | nil => rfl
    | cons c text =>
        have hc : c ≠ '/' := by
          rintro rfl
          rw [htext, Text.splitOn, beq_self_eq_true, if_pos rfl] at hsplit
          obtain ⟨first, rest, rfl⟩ := List.exists_cons_of_ne_nil hne
          refine (hplain first (by simp)).1 (String.toList_inj.1 ?_)
          exact (List.cons.inj hsplit).1.symm
        simp [Path.anchorOf, hc]
  rw [Path.parse, hparts, hanchor]

namespace FileSystem

open Text

/-! ### Paths by their text -/

theorem normalizeAfter_append (done s t : List String) :
    normalizeAfter done (s ++ t) = normalizeAfter (normalizeAfter done s) t := by
  induction s generalizing done with
  | nil => rfl
  | cons name rest ih =>
      simp only [List.cons_append, normalizeAfter]
      split
      · exact ih done
      · split
        · exact ih done.dropLast
        · exact ih (done ++ [name])

/-- Names of entries are kept. -/
theorem normalizeAfter_entries {names : List String}
    (h : ∀ name ∈ names, isEntryName name = true) (done : List String) :
    normalizeAfter done names = done ++ names := by
  induction names generalizing done with
  | nil => rw [List.append_nil]; rfl
  | cons name rest ih =>
      obtain ⟨hname, hrest⟩ := List.forall_mem_cons.1 h
      obtain ⟨-, hdot, hup, -⟩ := isEntryName_iff.1 hname
      simp only [normalizeAfter, beq_iff_eq, if_neg hdot, if_neg hup]
      rw [ih hrest, ← List.append_cons]

section
variable (fs : FileSystem)

theorem absoluteNames_append (anchor : Path.Anchor) (parts more : List String) :
    fs.absoluteNames ⟨anchor, parts ++ more⟩ =
      normalizeAfter (fs.absoluteNames ⟨anchor, parts⟩) more := by
  rw [absoluteNames, normalize, ← List.append_assoc, normalizeAfter_append]
  rfl

/-- A path without links that names the place `location`: what is left of double dots leads out of
the working directory. -/
structure Names (path : Path) (location : List String) : Prop where
  absoluteNames_eq : fs.absoluteNames path = location
  parts_plain : ∀ part ∈ path.parts,
    isEntryName part = true ∨ part = ".." ∧ path.anchor = .relative
  anchor_ne : path.anchor ≠ .doubleRoot

namespace Names

variable {fs}

theorem root : fs.Names ⟨.root, []⟩ [] :=
  ⟨rfl, by simp, by simp⟩

/-- Names of entries lead on from the place. -/
theorem append {path : Path} {location : List String} (h : fs.Names path location)
    {names : List String} (hnames : ∀ name ∈ names, isEntryName name = true) :
    fs.Names ⟨path.anchor, path.parts ++ names⟩ (location ++ names) where
  absoluteNames_eq := by
    rw [absoluteNames_append, h.absoluteNames_eq, normalizeAfter_entries hnames]
  parts_plain := by
    intro part hpart
    rcases List.mem_append.1 hpart with hpart | hpart
    · exact h.parts_plain part hpart
    · exact Or.inl (hnames part hpart)
  anchor_ne := h.anchor_ne

theorem child {path : Path} {location : List String} (h : fs.Names path location) {name : String}
    (hname : isEntryName name = true) : fs.Names (path.child name) (location ++ [name]) :=
  h.append (by simpa)

/-- One level up. -/
theorem above {path : Path} {location : List String} (h : fs.Names path location) :
    fs.Names (above path) location.dropLast := by
  obtain ⟨anchor, parts⟩ := path
  -- a path that already leads out of the working directory leads further out
  have hout : anchor = .relative →
      fs.Names (Path.child ⟨anchor, parts⟩ "..") location.dropLast := by
    intro hanchor
    refine ⟨?_, fun part hpart => ?_, h.anchor_ne⟩
    · rw [Path.child, absoluteNames_append, h.absoluteNames_eq]
      rfl
    · rcases List.mem_append.1 hpart with hpart | hpart
      · exact h.parts_plain part hpart
      · exact Or.inr ⟨List.mem_singleton.1 hpart, hanchor⟩
  rcases List.eq_nil_or_concat parts with rfl | ⟨init, last, rfl⟩
  · cases anchor with
    | relative => exact hout rfl
    | root | doubleRoot =>
        refine ⟨?_, by simp [FileSystem.above, Path.parent], h.anchor_ne⟩
        rw [← h.absoluteNames_eq]
        rfl
  · by_cases hlast : last = ".." ∧ anchor = .relative
    · obtain ⟨rfl, rfl⟩ := hlast
      have habove : FileSystem.above ⟨.relative, init.concat ".."⟩ =
          Path.child ⟨.relative, init.concat ".."⟩ ".." := by
        simp [FileSystem.above]
      rw [habove]
      exact hout rfl
    · have hname : isEntryName last = true :=
        (h.parts_plain last (by simp)).resolve_right hlast
      obtain ⟨-, -, hup, -⟩ := isEntryName_iff.1 hname
      have habove : FileSystem.above ⟨anchor, init.concat last⟩ = ⟨anchor, init⟩ := by
        cases anchor <;> simp [FileSystem.above, Path.parent, hup]
      rw [habove]
      refine ⟨?_, fun part hpart => ?_, h.anchor_ne⟩
      · rw [← h.absoluteNames_eq, List.concat_eq_append, absoluteNames_append,
          normalizeAfter_entries (by simpa), List.dropLast_concat]
      · exact h.parts_plain part (by simp [hpart])

/-- Where a link of the place starts from. -/
theorem targetStart {here : Path} {location : List String} (h : fs.Names here location)
    (target : List Char) :
    fs.Names (if target.head? == some '/' then ⟨.root, []⟩ else here)
      (FileSystem.targetStart location target) := by
  rw [FileSystem.targetStart]
  split
  · exact .root
  · exact h

end Names

end

/-! ### Resolving links -/

/-- A link is resolved if fewer than `links` links are followed from its target on. -/
def Settles (tree : Node) (links : Nat) (link : List String) : Prop :=
  ∃ target, tree.at? link = some (.link target) ∧ ∃ fewer < links, ∃ stop,
    Leads tree fewer (targetStart link.dropLast target.toList) (targetNames target.toList) stop

theorem Settles.mono {tree : Node} {links more : Nat} {link : List String}
    (h : Settles tree links link) (hle : links ≤ more) : Settles tree more link := by
  obtain ⟨target, htarget, fewer, hlt, stop, h⟩ := h
  exact ⟨target, htarget, fewer, by omega, stop, h⟩

open Classical in
/-- How many links of a tree are resolved by following fewer than `links` links. -/
noncomputable def settledCount (tree : Node) (links : Nat) : Nat :=
  (tree.linkNames.toFinset.filter (Settles tree links)).card

open Classical in
theorem settledCount_mono (tree : Node) {links more : Nat} (hle : links ≤ more) :
    settledCount tree links ≤ settledCount tree more := by
  refine Finset.card_le_card fun link hlink => ?_
  rw [Finset.mem_filter] at hlink ⊢
  exact ⟨hlink.1, hlink.2.mono hle⟩

open Classical in
/-- A link that takes more counts for the larger number only. -/
theorem settledCount_lt {tree : Node} {links more : Nat} (hle : links ≤ more) {link : List String}
    (h : ¬ Settles tree links link) (h' : Settles tree more link) :
    settledCount tree links < settledCount tree more := by
  obtain ⟨target, htarget, -⟩ := id h'
  have hmem : link ∈ tree.linkNames.toFinset := List.mem_toFinset.2 (Node.mem_linkNames htarget)
  refine Finset.card_lt_card (Finset.ssubset_iff_of_subset ?_ |>.2 ⟨link, ?_, ?_⟩)
  · intro other hother
    rw [Finset.mem_filter] at hother ⊢
    exact ⟨hother.1, hother.2.mono hle⟩
  · exact Finset.mem_filter.2 ⟨hmem, h'⟩
  · exact fun hsettled => h (Finset.mem_filter.1 hsettled).2

open Classical in
theorem settledCount_le (tree : Node) (links : Nat) : settledCount tree links ≤ tree.linkCount :=
  calc settledCount tree links
      ≤ tree.linkNames.toFinset.card := Finset.card_filter_le _ _
    _ ≤ tree.linkNames.length := List.toFinset_card_le _
    _ = tree.linkCount := Node.length_linkNames tree

/-- Whether a name leads away from a place. -/
def isStep (name : String) : Bool :=
  !(name == "." || name.isEmpty)

section
variable (look : Path → Option String)

/-- Names that do not lead away from a place do not matter, where all links are resolved. -/
theorem resolveVia_filter
    (expand : List Path → List (Path × Path) → Path → List String → Resolution)
    (pending : List Path) (known known' : List (Path × Path)) (here path : Path)
    (names : List String) :
    resolveVia look expand pending known here (names.filter isStep) = .resolved path known' ↔
      resolveVia look expand pending known here names = .resolved path known' := by
  induction names generalizing known here with
  | nil => exact Iff.rfl
  | cons name rest ih =>
      by_cases hstep : isStep name = true
      · have hstays : (name == "." || name.isEmpty) = false := by simpa [isStep] using hstep
        rw [List.filter_cons_of_pos hstep]
        simp only [resolveVia, hstays, Bool.false_eq_true, if_false]
        split
        · exact ih _ _
        · split
          · split
            · exact ih _ _
            · split
              · simp
              · split
                · exact ih _ _
                · simp
                · simp
          · exact ih _ _
      · have hstays : (name == "." || name.isEmpty) = true := by
          rwa [isStep, Bool.not_eq_true, Bool.not_eq_false'] at hstep
        rw [List.filter_cons_of_neg hstep]
        simp only [resolveVia, hstays, if_true]
        exact ih known here

/-- The pieces of a target are its names, apart from those that do not matter. -/
theorem filter_targetPieces (target : List Char) :
    (targetPieces target).filter isStep = (targetNames target).filter isStep := by
  -- an empty piece is no step, and neither is the dot for a slash at the end
  have hnames : ∀ pieces : List (List Char),
      (((pieces.filter (!·.isEmpty)).map String.ofList).filter isStep) =
        (pieces.map String.ofList).filter isStep := by
    intro pieces
    rw [List.filter_map, List.filter_map, List.filter_filter]
    congr 1
    refine List.filter_congr fun piece _ => ?_
    cases piece <;> simp [isStep]
  have htarget : (targetNames target).filter isStep =
      ((splitOn '/' target).map String.ofList).filter isStep := by
    rw [← hnames, targetNames]
    split
    · rw [List.filter_append]
      simp [isStep]
    · rfl
  rw [htarget, targetPieces]
  cases target with
  | nil => rfl
  | cons c rest =>
      by_cases hc : c = '/'
      · subst hc
        simp [splitOn, isStep]
      · simp [hc]

theorem resolveNames_eq_resolveVia (depth : Nat) :
    ∃ expand, resolveNames look depth = resolveVia look expand ∧
      ∀ less, depth = less + 1 → expand = resolveNames look less := by
  cases depth with
  | zero => exact ⟨_, rfl, fun less h => absurd h (by omega)⟩
  | succ depth => exact ⟨_, rfl, fun less h => by rw [Nat.succ.inj h]⟩

/-- So a target is resolved by its pieces like by its names. -/
theorem resolveNames_targetPieces {depth : Nat} {pending : List Path}
    {known known' : List (Path × Path)} {here path : Path} (target : List Char) :
    resolveNames look depth pending known here (targetPieces target) = .resolved path known' ↔
      resolveNames look depth pending known here (targetNames target) = .resolved path known' := by
  obtain ⟨expand, hvia, -⟩ := resolveNames_eq_resolveVia look depth
  rw [hvia, ← resolveVia_filter, filter_targetPieces, resolveVia_filter]

variable {look}

section
variable {expand : List Path → List (Path × Path) → Path → List String → Resolution}
  {pending : List Path} {known : List (Path × Path)} {here : Path} {name : String}

/-- One step of resolution: the name of an entry that is no link. -/
theorem resolveVia_enter (hname : isEntryName name = true) (hlook : look (here.child name) = none)
    (rest : List String) :
    resolveVia look expand pending known here (name :: rest) =
      resolveVia look expand pending known (here.child name) rest := by
  obtain ⟨hempty, hdot, hup, -⟩ := isEntryName_iff.1 hname
  simp [resolveVia, hempty, hdot, hup, hlook]

/-- One step of resolution: a link that is resolved already. -/
theorem resolveVia_known (hname : isEntryName name = true) {target : String}
    (hlook : look (here.child name) = some target) {path : Path}
    (hknown : known.lookup (here.child name) = some path) (rest : List String) :
    resolveVia look expand pending known here (name :: rest) =
      resolveVia look expand pending known path rest := by
  obtain ⟨hempty, hdot, hup, -⟩ := isEntryName_iff.1 hname
  simp [resolveVia, hempty, hdot, hup, hlook, hknown]

/-- One step of resolution: a link that is not being resolved yet, and whose target is resolved. -/
theorem resolveVia_follow (hname : isEntryName name = true) {target : String}
    (hlook : look (here.child name) = some target) (hknown : known.lookup (here.child name) = none)
    (hpending : here.child name ∉ pending) {path : Path} {known' : List (Path × Path)}
    (hexpand : expand (here.child name :: pending) known
      (if target.toList.head? == some '/' then ⟨.root, []⟩ else here)
      (targetPieces target.toList) = .resolved path known') (rest : List String) :
    resolveVia look expand pending known here (name :: rest) =
      resolveVia look expand pending ((here.child name, path) :: known') path rest := by
  obtain ⟨hempty, hdot, hup, -⟩ := isEntryName_iff.1 hname
  have hcontains : pending.contains (here.child name) = false := by
    simpa using hpending
  simp only [resolveVia, hlook, hknown, hcontains, hexpand]
  simp [hdot, hup, hempty]

/-- Names that follow others are resolved from the path that comes out for those. -/
theorem resolveVia_append {path : Path} {known' : List (Path × Path)} {names : List String}
    (h : resolveVia look expand pending known here names = .resolved path known')
    (more : List String) :
    resolveVia look expand pending known here (names ++ more) =
      resolveVia look expand pending known' path more := by
  induction names generalizing known here with
  | nil =>
      obtain ⟨rfl, rfl⟩ := Resolution.resolved.inj h
      rfl
  | cons name rest ih =>
      rw [List.cons_append, resolveVia]
      rw [resolveVia] at h
      split at h
      · next hstays =>
          rw [if_pos hstays]
          exact ih h
      · next hstays =>
          rw [if_neg hstays]
          split at h
          · next hup =>
              rw [if_pos hup]
              exact ih h
          · next hup =>
              rw [if_neg hup]
              cases hlook : look (here.child name) with
              | none =>
                  simp only [hlook] at h ⊢
                  exact ih h
              | some target =>
                  simp only [hlook] at h ⊢
                  split at h
                  · exact ih h
                  · split at h
                    · exact absurd h (by simp)
                    · next hpending =>
                        rw [if_neg hpending]
                        split at h
                        · exact ih h
                        · exact absurd h (by simp)
                        · exact absurd h (by simp)

end

/-- Names of entries are kept, if no link is found on the way. -/
theorem resolveVia_entries
    (expand : List Path → List (Path × Path) → Path → List String → Resolution)
    (pending : List Path) (known : List (Path × Path)) {here : Path} {names : List String}
    (hnames : ∀ name ∈ names, isEntryName name = true)
    (hlook : ∀ before, before <+: names → look ⟨here.anchor, here.parts ++ before⟩ = none) :
    resolveVia look expand pending known here names =
      .resolved ⟨here.anchor, here.parts ++ names⟩ known := by
  induction names generalizing here with
  | nil => rw [List.append_nil]; rfl
  | cons name rest ih =>
      obtain ⟨hname, hrest⟩ := List.forall_mem_cons.1 hnames
      have hstep : look (here.child name) = none := hlook [name] ⟨rest, rfl⟩
      rw [resolveVia_enter hname hstep, ih hrest]
      · simp [Path.child]
      · rintro before ⟨after, rfl⟩
        have hbefore := hlook (name :: before) ⟨after, rfl⟩
        simpa [Path.child] using hbefore

/-- Where no links are found, it does not matter how they would be resolved. -/
theorem resolveVia_of_none {look' : Path → Option String} (hlook : ∀ path, look path = none)
    (hlook' : ∀ path, look' path = none)
    (expand expand' : List Path → List (Path × Path) → Path → List String → Resolution)
    (pending : List Path) (known : List (Path × Path)) (here : Path) (names : List String) :
    resolveVia look expand pending known here names =
      resolveVia look' expand' pending known here names := by
  induction names generalizing here with
  | nil => rfl
  | cons name rest ih => simp only [resolveVia, hlook, hlook', ih]

end

section
variable {fs : FileSystem}

theorem Names.linkOf? {path : Path} {location : List String} (h : fs.Names path location) :
    fs.linkOf? path =
      match fs.tree.at? location with
      | some (.link target) => some target
      | _ => none := by
  obtain rfl := h.absoluteNames_eq
  rfl

theorem linkAt?_eq_none {path : Path} (h : fs.linkOf? path = none) : fs.linkAt? path = none := by
  rw [linkAt?, h, ite_self]

variable (fs) in
/-- A link and the path that it is resolved to: the path names the place that the link leads to. -/
def LeadsOn (link : Path × Path) : Prop :=
  ∃ target links stop, fs.tree.at? (fs.absoluteNames link.1) = some (.link target) ∧
    Leads fs.tree links (targetStart (fs.absoluteNames link.1).dropLast target.toList)
      (targetNames target.toList) stop ∧
    fs.Names link.2 stop

/-- A link that is resolved already leads where it is followed to. -/
theorem LeadsOn.names {link : Path × Path} (h : fs.LeadsOn link) {target : String} {links : Nat}
    {stop : List String} (hlink : fs.tree.at? (fs.absoluteNames link.1) = some (.link target))
    (hstop : Leads fs.tree links (targetStart (fs.absoluteNames link.1).dropLast target.toList)
      (targetNames target.toList) stop) : fs.Names link.2 stop := by
  obtain ⟨target', links', stop', hlink', hstop', hnames⟩ := h
  obtain rfl := Node.link.inj (Option.some.inj (hlink.symm.trans hlink'))
  rwa [hstop.unique hstop']

variable (fs) in
/-- What holds while names are resolved from which at most `links` links are followed.  The links
that are being resolved all take more links than are left, so none of them is met again; and so the
depth need not exceed the number of links that take fewer. -/
structure Resolving (links depth : Nat) (pending : List Path) (known : List (Path × Path)) :
    Prop where
  depth_le : settledCount fs.tree links ≤ depth
  not_settles : ∀ path ∈ pending, ¬ Settles fs.tree links (fs.absoluteNames path)
  leadsOn : ∀ link ∈ known, fs.LeadsOn link

theorem Resolving.mono {links fewer depth : Nat} {pending : List Path} {known : List (Path × Path)}
    (h : fs.Resolving links depth pending known) (hle : fewer ≤ links) :
    fs.Resolving fewer depth pending known where
  depth_le := (settledCount_mono _ hle).trans h.depth_le
  not_settles := fun path hmem hsettles => h.not_settles path hmem (hsettles.mono hle)
  leadsOn := h.leadsOn

/-- A link that takes more links than are left for its target can be resolved inside the others. -/
theorem Resolving.enter {links fewer depth : Nat} {pending : List Path}
    {known : List (Path × Path)} (h : fs.Resolving links depth pending known) (hle : fewer ≤ links)
    {link : Path} (hsettles : Settles fs.tree links (fs.absoluteNames link))
    (hnot : ¬ Settles fs.tree fewer (fs.absoluteNames link)) :
    ∃ less, depth = less + 1 ∧ fs.Resolving fewer less (link :: pending) known := by
  have hcount := settledCount_lt hle hnot hsettles
  have hdepth := h.depth_le
  refine ⟨depth - 1, by omega, by omega, fun path hmem => ?_, h.leadsOn⟩
  rcases List.mem_cons.1 hmem with rfl | hmem
  · exact hnot
  · exact (h.mono hle).not_settles path hmem

variable (fs) in
/-- Names are resolved to a path that names the place `stop`, if at most `links` links are followed
from them. -/
def ResolvesTo (links : Nat) (here : Path) (names stop : List String) : Prop :=
  ∀ depth pending known, fs.Resolving links depth pending known →
    ∃ path known', resolveNames fs.linkOf? depth pending known here names =
        .resolved path known' ∧
      fs.Names path stop ∧ ∀ link ∈ known', fs.LeadsOn link

/-- One step: an entry that is no link. -/
theorem ResolvesTo.enter {links : Nat} {here : Path} {name : String} {rest stop : List String}
    (hname : isEntryName name = true) (hlook : fs.linkOf? (here.child name) = none)
    (h : fs.ResolvesTo links (here.child name) rest stop) :
    fs.ResolvesTo links here (name :: rest) stop := by
  intro depth pending known hresolving
  obtain ⟨expand, hvia, -⟩ := resolveNames_eq_resolveVia fs.linkOf? depth
  obtain ⟨path, known', hpath, hstop⟩ := h depth pending known hresolving
  exact ⟨path, known', by rw [← hpath, hvia, resolveVia_enter hname hlook], hstop⟩

/-- One step: a link, whose target is resolved first unless it has been before. -/
theorem ResolvesTo.follow {fewer : Nat} {here : Path} {name target : String}
    {location rest mid stop : List String} (hhere : fs.Names here location)
    (hname : isEntryName name = true)
    (hnode : fs.tree.at? (location ++ [name]) = some (.link target))
    (hmid : Leads fs.tree fewer (targetStart location target.toList) (targetNames target.toList)
      mid)
    (htarget : ∀ least ≤ fewer,
      Leads fs.tree least (targetStart location target.toList) (targetNames target.toList) mid →
        ∀ start, fs.Names start (targetStart location target.toList) →
          fs.ResolvesTo least start (targetNames target.toList) mid)
    (hrest : ∀ path, fs.Names path mid → fs.ResolvesTo fewer path rest stop) :
    fs.ResolvesTo (fewer + 1) here (name :: rest) stop := by
  intro depth pending known hresolving
  obtain ⟨expand, hvia, hexpand⟩ := resolveNames_eq_resolveVia fs.linkOf? depth
  have hnext : fs.absoluteNames (here.child name) = location ++ [name] :=
    (hhere.child hname).absoluteNames_eq
  have hlook : fs.linkOf? (here.child name) = some target := by
    rw [(hhere.child hname).linkOf?, hnode]
  have hlink : fs.tree.at? (fs.absoluteNames (here.child name)) = some (.link target) := by
    rw [hnext, hnode]
  have hleads : Leads fs.tree fewer
      (targetStart (fs.absoluteNames (here.child name)).dropLast target.toList)
      (targetNames target.toList) mid := by
    rwa [hnext, List.dropLast_concat]
  cases hmet : known.lookup (here.child name) with
  | some path =>
      obtain ⟨before, after, hsplit, -⟩ := List.lookup_eq_some_iff.1 hmet
      have hon : fs.LeadsOn (here.child name, path) := hresolving.leadsOn _ (by simp [hsplit])
      obtain ⟨last, known', hlast, hstop⟩ := hrest path (hon.names hlink hleads) depth pending known
        (hresolving.mono (Nat.le_succ fewer))
      exact ⟨last, known', by rw [← hlast, hvia, resolveVia_known hname hlook hmet], hstop⟩
  | none =>
      obtain ⟨least, hle, hleast, hmin⟩ := hleads.exists_least
      have hsettles : Settles fs.tree (fewer + 1) (fs.absoluteNames (here.child name)) :=
        ⟨target, hlink, fewer, Nat.lt_succ_self fewer, mid, hleads⟩
      have hnot : ¬ Settles fs.tree least (fs.absoluteNames (here.child name)) := by
        rintro ⟨target', htarget', n, hn, stop', h'⟩
        obtain rfl := Node.link.inj (Option.some.inj (hlink.symm.trans htarget'))
        exact hmin n hn stop' h'
      obtain ⟨less, rfl, hinside⟩ := hresolving.enter (by omega) hsettles hnot
      rw [hnext, List.dropLast_concat] at hleast
      obtain ⟨path, known', hpath, hnames, hknown'⟩ :=
        htarget least hle hleast _ (hhere.targetStart target.toList) less _ known hinside
      have hpieces : expand (here.child name :: pending) known
          (if target.toList.head? == some '/' then ⟨.root, []⟩ else here)
          (targetPieces target.toList) = .resolved path known' := by
        rw [hexpand less rfl]
        exact (resolveNames_targetPieces fs.linkOf? target.toList).2 hpath
      have hfresh : here.child name ∉ pending := fun hmem =>
        hresolving.not_settles _ hmem hsettles
      have hmore : fs.Resolving fewer (less + 1) pending ((here.child name, path) :: known') :=
        ⟨(hresolving.mono (Nat.le_succ fewer)).depth_le,
          (hresolving.mono (Nat.le_succ fewer)).not_settles,
          List.forall_mem_cons.2 ⟨⟨target, fewer, mid, hlink, hleads, hnames⟩, hknown'⟩⟩
      obtain ⟨last, known'', hlast, hstop⟩ := hrest path hnames (less + 1) pending _ hmore
      refine ⟨last, known'', ?_, hstop⟩
      rw [← hlast, hvia, resolveVia_follow hname hlook hmet hfresh hpieces]

/-- **Links are resolved where they are followed**: the path that comes out names the place that the
names lead to. -/
theorem resolvesTo_of_leads (htree : fs.tree.wellFormed = true) (links : Nat) :
    ∀ {names : List String} {here : Path} {location stop : List String},
      Leads fs.tree links location names stop → fs.Names here location →
      fs.ResolvesTo links here names stop := by
  induction links using Nat.strong_induction_on with
  | _ links ihlinks =>
      intro names
      induction names with
      | nil =>
          intro here location stop h hhere depth pending known hresolving
          obtain ⟨expand, hvia, -⟩ := resolveNames_eq_resolveVia fs.linkOf? depth
          cases h
          exact ⟨here, known, by rw [hvia]; rfl, hhere, hresolving.leadsOn⟩
      | cons name rest ih =>
          intro here location stop h hhere
          cases h with
          | dot hname _ h =>
              intro depth pending known hresolving
              obtain ⟨expand, hvia, -⟩ := resolveNames_eq_resolveVia fs.linkOf? depth
              obtain ⟨path, known', hpath, hstop⟩ := ih h hhere depth pending known hresolving
              exact ⟨path, known', by rw [← hpath, hvia, hname]; rfl, hstop⟩
          | up hname _ h =>
              intro depth pending known hresolving
              obtain ⟨expand, hvia, -⟩ := resolveNames_eq_resolveVia fs.linkOf? depth
              obtain ⟨path, known', hpath, hstop⟩ := ih h hhere.above depth pending known hresolving
              exact ⟨path, known', by rw [← hpath, hvia, hname]; rfl, hstop⟩
          | enter hdot hup hnode hlink h =>
              have hname := Node.isEntryName_of_at? htree hnode name (by simp)
              have hlook : fs.linkOf? (here.child name) = none := by
                rw [(hhere.child hname).linkOf?, hnode]
                split
                · next found => exact absurd hlink (by simp [Option.some.inj found, Node.isLink])
                · rfl
              exact .enter hname hlook (ih h (hhere.child hname))
          | @follow fewer _ _ _ _ target hdot hup hnode h =>
              have hname := Node.isEntryName_of_at? htree hnode name (by simp)
              obtain ⟨mid, hmid, hrest⟩ := h.exists_mid
              exact .follow hhere hname hnode hmid
                (fun least hle hleast start hstart => ihlinks least (by omega) hleast hstart)
                fun path hpath => ihlinks fewer (by omega) hrest hpath

/-! ### Paths that lead somewhere -/

variable (fs) in
/-- Nothing is refused while a path is resolved: all links that are met can be looked up, and not
too many of them are met inside each other. -/
def ResolvesFreely (path : Path) : Prop :=
  resolution fs.linkAt? fs.process.linkDepth path = resolution fs.linkOf? fs.tree.linkCount path

/-- Where there are no links, nothing can be refused. -/
theorem resolvesFreely_of_linkCount (h : fs.tree.linkCount = 0) (path : Path) :
    fs.ResolvesFreely path := by
  have hnone (path : Path) : fs.linkOf? path = none := by
    rw [linkOf?]
    split
    · next target hlink => exact absurd hlink (at?_ne_link h _ target)
    · rfl
  obtain ⟨expand, hvia, -⟩ := resolveNames_eq_resolveVia fs.linkAt? fs.process.linkDepth
  obtain ⟨expand', hvia', -⟩ := resolveNames_eq_resolveVia fs.linkOf? fs.tree.linkCount
  rw [ResolvesFreely, resolution, resolution, hvia, hvia']
  exact resolveVia_of_none (fun path => linkAt?_eq_none (hnone path)) hnone _ _ _ _ _ _

section
variable (htree : fs.tree.wellFormed = true) {path : Path} {node : Node}

include htree

/-- The resolution of a path that leads somewhere names the place that it leads to. -/
theorem exists_resolution (hfree : fs.ResolvesFreely path) {place : List String}
    (h : Leads fs.tree maxLinks (fs.startOf path) path.parts place)
    (hplace : (fs.tree.at? place).isSome = true) :
    ∃ found known, resolution fs.linkAt? fs.process.linkDepth path = .resolved found known ∧
      fs.Names found place := by
  have hstart : fs.Names ⟨if path.isAbsolute then .root else .relative, []⟩ (fs.startOf path) := by
    rw [startOf]
    split
    · exact .root
    · next habsolute =>
        obtain ⟨found, hfound⟩ := Option.isSome_iff_exists.1 (h.exists_start hplace)
        rw [startOf, if_neg habsolute] at hfound
        refine ⟨?_, by simp, by simp⟩
        rw [absoluteNames, normalize, List.append_nil]
        exact normalizeAfter_entries (Node.isEntryName_of_at? htree hfound) []
  rw [hfree]
  obtain ⟨found, known, hfound, hnames, -⟩ := resolvesTo_of_leads htree maxLinks h hstart
    fs.tree.linkCount [] [] ⟨settledCount_le fs.tree maxLinks, by simp, by simp⟩
  exact ⟨found, known, hfound, hnames⟩

omit htree in
/-- What a resolution names is the resolved path. -/
theorem resolvedPath?_of_names {found : Path} {known : List (Path × Path)} {place : List String}
    (h : resolution fs.linkAt? fs.process.linkDepth path = .resolved found known)
    (hnames : fs.Names found place) : fs.resolvedPath? path = some ⟨.root, place⟩ := by
  rw [resolvedPath?, h, Resolution.path?, Option.map_some, if_neg (by simpa using hnames.anchor_ne),
    hnames.absoluteNames_eq]

/-- A place of the tree is looked up without following links. -/
theorem stat_place_ne {place : List String} (hplace : fs.tree.at? place = some node)
    (hlink : node.isLink = false) : fs.stat ⟨.root, place⟩ ≠ .error .tooManyLinks := by
  have hfollow : fs.follow ⟨.root, place⟩ = .ok place ∨
      ∃ cause, fs.follow ⟨.root, place⟩ = .error cause ∧ cause.isRefusal = true := by
    rw [follow]
    split
    · exact Or.inr ⟨.nameTooLong, rfl, rfl⟩
    · obtain ⟨expand, hexpand⟩ := exists_descend fs.tree fs.process.maySearch maxLinks
      have hsteps : steps ⟨.root, place⟩ = place :=
        if_neg fun h => absurd (Path.mk.inj h).1 (by decide)
      rw [hsteps, hexpand]
      exact descend_of_at? fs.process.maySearch expand [] (Node.isEntryName_of_at? htree hplace)
        hplace hlink
  rcases hfollow with hfollow | ⟨cause, hfollow, hcause⟩
  · rw [stat_eq_ok_iff.2 ⟨place, hfollow, hplace⟩]
    simp
  · rw [(stat_eq_refusal_iff hcause).2 hfollow]
    rintro h
    exact absurd hcause (by rw [Except.error.inj h]; decide)

/-- A path that leads to a node has no null character. -/
theorem hasNull_of_stat (h : fs.stat path = .ok node) : hasNull path = false := by
  obtain ⟨place, -, -, hleads⟩ := exists_location h
  simpa [hasNull] using hleads.null_not_mem htree

/-- The resolved form of a path is that of the place that its resolution names. -/
theorem resolve_of_names (hnull : hasNull path = false) {found : Path}
    {known : List (Path × Path)} {place : List String}
    (hfound : resolution fs.linkAt? fs.process.linkDepth path = .resolved found known)
    (hnames : fs.Names found place) (hnode : fs.tree.at? place = some node)
    (hlink : node.isLink = false) : fs.resolve path = .ok ⟨.root, place⟩ := by
  have hstat := stat_place_ne htree hnode hlink
  rw [resolve, hnull, if_neg (by simp), resolvedPath?_of_names hfound hnames]
  dsimp only
  split
  · next hmany => exact absurd hmany hstat
  · rfl

/-- The resolved form of a path that leads to a file or directory. -/
theorem resolve_of_stat (hfree : fs.ResolvesFreely path) (h : fs.stat path = .ok node)
    (hlink : node.isLink = false) :
    ∃ place, fs.location? path = some place ∧ fs.tree.at? place = some node ∧
      fs.resolve path = .ok ⟨.root, place⟩ := by
  obtain ⟨place, hlocation, hnode, hleads⟩ := exists_location h
  obtain ⟨found, known, hfound, hnames⟩ := exists_resolution htree hfree hleads (by rw [hnode]; rfl)
  exact ⟨place, hlocation, hnode,
    resolve_of_names htree (hasNull_of_stat htree h) hfound hnames hnode hlink⟩

/-- The resolved form of a path that leads straight on from there to a file or directory.  It does
not matter if the longer path itself could be looked up. -/
theorem resolve_below (hfree : fs.ResolvesFreely path) (h : fs.stat path = .ok node)
    {names : List String} {below : Node} (hbelow : node.at? names = some below)
    (hlink : below.isLink = false) :
    ∃ place, fs.location? path = some place ∧
      fs.resolve ⟨path.anchor, path.parts ++ names⟩ = .ok ⟨.root, place ++ names⟩ := by
  obtain ⟨place, hlocation, hnode, hleads⟩ := exists_location h
  obtain ⟨found, known, hfound, hnames⟩ := exists_resolution htree hfree hleads (by rw [hnode]; rfl)
  have hat : fs.tree.at? (place ++ names) = some below := by
    rw [Node.at?_append, hnode, Option.bind_some, hbelow]
  have hentries : ∀ name ∈ names, isEntryName name = true := fun name hname =>
    Node.isEntryName_of_at? htree hat name (List.mem_append_right _ hname)
  have hlook (before : List String) (hbefore : before <+: names) :
      fs.linkAt? ⟨found.anchor, found.parts ++ before⟩ = none := by
    obtain ⟨after, rfl⟩ := hbefore
    rw [Node.at?_append, Option.bind_eq_some_iff] at hbelow
    obtain ⟨next, hnext, hbelow⟩ := hbelow
    refine linkAt?_eq_none ?_
    have hplace := hnames.append fun name hname => hentries name (List.mem_append_left _ hname)
    rw [hplace.linkOf?, Node.at?_append, hnode, Option.bind_some, hnext]
    cases next with
    | file content => rfl
    | directory entries => rfl
    | link target =>
        -- a link has nothing below it, so it would be the last node
        cases after with
        | nil => exact absurd hlink (by rw [← Option.some.inj hbelow]; simp [Node.isLink])
        | cons name after => exact absurd hbelow (by simp [Node.child?])
  have hresolution : resolution fs.linkAt? fs.process.linkDepth
      ⟨path.anchor, path.parts ++ names⟩ =
        .resolved ⟨found.anchor, found.parts ++ names⟩ known := by
    obtain ⟨expand, hvia, -⟩ := resolveNames_eq_resolveVia fs.linkAt? fs.process.linkDepth
    rw [resolution, hvia] at hfound ⊢
    exact (resolveVia_append hfound names).trans
      (resolveVia_entries expand [] known hentries hlook)
  have hnull : hasNull ⟨path.anchor, path.parts ++ names⟩ = false := by
    have hpath := hasNull_of_stat htree h
    simp only [hasNull, List.any_append, Bool.or_eq_false_iff] at hpath ⊢
    refine ⟨hpath, List.any_eq_false.2 fun name hname => ?_⟩
    simpa using (isEntryName_iff.1 (hentries name hname)).2.2.2.2
  exact ⟨place, hlocation,
    resolve_of_names htree hnull hresolution (hnames.append hentries) hat hlink⟩

end

/-- A resolved path lies below a resolved root if the names of its place begin with those of the
root's. -/
theorem relativePath_of_resolve {file root : Path} {place base : List String}
    (hfile : fs.resolve file = .ok ⟨.root, place⟩) (hroot : fs.resolve root = .ok ⟨.root, base⟩) :
    fs.relativePath file root =
      if base.isPrefixOf place then .ok ⟨.relative, place.drop base.length⟩
      else .error (.outside (Path.render ⟨.root, place⟩) (Path.render ⟨.root, base⟩)) := by
  simp only [relativePath, resolved, hfile, hroot, Except.mapError, bind, Except.bind, Path.below?,
    beq_self_eq_true, Bool.true_and]
  by_cases hbelow : base.isPrefixOf place = true
  · rw [if_pos hbelow, if_pos hbelow]
    rfl
  · rw [if_neg hbelow, if_neg hbelow]
    rfl

end

end FileSystem

end SourceOutline
