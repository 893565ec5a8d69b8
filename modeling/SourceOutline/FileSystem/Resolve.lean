/-
**Resolved paths.**

A path is made absolute and free of links without requiring that it leads anywhere: names that are
missing are kept, and a double dot removes the name before it.  So is a name that cannot be looked
up, because the path to it is too long or leads through a directory that may not be searched.  A
link that leads back to itself cannot be resolved; what is left of the path is then kept as it
stands.  Each link is resolved inside the one whose target it is met in, which takes a call; but it
is resolved once only.

Main definitions:

* `FileSystem.normalize` — double dots removed by the text of a path alone;
* `FileSystem.linkOf?`, `FileSystem.linkAt?` — the link at a path, and if it can be looked up;
* `FileSystem.Resolution` — how far links could be resolved;
* `FileSystem.resolveNames`, `FileSystem.resolution` — the resolution of names from a path, and of a
  whole path;
* `FileSystem.resolve` — the resolved path;
* `FileSystem.ResolveError` — why a path has none.
-/

import SourceOutline.FileSystem.Walk

set_option autoImplicit false

namespace SourceOutline.FileSystem

open Text

/-- The names below `done` after double dots have removed the names before them. -/
def normalizeAfter (done : List String) : List String → List String
  | [] => done
  | name :: rest =>
    if name == "." then normalizeAfter done rest
    else if name == ".." then normalizeAfter done.dropLast rest
    else normalizeAfter (done ++ [name]) rest

/-- Names without dots: a double dot removes the name before it. -/
def normalize (names : List String) : List String :=
  normalizeAfter [] names

/-- The names that lead from the root to a path, by its text alone. -/
def absoluteNames (fs : FileSystem) (path : Path) : List String :=
  normalize (fs.startOf path ++ path.parts)

/-! ### Links on the way -/

section
variable (fs : FileSystem)

/-- The target of the link at a path that has no link before its last name. -/
def linkOf? (path : Path) : Option String :=
  match fs.tree.at? (fs.absoluteNames path) with
  | some (.link target) => some target
  | _ => none

/-- Whether the last name of such a path can be looked up: neither the path nor a name is too long,
and all directories on the way may be searched. -/
def canLookUp (path : Path) : Bool :=
  decide (path.render.utf8ByteSize ≤ maxPath) &&
    path.parts.all (fun name => decide (name.utf8ByteSize ≤ maxName)) &&
    path.ancestors.tail.all fun directory => fs.process.maySearch (fs.absoluteNames directory)

/-- The target of the link at such a path, if its last name can be looked up. -/
def linkAt? (path : Path) : Option String :=
  if fs.canLookUp path then fs.linkOf? path else none

end

/-! ### Resolving names -/

/-- How far links could be resolved. -/
inductive Resolution where
  /-- All links are resolved; `known` holds those met so far and the paths that they lead to. -/
  | resolved (path : Path) (known : List (Path × Path))
  /-- A link leads back to itself; the names from it on are as they stand. -/
  | stuck (path : Path)
  /-- More links are met inside each other than can be resolved. -/
  | tooDeep
  deriving DecidableEq, Repr

/-- The path of a resolution. -/
def Resolution.path? : Resolution → Option Path
  | resolved path _ => some path
  | stuck path => some path
  | tooDeep => none

/-- The path one level up.  From a path that already leads out of the working directory, this is one
level further out. -/
def above (path : Path) : Path :=
  match path.anchor, path.parts.getLast? with
  | .relative, none => path.child ".."
  | .relative, some ".." => path.child ".."
  | _, _ => path.parent

/-- The pieces of a link's target between slashes, empty ones included; a slash at its head apart. -/
def targetPieces (target : List Char) : List String :=
  let text := if target.head? == some '/' then target.tail else target
  (splitOn '/' text).map String.ofList

/-- A path that cannot be resolved, with what is left after it.  That is taken as a text: one that
begins with a slash stands for itself. -/
def attach (path : Path) (rest : List String) : Path :=
  path.join (Path.parse ("/".intercalate rest))

section
variable (look : Path → Option String)

/-- The resolution of `names` from the resolved path `here`, while the links in `pending` are being
resolved and those in `known` are resolved; `look` gives the target of the link at a path, and
`expand` resolves it.  A link counts as met before if it is met under the same path. -/
def resolveVia (expand : List Path → List (Path × Path) → Path → List String → Resolution)
    (pending : List Path) (known : List (Path × Path)) (here : Path) : List String → Resolution
  | [] => .resolved here known
  | name :: rest =>
    if name == "." || name.isEmpty then
      resolveVia expand pending known here rest
    else if name == ".." then
      resolveVia expand pending known (above here) rest
    else
      let next := here.child name
      match look next with
      | some target =>
        match known.lookup next with
        | some path => resolveVia expand pending known path rest
        | none =>
          if pending.contains next then
            .stuck (attach next rest)
          else
            let start := if target.toList.head? == some '/' then ⟨.root, []⟩ else here
            match expand (next :: pending) known start (targetPieces target.toList) with
            | .resolved path known =>
              resolveVia expand pending ((next, path) :: known) path rest
            | .stuck path => .stuck (attach path rest)
            | .tooDeep => .tooDeep
      -- a name that is missing is kept like one that is there
      | none => resolveVia expand pending known next rest

/-- The resolution of names, with links met at most `depth` deep inside each other. -/
def resolveNames : (depth : Nat) → (pending : List Path) → (known : List (Path × Path)) →
    (here : Path) → (names : List String) → Resolution
  | 0 => resolveVia look fun _ _ _ _ => .tooDeep
  | depth + 1 => resolveVia look (resolveNames depth)

/-- The resolution of a path. -/
def resolution (depth : Nat) (path : Path) : Resolution :=
  resolveNames look depth [] [] ⟨if path.isAbsolute then .root else .relative, []⟩ path.parts

end

/-- The absolute path that a path stands for, links resolved as far as that is possible. -/
def resolvedPath? (fs : FileSystem) (path : Path) : Option Path :=
  (resolution fs.linkAt? fs.process.linkDepth path).path?.map fun found =>
    ⟨if found.anchor == .doubleRoot then .doubleRoot else .root, fs.absoluteNames found⟩

/-- Why a path cannot be resolved. -/
inductive ResolveError where
  /-- A null character is in the path. -/
  | nullCharacter
  /-- The path, as far as it is resolved, leads into a loop of links. -/
  | linkLoop (path : String)
  /-- More links are met inside each other than can be resolved. -/
  | tooDeep
  deriving DecidableEq, Repr

/-- The message of calls that are nested too deep. -/
def tooDeepMessage : String := "maximum recursion depth exceeded"

/-- The message of an error. -/
def ResolveError.message : ResolveError → String
  | nullCharacter => "embedded null byte"
  | linkLoop path => "Symlink loop from " ++ Text.quoted path
  | tooDeep => tooDeepMessage

/-- The absolute path without links that a path stands for. -/
def resolve (fs : FileSystem) (path : Path) : Except ResolveError Path :=
  if hasNull path then
    .error .nullCharacter
  else
    match fs.resolvedPath? path with
    | none => .error .tooDeep
    | some absolute =>
      match fs.stat absolute with
      | .error .tooManyLinks => .error (.linkLoop absolute.render)
      | _ => .ok absolute

end SourceOutline.FileSystem
