/-
**Repositories.**

A repository is a directory with an entry `.git`, and all that lies below.

Main definitions:

* `FileSystem.repositoryRoot` — the nearest repository around a path;
* `FileSystem.relativePath` — a file's path as seen from a root;
* `FileSystem.sourceFiles` — the source files below a root that the settings select;
* `FileSystem.scanConfig` — the settings of a repository.
-/

import SourceOutline.Config
import SourceOutline.Failure

set_option autoImplicit false

namespace SourceOutline.FileSystem

open Text

section
variable (fs : FileSystem)

/-- The working directory as a path. -/
def workingPath : Path :=
  ⟨.root, fs.workingDirectory⟩

/-- The resolved form of a path. -/
def resolved (path : Path) : Except Failure Path :=
  (fs.resolve path).mapError .unresolved

/-- The first of several paths that has an entry `.git`. -/
def firstWithGit : List Path → Except Failure (Option Path)
  | [] => .ok none
  | path :: rest => do
    if ← (fs.exists? (path.child ".git")).mapError .refused then
      return some path
    else
      firstWithGit rest

/-- The nearest directory at or above a path that has an entry `.git`. -/
def repositoryRoot (start : Path) : Except Failure Path := do
  let current ← fs.resolved start
  let isFile ← (fs.isFile? current).mapError .refused
  let directory := if isFile then current.parent else current
  match ← fs.firstWithGit directory.ancestors with
  | some root => return root
  | none => throw (.noRepository start.render)

/-- The path of a file as seen from a root, both resolved. -/
def relativePath (file root : Path) : Except Failure Path := do
  let file ← fs.resolved file
  let root ← fs.resolved root
  match file.below? root with
  | some parts => return ⟨.relative, parts⟩
  | none => throw (.outside file.render root.render)

end

/-! ### Source files -/

/-- What a search selects: the names of directories that it enters and of files that it lists. -/
structure Selection where
  entersDirectory : String → Bool
  listsFile : String → Bool

/-- The selection that settings ask for.  Hidden directories are never entered. -/
def Selection.ofConfig (config : ScanConfig) : Selection where
  entersDirectory name :=
    name.toList.head? != some '.' && !config.excludes name
  listsFile name := config.hasExtension (Path.suffixOf name.toList)

/-- A search: what it selects, and what it finds about the entries that names lead to. -/
structure Search extends Selection where
  /-- Whether the directory can be listed. -/
  canList : List String → Bool
  /-- Whether the link leads to a directory. -/
  isDirectory : List String → Bool

mutual

/-- The names that lead from a directory to the files that are selected below it, where `above` are
the names that lead to it. -/
def selected (search : Search) (above : List String) : Node → List (List String)
  | .directory entries => selectedEntries search above entries
  | _ => []

/-- The names that lead to the selected files among and below the entries of a directory.  A
directory that cannot be listed is passed over, and a link to a directory is no file. -/
def selectedEntries (search : Search) (above : List String) :
    List (String × Node) → List (List String)
  | [] => []
  | (name, node) :: rest =>
    let here := above ++ [name]
    let asFile := if search.listsFile name then [here] else []
    let found :=
      match node with
      | .directory entries =>
        if search.entersDirectory name && search.canList here then
          selectedEntries search here entries
        else
          []
      | .link _ => if search.isDirectory here then [] else asFile
      | .file _ => asFile
    found ++ selectedEntries search above rest

end

mutual

/-- How many directories, each inside the one before, a search of a directory goes into. -/
def nesting (search : Search) (above : List String) : Node → Nat
  | .directory entries => nestingEntries search above entries
  | _ => 0

/-- How many directories, each inside the one before, a search of entries goes into.  It goes into
one that turns out not to be listed, and it comes as far as a link to a directory. -/
def nestingEntries (search : Search) (above : List String) : List (String × Node) → Nat
  | [] => 0
  | (name, node) :: rest =>
    let here := above ++ [name]
    let depth :=
      match node with
      | .directory entries =>
        if search.entersDirectory name then
          (if search.canList here then nestingEntries search here entries else 0) + 1
        else
          0
      | .link _ => if search.entersDirectory name && search.isDirectory here then 1 else 0
      | .file _ => 0
    max depth (nestingEntries search above rest)

end

section
variable (fs : FileSystem)

/-- Whether a path leads to a directory. -/
def leadsToDirectory (path : Path) : Bool :=
  match fs.stat path with
  | .ok node => node.isDirectory
  | .error _ => false

/-- The path under which a search below a root looks at an entry.  The working directory is written
as a dot there, which counts for the length of the path. -/
def searchPath (root : Path) (names : List String) : Path :=
  if root = ⟨.relative, []⟩ then ⟨.relative, "." :: names⟩ else ⟨root.anchor, root.parts ++ names⟩

/-- The search below a root that settings ask for. -/
def searchBelow (root : Path) (config : ScanConfig) : Search where
  toSelection := .ofConfig config
  canList names :=
    fs.leadsToDirectory (searchPath root names) && fs.isReadable (searchPath root names)
  isDirectory names := fs.leadsToDirectory (searchPath root names)

/-- The source files below a root that the settings select, in the order of paths.  A root that
cannot be listed has none, and directories that are nested too deep end the search. -/
def sourceFiles (root : Path) (config : ScanConfig) : Except Failure (List Path) :=
  if hasNull root then
    .error (.unresolved .nullCharacter)
  else
    let search := fs.searchBelow root config
    match fs.stat root with
    | .error _ => .ok []
    | .ok node =>
      if !search.canList [] then
        .ok []
      else if fs.process.directoryDepth < nesting search [] node then
        .error .tooDeep
      else
        let found := selected search [] node
        let paths := found.map fun names => Path.mk root.anchor (root.parts ++ names)
        .ok (paths.mergeSort Path.precedes)

/-- The settings of the repository with a given root. -/
def scanConfig (load : Yaml.Loader) (root : Path) : Except Failure ScanConfig := do
  let path := root.child configFileName
  if ← (fs.exists? path).mapError .refused then
    match fs.read path with
    | .ok octets => (ScanConfig.ofOctets load octets).mapError .settings
    | .error _ => return .default
  else
    return .default

end

end SourceOutline.FileSystem
