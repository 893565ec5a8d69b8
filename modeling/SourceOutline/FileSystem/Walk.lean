/-
**Following a path.**

A path is followed name by name, through directories that the process may search.  A link on the
way is replaced by its target, and no more than forty links are followed in all.

Main definitions:

* `FileSystem.Process` — what a process may do, and how deep its calls can be nested;
* `FileSystem` — a tree and the working directory of a process;
* `FileSystem.targetNames` — the names of a link's target;
* `FileSystem.descend`, `FileSystem.walk` — where names lead from a directory;
* `FileSystem.follow`, `FileSystem.location?` — the place that a path leads to;
* `FileSystem.stat`, `FileSystem.read` — the node at the end of a path, and the content of a file;
* `FileSystem.exists?`, `FileSystem.isFile?` — tests of a path.
-/

import SourceOutline.FileSystem.Error
import SourceOutline.FileSystem.Node
import SourceOutline.FileSystem.Path

set_option autoImplicit false

namespace SourceOutline

open Text

/-- What a process may do with the places of a tree, and how deep its calls can be nested. -/
structure FileSystem.Process where
  /-- Whether the file or the list of entries at a place may be read. -/
  mayRead : List String → Bool
  /-- Whether names may be looked up in the directory at a place. -/
  maySearch : List String → Bool
  /-- How many directories, each inside the one before, a search below a root can go into. -/
  directoryDepth : Nat
  /-- How many links, each met while the one before is resolved, can be resolved. -/
  linkDepth : Nat

/-- A process that may do everything and has most of a thousand nested calls left. -/
def FileSystem.Process.free : FileSystem.Process :=
  ⟨fun _ => true, fun _ => true, 980, 980⟩

/-- A tree of files, the names that lead from its root to the working directory, and the process
that works there. -/
structure FileSystem where
  tree : FileSystem.Node
  workingDirectory : List String
  process : FileSystem.Process

namespace FileSystem

/-- The names of a link's target.  Single dots are kept, and a slash at the end counts as one: what
the target leads to must then be a directory. -/
def targetNames (target : List Char) : List String :=
  let names := ((splitOn '/' target).filter (!·.isEmpty)).map String.ofList
  if target.getLast? == some '/' then names ++ ["."] else names

/-- Where a link of the directory `here` starts from: the root or the directory itself. -/
def targetStart (here : List String) (target : List Char) : List String :=
  if target.head? == some '/' then [] else here

/-- The longest name of an entry, in octets. -/
def maxName : Nat := 255

/-- The longest path, in octets. -/
def maxPath : Nat := 4095

/-- The most links that are followed on one path. -/
def maxLinks : Nat := 40

/-- Where names lead from the directory `here` in a tree; `expand` goes on from a directory with the
names of a link's target and those left. -/
def descend (tree : Node) (maySearch : List String → Bool)
    (expand : List String → List String → Except Cause (List String))
    (here : List String) : List String → Except Cause (List String)
  | [] => .ok here
  | name :: rest =>
    match tree.at? here with
    | some (.directory entries) =>
      if !maySearch here then
        .error .denied
      else if name == "." then
        descend tree maySearch expand here rest
      else if name == ".." then
        descend tree maySearch expand here.dropLast rest
      else if name.utf8ByteSize > maxName then
        .error .nameTooLong
      else
        match Node.lookup name entries with
        | none => .error .missing
        | some (.link target) =>
          expand (targetStart here target.toList) (targetNames target.toList ++ rest)
        | some _ => descend tree maySearch expand (here ++ [name]) rest
    | _ => .error .notDirectory

/-- Where names lead from a directory if at most `links` links are followed. -/
def walk (tree : Node) (maySearch : List String → Bool) :
    (links : Nat) → (here names : List String) → Except Cause (List String)
  | 0 => descend tree maySearch fun _ _ => .error .tooManyLinks
  | links + 1 => descend tree maySearch (walk tree maySearch links)

section
variable (fs : FileSystem)

/-- The names from which a path's components lead on. -/
def startOf (path : Path) : List String :=
  if path.isAbsolute then [] else fs.workingDirectory

/-- The names that are followed for a path.  The working directory itself is followed as a dot. -/
def steps (path : Path) : List String :=
  if path = ⟨.relative, []⟩ then ["."] else path.parts

/-- The place that a path leads to, links followed. -/
def follow (path : Path) : Except Cause (List String) :=
  if path.render.utf8ByteSize > maxPath then
    .error .nameTooLong
  else
    walk fs.tree fs.process.maySearch maxLinks (fs.startOf path) (steps path)

/-- The place that a path leads to, if it can be followed. -/
def location? (path : Path) : Option (List String) :=
  (fs.follow path).toOption

/-- The node at the end of a path, links followed. -/
def stat (path : Path) : Except Cause Node := do
  let place ← fs.follow path
  match fs.tree.at? place with
  | some node => return node
  | none => throw .missing

/-- Whether what a path leads to may be read. -/
def isReadable (path : Path) : Bool :=
  (fs.location? path).any fs.process.mayRead

/-- The content of the file at the end of a path. -/
def read (path : Path) : Except Error (List UInt8) :=
  match fs.stat path with
  | .error cause => .error ⟨cause, path.render⟩
  | .ok node =>
    if fs.isReadable path then
      match node with
      | .file content => .ok content
      | _ => .error ⟨.isDirectory, path.render⟩
    else
      .error ⟨.denied, path.render⟩

/-- Whether a path has a null character, which no path of a file system can. -/
def hasNull (path : Path) : Bool :=
  path.parts.any (·.toList.contains '\x00')

/-- Whether a path leads to a node that passes a test.  A path that leads nowhere does not; one that
cannot be looked up is an error. -/
def leadsTo (test : Node → Bool) (path : Path) : Except Error Bool :=
  if hasNull path then
    .ok false
  else
    match fs.stat path with
    | .ok node => .ok (test node)
    | .error cause => if cause.isRefusal then .error ⟨cause, path.render⟩ else .ok false

/-- Whether a path leads to anything. -/
def exists? (path : Path) : Except Error Bool :=
  fs.leadsTo (fun _ => true) path

/-- Whether a path leads to a file. -/
def isFile? (path : Path) : Except Error Bool :=
  fs.leadsTo Node.isFile path

end

end FileSystem

end SourceOutline
