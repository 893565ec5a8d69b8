/-
**Changing a file system.**

Links on the way to a path are followed, and directories that are missing are made.

Main definitions:

* `FileSystem.newPlace` — the place that a path would lead to;
* `FileSystem.writeFile`, `FileSystem.makeDirectory` — add an entry.
-/

import SourceOutline.FileSystem.Resolve

set_option autoImplicit false

namespace SourceOutline.FileSystem

section
variable (fs : FileSystem)

/-- The place that a path would lead to if the names that lead nowhere were those of entries. -/
def newPlace (path : Path) : List String :=
  path.parts.foldl (fun here name =>
    (walk fs.tree fs.process.maySearch maxLinks here [name]).toOption.getD
      (normalizeAfter here [name])) (fs.startOf path)

/-- The file system with a node where a path leads, or would lead. -/
def putAt (path : Path) (node : Node) : FileSystem :=
  { fs with tree := fs.tree.put ((fs.location? path).getD (fs.newPlace path)) node }

/-- The file system with a file at a path. -/
def writeFile (path : Path) (content : List UInt8) : FileSystem :=
  fs.putAt path (.file content)

/-- The file system with a directory at a path. -/
def makeDirectory (path : Path) : FileSystem :=
  fs.putAt path (.directory [])

end

end SourceOutline.FileSystem
