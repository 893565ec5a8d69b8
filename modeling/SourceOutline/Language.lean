/-
**Which files are outlined.**

Main definitions:

* `sourceSuffixes` — the suffixes of the files that can be outlined;
* `Path.isSource` — whether a path names such a file; case does not matter.
-/

import SourceOutline.FileSystem.Path

set_option autoImplicit false

namespace SourceOutline

/-- The suffixes of the files that can be outlined. -/
def sourceSuffixes : List String :=
  [".js", ".mjs", ".cjs", ".jsx"]

/-- Whether a path names a file that can be outlined. -/
def Path.isSource (path : Path) : Bool :=
  sourceSuffixes.contains (.ofList path.lowerSuffix)

end SourceOutline
