/-
**Failures.**

Main definitions:

* `Failure` — why a request cannot be answered;
* `Failure.message` — the wording;
* `Failure.isMistake` — failures that a request itself is to blame for.
-/

import SourceOutline.FileSystem.Resolve
import SourceOutline.Yaml.Loader

set_option autoImplicit false

namespace SourceOutline

/-- Why a request cannot be answered. -/
inductive Failure where
  /-- No directory above the start belongs to a repository. -/
  | noRepository (start : String)
  /-- The file does not exist. -/
  | fileNotFound (file : String)
  /-- The file is none that can be outlined. -/
  | unsupported (file : String)
  /-- The file does not lie below the root. -/
  | outside (file root : String)
  /-- The path has no resolved form. -/
  | unresolved (e : FileSystem.ResolveError)
  /-- The file system refuses. -/
  | refused (e : FileSystem.Error)
  /-- The loader of documents fails on the settings. -/
  | settings (e : Yaml.Error)
  /-- Directories are nested too deep to be searched. -/
  | tooDeep
  deriving DecidableEq, Repr

namespace Failure

/-- The wording of a failure. -/
def message : Failure → String
  | noRepository start => "Not in a git repository: " ++ start
  | fileNotFound file => "File not found: " ++ file
  | unsupported file => "Unsupported file type: " ++ file
  | outside file root =>
    Text.quoted file ++ " is not in the subpath of " ++ Text.quoted root ++
      " OR one path is relative and the other is absolute."
  | unresolved e => e.message
  | refused e => e.message
  | settings e => e.message
  | tooDeep => FileSystem.tooDeepMessage

/-- Whether the request itself is to blame: it names no file that can be outlined in a repository. -/
def isMistake : Failure → Bool
  | noRepository _ | fileNotFound _ | unsupported _ | outside _ _ => true
  | unresolved .nullCharacter => true
  | refused ⟨.missing, _⟩ => true
  | _ => false

end Failure

end SourceOutline
