/-
**File system errors.**

Main definitions:

* `FileSystem.Cause` — why a path could not be used;
* `FileSystem.Cause.isRefusal` — the causes that leave open whether anything is there;
* `FileSystem.Error`, `FileSystem.Error.message` — a cause and the path it was met at.
-/

import SourceOutline.Text.Quoted

set_option autoImplicit false

namespace SourceOutline.FileSystem

/-- Why a path could not be used. -/
inductive Cause where
  /-- No entry of that name. -/
  | missing
  /-- A directory on the way may not be searched, or what is there may not be read. -/
  | denied
  /-- A component that is to be entered is no directory. -/
  | notDirectory
  /-- A directory is read as a file. -/
  | isDirectory
  /-- A component or the whole path is too long. -/
  | nameTooLong
  /-- More links than may be followed. -/
  | tooManyLinks
  deriving DecidableEq, Repr

/-- The number of a cause. -/
def Cause.number : Cause → Nat
  | missing => 2
  | denied => 13
  | notDirectory => 20
  | isDirectory => 21
  | nameTooLong => 36
  | tooManyLinks => 40

/-- The wording of a cause. -/
def Cause.wording : Cause → String
  | missing => "No such file or directory"
  | denied => "Permission denied"
  | notDirectory => "Not a directory"
  | isDirectory => "Is a directory"
  | nameTooLong => "File name too long"
  | tooManyLinks => "Too many levels of symbolic links"

/-- Whether a cause leaves it open if anything is at the path. -/
def Cause.isRefusal : Cause → Bool
  | denied | nameTooLong => true
  | missing | notDirectory | isDirectory | tooManyLinks => false

/-- A cause, and the path as it was given. -/
structure Error where
  cause : Cause
  path : String
  deriving DecidableEq, Repr

/-- The message of an error. -/
def Error.message (e : Error) : String :=
  "[Errno " ++ toString e.cause.number ++ "] " ++ e.cause.wording ++ ": " ++ Text.quoted e.path

end SourceOutline.FileSystem
