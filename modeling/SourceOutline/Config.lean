/-
**Which files a search visits.**

A repository can say in a file at its root which suffixes its source files have and which
directories are left out.  A file that cannot be read or makes no sense changes nothing, and a
setting that is no list of texts keeps its default.  Some errors of the loader of documents are not
expected, though, and leave no settings at all.

Main definitions:

* `ScanConfig`, `ScanConfig.default` — the settings;
* `ScanConfig.hasExtension`, `ScanConfig.excludes` — what they say of a name;
* `ScanConfig.ofDocument` — the settings in a document;
* `ScanConfig.ofOctets` — the settings in the octets of a file.
-/

import SourceOutline.Language
import SourceOutline.Text.LowerCase
import SourceOutline.Yaml.Loader

set_option autoImplicit false

namespace SourceOutline

open Text

/-- The name of the file with the settings. -/
def configFileName : String := ".jsoutline"

/-- The settings of a search.  Escapes in the file can write texts that no name of a file is. -/
structure ScanConfig where
  /-- The suffixes of source files; case does not matter. -/
  extensions : List (List CodePoint)
  /-- The names of directories that are left out. -/
  excludedDirectories : List (List CodePoint)
  deriving DecidableEq, Repr

namespace ScanConfig

/-- The settings with given suffixes and names. -/
def ofNames (extensions excluded : List String) : ScanConfig :=
  let points (name : String) : List CodePoint := CodePoint.ofText name.toList
  ⟨extensions.map points, excluded.map points⟩

/-- The settings of a repository that has none of its own. -/
def default : ScanConfig :=
  ofNames sourceSuffixes ["node_modules", "dist", "build", "coverage"]

/-- Whether a suffix is one of those of source files. -/
def hasExtension (config : ScanConfig) (suffix : List Char) : Bool :=
  (config.extensions.map lowerPoints).contains (CodePoint.ofText (lower suffix))

/-- Whether a directory of a given name is left out. -/
def excludes (config : ScanConfig) (name : String) : Bool :=
  config.excludedDirectories.contains (CodePoint.ofText name.toList)

/-- A suffix with its dot. -/
def withDot (extension : List CodePoint) : List CodePoint :=
  if extension.head? == some (.char '.') then extension else .char '.' :: extension

/-- A setting in a mapping: the list of texts under a name, if there is one. -/
def setting? (document : Yaml.Document) (mapping : Nat) (name : String) :
    Option (List (List CodePoint)) :=
  (document.field? mapping name).bind document.strings?

/-- The settings under `scan` in a document. -/
def ofDocument (document : Yaml.Document) : ScanConfig :=
  if document.isMapping document.root then
    match document.field? document.root "scan" with
    | none => default
    | some scan =>
      if document.isMapping scan then
        let extensions := (setting? document scan "extensions").getD default.extensions
        let excluded := (setting? document scan "exclude_dirs").getD default.excludedDirectories
        ⟨extensions.map withDot, excluded⟩
      else
        default
  else
    default

/-- The settings in a file's octets.  An error that is not expected stays one; any other means the
default. -/
def ofOctets (load : Yaml.Loader) (octets : List UInt8) : Except Yaml.Error ScanConfig :=
  match load octets with
  | .ok document => .ok (ofDocument document)
  | .error e => if e.kind.isHandled then .ok default else .error e

theorem withDot_head (extension : List CodePoint) :
    (withDot extension).head? = some (.char '.') := by
  unfold withDot
  split
  · next h => simpa using h
  · rfl

end ScanConfig

end SourceOutline
