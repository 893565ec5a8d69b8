/-
**Looking things up in a repository.**

Main definitions:

* `FileSystem.sourceText` — the text of a source file;
* `FileSystem.outlineOf` — the outline of one file;
* `Element.answersTo`, `FileSystem.find` — the first element of a name in a file;
* `FileSystem.locate` — all elements of a name in a repository.
-/

import SourceOutline.Outline
import SourceOutline.Repository
import SourceOutline.Text.Utf8

set_option autoImplicit false

namespace SourceOutline

open Text

namespace FileSystem

/-- The text that octets hold, invalid parts replaced and line ends unified. -/
def sourceText (octets : List UInt8) : List Char :=
  unifyNewlines (Utf8.decodeLossy octets)

section
variable (fs : FileSystem)

/-- The root that is given, or that of the repository around the working directory. -/
def rootOr (root : Option Path) : Except Failure Path :=
  match root with
  | some root => .ok root
  | none => fs.repositoryRoot fs.workingPath

/-- The outline of a file, whose path is taken from the root if it is not absolute. -/
def outlineOf (file : String) (root : Option Path) : Except Failure (Reported Outline) := do
  let root ← fs.rootOr root
  let path := root.join (Path.parse file)
  if !(← (fs.exists? path).mapError .refused) then
    throw (.fileNotFound file)
  else if !path.isSource then
    throw (.unsupported file)
  else
    let octets ← (fs.read path).mapError .refused
    let relative ← fs.relativePath path root
    return (SourceFile.ofText relative.render (sourceText octets)).outline

end

end FileSystem

/-! ### One file -/

/-- The text before and after the last dot. -/
def splitAtLastDot (text : List Char) : List Char × List Char :=
  let after := (text.reverse.takeWhile (· != '.')).reverse
  (text.take (text.length - after.length - 1), after)

/-- Whether an element is meant by a name: `Class.method` means a method, and a name without a dot
any element. -/
def Element.answersTo (element : Element) (name : String) : Bool :=
  if name.toList.contains '.' then
    let (owner, method) := splitAtLastDot name.toList
    element.kind == .method && element.className == some (.ofList owner) &&
      element.name == .ofList method
  else
    element.name == name

namespace FileSystem

section
variable (fs : FileSystem)

/-- The first element of a file's outline that a name means. -/
def find (file name : String) (root : Option Path) : Except Failure (Reported (Option Element)) := do
  let outline ← fs.outlineOf file root
  return ⟨outline.value.elements.find? (·.answersTo name), outline.warnings⟩

/-! ### All files -/

/-- The elements of a name in several files.  A file that cannot be read is left out. -/
def locateIn (root : Path) (name : String) : List Path → Reported (Except Failure (List Element))
  | [] => ⟨.ok [], []⟩
  | file :: rest =>
    if file.isSource then
      match fs.read file with
      | .error e =>
        let others := locateIn root name rest
        ⟨others.value, .unreadable file.render e :: others.warnings⟩
      | .ok octets =>
        match fs.relativePath file root with
        | .error failure => ⟨.error failure, []⟩
        | .ok relative =>
          let outline := (SourceFile.ofText relative.render (sourceText octets)).outline
          let matching := outline.value.elements.filter (·.name == name)
          let others := locateIn root name rest
          ⟨others.value.map (matching ++ ·), outline.warnings ++ others.warnings⟩
    else
      locateIn root name rest

/-- The files that a search below a root goes through. -/
def searchedFiles (load : Yaml.Loader) (root : Path) : Except Failure (List Path) := do
  fs.sourceFiles root (← fs.scanConfig load root)

/-- The elements of a name in all source files that the settings of a repository select. -/
def locate (load : Yaml.Loader) (name : String) (root : Option Path) :
    Reported (Except Failure (List Element)) :=
  match fs.rootOr root with
  | .error failure => ⟨.error failure, []⟩
  | .ok root =>
    match fs.searchedFiles load root with
    | .error failure => ⟨.error failure, []⟩
    | .ok files => fs.locateIn root name files

end

end FileSystem

end SourceOutline
