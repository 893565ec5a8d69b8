/-
**Paths.**

A path is a list of components below a root, below the working directory, or below the root that two
leading slashes name.  Empty components and single dots are dropped when a path is read; double dots
are kept, because what they mean depends on links.

Main definitions:

* `Path`, `Path.parse`, `Path.render` — paths and their texts;
* `Path.join`, `Path.parent`, `Path.ancestors` — paths beside and above a path;
* `Path.name`, `Path.suffixOf` — the last component and what follows its last dot;
* `Path.below?` — the path relative to one above it;
* `Path.precedes` — the order of paths, component by component.
-/

import SourceOutline.Text.Basic
import SourceOutline.Text.LowerCase

set_option autoImplicit false

namespace SourceOutline

open Text

/-- Where a path starts. -/
inductive Path.Anchor where
  /-- The working directory. -/
  | relative
  /-- The root directory. -/
  | root
  /-- The root directory, named by exactly two slashes. -/
  | doubleRoot
  deriving DecidableEq, Repr

/-- The text of an anchor. -/
def Path.Anchor.render : Path.Anchor → String
  | relative => ""
  | root => "/"
  | doubleRoot => "//"

/-- An anchor and the components below it. -/
structure Path where
  anchor : Path.Anchor
  parts : List String
  deriving DecidableEq, Repr

namespace Path

/-- The components of a text between slashes, without empty ones and single dots. -/
def components (text : List Char) : List String :=
  ((splitOn '/' text).filter fun part => !part.isEmpty && part != ['.']).map String.ofList

/-- The anchor of a text: three and more slashes count as one. -/
def anchorOf (text : List Char) : Anchor :=
  match (text.takeWhile (· == '/')).length with
  | 0 => .relative
  | 2 => .doubleRoot
  | _ => .root

/-- The path that a text names. -/
def parse (text : String) : Path :=
  ⟨anchorOf text.toList, components text.toList⟩

/-- The text of a path; the working directory itself is a single dot. -/
def render (path : Path) : String :=
  match path.anchor, path.parts with
  | .relative, [] => "."
  | anchor, parts => anchor.render ++ "/".intercalate parts

/-- Whether a path does not depend on the working directory. -/
def isAbsolute (path : Path) : Bool :=
  path.anchor != .relative

/-- The second path as seen from the first. -/
def join (path other : Path) : Path :=
  if other.isAbsolute then other else ⟨path.anchor, path.parts ++ other.parts⟩

/-- The path with one more component. -/
def child (path : Path) (name : String) : Path :=
  ⟨path.anchor, path.parts ++ [name]⟩

/-- The path without its last component. -/
def parent (path : Path) : Path :=
  ⟨path.anchor, path.parts.dropLast⟩

/-- The path and all paths above it, the nearest first. -/
def ancestors (path : Path) : List Path :=
  (List.range (path.parts.length + 1)).reverse.map fun n => ⟨path.anchor, path.parts.take n⟩

/-- The last component. -/
def name (path : Path) : String :=
  path.parts.getLast?.getD ""

/-- The last dot of a name and what follows it; a dot that begins or ends the name does not count. -/
def suffixOf (name : List Char) : List Char :=
  let extension := (name.reverse.takeWhile (· != '.')).reverse
  if extension.isEmpty || extension.length + 1 ≥ name.length then [] else '.' :: extension

/-- The suffix of the last component, in lower case. -/
def lowerSuffix (path : Path) : List Char :=
  lower (suffixOf path.name.toList)

/-- The components that lead from `above` to a path below it. -/
def below? (path above : Path) : Option (List String) :=
  if path.anchor == above.anchor && above.parts.isPrefixOf path.parts then
    some (path.parts.drop above.parts.length)
  else
    none

/-- Whether a text comes before another: character by character, by their numbers. -/
def textBefore (a b : String) : Bool :=
  a.toList.lex b.toList fun c d => decide (c.toNat < d.toNat)

/-- Whether a path comes before another with the same anchor, or is it: component by component, each
by its characters. -/
def precedes (a b : Path) : Bool :=
  !b.parts.lex a.parts textBefore

end Path

end SourceOutline
