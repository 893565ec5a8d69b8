/-
**Lists of names between braces.**

Imports and exports name what they pass on in a list such as `a, b as c`.  Entries are separated by
commas; blanks around them and empty entries do not count.

Main definitions:

* `Specifier.aliased?` — an entry that renames;
* `Specifier.entry` — the two names of an entry;
* `Specifier.entries` — the entries of a list;
* `Specifier.imports`, `Specifier.exports` — the entries as bindings and as public names.
-/

import SourceOutline.ModuleEdge
import SourceOutline.Text.Basic
import SourceOutline.Text.Word

set_option autoImplicit false

namespace SourceOutline.Specifier

open Text

/-- The two names of an entry of the form `name as alias`. -/
def aliased? (part : List Char) : Option (List Char × List Char) :=
  match words part with
  | [name, keyword, newName] =>
    if keyword == ['a', 's'] && isIdent name && isIdent newName then some (name, newName) else none
  | _ => none

/-- The name before and the name after renaming; an entry that does not rename is both. -/
def entry (part : List Char) : List Char × List Char :=
  (aliased? part).getD (part, part)

/-- The entries of a list, in order. -/
def entries (text : List Char) : List (List Char × List Char) :=
  (((splitOn ',' text).map trim).filter (!·.isEmpty)).map entry

/-- The bindings that a list between an import's braces introduces. -/
def imports (text : List Char) : List ImportSpecifier :=
  (entries text).map fun names => .named (.ofList names.1) (.ofList names.2)

/-- The names that a list between an export's braces makes public. -/
def exports (text : List Char) : List ExportedItem :=
  (entries text).map fun names => ⟨.ofList names.2, .ofList names.1⟩

end SourceOutline.Specifier
