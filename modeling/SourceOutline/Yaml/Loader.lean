/-
**Loaders of documents.**

The file with the settings of a repository is opened as a text and read by a loader of documents.
The loader is a parameter, of which only the type is fixed here: it is given the octets of the file,
because it reads while it decodes, and it gives values or raises an error.  What its answer means for
the settings does not depend on how it comes to it.

Main definitions:

* `Yaml.Value`, `Yaml.Document` — the values that a loader gives;
* `Yaml.ErrorClass`, `Yaml.Error` — the errors that it raises;
* `Yaml.Loader` — a loader;
* `Yaml.Document.field?`, `Yaml.Document.strings?` — the values that are looked up.
-/

import SourceOutline.Text.CodePoint

set_option autoImplicit false

namespace SourceOutline.Yaml

open SourceOutline.Text (CodePoint)

/-! ### Values -/

/-- A value, as far as settings depend on it.  The values that it holds are given by their numbers,
because a value can hold itself. -/
inductive Value where
  | text (text : List CodePoint)
  | list (items : List Nat)
  /-- The values under keys that are texts; of several under one key the first counts. -/
  | mapping (entries : List (List CodePoint × Nat))
  /-- Nothing, a number, a date, octets or any other value. -/
  | other
  deriving DecidableEq, Repr

/-- Values by their numbers, and the number of the one that a document stands for. -/
structure Document where
  values : List Value
  root : Nat
  deriving DecidableEq, Repr

namespace Document

variable (d : Document)

/-- The value of a number. -/
def value (id : Nat) : Value :=
  d.values[id]?.getD .other

/-- A value that is a text. -/
def text? (id : Nat) : Option (List CodePoint) :=
  match d.value id with
  | .text text => some text
  | _ => none

/-- Whether a value is a mapping. -/
def isMapping (id : Nat) : Bool :=
  match d.value id with
  | .mapping _ => true
  | _ => false

/-- The value under a name in a mapping. -/
def field? (id : Nat) (name : String) : Option Nat :=
  match d.value id with
  | .mapping entries => entries.lookup (CodePoint.ofText name.toList)
  | _ => none

/-- The texts of a list of texts. -/
def strings? (id : Nat) : Option (List (List CodePoint)) :=
  match d.value id with
  | .list items => items.mapM d.text?
  | _ => none

end Document

/-! ### Errors -/

/-- What kind of error a loader raises. -/
inductive ErrorClass where
  /-- The document is malformed, or a node of it has no value. -/
  | yaml
  /-- The system refuses to go on reading. -/
  | system
  /-- An operation on a value of a wrong type. -/
  | type
  /-- A value out of its range, such as octets that are no text. -/
  | value
  | key
  | index
  | member
  | overflow
  /-- Calls are nested too deep. -/
  | recursion
  /-- Any other kind. -/
  | other (name : String)
  deriving DecidableEq, Repr

/-- Whether an error of a kind just means that there are no settings. -/
def ErrorClass.isHandled : ErrorClass → Bool
  | yaml | system | type | value => true
  | key | index | member | overflow | recursion | other _ => false

/-- An error of a loader. -/
structure Error where
  kind : ErrorClass
  message : String
  deriving DecidableEq, Repr

/-- What reads the document in the octets of a file. -/
abbrev Loader : Type := List UInt8 → Except Error Document

end SourceOutline.Yaml
