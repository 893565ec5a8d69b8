/-
**Trouble with a document.**

A document that is malformed, or holds a node without a value of its type, is unusable, and it does
not matter why.  A few scalars fail in a way of their own, which is reported.

Main definitions:

* `Yaml.Fault`, `Yaml.Fault.message`, `Yaml.Fault.kind` — the ways of their own;
* `Yaml.Trouble` — why a text gives no values;
* `Yaml.orMalformed`, `Yaml.require` — steps without which a text is malformed.
-/

import SourceOutline.Text.Quoted
import SourceOutline.Yaml.Loader

set_option autoImplicit false

namespace SourceOutline.Yaml

open SourceOutline.Text (CodePoint quotedPoints)

/-- A way to fail that is reported. -/
inductive Fault where
  /-- A word that is no truth value. -/
  | notTruth (word : List CodePoint)
  /-- A number without any digit. -/
  | emptyNumber
  /-- A text that has not even the form of a date. -/
  | notTimestamp
  /-- A number to the base sixty with too many places. -/
  | tooManyPlaces
  /-- An escape whose number does not fit into thirty-two bits with a sign. -/
  | escapeTooLarge
  /-- Collections nested too deep, or a node that stands for itself. -/
  | tooDeep
  deriving DecidableEq, Repr

/-- The wording of a fault. -/
def Fault.message : Fault → String
  | notTruth word => quotedPoints word
  | emptyNumber => "string index out of range"
  | notTimestamp => "'NoneType' object has no attribute 'groupdict'"
  | tooManyPlaces => "int too large to convert to float"
  | escapeTooLarge => "Python int too large to convert to C int"
  | tooDeep => "maximum recursion depth exceeded"

/-- The kind of a fault. -/
def Fault.kind : Fault → ErrorClass
  | notTruth _ => .key
  | emptyNumber => .index
  | notTimestamp => .member
  | tooManyPlaces | escapeTooLarge => .overflow
  | tooDeep => .recursion

/-- Why a text gives no values. -/
inductive Trouble where
  /-- It is malformed, or a node has no value of its type. -/
  | malformed
  /-- A scalar fails in a way of its own. -/
  | fault (f : Fault)
  deriving DecidableEq, Repr

/-- A result without which the text is malformed. -/
def orMalformed {α : Type} : Option α → Except Trouble α
  | some a => .ok a
  | none => .error .malformed

/-- Nothing if the test holds; otherwise the text is malformed. -/
def require (test : Bool) : Except Trouble Unit :=
  if test then .ok () else .error .malformed

end SourceOutline.Yaml
