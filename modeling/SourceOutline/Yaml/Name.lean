/-
**Names in a document.**

Anchors name a node, tags name its type, and directives at the head of a document say how tags are
read.

Main definitions:

* `Yaml.anchorName?` — the name after the mark of an anchor or alias;
* `Yaml.TagName`, `Yaml.tagName?` — a tag, with the handle that abbreviates its first part;
* `Yaml.Directive`, `Yaml.directive?` — directives.
-/

import SourceOutline.Text.Digit
import SourceOutline.Text.Utf8
import SourceOutline.Yaml.Text

set_option autoImplicit false

namespace SourceOutline.Yaml

open SourceOutline.Text (Utf8.decodeStrict? maxDigits)

/-! ### Anchors -/

/-- The name after the mark of an anchor or alias, and the place after it. -/
def anchorName? (p : Place) : Option (String × Place) :=
  let (name, q) := p.step.takeWhile isNameChar
  let ends :=
    endsWord q.next || q.next.any fun c => ['?', ':', ',', ']', '\x7d', '%', '@', '\x60'].contains c
  if name.isEmpty || !ends then none else some (.ofList name, q)

/-! ### Tags -/

/-- A tag as it is written: a handle, which stands for the first part, and the rest.  Without a
handle the rest is the whole tag. -/
structure TagName where
  handle : Option String
  suffix : String
  deriving DecidableEq, Repr

/-- The characters of a tag that need no escape. -/
def isTagChar (c : Char) : Bool :=
  c.isAlphanum ||
    ['-', ';', '/', '?', ':', '@', '&', '=', '+', '$', ',', '_', '.', '!', '~', '*', '\x27', '(',
      ')', '[', ']'].contains c

/-- The octets of the escapes that stand here, and the place after them. -/
def escapedOctets? : (fuel : Nat) → Place → Option (List UInt8 × Place)
  | 0, p => some ([], p)
  | fuel + 1, p =>
    if p.next == some '%' then do
      let octet ← hexNumber? 2 p.rest.tail
      let (octets, last) ← escapedOctets? fuel (p.advance 3)
      return (octet.toUInt8 :: octets, last)
    else
      some ([], p)

/-- The characters of a tag from here on, escapes decoded. -/
def tagText? : (fuel : Nat) → Place → Option (List Char × Place)
  | 0, p => some ([], p)
  | fuel + 1, p =>
    match p.rest with
    | [] => some ([], p)
    | c :: _ =>
      if c == '%' then do
        let (octets, after) ← escapedOctets? fuel p
        let text ← Utf8.decodeStrict? octets
        let (tail, last) ← tagText? fuel after
        return (text ++ tail, last)
      else if isTagChar c then do
        let (tail, last) ← tagText? fuel p.step
        return (c :: tail, last)
      else
        some ([], p)

/-- A nonempty run of characters of a tag. -/
def tagSuffix? (p : Place) : Option (String × Place) := do
  let (text, last) ← tagText? (p.rest.length + 1) p
  if last.index == p.index then none else return (.ofList text, last)

/-- A handle: an exclamation mark, or a name between two. -/
def tagHandle? (p : Place) : Option (String × Place) :=
  if p.next != some '!' then
    none
  else if p.step.next == some ' ' then
    some ("!", p.step)
  else
    let (name, q) := p.step.takeWhile isNameChar
    if q.next == some '!' then some (.ofList ('!' :: name ++ ['!']), q.step) else none

/-- The tag whose mark stands here. -/
def tagName? (p : Place) : Option (TagName × Place) := do
  let (tag, last) ←
    if p.step.next == some '<' then do
      let (suffix, q) ← tagSuffix? (p.advance 2)
      if q.next == some '>' then some (TagName.mk none suffix, q.step) else none
    else if endsWord p.step.next then
      some (TagName.mk none "!", p.step)
    else if (p.step.rest.takeWhile fun c => !endsName (some c)).contains '!' then do
      let (handle, q) ← tagHandle? p
      let (suffix, q) ← tagSuffix? q
      some (TagName.mk (some handle) suffix, q)
    else do
      let (suffix, q) ← tagSuffix? p.step
      some (TagName.mk (some "!") suffix, q)
  if endsName last.next then return (tag, last) else none

/-! ### Directives -/

/-- What the head of a document says. -/
inductive Directive where
  /-- The version of the format; only its major number counts. -/
  | version (major : Nat)
  /-- What a handle stands for. -/
  | handle (name stands : String)
  /-- Anything else, which is ignored. -/
  | other
  deriving DecidableEq, Repr

/-- A number in decimal digits, and the place after it. -/
def digits? (p : Place) : Option (Nat × Place) :=
  let (text, q) := p.takeWhile Char.isDigit
  if text.isEmpty || text.length > maxDigits then
    none
  else
    some (text.foldl (fun value c => value * 10 + (c.toNat - '0'.toNat)) 0, q)

/-- The version after its directive's name. -/
def versionDirective? (p : Place) : Option (Directive × Place) := do
  let (major, q) ← digits? p.skipSpaces
  if q.next != some '.' then
    none
  else
    let (_, last) ← digits? q.step
    if endsName last.next then return (.version major, last) else none

/-- The handle and what it stands for, after the directive's name. -/
def handleDirective? (p : Place) : Option (Directive × Place) := do
  let (name, q) ← tagHandle? p.skipSpaces
  if q.next != some ' ' then
    none
  else
    let (stands, last) ← tagSuffix? q.skipSpaces
    if endsName last.next then return (.handle name stands, last) else none

/-- The directive whose mark stands here, and the place after its line. -/
def directive? (p : Place) : Option (Directive × Place) := do
  let (name, q) := p.step.takeWhile isNameChar
  if name.isEmpty || !endsName q.next then
    none
  else
    let (directive, last) ←
      if name == ['Y', 'A', 'M', 'L'] then versionDirective? q
      else if name == ['T', 'A', 'G'] then handleDirective? q
      else some (Directive.other, q.skipLine)
    let after ← ignoredLine? last
    return (directive, after)

end SourceOutline.Yaml
