/-
**Values of a document.**

The nodes of a document are turned into values, from the root on and level by level: the nodes that
a collection holds are looked at when its turn comes.  Keys that ask for it are merged first.  A
node that cannot be turned into a value makes the document unusable.

So there is a loader to run the program with.  It is one of many: what is proved of the settings of a
repository is proved for all loaders, and nothing depends on this one.

Main definitions:

* `Yaml.checkScalar` — whether a scalar has a value of its type;
* `Yaml.flatten` — merges keys into a mapping;
* `Yaml.Loading`, `Yaml.load` — the turning of nodes into values;
* `Yaml.Loaded.document` — the values that a document gives;
* `Yaml.read` — the loader that the program is run with.
-/

import SourceOutline.Text.LowerCase
import SourceOutline.Text.Utf8
import SourceOutline.Yaml.Graph
import SourceOutline.Yaml.Loader
import SourceOutline.Yaml.Numeral

set_option autoImplicit false

namespace SourceOutline.Yaml

open SourceOutline.Text (CodePoint splitOn lower lowerPoints)

/-! ### Scalars -/

/-- The words for truth values, in lower case. -/
def truthValues : List String :=
  ["yes", "no", "true", "false", "on", "off"]

/-- Whether a text is a whole number: to the base two, sixteen, eight, sixty or ten, by its first
characters.  Underscores do not count. -/
def checkInt (text : List Char) : Except Trouble Unit :=
  match text.filter (· != '_') with
  | [] => .error (.fault .emptyNumber)
  | c :: rest =>
    match if c == '+' || c == '-' then rest else c :: rest with
    | [] => .error (.fault .emptyNumber)
    | ['0'] => .ok ()
    | '0' :: 'b' :: digits => require (isWholeNumber 2 digits)
    | '0' :: 'x' :: digits => require (isWholeNumber 16 digits)
    | '0' :: digits => require (isWholeNumber 8 ('0' :: digits))
    | digits => require ((splitOn ':' digits).all (isWholeNumber 10))

/-- The most places of a number to the base sixty that can be converted. -/
def maxPlaces : Nat := 174

/-- Whether a text is a number, with a point or to the base sixty.  Underscores do not count. -/
def checkFloat (text : List Char) : Except Trouble Unit :=
  match lower (text.filter (· != '_')) with
  | [] => .error (.fault .emptyNumber)
  | c :: rest =>
    let number := if c == '+' || c == '-' then rest else c :: rest
    if number == ".inf".toList || number == ".nan".toList then
      .ok ()
    else do
      let places := splitOn ':' number
      require (places.all isRealNumber)
      if places.length > maxPlaces then throw (.fault .tooManyPlaces)

/-- Whether a scalar has a value of its type.  One with a half of a pair is no number, date or
encoding. -/
def checkScalar (tag : Tag) (text : List CodePoint) : Except Trouble Unit :=
  match tag, CodePoint.text? text with
  | .null, _ | .str, _ => .ok ()
  | .bool, _ =>
    let word := lowerPoints text
    if truthValues.any fun value => word == CodePoint.ofText value.toList then
      .ok ()
    else
      .error (.fault (.notTruth word))
  | .int, some chars => checkInt chars
  | .float, some chars => checkFloat chars
  | .binary, some chars => require (isBase64 chars)
  | .timestamp, chars =>
    match chars.bind isTimestamp? with
    | none => .error (.fault .notTimestamp)
    | some valid => require valid
  | _, _ => .error .malformed

/-! ### Reading a graph -/

namespace Graph

/-- The type of a node. -/
def tagOf (g : Graph) (id : Nat) : Tag :=
  (g[id]?.map Node.tag).getD .unknown

/-- The pairs of a node that is a mapping. -/
def pairs? (g : Graph) (id : Nat) : Option (List (Nat × Nat)) :=
  match g[id]? with
  | some ⟨_, .mapping pairs⟩ => some pairs
  | _ => none

/-- The items of a node that is a sequence. -/
def items? (g : Graph) (id : Nat) : Option (List Nat) :=
  match g[id]? with
  | some ⟨_, .sequence items⟩ => some items
  | _ => none

/-- The text of a scalar, or of the node that stands for a mapping.  With as much fuel as there are
nodes, none is left only if a node stands for itself. -/
def text (g : Graph) : (fuel : Nat) → (id : Nat) → Except Trouble (List CodePoint)
  | 0, _ => .error (.fault .tooDeep)
  | fuel + 1, id =>
    match g[id]? with
    | some ⟨_, .scalar text⟩ => .ok text
    | some ⟨_, .mapping pairs⟩ =>
      match pairs.find? fun (key, _) => g.tagOf key == .value with
      | some (_, stands) => text g fuel stands
      | none => .error .malformed
    | _ => .error .malformed

/-- The graph with other pairs in a mapping. -/
def setPairs (g : Graph) (id : Nat) (pairs : List (Nat × Nat)) : Graph :=
  g.modify id fun node => { node with content := .mapping pairs }

/-- The graph with another type for a node. -/
def setTag (g : Graph) (id : Nat) (tag : Tag) : Graph :=
  g.modify id fun node => { node with tag := tag }

/-- The number of keys in all mappings that ask to be merged. -/
def mergeCount (g : Graph) : Nat :=
  g.foldl (fun n node =>
    match node.content with
    | .mapping pairs => n + pairs.countP fun (key, _) => g.tagOf key == .merge
    | _ => n) 0

end Graph

/-! ### Merging -/

/-- The pairs that a key merges from a node: those of a mapping, or of a sequence of mappings, of
which an earlier one comes after a later one.  Keys are merged into these mappings first, by
`flatten`. -/
def mergedPairs (flatten : Nat → Graph → Option Graph) (source : Nat) (g : Graph) :
    Option (Graph × List (Nat × Nat)) := do
  match g.items? source with
  | some items =>
    items.foldlM (fun (g, pairs) item => do
      let _ ← g.pairs? item
      let g ← flatten item g
      return (g, (← g.pairs? item) ++ pairs)) (g, [])
  | none =>
    let _ ← g.pairs? source
    let g ← flatten source g
    return (g, ← g.pairs? source)

/-- The graph with all keys merged that ask for it in a mapping, from the pair with a given index
on; `merged` holds the pairs merged so far, which come before the mapping's own.  Each key that is
merged is taken out of its mapping first, so `fuel` need not exceed the number of such keys. -/
def flattenFrom : (fuel : Nat) → (id index : Nat) → (merged : List (Nat × Nat)) → Graph →
    Option Graph
  | fuel, id, index, merged, g => do
    let pairs ← g.pairs? id
    let own := (pairs.drop index).takeWhile fun (key, _) => g.tagOf key != .merge
    -- a key that stands for the mapping is a text here
    let g := own.foldl (fun g (key, _) => if g.tagOf key == .value then g.setTag key .str else g) g
    let index := index + own.length
    match fuel, pairs[index]? with
    | _, none => return if merged.isEmpty then g else g.setPairs id (merged ++ pairs)
    | 0, some _ => none
    | fuel + 1, some (_, source) =>
      let g := g.setPairs id (pairs.eraseIdx index)
      let (g, more) ← mergedPairs (fun id => flattenFrom fuel id 0 []) source g
      flattenFrom fuel id index (merged ++ more) g

/-- The graph with all keys merged that ask for it in a mapping. -/
def flatten (g : Graph) (id : Nat) : Option Graph :=
  flattenFrom g.mergeCount id 0 [] g

/-! ### Turning nodes into values -/

/-- The nodes that have been looked at, those of them that are texts, and the collections whose turn
is still to come. -/
structure Loading where
  graph : Graph
  seen : List Nat
  texts : List (Nat × List CodePoint)
  waiting : List Nat

namespace Loading

/-- Looks at a node that is no collection: it must have a value. -/
def visitScalar (l : Loading) (id : Nat) (tag : Tag) : Except Trouble Loading := do
  let text ← l.graph.text (l.graph.size + 1) id
  -- a date must be written as a scalar itself
  require (tag != .timestamp || (l.graph.pairs? id).isNone)
  checkScalar tag text
  return if tag == .str then { l with texts := (id, text) :: l.texts } else l

/-- Looks at a node: a scalar must have a value, and a collection waits for its turn. -/
def visit (l : Loading) (id : Nat) : Except Trouble Loading :=
  if l.seen.contains id then
    .ok l
  else
    let l := { l with seen := id :: l.seen }
    let tag := l.graph.tagOf id
    if tag.isCollection then
      .ok { l with waiting := l.waiting ++ [id] }
    else if tag == .merge || tag == .value || tag == .unknown then
      .error .malformed
    else
      l.visitScalar id tag

/-- Looks at the keys and values of a mapping.  A collection cannot be a key. -/
def visitPairs (l : Loading) : List (Nat × Nat) → Except Trouble Loading
  | [] => .ok l
  | (key, value) :: rest => do
    let l ← l.visit key
    require (!(l.graph.tagOf key).isCollection)
    let l ← l.visit value
    l.visitPairs rest

/-- Looks at the key and value of each item, which must be a mapping with one pair. -/
def visitEntries (l : Loading) : List Nat → Except Trouble Loading
  | [] => .ok l
  | item :: rest =>
    match l.graph.pairs? item with
    | some [(key, value)] => do
      let l ← l.visit key
      let l ← l.visit value
      l.visitEntries rest
    | _ => .error .malformed

/-- Looks at what a collection holds. -/
def enter (l : Loading) (id : Nat) : Except Trouble Loading :=
  match l.graph.tagOf id with
  | .seq =>
    match l.graph.items? id with
    | some items => items.foldlM visit l
    | none => .error .malformed
  | .orderedMap | .pairs =>
    match l.graph.items? id with
    | some items => l.visitEntries items
    | none => .error .malformed
  | _ =>
    match flatten l.graph id with
    | some graph =>
      match Graph.pairs? graph id with
      | some pairs => { l with graph := graph }.visitPairs pairs
      | none => .error .malformed
    | none => .error .malformed

/-- Looks at what the waiting collections hold, and at what those hold in turn. -/
def run : (fuel : Nat) → Loading → Except Trouble Loading
  | 0, l => .ok l
  | fuel + 1, l =>
    match l.waiting with
    | [] => .ok l
    | id :: waiting => do
      let l ← { l with waiting := waiting }.enter id
      l.run fuel

end Loading

/-- A document all of whose nodes have values, and the nodes that are texts. -/
structure Loaded where
  graph : Graph
  root : Nat
  texts : List (Nat × List CodePoint)

/-- The values of a text; nothing if it is empty. -/
def load (text : List Char) : Except Trouble (Option Loaded) := do
  match ← document text with
  | none => return none
  | some document =>
    let start ← Loading.visit ⟨document.graph, [], [], []⟩ document.root
    let loaded ← start.run (document.graph.size + 1)
    return some ⟨loaded.graph, document.root, loaded.texts⟩

/-! ### Reading a file -/

namespace Loaded

/-- The value of a node.  Pairs of an ordered list are no texts, and of several pairs of a mapping
with one key the last counts. -/
def value (l : Loaded) (id : Nat) (node : Node) : Value :=
  match l.texts.lookup id, node with
  | some text, _ => .text text
  | none, ⟨.seq, .sequence items⟩ => .list items
  | none, ⟨.orderedMap, .sequence items⟩ | none, ⟨.pairs, .sequence items⟩ =>
    .list (items.map fun _ => l.graph.size)
  | none, ⟨.map, .mapping pairs⟩ =>
    .mapping (pairs.reverse.filterMap fun (key, value) => do return (← l.texts.lookup key, value))
  | none, _ => .other

/-- The document as its values. -/
def document (l : Loaded) : Document :=
  ⟨l.graph.toList.mapIdx fun id node => l.value id node, l.root⟩

end Loaded

/-- Whether a character may stand in a document. -/
def isAllowed (c : Char) : Bool :=
  let n := c.toNat
  n == 0x09 || n == 0x0A || n == 0x0D || (0x20 ≤ n && n ≤ 0x7E) || n == 0x85 ||
    (0xA0 ≤ n && n ≤ 0xFFFD) || 0x10000 ≤ n

/-- The error of a text that gives no values. -/
def Trouble.error : Trouble → Error
  | malformed => ⟨.yaml, "malformed document"⟩
  | fault f => ⟨f.kind, f.message⟩

/-- The loader that the program is run with.  It decodes a file as a whole before it reads it. -/
def read : Loader := fun octets =>
  match Text.Utf8.decodeStrict? octets with
  | none => .error ⟨.value, "not a text"⟩
  | some text =>
    if text.all isAllowed then
      match load (Text.unifyNewlines text) with
      | .ok (some loaded) => .ok loaded.document
      | .ok none => .ok ⟨[], 0⟩
      | .error trouble => .error trouble.error
    else
      .error ⟨.yaml, "special characters are not allowed"⟩

end SourceOutline.Yaml
