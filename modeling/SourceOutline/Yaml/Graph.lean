/-
**Node graphs.**

The tokens of a document are put together to nodes.  An alias refers to a node that was given a name
before, perhaps to one that is not complete yet, so nodes form a graph and are referred to by number.

Main definitions:

* `Yaml.Content`, `Yaml.Node`, `Yaml.Graph` — scalars, sequences and mappings of nodes;
* `Yaml.Builder` — the state of the building: tokens left, nodes and names so far;
* `Yaml.Builder.node` — the node that begins with the next token;
* `Yaml.RootedGraph`, `Yaml.document` — the only document of a text.
-/

import SourceOutline.Yaml.Tag
import SourceOutline.Yaml.Token

set_option autoImplicit false

namespace SourceOutline.Yaml

open SourceOutline.Text (CodePoint)

/-! ### Nodes -/

/-- What a node holds; other nodes are given by their numbers. -/
inductive Content where
  | scalar (text : List CodePoint)
  | sequence (items : List Nat)
  | mapping (pairs : List (Nat × Nat))
  deriving DecidableEq, Repr

/-- A node and its type. -/
structure Node where
  tag : Tag
  content : Content
  deriving DecidableEq, Repr

/-- Nodes by number. -/
abbrev Graph : Type := Array Node

/-! ### Building -/

/-- The state of the building. -/
structure Builder where
  tokens : List Token
  /-- What is met behind the last token, if that is not the end of the text. -/
  fault : Option Fault
  nodes : Graph
  /-- The nodes that have names. -/
  anchors : List (String × Nat)
  /-- What the handles of tags stand for. -/
  handles : List (String × String)
  /-- How many collections are not complete. -/
  depth : Nat

/-- A step of the building, which may fail. -/
abbrev Build (α : Type) : Type := StateT Builder (Except Trouble) α

namespace Builder

/-- The step that fails because the document is malformed. -/
def malformed {α : Type} : Build α :=
  throw .malformed

/-- The next token, if the text does not end here.  A fault is met when a token behind it is asked
for, so a document that is malformed before it is just malformed. -/
def peek : Build (Option Token) := do
  let b ← get
  match b.tokens, b.fault with
  | token :: _, _ => return some token
  | [], none => return none
  | [], some f => throw (.fault f)

/-- Passes over the next token. -/
def drop : Build Unit :=
  modify fun b => { b with tokens := b.tokens.tail }

/-- Passes over the next token if it is the given one, and says whether it was. -/
def accept (token : Token) : Build Bool := do
  if (← peek) == some token then
    drop
    return true
  else
    return false

/-- Whether the next token is one of the given ones. -/
def isNext (tokens : List Token) : Build Bool := do
  return (← peek).any tokens.contains

/-- A new node, with a name if one is given.  A name is given once only. -/
def push (anchor : Option String) (node : Node) : Build Nat := do
  let b ← get
  let id := b.nodes.size
  match anchor with
  | none => set { b with nodes := b.nodes.push node }
  | some name =>
    if (b.anchors.lookup name).isSome then
      malformed
    else
      set { b with nodes := b.nodes.push node, anchors := (name, id) :: b.anchors }
  return id

/-- The most collections that may be nested. -/
def maxDepth : Nat := 490

/-- A new collection, with a name if one is given, and what `inner` finds in it. -/
def collection (anchor : Option String) (start : Node) (inner : Build Content) : Build Nat := do
  let id ← push anchor start
  if (← get).depth < maxDepth then
    modify fun b => { b with depth := b.depth + 1 }
    let content ← inner
    modify fun b =>
      { b with
        depth := b.depth - 1
        nodes := b.nodes.modify id fun node => { node with content := content } }
    return id
  else
    throw (.fault .tooDeep)

/-- The scalar that stands where nothing is written. -/
def empty : Build Nat :=
  push none ⟨.null, .scalar []⟩

/-! ### Properties of a node -/

/-- The name and the tag in front of a node. -/
structure Properties where
  anchor : Option String
  tag : Option TagName

/-- The name in front of a node, if one is next. -/
def anchor? : Build (Option String) := do
  match ← peek with
  | some (.anchor name) =>
    drop
    return some name
  | _ => return none

/-- The tag in front of a node, if one is next. -/
def tag? : Build (Option TagName) := do
  match ← peek with
  | some (.tag name) =>
    drop
    return some name
  | _ => return none

/-- The name and the tag in front of a node, in either order. -/
def properties : Build Properties := do
  match ← anchor? with
  | some name => return ⟨some name, ← tag?⟩
  | none =>
    let tag ← tag?
    match tag with
    | some _ => return ⟨← anchor?, tag⟩
    | none => return ⟨none, none⟩

/-- The full tag; its handle must be known. -/
def fullTag (tag : TagName) : Build String := do
  match tag.handle with
  | none => return tag.suffix
  | some handle =>
    match (← get).handles.lookup handle with
    | some stands => return stands ++ tag.suffix
    | none => malformed

/-- The type of a collection: the one that its tag names, or its own. -/
def collectionTag (tag : Option String) (own : Tag) : Tag :=
  match tag with
  | none => own
  | some "!" => own
  | some name => Tag.ofName name

/-- The type of a scalar: the one that its tag names, or the one that follows from its text. -/
def scalarTag (tag : Option String) (text : List CodePoint) (isPlain : Bool) : Tag :=
  match tag with
  | none => if isPlain then Tag.ofPlain text else .str
  | some "!" => Tag.ofPlain text
  | some name => Tag.ofName name

/-! ### Collections -/

/-- Where a node stands, which decides what it can be. -/
inductive Position where
  /-- Inside brackets. -/
  | flow
  /-- In a block. -/
  | block
  /-- In a block mapping, where items of a sequence need no indentation. -/
  | blockEntry
  deriving DecidableEq, Repr

mutual

/-- The node that begins with the next token. -/
def node : (fuel : Nat) → Position → Build Nat
  | 0, _ => malformed
  | fuel + 1, position => do
    match ← peek with
    | some (.reference name) =>
      drop
      match (← get).anchors.lookup name with
      | some id => return id
      | none => malformed
    | _ =>
      let properties ← properties
      let tag ← properties.tag.mapM fullTag
      let sequence : Node := ⟨collectionTag tag .seq, .sequence []⟩
      let mapping : Node := ⟨collectionTag tag .map, .mapping []⟩
      match ← peek, position with
      | some .dash, .blockEntry =>
        collection properties.anchor sequence do return .sequence (← looseItems fuel)
      | some (.scalar text isPlain), _ =>
        drop
        push properties.anchor ⟨scalarTag tag text isPlain, .scalar text⟩
      | some .bracketOpen, _ =>
        drop
        collection properties.anchor sequence do return .sequence (← flowItems fuel true)
      | some .braceOpen, _ =>
        drop
        collection properties.anchor mapping do return .mapping (← flowPairs fuel true)
      | some .sequenceStart, .block | some .sequenceStart, .blockEntry =>
        drop
        collection properties.anchor sequence do return .sequence (← blockItems fuel)
      | some .mappingStart, .block | some .mappingStart, .blockEntry =>
        drop
        collection properties.anchor mapping do return .mapping (← blockPairs fuel)
      | _, _ =>
        if properties.anchor.isSome || properties.tag.isSome then
          push properties.anchor ⟨scalarTag tag [] true, .scalar []⟩
        else
          malformed

/-- The node that begins with the next token, or the empty scalar before one of the given ones. -/
def nodeUnless : (fuel : Nat) → List Token → Position → Build Nat
  | 0, _, _ => malformed
  | fuel + 1, tokens, position => do
    if ← isNext tokens then empty else node fuel position

/-- The items of an indented sequence. -/
def blockItems : (fuel : Nat) → Build (List Nat)
  | 0 => malformed
  | fuel + 1 => do
    if ← accept .dash then
      let item ← nodeUnless fuel [.dash, .blockEnd] .block
      return item :: (← blockItems fuel)
    else if ← accept .blockEnd then
      return []
    else
      malformed

/-- The items of a sequence that is not indented. -/
def looseItems : (fuel : Nat) → Build (List Nat)
  | 0 => malformed
  | fuel + 1 => do
    if ← accept .dash then
      let item ← nodeUnless fuel [.dash, .key, .value, .blockEnd] .block
      return item :: (← looseItems fuel)
    else
      return []

/-- The pairs of an indented mapping. -/
def blockPairs : (fuel : Nat) → Build (List (Nat × Nat))
  | 0 => malformed
  | fuel + 1 => do
    if ← accept .key then
      let key ← nodeUnless fuel [.key, .value, .blockEnd] .blockEntry
      let value ← blockValue fuel
      return (key, value) :: (← blockPairs fuel)
    else if ← accept .blockEnd then
      return []
    else
      malformed

/-- The value after a key of an indented mapping. -/
def blockValue : (fuel : Nat) → Build Nat
  | 0 => malformed
  | fuel + 1 => do
    if ← accept .value then
      nodeUnless fuel [.key, .value, .blockEnd] .blockEntry
    else
      empty

/-- The items of a sequence in brackets; a comma stands before each but the first. -/
def flowItems : (fuel : Nat) → (isFirst : Bool) → Build (List Nat)
  | 0, _ => malformed
  | fuel + 1, isFirst => do
    if ← accept .bracketClose then
      return []
    else if ← (if isFirst then return true else accept .comma) then
      if ← accept .key then
        let id ← collection none ⟨.map, .mapping []⟩ do
          let key ← nodeUnless fuel [.value, .comma, .bracketClose] .flow
          let value ← flowValue fuel [.comma, .bracketClose]
          return .mapping [(key, value)]
        return id :: (← flowItems fuel false)
      else if ← accept .bracketClose then
        return []
      else
        let item ← node fuel .flow
        return item :: (← flowItems fuel false)
    else
      malformed

/-- The pairs of a mapping in braces; a comma stands before each but the first. -/
def flowPairs : (fuel : Nat) → (isFirst : Bool) → Build (List (Nat × Nat))
  | 0, _ => malformed
  | fuel + 1, isFirst => do
    if ← accept .braceClose then
      return []
    else if ← (if isFirst then return true else accept .comma) then
      if ← accept .key then
        let key ← nodeUnless fuel [.value, .comma, .braceClose] .flow
        let value ← flowValue fuel [.comma, .braceClose]
        return (key, value) :: (← flowPairs fuel false)
      else if ← accept .braceClose then
        return []
      else
        let key ← node fuel .flow
        let value ← empty
        return (key, value) :: (← flowPairs fuel false)
    else
      malformed

/-- The value after a key inside brackets. -/
def flowValue : (fuel : Nat) → List Token → Build Nat
  | 0, _ => malformed
  | fuel + 1, tokens => do
    if ← accept .value then nodeUnless fuel tokens .flow else empty

end

/-! ### Documents -/

/-- The directives ahead: at most one version, and each handle at most once. -/
def directives (versionSeen : Bool) (handles : List (String × String)) :
    (fuel : Nat) → Build (List (String × String))
  | 0 => malformed
  | fuel + 1 => do
    match ← peek with
    | some (.directive (.version major)) =>
      if versionSeen || major != 1 then
        malformed
      else
        drop
        directives true handles fuel
    | some (.directive (.handle name stands)) =>
      if (handles.lookup name).isSome then
        malformed
      else
        drop
        directives versionSeen ((name, stands) :: handles) fuel
    | some (.directive .other) =>
      drop
      directives versionSeen handles fuel
    | _ => return handles

/-- The handles that need no directive. -/
def defaultHandles : List (String × String) :=
  [("!", "!"), ("!!", "tag:yaml.org,2002:")]

/-- Whether a token begins the head of a document. -/
def beginsHead : Token → Bool
  | .directive _ => true
  | .documentStart => true
  | _ => false

/-- The root of a document that begins with directives or a mark; it may be empty. -/
def markedRoot (fuel : Nat) : Build Nat := do
  let handles ← directives false [] fuel
  if ← accept .documentStart then
    modify fun b => { b with handles := handles ++ defaultHandles }
    match ← peek with
    | none => empty
    | some token =>
      if beginsHead token || token == .documentEnd then empty else node fuel .block
  else
    malformed

/-- Passes over the marks that end a document. -/
def skipEnds : (fuel : Nat) → Build Unit
  | 0 => malformed
  | fuel + 1 => do
    if ← accept .documentEnd then skipEnds fuel else return ()

/-- The root of the only document, if there is one.  The head of a second one is still looked at. -/
def root? (fuel : Nat) : Build (Option Nat) := do
  match ← peek with
  | none => return none
  | some token =>
    let id ← if beginsHead token then markedRoot fuel else node fuel .block
    skipEnds fuel
    match ← peek with
    | none => return some id
    | some _ =>
      let _ ← directives false [] fuel
      malformed

end Builder

/-- A node of a graph, the root of a document. -/
structure RootedGraph where
  graph : Graph
  root : Nat
  deriving DecidableEq, Repr

/-- The document that tokens make up.  No tokens make up no document, and more than one document is
malformed. -/
def documentOf (stream : TokenStream) : Except Trouble (Option RootedGraph) := do
  let builder : Builder :=
    { tokens := stream.tokens
      fault := stream.fault
      nodes := #[]
      anchors := []
      handles := Builder.defaultHandles
      depth := 0 }
  let (root, built) ← (Builder.root? (6 * (stream.tokens.length + 2))).run builder
  return root.map fun root => ⟨built.nodes, root⟩

/-- The only document of a text, if it has one. -/
def document (text : List Char) : Except Trouble (Option RootedGraph) :=
  orMalformed (tokens? text) >>= documentOf

end SourceOutline.Yaml
