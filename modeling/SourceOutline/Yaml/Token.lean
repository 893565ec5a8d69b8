/-
**Tokens of a document.**

A document is cut into tokens.  Indentation is turned into tokens of its own, which open and close
collections.  A key can be told from other nodes only by the colon after it, so places where a key
may begin are remembered, and the token that marks the key is put in when the colon is met.

Main definitions:

* `Yaml.Token` — tokens;
* `Yaml.KeyCandidate`, `Yaml.Layout` — the state of the cutting;
* `Yaml.Layout.token`, `Yaml.Layout.run?` — one more token, and all tokens;
* `Yaml.TokenStream`, `Yaml.tokens?` — the tokens of a text, up to a fault if there is one.
-/

import SourceOutline.Yaml.Name

set_option autoImplicit false

namespace SourceOutline.Yaml

open SourceOutline.Text (CodePoint)

/-- The pieces that a document is made of. -/
inductive Token where
  | directive (d : Directive)
  | documentStart
  | documentEnd
  | sequenceStart
  | mappingStart
  | blockEnd
  | bracketOpen
  | bracketClose
  | braceOpen
  | braceClose
  | comma
  | dash
  | key
  | value
  | reference (name : String)
  | anchor (name : String)
  | tag (name : TagName)
  | scalar (text : List CodePoint) (isPlain : Bool)
  deriving DecidableEq, Repr

/-- A place where a key may have begun. -/
structure KeyCandidate where
  /-- How many tokens stand before it. -/
  tokenCount : Nat
  /-- Whether only a key can stand there. -/
  required : Bool
  index : Nat
  line : Nat
  column : Nat
  deriving DecidableEq, Repr

/-- The state of the cutting: the place, how deep it is in brackets, the column of the innermost
collection and of those around it, whether a key may begin here, the places where one may have
begun, by depth, and the tokens so far. -/
structure Layout where
  place : Place
  depth : Nat
  indent : Int
  outer : List Int
  keyAllowed : Bool
  candidates : List (Nat × KeyCandidate)
  tokens : Array Token

namespace Layout

/-- The state before the first character. -/
def ofText (text : List Char) : Layout :=
  ⟨Place.ofText text, 0, -1, [], true, [], #[]⟩

/-- The state with one more token, at a later place. -/
def push (l : Layout) (token : Token) (place : Place) : Layout :=
  { l with tokens := l.tokens.push token, place := place }

/-- Whether the place is inside brackets. -/
def inFlow (l : Layout) : Bool :=
  l.depth != 0

/-! ### Keys -/

/-- The longest stretch between the beginning of a key and its colon. -/
def maxKeyLength : Nat := 1024

/-- Whether a candidate is too far away to be a key: in another line, or too many characters back. -/
def isStale (l : Layout) (key : KeyCandidate) : Bool :=
  key.line != l.place.line || l.place.index - key.index > maxKeyLength

/-- The state without the candidates that are too far away; none of them may have been required. -/
def dropStale? (l : Layout) : Option Layout :=
  if l.candidates.any fun (_, key) => l.isStale key && key.required then
    none
  else
    some { l with candidates := l.candidates.filter fun (_, key) => !l.isStale key }

/-- The candidate at this depth. -/
def candidate? (l : Layout) : Option KeyCandidate :=
  l.candidates.lookup l.depth

/-- The state without a candidate at this depth, which may not have been required. -/
def dropCandidate? (l : Layout) : Option Layout :=
  if l.candidate?.any (·.required) then
    none
  else
    some { l with candidates := l.candidates.filter (·.1 != l.depth) }

/-- The state with a candidate here, if a key may begin here. -/
def saveCandidate? (l : Layout) : Option Layout :=
  if l.keyAllowed then do
    let l ← l.dropCandidate?
    let key : KeyCandidate :=
      { tokenCount := l.tokens.size
        required := !l.inFlow && l.indent == l.place.column
        index := l.place.index
        line := l.place.line
        column := l.place.column }
    return { l with candidates := (l.depth, key) :: l.candidates }
  else
    some l

/-! ### Indentation -/

/-- The innermost collections that are indented further than `column` end. -/
def unwindFrom (column : Int) : (outer : List Int) → Layout → Layout
  | [], l => l
  | next :: outer, l =>
    if column < l.indent then
      unwindFrom column outer
        { l with indent := next, outer := outer, tokens := l.tokens.push .blockEnd }
    else
      l

/-- The collections that are indented further than `column` end, unless the place is inside
brackets. -/
def unwind (l : Layout) (column : Int) : Layout :=
  if l.inFlow then l else unwindFrom column l.outer l

/-- The state inside a collection at `column`, and whether that is a new one. -/
def indentTo (l : Layout) (column : Int) : Layout × Bool :=
  if l.indent < column then
    ({ l with indent := column, outer := l.indent :: l.outer }, true)
  else
    (l, false)

/-- The state inside a collection at this column, with the token that opens it if it is new.  Outside
brackets, that is only possible where a key may begin. -/
def openBlock? (l : Layout) (token : Token) : Option Layout :=
  if l.inFlow then
    some l
  else if !l.keyAllowed then
    none
  else
    let (l, isNew) := l.indentTo l.place.column
    some (if isNew then { l with tokens := l.tokens.push token } else l)

/-! ### One token -/

/-- The place after blank lines, spaces and comments, and whether a line ended on the way. -/
def skipBlank : (fuel : Nat) → Place → Bool → Place × Bool
  | 0, p, crossed => (p, crossed)
  | fuel + 1, p, crossed =>
    let q := p.skipSpaces
    let q := if q.next == some '#' then q.skipLine else q
    match q.lineBreak? with
    | some (_, after) => skipBlank fuel after true
    | none => (q, crossed)

/-- The state before the next token. -/
def toNextToken (l : Layout) : Layout :=
  let start :=
    if l.place.index == 0 && l.place.next == some '\uFEFF' then l.place.step else l.place
  let (place, crossed) := skipBlank (start.rest.length + 1) start false
  { l with place := place, keyAllowed := l.keyAllowed || (crossed && !l.inFlow) }

/-- A mark at the head of a line that ends all collections. -/
def documentMark? (l : Layout) (token : Token) (place : Place) : Option Layout := do
  let l ← (l.unwind (-1)).dropCandidate?
  return { l with keyAllowed := false }.push token place

/-- An opening bracket or brace. -/
def open? (l : Layout) (token : Token) : Option Layout := do
  let l ← l.saveCandidate?
  return { l with depth := l.depth + 1, keyAllowed := true }.push token l.place.step

/-- A closing bracket or brace. -/
def close? (l : Layout) (token : Token) : Option Layout := do
  let l ← l.dropCandidate?
  if l.inFlow then
    return { l with depth := l.depth - 1, keyAllowed := false }.push token l.place.step
  else
    none

/-- A comma. -/
def comma? (l : Layout) : Option Layout := do
  let l ← { l with keyAllowed := true }.dropCandidate?
  return l.push .comma l.place.step

/-- A dash before an item. -/
def dash? (l : Layout) : Option Layout := do
  let l ← l.openBlock? .sequenceStart
  let l ← { l with keyAllowed := true }.dropCandidate?
  return l.push .dash l.place.step

/-- A question mark before a key. -/
def key? (l : Layout) : Option Layout := do
  let l ← l.openBlock? .mappingStart
  let l ← { l with keyAllowed := !l.inFlow }.dropCandidate?
  return l.push .key l.place.step

/-- A colon before a value.  If a key may have begun before it, the key is marked there. -/
def value? (l : Layout) : Option Layout := do
  match l.candidate? with
  | some key =>
    let l := { l with candidates := l.candidates.filter (·.1 != l.depth) }
    let (l, isNew) := if l.inFlow then (l, false) else l.indentTo key.column
    -- the marks go in front of the tokens of the key
    let marks := if isNew then #[Token.mappingStart, Token.key] else #[Token.key]
    let before := l.tokens.extract 0 key.tokenCount
    let after := l.tokens.extract key.tokenCount l.tokens.size
    let l := { l with tokens := before ++ marks ++ after, keyAllowed := false }
    return l.push .value l.place.step
  | none =>
    let l ← l.openBlock? .mappingStart
    let l ← { l with keyAllowed := !l.inFlow }.dropCandidate?
    return l.push .value l.place.step

/-- A node that may be a key. -/
def node? (l : Layout) (token : Token) (place : Place) : Option Layout := do
  let l ← l.saveCandidate?
  return { l with keyAllowed := false }.push token place

/-- A plain text.  If a line ended after it, a key may follow. -/
def plainText? (l : Layout) : Option Layout := do
  let found := plain l.inFlow (l.indent + 1) l.place
  let l ← l.node? (.scalar (CodePoint.ofText found.text) true) found.place
  return { l with keyAllowed := found.crossesLine }

/-- A block of lines. -/
def blockText? (l : Layout) (fold : Bool) : Option Layout := do
  let l ← { l with keyAllowed := true }.dropCandidate?
  let (text, place) ← block? fold l.indent l.place
  return l.push (.scalar (CodePoint.ofText text) false) place

/-- Whether a plain text can begin with these characters. -/
def beginsPlain (inFlow : Bool) (text : List Char) : Bool :=
  match text with
  | [] => false
  | c :: tail =>
    !(endsWord (some c) ||
      ['-', '?', ':', ',', '[', ']', '\x7b', '\x7d', '#', '&', '*', '!', '|', '>', '\x27', '"', '%',
        '@', '\x60'].contains c) ||
      (!endsWord tail.head? && (c == '-' || (!inFlow && (c == '?' || c == ':'))))

/-- The state after the token that begins with these characters. -/
def token (l : Layout) (c : Char) (tail : List Char) : Except Trouble Layout :=
  -- directives and the marks of documents count only at the head of a line
  let atLineHead := l.place.column == 0
  if c == '%' && atLineHead then orMalformed do
    let (directive, place) ← directive? l.place
    l.documentMark? (.directive directive) place
  else if atLineHead && beginsMark ['-', '-', '-'] l.place.rest then
    orMalformed (l.documentMark? .documentStart (l.place.advance 3))
  else if atLineHead && beginsMark ['.', '.', '.'] l.place.rest then
    orMalformed (l.documentMark? .documentEnd (l.place.advance 3))
  else if c == '[' then orMalformed (l.open? .bracketOpen)
  else if c == '\x7b' then orMalformed (l.open? .braceOpen)
  else if c == ']' then orMalformed (l.close? .bracketClose)
  else if c == '\x7d' then orMalformed (l.close? .braceClose)
  else if c == ',' then orMalformed l.comma?
  else if c == '-' && endsWord tail.head? then orMalformed l.dash?
  else if c == '?' && (l.inFlow || endsWord tail.head?) then orMalformed l.key?
  else if c == ':' && (l.inFlow || endsWord tail.head?) then orMalformed l.value?
  else if c == '*' then orMalformed do
    let (name, place) ← anchorName? l.place
    l.node? (.reference name) place
  else if c == '&' then orMalformed do
    let (name, place) ← anchorName? l.place
    l.node? (.anchor name) place
  else if c == '!' then orMalformed do
    let (name, place) ← tagName? l.place
    l.node? (.tag name) place
  else if c == '|' && !l.inFlow then orMalformed (l.blockText? false)
  else if c == '>' && !l.inFlow then orMalformed (l.blockText? true)
  else if c == '\x27' || c == '"' then do
    -- what may begin a key is settled before the text itself is looked at
    let _ ← orMalformed l.saveCandidate?
    let (text, place) ← quoted (c == '"') l.place
    orMalformed (l.node? (.scalar text false) place)
  else if beginsPlain l.inFlow l.place.rest then orMalformed l.plainText?
  else .error .malformed

/-- How many tokens are settled: no key can be put in before them any more. -/
def settled (l : Layout) : Nat :=
  (l.candidates.filter fun (_, key) => !l.isStale key).foldl
    (fun least (_, key) => min least key.tokenCount) l.tokens.size

end Layout

/-- The tokens of a text.  If a fault broke the cutting off, they are those that were settled before
the token with the fault. -/
structure TokenStream where
  tokens : List Token
  fault : Option Fault
  deriving DecidableEq, Repr

namespace Layout

/-- The tokens from here on. -/
def run? : (fuel : Nat) → Layout → Option TokenStream
  | 0, _ => none
  | fuel + 1, l => do
    let next ← l.toNextToken.dropStale?
    let next := next.unwind next.place.column
    match next.place.rest with
    | [] => do
      let last ← (next.unwind (-1)).dropCandidate?
      return ⟨last.tokens.toList, none⟩
    | c :: tail =>
      match next.token c tail with
      | .ok l => run? fuel l
      | .error .malformed => none
      | .error (.fault f) => some ⟨(l.tokens.extract 0 l.settled).toList, some f⟩

end Layout

/-- The tokens of a text, if it can be cut into tokens. -/
def tokens? (text : List Char) : Option TokenStream :=
  (Layout.ofText text).run? (text.length + 1)

end SourceOutline.Yaml
