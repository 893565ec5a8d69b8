/-
**Texts in a document.**

A text is written in one of three styles.  A quoted text ends at its closing quote, a plain text
where it can no longer go on, and a block of lines where the indentation ends.  In all of them lines
are folded by rules of their own.

Main definitions:

* `Yaml.charOfNumber` — the code point that an escape names;
* `Yaml.quoted` — a text between quotes;
* `Yaml.plain` — a text without any marks;
* `Yaml.block?` — a block of lines, kept or folded.
-/

import SourceOutline.Text.Hex
import SourceOutline.Yaml.Place
import SourceOutline.Yaml.Trouble

set_option autoImplicit false

namespace SourceOutline.Yaml

open SourceOutline.Text (CodePoint hexValue?)

/-! ### Quoted texts -/

/-- The character that an escape of one character stands for. -/
def escapeChar? (c : Char) : Option Char :=
  match c with
  | '0' => some '\x00'
  | 'a' => some '\x07'
  | 'b' => some '\x08'
  | 't' => some '\t'
  | '\t' => some '\t'
  | 'n' => some '\n'
  | 'v' => some '\x0B'
  | 'f' => some '\x0C'
  | 'r' => some '\r'
  | 'e' => some '\x1B'
  | ' ' => some ' '
  | '"' => some '"'
  | '\\' => some '\\'
  | '/' => some '/'
  | 'N' => some '\x85'
  | '_' => some '\xA0'
  | 'L' => some '\u2028'
  | 'P' => some '\u2029'
  | _ => none

/-- The number of hexadecimal digits that an escape takes. -/
def escapeWidth? (c : Char) : Option Nat :=
  match c with
  | 'x' => some 2
  | 'u' => some 4
  | 'U' => some 8
  | _ => none

/-- The number that `width` hexadecimal digits at the beginning of a text mean. -/
def hexNumber? (width : Nat) (text : List Char) : Option Nat :=
  if text.length < width then
    none
  else
    (text.take width).foldlM (fun value c => (hexValue? c).map fun digit => value * 16 + digit) 0

/-- The greatest number of an escape that is looked at. -/
def maxEscape : Nat := 0x7FFFFFFF

/-- The code point with a given number.  A number beyond the last code point has none. -/
def charOfNumber (n : Nat) : Except Trouble CodePoint :=
  if maxEscape < n then .error (.fault .escapeTooLarge)
  else if 0x10FFFF < n then .error .malformed
  else if 0xD800 ≤ n && n ≤ 0xDFFF then .ok (.half n)
  else .ok (.char (Char.ofNat n))

/-- The line ends of the empty lines ahead, and the place of the text after them.  A mark that
separates documents may not stand there. -/
def emptyLines? : (fuel : Nat) → Place → Option (List Char × Place)
  | 0, _ => none
  | fuel + 1, p =>
    if isSeparator p.rest then
      none
    else
      let q := p.skipWhile fun c => c == ' ' || c == '\t'
      match q.lineBreak? with
      | none => some ([], q)
      | some (shown, after) => do
        let (breaks, last) ← emptyLines? fuel after
        return (shown :: breaks, last)

/-- What a line end and the empty lines after it become: one line end alone becomes a space, and
otherwise the line feed of the first is dropped. -/
def folded (shown : Char) (breaks : List Char) : List Char :=
  if shown != '\n' then shown :: breaks
  else if breaks.isEmpty then [' ']
  else breaks

/-- The rest of a quoted text, and the place after its closing quote. -/
def quotedRest (double : Bool) : (fuel : Nat) → Place → Except Trouble (List CodePoint × Place)
  | 0, _ => .error .malformed
  | fuel + 1, p =>
    let quote := if double then '"' else '\x27'
    let go (head : List CodePoint) (after : Place) : Except Trouble (List CodePoint × Place) := do
      let (tail, last) ← quotedRest double fuel after
      return (head ++ tail, last)
    match p.rest with
    | [] => .error .malformed
    | c :: tail =>
      if c == quote then
        if !double && tail.head? == some quote then
          go [.char quote] (p.advance 2)
        else
          .ok ([], p.step)
      else if double && c == '\\' then
        match tail with
        | [] => .error .malformed
        | e :: digits =>
          match escapeChar? e, escapeWidth? e with
          | some meant, _ => go [.char meant] (p.advance 2)
          | none, some width => do
            let meant ← orMalformed (hexNumber? width digits) >>= charOfNumber
            go [meant] (p.advance (2 + width))
          | none, none =>
            if isBreak e then do
              let (breaks, after) ← orMalformed (emptyLines? fuel (p.advance 2))
              go (CodePoint.ofText breaks) after
            else
              .error .malformed
      else if c == ' ' || c == '\t' || isBreak c then
        let (blanks, q) := p.takeWhile fun c => c == ' ' || c == '\t'
        match q.lineBreak? with
        | some (shown, after) => do
          let (breaks, last) ← orMalformed (emptyLines? fuel after)
          go (CodePoint.ofText (folded shown breaks)) last
        | none => go (CodePoint.ofText blanks) q
      else
        go [.char c] p.step

/-- A text between quotes, of which the first stands here. -/
def quoted (double : Bool) (p : Place) : Except Trouble (List CodePoint × Place) :=
  quotedRest double (p.rest.length + 1) p.step

/-! ### Plain texts -/

/-- Whether a plain text ends before these characters.  Inside brackets, their marks end it too. -/
def endsPlain (inFlow : Bool) (text : List Char) : Bool :=
  match text with
  | [] => true
  | c :: tail =>
    endsWord (some c) ||
      (c == ':' &&
        (endsWord tail.head? ||
          (inFlow && tail.head?.any fun n => [',', '[', ']', '\x7b', '\x7d'].contains n))) ||
      (inFlow && [',', '?', '[', ']', '\x7b', '\x7d'].contains c)

/-- The characters of a plain text up to where it ends or is interrupted by blanks. -/
def plainChunk (inFlow : Bool) : List Char → List Char
  | [] => []
  | c :: tail => if endsPlain inFlow (c :: tail) then [] else c :: plainChunk inFlow tail

/-- What stands between two parts of a plain text. -/
structure PlainGap where
  /-- What the gap becomes, if the text can go on after it. -/
  text : Option (List Char)
  place : Place
  /-- Whether a line ended in the gap. -/
  crossesLine : Bool

/-- The line ends of the empty lines ahead and the place of the text after them; nothing if a mark
that separates documents stands there. -/
def plainBreaks : (fuel : Nat) → List Char → Place → Option (List Char) × Place
  | 0, breaks, p => (some breaks.reverse, p)
  | fuel + 1, breaks, p =>
    let q := p.skipSpaces
    match q.lineBreak? with
    | none => (some breaks.reverse, q)
    | some (shown, after) =>
      if isSeparator after.rest then (none, after) else plainBreaks fuel (shown :: breaks) after

/-- The gap after a part of a plain text. -/
def plainGap (p : Place) : PlainGap :=
  let (spaces, q) := p.takeWhile (· == ' ')
  match q.lineBreak? with
  | some (shown, after) =>
    if isSeparator after.rest then
      ⟨none, after, true⟩
    else
      let (breaks, last) := plainBreaks after.rest.length [] after
      ⟨breaks.map (folded shown), last, true⟩
  | none => ⟨if spaces.isEmpty then none else some spaces, q, false⟩

/-- A plain text read so far. -/
structure PlainText where
  text : List Char
  place : Place
  /-- Whether the text was followed by a line end. -/
  crossesLine : Bool

/-- The plain text that goes on here after a gap; lines that go on are indented to column `indent`
at least, except inside brackets. -/
def plainFrom (inFlow : Bool) (indent : Int) :
    (fuel : Nat) → (gap : List Char) → (soFar : PlainText) → PlainText
  | 0, _, soFar => soFar
  | fuel + 1, gap, soFar =>
    let p := soFar.place
    let chunk := if p.next == some '#' then [] else plainChunk inFlow p.rest
    if chunk.isEmpty then
      soFar
    else
      let after := plainGap (p.advance chunk.length)
      let text : PlainText := ⟨soFar.text ++ gap ++ chunk, after.place, after.crossesLine⟩
      match after.text with
      | none => text
      | some gap =>
        if after.place.next == some '#' || (!inFlow && (after.place.column : Int) < indent) then
          text
        else
          plainFrom inFlow indent fuel gap text

/-- The plain text that begins here. -/
def plain (inFlow : Bool) (indent : Int) (p : Place) : PlainText :=
  plainFrom inFlow indent (p.rest.length + 1) [] ⟨[], p, false⟩

/-! ### Blocks of lines -/

/-- What happens to the line ends at the end of a block. -/
inductive Chomping where
  /-- They are dropped. -/
  | strip
  /-- The first is kept. -/
  | clip
  /-- All are kept. -/
  | keep
  deriving DecidableEq, Repr

/-- The chomping that a sign asks for. -/
def chompingOf? (next : Option Char) : Option Chomping :=
  match next with
  | some '+' => some .keep
  | some '-' => some .strip
  | _ => none

/-- The indentation that a digit asks for. -/
def incrementOf? (next : Option Char) : Option Nat :=
  match next with
  | some c => if c.isDigit then some (c.toNat - '0'.toNat) else none
  | none => none

/-- The signs after the mark of a block, in either order. -/
def blockSigns (p : Place) : Chomping × Option Nat × Place :=
  match chompingOf? p.next with
  | some chomping =>
    match incrementOf? p.step.next with
    | some n => (chomping, some n, p.advance 2)
    | none => (chomping, none, p.step)
  | none =>
    match incrementOf? p.next with
    | some n =>
      match chompingOf? p.step.next with
      | some chomping => (chomping, some n, p.advance 2)
      | none => (.clip, some n, p.step)
    | none => (.clip, none, p)

/-- The place after a line that may hold nothing but spaces and a comment from here on. -/
def ignoredLine? (p : Place) : Option Place :=
  let q := p.skipSpaces
  let q := if q.next == some '#' then q.skipLine else q
  if endsLine q.next then some q.step else none

/-- The line ends of the lines ahead that hold only spaces, the widest indentation met, and the
place of the first other character. -/
def detectIndent : (fuel : Nat) → (breaks : List Char) → (widest : Nat) → Place →
    List Char × Nat × Place
  | 0, breaks, widest, p => (breaks.reverse, widest, p)
  | fuel + 1, breaks, widest, p =>
    match p.lineBreak? with
    | some (shown, after) => detectIndent fuel (shown :: breaks) widest after
    | none =>
      if p.next == some ' ' then
        detectIndent fuel breaks (max widest p.step.column) p.step
      else
        (breaks.reverse, widest, p)

/-- The place after spaces, up to a column. -/
def indentTo (column : Nat) : (fuel : Nat) → Place → Place
  | 0, p => p
  | fuel + 1, p =>
    if p.column < column && p.next == some ' ' then indentTo column fuel p.step else p

/-- The line ends of the empty lines ahead, and the place after them and the indentation. -/
def blockBreaks (indent : Nat) : (fuel : Nat) → (breaks : List Char) → Place → List Char × Place
  | 0, breaks, p => (breaks.reverse, p)
  | fuel + 1, breaks, p =>
    let q := indentTo indent indent p
    match q.lineBreak? with
    | some (shown, after) => blockBreaks indent fuel (shown :: breaks) after
    | none => (breaks.reverse, q)

/-- The lines of a block read so far. -/
structure BlockText where
  text : List Char
  /-- The line end after the last line. -/
  lineEnd : List Char
  /-- The empty lines after it. -/
  breaks : List Char
  place : Place

/-- Whether a character makes a line an ordinary one, which may be folded with its neighbours. -/
def isOrdinary (next : Option Char) : Bool :=
  next.all fun c => c != ' ' && c != '\t'

/-- The lines of a block from here on. -/
def blockLines (fold : Bool) (indent : Nat) : (fuel : Nat) → BlockText → BlockText
  | 0, b => b
  | fuel + 1, b =>
    if b.place.column == indent && b.place.next.isSome then
      let (line, ending) := b.place.takeWhile (!isBreak ·)
      let text := b.text ++ b.breaks ++ line
      let (lineEnd, after) :=
        match ending.lineBreak? with
        | some (shown, after) => ([shown], after)
        | none => ([], ending)
      let (breaks, next) := blockBreaks indent (after.rest.length + 1) [] after
      if next.column == indent && next.next.isSome then
        let joined :=
          if fold && lineEnd == ['\n'] && isOrdinary b.place.next && isOrdinary next.next then
            if breaks.isEmpty then [' '] else []
          else
            lineEnd
        blockLines fold indent fuel ⟨text ++ joined, lineEnd, breaks, next⟩
      else
        ⟨text, lineEnd, breaks, next⟩
    else
      b

/-- A block of lines whose mark stands here, in a collection indented to `indent`. -/
def block? (fold : Bool) (indent : Int) (p : Place) : Option (List Char × Place) := do
  let (chomping, increment, p) := blockSigns p.step
  if increment == some 0 || !endsName p.next then
    none
  else
    let p ← ignoredLine? p
    let least := (max (indent + 1) 1).toNat
    let fuel := p.rest.length + 1
    let (column, breaks, p) :=
      match increment with
      | some n =>
        let column := least + n - 1
        (column, blockBreaks column fuel [] p)
      | none =>
        let (breaks, widest, p) := detectIndent fuel [] 0 p
        (max least widest, breaks, p)
    let b := blockLines fold column fuel ⟨[], [], breaks, p⟩
    let tail :=
      match chomping with
      | .strip => []
      | .clip => b.lineEnd
      | .keep => b.lineEnd ++ b.breaks
    return (b.text ++ tail, b.place)

end SourceOutline.Yaml
