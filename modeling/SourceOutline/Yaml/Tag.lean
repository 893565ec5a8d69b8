/-
**Types of nodes.**

Every node has a type.  It is written as a tag, or it follows from the form of the node: a plain
text that reads as a number, a date or a truth value is one.

Main definitions:

* `Yaml.Tag`, `Yaml.Tag.ofName` — the types that can be read, and the tags that name them;
* `Yaml.Tag.isCollection` — the types whose values hold others;
* `Yaml.covers` — a pattern that covers a whole text;
* `Yaml.Tag.ofChars`, `Yaml.Tag.ofPlain` — the type of a text by its form.
-/

import SourceOutline.Pattern.Derived
import SourceOutline.Text.CodePoint

set_option autoImplicit false

namespace SourceOutline.Yaml

open Pattern
open SourceOutline.Text (CodePoint)

/-- The types of nodes. -/
inductive Tag where
  | null
  | bool
  | int
  | float
  | binary
  | timestamp
  | orderedMap
  | pairs
  | set
  | str
  | seq
  | map
  /-- A key whose value is merged into the mapping. -/
  | merge
  /-- A key whose value stands for the mapping. -/
  | value
  /-- Any other type; such a node cannot be read. -/
  | unknown
  deriving DecidableEq, Repr

namespace Tag

/-- The type that a full tag names. -/
def ofName (name : String) : Tag :=
  match name with
  | "tag:yaml.org,2002:null" => null
  | "tag:yaml.org,2002:bool" => bool
  | "tag:yaml.org,2002:int" => int
  | "tag:yaml.org,2002:float" => float
  | "tag:yaml.org,2002:binary" => binary
  | "tag:yaml.org,2002:timestamp" => timestamp
  | "tag:yaml.org,2002:omap" => orderedMap
  | "tag:yaml.org,2002:pairs" => pairs
  | "tag:yaml.org,2002:set" => set
  | "tag:yaml.org,2002:str" => str
  | "tag:yaml.org,2002:seq" => seq
  | "tag:yaml.org,2002:map" => map
  | "tag:yaml.org,2002:merge" => merge
  | "tag:yaml.org,2002:value" => value
  | _ => unknown

/-- The types whose values hold others; such a value cannot be a key. -/
def isCollection : Tag → Bool
  | orderedMap | pairs | set | seq | map => true
  | _ => false

end Tag

/-! ### Plain texts -/

/-- The end of a text. -/
def textEnd : Pattern Unit :=
  edge fun _ next => next.isNone

/-- Whether a pattern covers a whole text, a line feed at its end apart. -/
def covers {α : Type} (p : Pattern α) (text : List Char) : Bool :=
  let whole : Pattern Unit := do
    let _ ← p
    let _ ← optional (word "\n")
    textEnd
  (whole.first? (Cursor.ofText text)).isSome

/-- One of several words. -/
def oneOf : List String → Pattern Unit
  | [] => edge fun _ _ => false
  | w :: rest => word w <|> oneOf rest

/-- An ASCII digit. -/
def digit : Pattern Unit := do
  let _ ← one Char.isDigit

/-- A sign that may be absent. -/
def sign : Pattern Unit := do
  let _ ← optional (one fun c => c == '-' || c == '+')

/-- Digits and underscores. -/
def digitsAndBars : Pattern Unit :=
  many fun c => c.isDigit || c == '_'

/-- The truth values. -/
def truthWords : List String :=
  ["yes", "Yes", "YES", "no", "No", "NO", "true", "True", "TRUE", "false", "False", "FALSE",
    "on", "On", "ON", "off", "Off", "OFF"]

/-- The further places of a number to the base sixty. -/
def sixties : Pattern Unit := do
  let place : Pattern Unit := do
    word ":"
    let _ ← optional (one fun c => '0' ≤ c && c ≤ '5')
    digit
  place
  star place

/-- A power of ten with a sign. -/
def signedExponent : Pattern Unit := do
  let _ ← one fun c => c == 'e' || c == 'E'
  let _ ← one fun c => c == '-' || c == '+'
  oneOrMore Char.isDigit

/-- Numbers with a point. -/
def plainFloat : Pattern Unit :=
  -- in the order in which they are tried: with digits before the point, with digits after it
  -- only, to the base sixty, infinity, and what is not a number
  (do
    sign
    digit
    digitsAndBars
    word "."
    digitsAndBars
    let _ ← optional signedExponent) <|>
  (do
    word "."
    digit
    digitsAndBars
    let _ ← optional signedExponent) <|>
  (do
    sign
    digit
    digitsAndBars
    sixties
    word "."
    digitsAndBars) <|>
  (do
    sign
    word "."
    oneOf ["inf", "Inf", "INF"]) <|>
  (do
    word "."
    oneOf ["nan", "NaN", "NAN"])

/-- A digit that is not zero. -/
def nonzeroDigit : Pattern Unit := do
  let _ ← one fun c => '1' ≤ c && c ≤ '9'

/-- Whole numbers: to the bases two, eight, ten, sixteen and sixty. -/
def plainInt : Pattern Unit := do
  sign
  (do
    word "0b"
    oneOrMore fun c => c == '0' || c == '1' || c == '_') <|>
  (do
    word "0"
    oneOrMore fun c => ('0' ≤ c && c ≤ '7') || c == '_') <|>
  word "0" <|>
  (do
    nonzeroDigit
    digitsAndBars) <|>
  (do
    word "0x"
    oneOrMore fun c =>
      c.isDigit || ('a' ≤ c && c ≤ 'f') || ('A' ≤ c && c ≤ 'F') || c == '_') <|>
  (do
    nonzeroDigit
    digitsAndBars
    sixties)

/-- One or two digits. -/
def shortNumber : Pattern Unit := do
  digit
  let _ ← optional digit

/-- Two digits. -/
def twoDigits : Pattern Unit := do
  digit
  digit

/-- Dates, and dates with a time of day. -/
def plainTimestamp : Pattern Unit :=
  (do
    twoDigits
    twoDigits
    word "-"
    twoDigits
    word "-"
    twoDigits) <|>
  (do
    twoDigits
    twoDigits
    word "-"
    shortNumber
    word "-"
    shortNumber
    oneOf ["T", "t"] <|> oneOrMore Text.isPadding
    shortNumber
    word ":"
    twoDigits
    word ":"
    twoDigits
    let _ ← optional do
      word "."
      many Char.isDigit
    let _ ← optional do
      padding
      word "Z" <|> do
        let _ ← one fun c => c == '-' || c == '+'
        shortNumber
        let _ ← optional do
          word ":"
          twoDigits)

/-- The type of a text of characters by its form.  The marks of anchors, aliases and tags have a type
of their own, which has no values. -/
def Tag.ofChars (text : List Char) : Tag :=
  if text.isEmpty then .null
  else if covers (oneOf truthWords) text then .bool
  else if covers plainFloat text then .float
  else if covers plainInt text then .int
  else if covers (word "<<") text then .merge
  else if covers (oneOf ["~", "null", "Null", "NULL"]) text then .null
  else if covers plainTimestamp text then .timestamp
  else if covers (word "=") text then .value
  else if covers (oneOf ["!", "&", "*"]) text then .unknown
  else .str

/-- The type of a text by its form. -/
def Tag.ofPlain (text : List CodePoint) : Tag :=
  match CodePoint.text? text with
  | some chars => .ofChars chars
  | none => .str

end SourceOutline.Yaml
