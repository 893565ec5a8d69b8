/-
**Scalars that must convert.**

A scalar with the type of a number, a date or encoded octets must have the form of one.  Digits of
any script count as digits here.

Main definitions:

* `Yaml.isWholeNumber` — a whole number to a base;
* `Yaml.isRealNumber` — a number with or without a point;
* `Yaml.isTimestamp?` — whether a text that has the form of a date is one;
* `Yaml.isBase64` — encoded octets.
-/

import SourceOutline.Text.Basic
import SourceOutline.Text.Digit
import SourceOutline.Text.Hex
import SourceOutline.Yaml.Tag

set_option autoImplicit false

namespace SourceOutline.Yaml

open SourceOutline.Text Pattern

/-! ### Numbers -/

/-- The blanks that may stand around a number. -/
def isNumberPadding (c : Char) : Bool :=
  isBlank c && !(0x1C ≤ c.toNat && c.toNat ≤ 0x1F)

/-- A text without the blanks around a number. -/
def trimNumber (text : List Char) : List Char :=
  ((text.dropWhile isNumberPadding).reverse.dropWhile isNumberPadding).reverse

/-- A text without its sign, if it has one. -/
def dropSign : List Char → List Char
  | '+' :: rest => rest
  | '-' :: rest => rest
  | text => text

/-- A text without the letter that may mark its base. -/
def dropBaseMark (base : Nat) (text : List Char) : List Char :=
  match text with
  | '0' :: letter :: rest =>
    let marked :=
      (base == 2 && (letter == 'b' || letter == 'B')) ||
      (base == 8 && (letter == 'o' || letter == 'O')) ||
      (base == 16 && (letter == 'x' || letter == 'X'))
    if marked then rest else text
  | _ => text

/-- Whether a text is a whole number to a base. -/
def isWholeNumber (base : Nat) (text : List Char) : Bool :=
  let digits := dropBaseMark base (dropSign (asciiDigits (trimNumber text)))
  !digits.isEmpty && (digits.all fun c => (hexValue? c).any (· < base)) &&
    (base != 10 || digits.length ≤ maxDigits)

/-- Whether a character is a decimal digit of any script. -/
def isAnyDigit (c : Char) : Bool :=
  (digitValue? c).isSome

/-- A number in decimal notation. -/
def decimalNumber : Pattern Unit := do
  (do
    oneOrMore isAnyDigit
    let _ ← optional do
      word "."
      many isAnyDigit) <|>
  (do
    word "."
    oneOrMore isAnyDigit)
  let _ ← optional do
    word "e"
    sign
    oneOrMore isAnyDigit

/-- A number, infinity, or the mark of what is not a number, in lower case. -/
def realNumber : Pattern Unit := do
  sign
  decimalNumber <|> oneOf ["infinity", "inf", "nan"]
  textEnd

/-- Whether a text is a number. -/
def isRealNumber (text : List Char) : Bool :=
  (realNumber.first? (Cursor.ofText (trimNumber text))).isSome

/-! ### Dates -/

/-- The parts of a date and of a time of day. -/
structure Timestamp where
  year : Capture
  month : Capture
  day : Capture
  /-- Hours, minutes and seconds. -/
  time : Option (Capture × Capture × Capture)
  /-- Hours and minutes by which the time is shifted. -/
  zone : Option (Capture × Option Capture)

/-- The time zone after a time of day. -/
def zoneShift : Pattern (Option (Capture × Option Capture)) := do
  padding
  (do
    word "Z"
    return none) <|>
  (do
    let _ ← one fun c => c == '-' || c == '+'
    let hours ← captured shortNumber
    let minutes ← optional do
      word ":"
      captured twoDigits
    return some (hours, minutes))

/-- The time of day after a date. -/
def timeOfDay :
    Pattern ((Capture × Capture × Capture) × Option (Capture × Option Capture)) := do
  oneOf ["T", "t"] <|> oneOrMore isPadding
  let hours ← captured shortNumber
  word ":"
  let minutes ← captured twoDigits
  word ":"
  let seconds ← captured twoDigits
  let _ ← optional do
    word "."
    many Char.isDigit
  let zone ← optional zoneShift
  return ((hours, minutes, seconds), zone.join)

/-- A date with or without a time of day. -/
def timestamp : Pattern Timestamp := do
  let year ← captured do
    twoDigits
    twoDigits
  word "-"
  let month ← captured shortNumber
  word "-"
  let day ← captured shortNumber
  let time ← optional timeOfDay
  let _ ← optional (word "\n")
  textEnd
  return ⟨year, month, day, time.map (·.1), time.bind (·.2)⟩

/-- The number that ASCII digits mean. -/
def numberOf (digits : Capture) : Nat :=
  digits.text.foldl (fun value c => value * 10 + (c.toNat - '0'.toNat)) 0

/-- The number of days of a month. -/
def daysIn (year month : Nat) : Nat :=
  if month == 2 then
    if year % 4 == 0 && (year % 100 != 0 || year % 400 == 0) then 29 else 28
  else if [4, 6, 9, 11].contains month then 30
  else 31

/-- Whether the parts of a date and of a time of day are in range. -/
def Timestamp.isValid (t : Timestamp) : Bool :=
  let year := numberOf t.year
  let month := numberOf t.month
  let day := numberOf t.day
  1 ≤ year && 1 ≤ month && month ≤ 12 && 1 ≤ day && day ≤ daysIn year month &&
    (t.time.all fun (hours, minutes, seconds) =>
      numberOf hours ≤ 23 && numberOf minutes ≤ 59 && numberOf seconds ≤ 59) &&
    (t.zone.all fun (hours, minutes) =>
      numberOf hours * 60 + (minutes.map numberOf).getD 0 < 24 * 60)

/-- Whether a text that has the form of a date is one. -/
def isTimestamp? (text : List Char) : Option Bool :=
  (timestamp.first? (Cursor.ofText text)).map fun (found, _) => found.isValid

/-! ### Encoded octets -/

/-- Whether a character is a digit to the base sixty-four. -/
def isBase64Digit (c : Char) : Bool :=
  c.isAlphanum || c == '+' || c == '/'

/-- Whether the rest of an encoding is complete, after `filled` digits of a group of four and
`pads` signs of padding.  Other characters are passed over, and what follows a padded group is not
read. -/
def base64Rest (filled pads : Nat) : List Char → Bool
  | [] => filled == 0
  | c :: rest =>
    if c == '=' then
      if filled ≥ 2 then
        if filled + pads + 1 ≥ 4 then true else base64Rest filled (pads + 1) rest
      else
        base64Rest filled pads rest
    else if isBase64Digit c then
      base64Rest ((filled + 1) % 4) 0 rest
    else
      base64Rest filled pads rest

/-- Whether a text encodes octets. -/
def isBase64 (text : List Char) : Bool :=
  (text.all fun c => c.toNat < 128) && base64Rest 0 0 text

end SourceOutline.Yaml
