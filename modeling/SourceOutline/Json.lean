/-
**JSON texts.**

Values are written over several lines, each level indented by two spaces, in printable ASCII alone:
any other character is written as one or two escapes of sixteen bits.

Main definitions:

* `Json` — values; the fields of an object have an order;
* `Json.escape`, `Json.quote` — strings;
* `Json.renderAt`, `Json.render` — the text of a value.
-/

import SourceOutline.Text.Hex

set_option autoImplicit false

namespace SourceOutline

open Text

/-- The values that reports hold. -/
inductive Json where
  | string (s : String)
  | number (n : Int)
  | array (items : List Json)
  | object (fields : List (String × Json))

namespace Json

/-! ### Strings -/

/-- An escape of sixteen bits. -/
def unitEscape (n : Nat) : List Char :=
  '\\' :: 'u' :: hex 4 n

/-- A character between quotes.  One beyond sixteen bits is written as a pair of escapes. -/
def escape (c : Char) : List Char :=
  if c == '"' then ['\\', '"']
  else if c == '\\' then ['\\', '\\']
  else if c == '\n' then ['\\', 'n']
  else if c == '\r' then ['\\', 'r']
  else if c == '\t' then ['\\', 't']
  else if c == '\x08' then ['\\', 'b']
  else if c == '\x0C' then ['\\', 'f']
  else if 0x20 ≤ c.toNat && c.toNat < 0x7F then [c]
  else if c.toNat < 0x10000 then unitEscape c.toNat
  else
    unitEscape (0xD800 + (c.toNat - 0x10000) / 0x400) ++
      unitEscape (0xDC00 + (c.toNat - 0x10000) % 0x400)

/-- A string between quotes. -/
def quote (s : String) : List Char :=
  '"' :: (s.toList.flatMap escape ++ ['"'])

/-! ### Values -/

/-- A new line at a level. -/
def newline (level : Nat) : List Char :=
  '\n' :: List.replicate (2 * level) ' '

mutual

/-- The text of a value that stands at a level. -/
def renderAt (level : Nat) : Json → List Char
  | string s => quote s
  | number n => (toString n).toList
  | array [] => ['[', ']']
  | array (item :: rest) =>
    '[' :: (newline (level + 1) ++ renderAt (level + 1) item ++ renderItems (level + 1) rest ++
      newline level ++ [']'])
  | object [] => ['\x7b', '\x7d']
  | object ((key, value) :: rest) =>
    '\x7b' :: (newline (level + 1) ++ quote key ++ [':', ' '] ++ renderAt (level + 1) value ++
      renderFields (level + 1) rest ++ newline level ++ ['\x7d'])

/-- The further items of an array. -/
def renderItems (level : Nat) : List Json → List Char
  | [] => []
  | item :: rest => ',' :: (newline level ++ renderAt level item ++ renderItems level rest)

/-- The further fields of an object. -/
def renderFields (level : Nat) : List (String × Json) → List Char
  | [] => []
  | (key, value) :: rest =>
    ',' :: (newline level ++ quote key ++ [':', ' '] ++ renderAt level value ++
      renderFields level rest)

end

/-- The text of a value. -/
def render (value : Json) : String :=
  .ofList (renderAt 0 value)

/-- A field that is left out if it has no value. -/
def optionalField (key : String) (value : Option String) : List (String × Json) :=
  match value with
  | some s => [(key, string s)]
  | none => []

end Json

end SourceOutline
