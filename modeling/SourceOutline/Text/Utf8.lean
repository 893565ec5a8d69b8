/-
**Reading UTF-8.**

Octets are read one by one.  The first octet of a sequence says how many follow and which range the
next one must be in; that excludes overlong forms, surrogates and values beyond the last code point.
Where an octet does not fit, what was read so far is one invalid part, and the octet is read again
as a first one.

Main definitions:

* `Text.Utf8.Pending` — a sequence that has begun;
* `Text.Utf8.decode` — the characters of a list of octets, with `none` for each invalid part;
* `Text.Utf8.decodeStrict?`, `Text.Utf8.decodeLossy` — all or nothing, and with a replacement
  character for each invalid part;
* `Text.unifyNewlines` — every line end as a line feed.
-/

set_option autoImplicit false

namespace SourceOutline.Text

namespace Utf8

/-- A sequence that has begun: the range of the next octet, how many more follow it, and the value
of the bits read so far. -/
structure Pending where
  low : Nat
  high : Nat
  more : Nat
  value : Nat
  deriving DecidableEq, Repr

/-- What a first octet is. -/
inductive Lead where
  /-- A character of its own. -/
  | char (c : Char)
  /-- The beginning of a longer sequence. -/
  | begins (p : Pending)
  /-- Neither. -/
  | invalid
  deriving DecidableEq, Repr

/-- Reads a first octet. -/
def lead (octet : Nat) : Lead :=
  if octet < 0x80 then .char (Char.ofNat octet)
  else if octet < 0xC2 then .invalid
  else if octet < 0xE0 then .begins ⟨0x80, 0xBF, 0, octet - 0xC0⟩
  else if octet == 0xE0 then .begins ⟨0xA0, 0xBF, 1, octet - 0xE0⟩
  else if octet == 0xED then .begins ⟨0x80, 0x9F, 1, octet - 0xE0⟩
  else if octet < 0xF0 then .begins ⟨0x80, 0xBF, 1, octet - 0xE0⟩
  else if octet == 0xF0 then .begins ⟨0x90, 0xBF, 2, octet - 0xF0⟩
  else if octet < 0xF4 then .begins ⟨0x80, 0xBF, 2, octet - 0xF0⟩
  else if octet == 0xF4 then .begins ⟨0x80, 0x8F, 2, octet - 0xF0⟩
  else .invalid

/-- What is known after one more octet: the parts that are complete, and the sequence that is not. -/
def step (pending : Option Pending) (octet : Nat) : List (Option Char) × Option Pending :=
  let first : List (Option Char) × Option Pending :=
    match lead octet with
    | .char c => ([some c], none)
    | .begins p => ([], some p)
    | .invalid => ([none], none)
  match pending with
  | none => first
  | some p =>
    if p.low ≤ octet && octet ≤ p.high then
      let value := p.value * 64 + (octet - 0x80)
      match p.more with
      | 0 => ([some (Char.ofNat value)], none)
      | more + 1 => ([], some ⟨0x80, 0xBF, more, value⟩)
    else
      (none :: first.1, first.2)

/-- The characters of the octets after a sequence that may have begun. -/
def decodeAfter (pending : Option Pending) : List UInt8 → List (Option Char)
  | [] => if pending.isSome then [none] else []
  | octet :: rest =>
    let next := step pending octet.toNat
    next.1 ++ decodeAfter next.2 rest

/-- The characters of a list of octets; each maximal invalid part is `none`. -/
def decode (octets : List UInt8) : List (Option Char) :=
  decodeAfter none octets

/-- The text that octets encode, if no part of them is invalid. -/
def decodeStrict? (octets : List UInt8) : Option (List Char) :=
  (decode octets).mapM id

/-- The text that octets encode, with a replacement character for each invalid part. -/
def decodeLossy (octets : List UInt8) : List Char :=
  (decode octets).map (·.getD '\uFFFD')

end Utf8

/-- The text with every line end as one line feed: a carriage return, with or without a line feed
after it, ends a line. -/
def unifyNewlines : List Char → List Char
  | [] => []
  | '\r' :: '\n' :: rest => '\n' :: unifyNewlines rest
  | '\r' :: rest => '\n' :: unifyNewlines rest
  | c :: rest => c :: unifyNewlines rest

end SourceOutline.Text
