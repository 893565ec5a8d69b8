/-
**JSON texts are read in one way.**

The text of a value shows what the value is and where its text ends, whatever follows.  Strings show
it by their closing quote, since a quote within a string is escaped; arrays and objects by the mark
that stands where a comma could; numbers by the next character that is no part of a number.  So no
two values have one text, and nothing is lost by the escapes or by the layout.

Main definitions:

* `Json.unit?`, `Json.unescape?` — the sixteen bits of an escape, and the character that the
  beginning of a text stands for between quotes;
* `Json.isNumeral`, `Json.goesOn` — the characters of a number, and those that a list goes on with;
* `Json.opening?` — the mark that a value's text begins with.

Main results:

* `Json.unescape?_escape` — every character is read back from its escape;
* `Json.quote_append_inj` — a string is known by what its quotes hold;
* `Json.opening?_renderAt` — the first character of a text tells the kind of value;
* `Json.renderAt_append_inj` — **a text shows its value and its end**;
* `Json.render_injective` — hence no two values have one text.
-/

import Mathlib
import SourceOutline.Json
import SourceOutline.Proofs.Preferred

set_option autoImplicit false

namespace SourceOutline.Json

open Text

/-! ### Characters -/

/-- The number of sixteen bits that four hexadecimal digits write, and what follows them. -/
def unit? : List Char → Option (Nat × List Char)
  | a :: b :: c :: d :: rest => do
    let a ← hexValue? a
    let b ← hexValue? b
    let c ← hexValue? c
    let d ← hexValue? d
    return (((a * 16 + b) * 16 + c) * 16 + d, rest)
  | _ => none

/-- The character that a text between quotes begins with, and what follows it.  The first half of a
pair stands for a character together with the second half. -/
def unescape? : List Char → Option (Char × List Char)
  | '\\' :: '"' :: rest => some ('"', rest)
  | '\\' :: '\\' :: rest => some ('\\', rest)
  | '\\' :: 'n' :: rest => some ('\n', rest)
  | '\\' :: 'r' :: rest => some ('\r', rest)
  | '\\' :: 't' :: rest => some ('\t', rest)
  | '\\' :: 'b' :: rest => some ('\x08', rest)
  | '\\' :: 'f' :: rest => some ('\x0C', rest)
  | '\\' :: 'u' :: rest => do
    let (high, rest) ← unit? rest
    if 0xD800 ≤ high && high < 0xDC00 then
      let (low, rest) ← unit? (rest.drop 2)
      return (Char.ofNat (0x10000 + (high - 0xD800) * 0x400 + (low - 0xDC00)), rest)
    else
      return (Char.ofNat high, rest)
  | c :: rest => some (c, rest)
  | [] => none

theorem unit?_hex {n : Nat} (h : n < 0x10000) (rest : List Char) :
    unit? (hex 4 n ++ rest) = some (n, rest) := by
  have hdigit : ∀ k, hexValue? (hexDigit (k % 16)) = some (k % 16) := fun k =>
    hexValue?_hexDigit (Nat.mod_lt k (by decide))
  have hvalue : ((n / 16 / 16 / 16 % 16 * 16 + n / 16 / 16 % 16) * 16 + n / 16 % 16) * 16 + n % 16 =
      n := by omega
  simp [hex, unit?, hdigit, hvalue]

theorem unescape?_unitEscape {n : Nat} (h : n < 0x10000) (hpair : ¬ (0xD800 ≤ n ∧ n < 0xDC00))
    (rest : List Char) : unescape? (unitEscape n ++ rest) = some (Char.ofNat n, rest) := by
  simp [unitEscape, unescape?, unit?_hex h, hpair]

/-- The two halves of a pair stand for one character. -/
theorem unescape?_pair {high low : Nat} (hle : 0xD800 ≤ high) (hlt : high < 0xDC00)
    (hlow : low < 0x10000) (rest : List Char) :
    unescape? (unitEscape high ++ (unitEscape low ++ rest)) =
      some (Char.ofNat (0x10000 + (high - 0xD800) * 0x400 + (low - 0xDC00)), rest) := by
  have hhigh : high < 0x10000 := by omega
  simp [unitEscape, unescape?, unit?_hex hhigh, unit?_hex hlow, hle, hlt]

/-- **Every character is read back from its escape.** -/
theorem unescape?_escape (c : Char) (rest : List Char) :
    unescape? (escape c ++ rest) = some (c, rest) := by
  by_cases hquote : c = '"'
  · subst hquote
    rfl
  by_cases hslash : c = '\\'
  · subst hslash
    rfl
  by_cases hnewline : c = '\n'
  · subst hnewline
    rfl
  by_cases hreturn : c = '\r'
  · subst hreturn
    rfl
  by_cases htab : c = '\t'
  · subst htab
    rfl
  by_cases hback : c = '\x08'
  · subst hback
    rfl
  by_cases hfeed : c = '\x0C'
  · subst hfeed
    rfl
  have hescape : escape c = if 0x20 ≤ c.toNat && c.toNat < 0x7F then [c]
      else if c.toNat < 0x10000 then unitEscape c.toNat
      else unitEscape (0xD800 + (c.toNat - 0x10000) / 0x400) ++
        unitEscape (0xDC00 + (c.toNat - 0x10000) % 0x400) := by
    simp [escape, hquote, hslash, hnewline, hreturn, htab, hback, hfeed]
  rw [hescape]
  split
  · -- the character stands for itself, as it is no backslash
    simp [unescape?, hslash]
  · have hvalid : c.toNat < 0xD800 ∨ 0xDFFF < c.toNat ∧ c.toNat < 0x110000 := c.valid
    split
    · -- no character has the number of a half
      rename_i hlt
      rw [unescape?_unitEscape hlt (by omega), Char.ofNat_toNat]
    · rename_i hle
      rw [List.append_assoc, unescape?_pair (by omega) (by omega) (by omega)]
      have hvalue : 0x10000 + (0xD800 + (c.toNat - 0x10000) / 0x400 - 0xD800) * 0x400 +
          (0xDC00 + (c.toNat - 0x10000) % 0x400 - 0xDC00) = c.toNat := by omega
      rw [hvalue, Char.ofNat_toNat]

/-- A closing quote tells where the escapes of a text end. -/
theorem flatMap_escape_append_inj {a b s t : List Char}
    (h : a.flatMap escape ++ '"' :: s = b.flatMap escape ++ '"' :: t) : a = b ∧ s = t := by
  -- a quote stands for no character's escape, since the escape of a quote begins with a backslash
  have hquote : ∀ (c : Char) (u v : List Char), '"' :: u ≠ escape c ++ v := by
    intro c u v h
    have hc := unescape?_escape c v
    rw [← h] at hc
    obtain ⟨rfl, -⟩ : '"' = c ∧ u = v := by simpa [unescape?] using hc
    simp [escape] at h
  induction a generalizing b with
  | nil =>
      cases b with
      | nil => simpa using h
      | cons d b => exact absurd (by simpa using h) (hquote d s (b.flatMap escape ++ '"' :: t))
  | cons c a ih =>
      cases b with
      | nil => exact absurd (by simpa using h.symm) (hquote c t (a.flatMap escape ++ '"' :: s))
      | cons d b =>
          simp only [List.flatMap_cons, List.append_assoc] at h
          have hread := unescape?_escape c (a.flatMap escape ++ '"' :: s)
          rw [h, unescape?_escape] at hread
          obtain ⟨rfl, hrest⟩ : d = c ∧
              b.flatMap escape ++ '"' :: t = a.flatMap escape ++ '"' :: s := by simpa using hread
          obtain ⟨rfl, rfl⟩ := ih hrest.symm
          exact ⟨rfl, rfl⟩

/-- **A string is known by what its quotes hold.** -/
theorem quote_append_inj {a b : String} {s t : List Char} (h : quote a ++ s = quote b ++ t) :
    a = b ∧ s = t := by
  have hbody : a.toList.flatMap escape ++ '"' :: s = b.toList.flatMap escape ++ '"' :: t := by
    simpa [quote] using h
  obtain ⟨htext, hrest⟩ := flatMap_escape_append_inj hbody
  exact ⟨String.toList_inj.mp htext, hrest⟩

/-! ### Numbers -/

/-- The characters of a number. -/
def isNumeral (c : Char) : Bool :=
  c.isDigit || c == '-'

theorem isNumeral_of_mem_repr {n : Int} {c : Char} (h : c ∈ n.repr.toList) :
    isNumeral c = true := by
  have hnat : ∀ k : Nat, c ∈ k.repr.toList → c.isDigit = true := by
    intro k hc
    rw [Nat.toList_repr] at hc
    exact Nat.isDigit_of_mem_toDigits (by decide) (by decide) hc
  rw [Int.repr_eq_if] at h
  split at h
  · simp [isNumeral, hnat _ h]
  · rw [String.toList_append, List.mem_append] at h
    rcases h with h | h
    · simp_all [isNumeral]
    · simp [isNumeral, hnat _ h]

theorem repr_ne_nil (n : Int) : n.repr.toList ≠ [] := by
  rw [Int.repr_eq_if]
  split <;> simp

/-- A number ends where no further character of a number stands. -/
theorem repr_append_inj {m n : Int} {s t : List Char} (hs : Stops isNumeral s)
    (ht : Stops isNumeral t) (h : m.repr.toList ++ s = n.repr.toList ++ t) : m = n ∧ s = t := by
  have htext : m.repr.toList = n.repr.toList := by
    rw [← hs.takeWhile_append (fun c => isNumeral_of_mem_repr), h,
      ht.takeWhile_append (fun c => isNumeral_of_mem_repr)]
  refine ⟨Int.repr_inj.mp (String.toList_inj.mp htext), ?_⟩
  rw [htext] at h
  exact List.append_cancel_left h

/-! ### Values -/

theorem renderAt_number (level : Nat) (n : Int) : renderAt level (number n) = n.repr.toList := by
  rw [renderAt, Int.toString_eq_repr]

/-- The mark that a value's text begins with; a number begins with none. -/
def opening? : Json → Option Char
  | string _ => some '"'
  | number _ => none
  | array _ => some '['
  | object _ => some '\x7b'

/-- **The first character of a text tells the kind of value.** -/
theorem opening?_renderAt (level : Nat) (value : Json) (s : List Char) :
    (renderAt level value ++ s).head?.filter (fun c => !isNumeral c) = opening? value := by
  cases value with
  | string text => simp [renderAt, quote, opening?, Option.filter, isNumeral]
  | number n =>
      obtain ⟨c, rest, hn⟩ := List.exists_cons_of_ne_nil (repr_ne_nil n)
      have hc : isNumeral c = true := isNumeral_of_mem_repr (n := n) (by simp [hn])
      simp [renderAt_number, hn, opening?, Option.filter, hc]
  | array items => cases items <;> simp [renderAt, opening?, Option.filter, isNumeral]
  | object fields => cases fields <;> simp [renderAt, opening?, Option.filter, isNumeral]

theorem opening?_eq_of_append_eq {level : Nat} {a b : Json} {s t : List Char}
    (h : renderAt level a ++ s = renderAt level b ++ t) : opening? a = opening? b := by
  rw [← opening?_renderAt level a s, h, opening?_renderAt]

/-- The characters that a value, or a list of values, goes on with. -/
def goesOn (c : Char) : Bool :=
  isNumeral c || c == ','

theorem stops_newline (level : Nat) (s : List Char) : Stops goesOn (newline level ++ s) := by
  simp [newline, goesOn, isNumeral]

theorem stops_renderItems {s : List Char} (hs : Stops goesOn s) (level : Nat) (items : List Json) :
    Stops isNumeral (renderItems level items ++ s) := by
  cases items with
  | nil => exact hs.mono fun c hc => by simp [goesOn, hc]
  | cons item rest => simp [renderItems, isNumeral]

theorem stops_renderFields {s : List Char} (hs : Stops goesOn s) (level : Nat)
    (fields : List (String × Json)) : Stops isNumeral (renderFields level fields ++ s) := by
  cases fields with
  | nil => exact hs.mono fun c hc => by simp [goesOn, hc]
  | cons field rest => simp [renderFields, isNumeral]

mutual

/-- **A text shows its value and its end**, unless a number is followed by more of a number. -/
theorem renderAt_append_inj {level : Nat} {a b : Json} {s t : List Char} (hs : Stops isNumeral s)
    (ht : Stops isNumeral t) (h : renderAt level a ++ s = renderAt level b ++ t) :
    a = b ∧ s = t := by
  have hopening := opening?_eq_of_append_eq h
  match a, b with
  | string x, string y =>
      obtain ⟨rfl, rfl⟩ := quote_append_inj (by simpa only [renderAt] using h)
      exact ⟨rfl, rfl⟩
  | number m, number n =>
      obtain ⟨rfl, rfl⟩ := repr_append_inj hs ht (by simpa only [renderAt_number] using h)
      exact ⟨rfl, rfl⟩
  | array [], array [] => simpa [renderAt] using h
  | array (item :: rest), array (item' :: rest') =>
      have hitems : renderAt (level + 1) item ++
            (renderItems (level + 1) rest ++ (newline level ++ ']' :: s)) =
          renderAt (level + 1) item' ++
            (renderItems (level + 1) rest' ++ (newline level ++ ']' :: t)) := by
        simpa [renderAt] using h
      obtain ⟨rfl, hrest⟩ := renderAt_append_inj
        (stops_renderItems (stops_newline level _) _ rest)
        (stops_renderItems (stops_newline level _) _ rest') hitems
      obtain ⟨rfl, hend⟩ := renderItems_append_inj (stops_newline level _) (stops_newline level _)
        hrest
      simpa using hend
  | object [], object [] => simpa [renderAt] using h
  | object ((key, value) :: rest), object ((key', value') :: rest') =>
      have hfields : quote key ++ (':' :: ' ' :: (renderAt (level + 1) value ++
            (renderFields (level + 1) rest ++ (newline level ++ '\x7d' :: s)))) =
          quote key' ++ (':' :: ' ' :: (renderAt (level + 1) value' ++
            (renderFields (level + 1) rest' ++ (newline level ++ '\x7d' :: t)))) := by
        simpa [renderAt] using h
      obtain ⟨rfl, hvalue⟩ := quote_append_inj hfields
      simp only [List.cons.injEq, true_and] at hvalue
      obtain ⟨rfl, hrest⟩ := renderAt_append_inj
        (stops_renderFields (stops_newline level _) _ rest)
        (stops_renderFields (stops_newline level _) _ rest') hvalue
      obtain ⟨rfl, hend⟩ := renderFields_append_inj (stops_newline level _) (stops_newline level _)
        hrest
      simpa using hend
  | array [], array (_ :: _) | array (_ :: _), array [] | object [], object (_ :: _)
  | object (_ :: _), object [] => simp [renderAt, newline] at h
  | string _, number _ | string _, array _ | string _, object _ | number _, string _
  | number _, array _ | number _, object _ | array _, string _ | array _, number _
  | array _, object _ | object _, string _ | object _, number _ | object _, array _ =>
      simp [opening?] at hopening

/-- A list of items ends where no comma stands. -/
theorem renderItems_append_inj {level : Nat} {a b : List Json} {s t : List Char}
    (hs : Stops goesOn s) (ht : Stops goesOn t)
    (h : renderItems level a ++ s = renderItems level b ++ t) : a = b ∧ s = t := by
  match a, b with
  | [], [] => simpa [renderItems] using h
  | [], item :: rest =>
      obtain rfl : s = ',' :: _ := h
      simp [goesOn] at hs
  | item :: rest, [] =>
      obtain rfl : t = ',' :: _ := h.symm
      simp [goesOn] at ht
  | item :: rest, item' :: rest' =>
      have hitems : renderAt level item ++ (renderItems level rest ++ s) =
          renderAt level item' ++ (renderItems level rest' ++ t) := by
        simpa [renderItems] using h
      obtain ⟨rfl, hrest⟩ := renderAt_append_inj (stops_renderItems hs level rest)
        (stops_renderItems ht level rest') hitems
      obtain ⟨rfl, rfl⟩ := renderItems_append_inj hs ht hrest
      exact ⟨rfl, rfl⟩

theorem renderFields_append_inj {level : Nat} {a b : List (String × Json)} {s t : List Char}
    (hs : Stops goesOn s) (ht : Stops goesOn t)
    (h : renderFields level a ++ s = renderFields level b ++ t) : a = b ∧ s = t := by
  match a, b with
  | [], [] => simpa [renderFields] using h
  | [], field :: rest =>
      obtain rfl : s = ',' :: _ := h
      simp [goesOn] at hs
  | field :: rest, [] =>
      obtain rfl : t = ',' :: _ := h.symm
      simp [goesOn] at ht
  | (key, value) :: rest, (key', value') :: rest' =>
      have hfields : quote key ++ (':' :: ' ' :: (renderAt level value ++
            (renderFields level rest ++ s))) =
          quote key' ++ (':' :: ' ' :: (renderAt level value' ++
            (renderFields level rest' ++ t))) := by
        simpa [renderFields] using h
      obtain ⟨rfl, hvalue⟩ := quote_append_inj hfields
      simp only [List.cons.injEq, true_and] at hvalue
      obtain ⟨rfl, hrest⟩ := renderAt_append_inj (stops_renderFields hs level rest)
        (stops_renderFields ht level rest') hvalue
      obtain ⟨rfl, rfl⟩ := renderFields_append_inj hs ht hrest
      exact ⟨rfl, rfl⟩

end

/-- **No two values have one text.** -/
theorem render_injective : Function.Injective render := by
  intro a b h
  have htext : renderAt 0 a ++ [] = renderAt 0 b ++ [] := by
    simpa using String.ofList_injective h
  exact (renderAt_append_inj (stops_nil _) (stops_nil _) htext).1

end SourceOutline.Json
