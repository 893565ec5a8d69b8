/-
**Line feeds with and without carriage returns.**

A text can end its lines with a line feed alone or with a carriage return in front of each.  A
carriage return is a blank, so most of what is done to a text does not see the difference: trimming,
words and the lines of comments come out the same, and the pieces of a list are the same pieces with
their own line ends changed.  An offset moves on by the number of line feeds before it, which
changes neither its order with other offsets nor its line.

Main definitions:

* `Text.crlf` — a text with a carriage return before each line feed;
* `Text.crlfOffset` — where an offset into the text lies then;
* `ImportSpecifier.crlf`, `ExportedItem.crlf` — the names of a list, with such line ends;
* `ImportSpecifier.SpansLines`, `ExportedItem.SpansLines` — names that go over several lines.

Main results:

* `Text.trim_crlf`, `Text.words_crlf`, `Text.splitOn_crlf` — trimming, words and splitting;
* `Specifier.entries_crlf` — **the entries of a list are the same up to their own line ends**;
* `Comment.summary?_block_crlf`, `Comment.summary?_lines_crlf` — **comments say the same**;
* `Text.lineNumber_crlf`, `Text.range_crlf`, `Text.closingBrace?_crlf` — lines, ranges and blocks.
-/

import SourceOutline.Comment
import SourceOutline.Export
import SourceOutline.Proofs.ExportSpans
import Mathlib.Data.List.Forall2
import Mathlib.Data.List.Induction

set_option autoImplicit false

namespace SourceOutline

/-! ### The text -/

namespace Text

/-- The text with a carriage return before each line feed. -/
def crlf (text : List Char) : List Char :=
  text.flatMap fun c => if c == '\n' then ['\r', '\n'] else [c]

@[simp]
theorem crlf_nil : crlf [] = [] := rfl

@[simp]
theorem crlf_append (s t : List Char) : crlf (s ++ t) = crlf s ++ crlf t :=
  List.flatMap_append

@[simp]
theorem crlf_newline_cons (t : List Char) : crlf ('\n' :: t) = '\r' :: '\n' :: crlf t := rfl

theorem crlf_cons {c : Char} (h : c ≠ '\n') (t : List Char) : crlf (c :: t) = c :: crlf t := by
  simp [crlf, h]

theorem crlf_of_not_mem {s : List Char} (h : '\n' ∉ s) : crlf s = s := by
  induction s with
  | nil => rfl
  | cons c s ih =>
      rw [List.mem_cons, not_or] at h
      rw [crlf_cons (Ne.symm h.1), ih h.2]

theorem length_crlf (s : List Char) : (crlf s).length = s.length + s.count '\n' := by
  induction s with
  | nil => rfl
  | cons c s ih =>
      by_cases h : c = '\n'
      · subst h
        simp only [crlf_newline_cons, List.length_cons, ih, List.count_cons_self]
        omega
      · rw [crlf_cons h, List.length_cons, ih, List.length_cons, List.count_cons_of_ne h]
        omega

/-- Only a text without line feeds stays what it was. -/
theorem crlf_eq_self_iff {s : List Char} : crlf s = s ↔ '\n' ∉ s := by
  constructor
  · intro h
    have hlength := length_crlf s
    rw [h] at hlength
    exact List.count_eq_zero.1 (by omega)
  · exact crlf_of_not_mem

@[simp]
theorem crlf_eq_nil_iff {s : List Char} : crlf s = [] ↔ s = [] := by
  rw [← List.length_eq_zero_iff, ← List.length_eq_zero_iff, length_crlf]
  have := List.count_le_length (a := '\n') (l := s)
  omega

theorem count_newline_crlf (s : List Char) : (crlf s).count '\n' = s.count '\n' := by
  induction s with
  | nil => rfl
  | cons c s ih =>
      by_cases h : c = '\n'
      · subst h
        simp [ih]
      · rw [crlf_cons h, List.count_cons_of_ne h, List.count_cons_of_ne h, ih]

theorem getLast?_crlf (s : List Char) : (crlf s).getLast? = s.getLast? := by
  induction s using List.reverseRecOn with
  | nil => rfl
  | append_singleton s c =>
      rw [crlf_append]
      by_cases h : c = '\n'
      · subst h
        simp
      · simp [crlf_cons h]

theorem isBlank_of_mem_crlf {s : List Char} (h : ∀ x ∈ s, isBlank x = true) :
    ∀ x ∈ crlf s, isBlank x = true := by
  intro x hx
  obtain ⟨c, hc, hx⟩ := List.mem_flatMap.1 hx
  split at hx
  · rcases List.mem_pair.1 hx with rfl | rfl <;> rfl
  · rw [List.mem_singleton.1 hx]
    exact h c hc

/-! ### Trimming, splitting and words -/

theorem trimLeft_crlf (s : List Char) : trimLeft (crlf s) = crlf (trimLeft s) := by
  induction s with
  | nil => rfl
  | cons c s ih =>
      simp only [trimLeft] at ih ⊢
      by_cases h : c = '\n'
      · subst h
        simpa [List.dropWhile_cons, isBlank] using ih
      · rw [crlf_cons h, List.dropWhile_cons, List.dropWhile_cons]
        split
        · exact ih
        · rw [crlf_cons h]

theorem trimRight_crlf (s : List Char) : trimRight (crlf s) = crlf (trimRight s) := by
  induction s using List.reverseRecOn with
  | nil => rfl
  | append_singleton s c ih =>
      cases h : isBlank c with
      | true =>
          have hblank : ∀ x ∈ [c], isBlank x = true := by simpa using h
          rw [crlf_append, trimRight_append_of_isBlank (isBlank_of_mem_crlf hblank),
            trimRight_append_of_isBlank hblank, ih]
      | false =>
          have hc : c ≠ '\n' := by
            rintro rfl
            exact absurd h (by decide)
          rw [crlf_append, crlf_cons hc, crlf_nil, trimRight_concat h, trimRight_concat h,
            crlf_append, crlf_cons hc, crlf_nil]

theorem trim_crlf (s : List Char) : trim (crlf s) = crlf (trim s) := by
  rw [trim, trim, trimLeft_crlf, trimRight_crlf]

/-- A text is cut where it was, at any other character. -/
theorem splitOn_crlf {sep : Char} (hsep : sep ≠ '\n') (hsep' : sep ≠ '\r') (s : List Char) :
    splitOn sep (crlf s) = (splitOn sep s).map crlf := by
  induction s with
  | nil => rfl
  | cons c s ih =>
      obtain ⟨piece, pieces, h⟩ := List.exists_cons_of_ne_nil (splitOn_ne_nil sep s)
      rw [h] at ih
      by_cases hc : c = '\n'
      · subst hc
        simp [splitOn, ih, h, Ne.symm hsep, Ne.symm hsep']
      · rw [crlf_cons hc]
        by_cases hcs : c = sep
        · simp [splitOn, ih, h, hcs]
        · simp [splitOn, ih, h, hcs, crlf_cons hc]

theorem wordsAfter_crlf (word s : List Char) : wordsAfter word (crlf s) = wordsAfter word s := by
  have hreturn : isBlank '\r' = true := rfl
  have hnewline : isBlank '\n' = true := rfl
  induction s generalizing word with
  | nil => rfl
  | cons c s ih =>
      by_cases hc : c = '\n'
      · subst hc
        simp [wordsAfter, hreturn, hnewline, ih]
      · rw [crlf_cons hc, wordsAfter, wordsAfter, ih, ih]

theorem words_crlf (s : List Char) : words (crlf s) = words s :=
  wordsAfter_crlf [] s

theorem collapse_crlf (s : List Char) : collapse (crlf s) = collapse s := by
  rw [collapse, collapse, words_crlf]

end Text

open Text

/-! ### Lists of names -/

/-- The binding with the line ends of its names changed. -/
def ImportSpecifier.crlf : ImportSpecifier → ImportSpecifier
  | .named imported binding =>
    .named (.ofList (Text.crlf imported.toList)) (.ofList (Text.crlf binding.toList))
  | specifier => specifier

/-- The public name with the line ends of its names changed. -/
def ExportedItem.crlf (item : ExportedItem) : ExportedItem :=
  ⟨.ofList (Text.crlf item.publicName.toList), .ofList (Text.crlf item.localName.toList)⟩

/-- A line feed stands in a name of the binding. -/
def ImportSpecifier.SpansLines : ImportSpecifier → Prop
  | .named imported binding => '\n' ∈ imported.toList ∨ '\n' ∈ binding.toList
  | _ => False

/-- A line feed stands in one of the names. -/
def ExportedItem.SpansLines (item : ExportedItem) : Prop :=
  '\n' ∈ item.publicName.toList ∨ '\n' ∈ item.localName.toList

theorem Text.ofList_crlf_eq_iff {s : String} :
    String.ofList (crlf s.toList) = s ↔ '\n' ∉ s.toList := by
  rw [← String.toList_inj, String.toList_ofList, crlf_eq_self_iff]

theorem ImportSpecifier.crlf_eq_self_iff {specifier : ImportSpecifier} :
    specifier.crlf = specifier ↔ ¬ specifier.SpansLines := by
  cases specifier <;> simp [crlf, SpansLines, ofList_crlf_eq_iff]

theorem ExportedItem.crlf_eq_self_iff {item : ExportedItem} :
    item.crlf = item ↔ ¬ item.SpansLines := by
  obtain ⟨publicName, localName⟩ := item
  simp [crlf, SpansLines, ofList_crlf_eq_iff]

namespace Specifier

/-- An entry that renames has no line feed in its names, and another one is its own name. -/
theorem entry_crlf (part : List Char) :
    entry (Text.crlf part) = (entry part).map Text.crlf Text.crlf := by
  have haliased : aliased? (Text.crlf part) = aliased? part := by
    rw [aliased?, aliased?, words_crlf]
  rw [entry, entry, haliased]
  cases h : aliased? part with
  | none => rfl
  | some names =>
      obtain ⟨hname, hnew⟩ := isIdent_of_aliased? h
      rw [Option.getD_some, Option.getD_some, Prod.map,
        crlf_of_not_mem (not_mem_of_isIdent hname (by decide)),
        crlf_of_not_mem (not_mem_of_isIdent hnew (by decide))]

/-- **The entries of a list are the same up to their own line ends.** -/
theorem entries_crlf (text : List Char) :
    entries (Text.crlf text) = (entries text).map (Prod.map Text.crlf Text.crlf) := by
  have htrim : trim ∘ Text.crlf = Text.crlf ∘ trim := funext trim_crlf
  have hempty : (fun piece : List Char => !piece.isEmpty) ∘ Text.crlf =
      fun piece => !piece.isEmpty := by
    funext piece
    rw [Function.comp_apply, Bool.eq_iff_iff]
    simp
  rw [entries, entries, splitOn_crlf (by decide) (by decide), List.map_map, htrim, ← List.map_map,
    List.filter_map, hempty, List.map_map, List.map_map]
  exact List.map_congr_left fun part _ => entry_crlf part

theorem imports_crlf (text : List Char) :
    imports (Text.crlf text) = (imports text).map ImportSpecifier.crlf := by
  simp [imports, entries_crlf, ImportSpecifier.crlf]

theorem exports_crlf (text : List Char) :
    exports (Text.crlf text) = (exports text).map ExportedItem.crlf := by
  simp [exports, entries_crlf, ExportedItem.crlf]

end Specifier

/-! ### Comments -/

namespace Text

/-- A beginning that holds no line end is dropped as before, whatever line feeds turn into. -/
theorem dropPrefix?_flatMap {head : List Char} {f : Char → List Char} {x : Char}
    (hf : ∀ c, c ≠ '\n' → f c = [c]) (hx : (f '\n').head? = some x) (hnewline : '\n' ∉ head)
    (hhead : x ∉ head) (text : List Char) :
    dropPrefix? head (text.flatMap f) = (dropPrefix? head text).map (·.flatMap f) := by
  induction head generalizing text with
  | nil => rfl
  | cons h head ih =>
      simp only [List.mem_cons, not_or] at hnewline hhead
      cases text with
      | nil => rfl
      | cons c text =>
          rw [List.flatMap_cons]
          by_cases hc : c = '\n'
          · subst hc
            obtain ⟨more, hmore⟩ := List.head?_eq_some_iff.1 hx
            simp [hmore, dropPrefix?, Ne.symm hnewline.1, Ne.symm hhead.1]
          · rw [hf c hc, List.singleton_append, dropPrefix?, dropPrefix?]
            split
            · exact ih hnewline.2 hhead.2 text
            · rfl

theorem dropPrefix?_crlf {head : List Char} (hnewline : '\n' ∉ head) (hreturn : '\r' ∉ head)
    (text : List Char) : dropPrefix? head (crlf text) = (dropPrefix? head text).map crlf :=
  dropPrefix?_flatMap (fun c hc => by simp [hc]) rfl hnewline hreturn text

theorem reverse_crlf (s : List Char) :
    (crlf s).reverse = s.reverse.flatMap fun c => if c == '\n' then ['\n', '\r'] else [c] := by
  rw [crlf, List.reverse_flatMap]
  refine List.flatMap_congr fun c _ => ?_
  simp only [Function.comp_apply]
  split <;> rfl

/-- The lines of a text, some with a carriage return at their end. -/
theorem forall₂_lines_crlf (s : List Char) :
    List.Forall₂ (fun line line' => line' = line ∨ line' = line ++ ['\r'])
      (splitOn '\n' s) (splitOn '\n' (crlf s)) := by
  induction s with
  | nil => exact .cons (Or.inl rfl) .nil
  | cons c s ih =>
      by_cases hc : c = '\n'
      · subst hc
        simpa [splitOn] using ih
      · rw [crlf_cons hc]
        obtain ⟨piece, pieces, h⟩ := List.exists_cons_of_ne_nil (splitOn_ne_nil '\n' s)
        obtain ⟨piece', pieces', h'⟩ := List.exists_cons_of_ne_nil (splitOn_ne_nil '\n' (crlf s))
        rw [h, h'] at ih
        simpa [splitOn, h, h', hc] using ih

theorem trim_append_return (s : List Char) : trim (s ++ ['\r']) = trim s := by
  have hreturn : ∀ x ∈ ['\r'], isBlank x = true := List.forall_mem_singleton.2 (by decide)
  rw [trim, trim, trimLeft, trimLeft, List.dropWhile_append]
  split
  · rename_i hempty
    rw [List.isEmpty_iff.1 hempty]
    rfl
  · exact trimRight_append_of_isBlank hreturn _

theorem dropPrefix?_append_return {head : List Char} (h : '\r' ∉ head) (s : List Char) :
    dropPrefix? head (s ++ ['\r']) = (dropPrefix? head s).map (· ++ ['\r']) := by
  induction head generalizing s with
  | nil => rfl
  | cons x head ih =>
      simp only [List.mem_cons, not_or] at h
      cases s with
      | nil => simp [dropPrefix?, Ne.symm h.1]
      | cons c s =>
          rw [List.cons_append, dropPrefix?, dropPrefix?]
          split
          · exact ih h.2 s
          · rfl

end Text

namespace Comment

/-- A carriage return at the end of a line does not count. -/
theorem dropMark_append_return {mark : List Char} (hreturn : '\r' ∉ mark) (line : List Char) :
    dropMark mark (line ++ ['\r']) = dropMark mark line := by
  rw [dropMark, dropMark, trimLeft, trimLeft, List.dropWhile_append]
  by_cases hempty : (line.dropWhile isBlank).isEmpty = true
  · rw [if_pos hempty, List.isEmpty_iff.1 hempty, trim_append_return]
    rfl
  · rw [if_neg hempty, dropPrefix?_append_return hreturn]
    cases dropPrefix? mark (line.dropWhile isBlank) with
    | none => exact trim_append_return line
    | some rest => exact trim_append_return rest

theorem map_dropMark_crlf {mark : List Char} (hreturn : '\r' ∉ mark) (s : List Char) :
    (splitOn '\n' (crlf s)).map (dropMark mark) = (splitOn '\n' s).map (dropMark mark) := by
  have hlines := (forall₂_lines_crlf s).flip
  rw [← List.forall₂_eq_eq_eq, List.forall₂_map_left_iff, List.forall₂_map_right_iff]
  refine hlines.imp ?_
  rintro line' line (rfl | rfl)
  · rfl
  · exact dropMark_append_return hreturn line

theorem plainLines_crlf (text : List Char) : plainLines (crlf text) = plainLines text := by
  rw [plainLines, plainLines, trim_crlf, map_dropMark_crlf (by decide)]

theorem dropOpening_crlf (text : List Char) :
    dropOpening (crlf text) = crlf (dropOpening text) := by
  rw [dropOpening, dropOpening, trimLeft_crlf, dropPrefix?_crlf (by decide) (by decide)]
  cases dropPrefix? ['/', '*', '*'] (trimLeft text) with
  | none => rfl
  | some rest =>
      cases rest with
      | nil => rfl
      | cons c rest =>
          by_cases hc : c = '\n'
          · subst hc
            rfl
          · rw [Option.map_some, crlf_cons hc]
            by_cases hmark : c = '!'
            · subst hmark
              rfl
            · simp [hmark, crlf_cons hc]

theorem dropClosing_crlf (text : List Char) :
    dropClosing (crlf text) = crlf (dropClosing text) := by
  have htrim := congrArg List.reverse (trimRight_crlf text)
  rw [trimRight, trimRight, List.reverse_reverse, reverse_crlf (List.reverse _),
    List.reverse_reverse] at htrim
  rw [dropClosing, dropClosing, htrim,
    dropPrefix?_flatMap (fun c hc => by simp [hc]) rfl (by decide) (by decide)]
  cases dropPrefix? ['/', '*'] (text.reverse.dropWhile isBlank) with
  | none => rfl
  | some rest =>
      simp only [Option.map_some]
      rw [← List.reverse_reverse rest, ← reverse_crlf]
      simp

theorem docLines_crlf (text : List Char) : docLines (crlf text) = docLines text := by
  have hlines : ∀ body, (splitOn '\n' (trim (crlf body))).map (dropMark ['*']) =
      (splitOn '\n' (trim body)).map (dropMark ['*']) := by
    intro body
    rw [trim_crlf, map_dropMark_crlf (by decide)]
  simp only [docLines, dropOpening_crlf, dropClosing_crlf]
  cases dropClosing (dropOpening text) with
  | nil => rfl
  | cons c rest =>
      by_cases hc : c = '\n'
      · subst hc
        exact hlines ('\n' :: rest)
      · by_cases hmark : c = '!'
        · subst hmark
          exact hlines rest
        · have hbody := hlines (c :: rest)
          rw [crlf_cons hc] at hbody ⊢
          simpa [hmark] using hbody

/-- **A block comment says the same.** -/
theorem summary?_block_crlf (text : List Char) :
    summary? (some (crlf text)) none = summary? (some text) none := by
  cases text with
  | nil => rfl
  | cons c text =>
      have hne : crlf (c :: text) ≠ [] := by simp
      obtain ⟨c', text', h⟩ := List.exists_cons_of_ne_nil hne
      have hdigest : summary? (some (crlf (c :: text))) none =
          digest (docLines (crlf (c :: text))) := by
        rw [h]
        rfl
      rw [hdigest, docLines_crlf]
      rfl

/-- **Line comments say the same.** -/
theorem summary?_lines_crlf (text : List Char) :
    summary? none (some (crlf text)) = summary? none (some text) := by
  cases text with
  | nil => rfl
  | cons c text =>
      have hne : crlf (c :: text) ≠ [] := by simp
      obtain ⟨c', text', h⟩ := List.exists_cons_of_ne_nil hne
      have hdigest : summary? none (some (crlf (c :: text))) =
          digest (plainLines (crlf (c :: text))) := by
        rw [h]
        rfl
      rw [hdigest, plainLines_crlf]
      rfl

end Comment

/-! ### Offsets -/

namespace Text

/-- Where an offset into the text lies when each line feed has a carriage return before it. -/
def crlfOffset (text : List Char) (offset : Nat) : Nat :=
  (crlf (text.take offset)).length

variable (text : List Char)

@[simp]
theorem crlfOffset_zero : crlfOffset text 0 = 0 := rfl

theorem crlfOffset_add (a b : Nat) :
    crlfOffset text (a + b) = crlfOffset text a + crlfOffset (text.drop a) b := by
  rw [crlfOffset, List.take_add, crlf_append, List.length_append]
  rfl

theorem crlfOffset_append (s t : List Char) {n : Nat} (h : n ≤ s.length) :
    crlfOffset (s ++ t) n = crlfOffset s n := by
  rw [crlfOffset, crlfOffset, List.take_append_of_le_length h]

/-- A character other than a line feed moves the offset on by one. -/
theorem crlfOffset_cons_succ {c : Char} (hc : c ≠ '\n') (n : Nat) :
    crlfOffset (c :: text) (n + 1) = crlfOffset text n + 1 := by
  rw [crlfOffset, List.take_succ_cons, crlf_cons hc]
  rfl

theorem crlfOffset_newline_succ (n : Nat) :
    crlfOffset ('\n' :: text) (n + 1) = crlfOffset text n + 2 := rfl

theorem crlfOffset_succ {text rest : List Char} {n : Nat} {c : Char} (hc : c ≠ '\n')
    (h : text.drop n = c :: rest) : crlfOffset text (n + 1) = crlfOffset text n + 1 := by
  rw [crlfOffset_add, h, crlfOffset_cons_succ rest hc, crlfOffset_zero]

theorem crlfOffset_newline_step {text rest : List Char} {n : Nat}
    (h : text.drop n = '\n' :: rest) : crlfOffset text (n + 1) = crlfOffset text n + 2 := by
  rw [crlfOffset_add, h, crlfOffset_newline_succ, crlfOffset_zero]

theorem crlf_eq_append (n : Nat) : crlf text = crlf (text.take n) ++ crlf (text.drop n) := by
  rw [← crlf_append, List.take_append_drop]

@[simp]
theorem take_crlf (n : Nat) : (crlf text).take (crlfOffset text n) = crlf (text.take n) := by
  rw [crlf_eq_append text n, crlfOffset, List.take_left]

@[simp]
theorem drop_crlf (n : Nat) : (crlf text).drop (crlfOffset text n) = crlf (text.drop n) := by
  rw [crlf_eq_append text n, crlfOffset, List.drop_left]

theorem crlfOffset_le_length (n : Nat) : crlfOffset text n ≤ (crlf text).length := by
  rw [crlf_eq_append text n, List.length_append]
  exact Nat.le_add_right _ _

theorem crlfOffset_mono {a b : Nat} (h : a ≤ b) : crlfOffset text a ≤ crlfOffset text b := by
  obtain ⟨k, rfl⟩ := Nat.exists_eq_add_of_le h
  rw [crlfOffset_add]
  exact Nat.le_add_right _ _

/-- Within the text, offsets keep their order. -/
theorem crlfOffset_lt {a b : Nat} (h : a < b) (hb : b ≤ text.length) :
    crlfOffset text a < crlfOffset text b := by
  obtain ⟨k, rfl⟩ := Nat.exists_eq_add_of_le (Nat.le_of_lt h)
  rw [crlfOffset_add, crlfOffset, crlfOffset, length_crlf ((text.drop a).take k),
    List.length_take, List.length_drop]
  omega

theorem crlfOffset_le_iff {a b : Nat} (ha : a ≤ text.length) :
    crlfOffset text a ≤ crlfOffset text b ↔ a ≤ b := by
  constructor
  · intro h
    by_contra hlt
    have := crlfOffset_lt text (Nat.lt_of_not_le hlt) ha
    omega
  · exact crlfOffset_mono text

/-- The line of an offset is what it was. -/
theorem lineNumber_crlf (n : Nat) :
    lineNumber (crlf text) (crlfOffset text n : Nat) = lineNumber text (n : Nat) := by
  have htake : text.take (min n text.length) = text.take n := by
    rw [← List.take_take, List.take_length]
  rw [lineNumber, lineNumber, clamp_natCast, clamp_natCast,
    Nat.min_eq_left (crlfOffset_le_length text n), take_crlf, count_newline_crlf, htake]

/-- A range between two offsets is what it was, up to line ends. -/
theorem range_crlf (start stop : Nat) :
    range (crlf text) (crlfOffset text start) (crlfOffset text stop) =
      crlf (range text start stop) := by
  rcases Nat.le_total start stop with h | h
  · obtain ⟨k, rfl⟩ := Nat.exists_eq_add_of_le h
    rw [range, range, drop_crlf, crlfOffset_add, Nat.add_sub_cancel_left, Nat.add_sub_cancel_left,
      take_crlf]
  · have hmono := crlfOffset_mono text h
    rw [range, range, Nat.sub_eq_zero_of_le h, Nat.sub_eq_zero_of_le hmono]
    rfl

theorem closeFrom_crlf (depth : Int) (pos : Nat) :
    closeFrom depth pos (crlf text) =
      (closeFrom depth 0 text).map fun ahead => pos + crlfOffset text ahead := by
  induction text generalizing depth pos with
  | nil => rfl
  | cons c text ih =>
      by_cases hc : c = '\n'
      · subst hc
        have hskip := closeFrom_add depth 0 1 text
        rw [crlf_newline_cons, closeFrom_other _ _ _ (by decide) (by decide),
          closeFrom_other _ _ _ (by decide) (by decide), ih,
          closeFrom_other _ _ _ (by decide) (by decide), hskip, Option.map_map]
        congr 1
        funext ahead
        simp only [Function.comp_apply, crlfOffset_newline_succ]
        omega
      · have hstep : ∀ depth, closeFrom depth (pos + 1) (crlf text) =
            (closeFrom depth (0 + 1) text).map fun ahead => pos + crlfOffset (c :: text) ahead := by
          intro depth
          rw [ih, closeFrom_add, Option.map_map]
          congr 1
          funext ahead
          simp only [Function.comp_apply, crlfOffset_cons_succ text hc]
          omega
        rw [crlf_cons hc, closeFrom, closeFrom, hstep, hstep, hstep]
        split
        · rfl
        · split
          · split <;> rfl
          · rfl

/-- A block ends where it did. -/
theorem closingBrace?_crlf (start : Nat) :
    closingBrace? (crlf text) (crlfOffset text start) =
      (closingBrace? text start).map (crlfOffset text) := by
  have hshift := closeFrom_add 0 0 start (text.drop start)
  rw [Nat.zero_add] at hshift
  rw [closingBrace?, closingBrace?, drop_crlf, closeFrom_crlf, hshift, Option.map_map]
  congr 1
  funext ahead
  rw [Function.comp_apply, Nat.add_comm ahead, crlfOffset_add]

theorem findIdx?_crlf {mark : Char} (hnewline : mark ≠ '\n') (hreturn : mark ≠ '\r') :
    (crlf text).findIdx? (· == mark) =
      (text.findIdx? (· == mark)).map (crlfOffset text) := by
  induction text with
  | nil => rfl
  | cons c text ih =>
      by_cases hc : c = '\n'
      · subst hc
        simp [List.findIdx?_cons, Ne.symm hnewline, Ne.symm hreturn, ih, Function.comp_def,
          crlfOffset_newline_succ]
      · rw [crlf_cons hc, List.findIdx?_cons, List.findIdx?_cons]
        split
        · rfl
        · rw [ih, Option.map_map, Option.map_map]
          congr 1
          funext ahead
          exact (crlfOffset_cons_succ text hc ahead).symm

end Text

namespace Export

/-- The first block behind an offset ends where it did. -/
theorem blockEnd?_crlf (text : List Char) (start : Nat) :
    blockEnd? (crlf text) (crlfOffset text start) =
      (blockEnd? text start).map (crlfOffset text) := by
  simp only [blockEnd?, drop_crlf, findIdx?_crlf _ (by decide : '\x7b' ≠ '\n') (by decide)]
  cases (text.drop start).findIdx? (· == '\x7b') with
  | none => rfl
  | some ahead =>
      refine Eq.trans ?_ (closingBrace?_crlf text (start + ahead))
      rw [crlfOffset_add]
      rfl

theorem lineStatement_crlf (text : List Char) :
    lineStatement (crlf text) = lineStatement text ∨
      lineStatement (crlf text) = lineStatement text ++ ['\r'] := by
  induction text with
  | nil => exact Or.inl rfl
  | cons c text ih =>
      by_cases hc : c = '\n'
      · subst hc
        exact Or.inr rfl
      · rw [crlf_cons hc, lineStatement, lineStatement]
        split
        · exact Or.inl rfl
        · split
          · exact Or.inl rfl
          · exact ih.imp (congrArg _) (congrArg _)

/-- A statement that ends with its line says the same. -/
theorem trimRight_lineStatement_crlf (text : List Char) :
    trimRight (lineStatement (crlf text)) = trimRight (lineStatement text) := by
  rcases lineStatement_crlf text with h | h
  · rw [h]
  · rw [h, trimRight_append_of_isBlank (List.forall_mem_singleton.2 (by decide))]

end Export

end SourceOutline
