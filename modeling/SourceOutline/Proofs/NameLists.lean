/-
**A list of names loses no entry.**

A list between braces may be written in many ways: any blanks around the names and around the keyword
between two of them, and commas with nothing between them, such as one behind the last entry.  The list
is cut at its commas and each piece is read by itself, so none of this matters: the entries are those
of the pieces, in their order.  Exports are read as imports are.

Main definitions:

* `Specifier.Piece`, `Specifier.Piece.text` — a piece of a list, with the blanks in it;
* `Specifier.Piece.names?` — the two names of a piece, if it has any;
* `Specifier.listText` — a list of pieces as it is written.

Main results:

* `Specifier.entries_piece` — **a piece gives its own entry**, or nothing if it is blank;
* `Specifier.entries_listText` — a list gives the entries of its pieces, in order;
* `Specifier.lists_read_by_pieces` — **imports and exports are read piece by piece**.
-/

import Mathlib.Data.List.Forall2
import SourceOutline.Proofs.WrittenHeads

set_option autoImplicit false

namespace SourceOutline.Specifier

open Text
open Printed (Name)
open Written (Blanks Gap)

/-! ### Pieces -/

/-- What may stand between two commas of a list, with the blanks in it. -/
inductive Piece where
  /-- Nothing but blanks, as behind the last comma. -/
  | blank (blanks : Blanks)
  /-- A name. -/
  | plain (before : Blanks) (name : Name) (behind : Blanks)
  /-- A name and the name it is given. -/
  | renamed (before : Blanks) (name : Name) (gap gap' : Gap) (newName : Name) (behind : Blanks)

namespace Piece

/-- The piece as it is written. -/
def text : Piece → List Char
  | blank blanks => blanks.text
  | plain before name behind => before.text ++ name.text ++ behind.text
  | renamed before name gap gap' newName behind =>
    before.text ++ (name.text ++ (gap.text ++ ("as".toList ++ (gap'.text ++ newName.text)))) ++
      behind.text

/-- The name before and the name after renaming, if the piece is not blank. -/
def names? : Piece → Option (List Char × List Char)
  | blank _ => none
  | plain _ name _ => some (name.text, name.text)
  | renamed _ name _ _ newName _ => some (name.text, newName.text)

end Piece

/-! ### Reading pieces -/

/-- Blanks give no entry. -/
theorem entries_blank (blanks : Blanks) : entries blanks.text = [] := by
  have hcomma : ',' ∉ blanks.text := fun h => absurd (blanks.isBlank_of_mem _ h) (by decide)
  have htrim : trim blanks.text = [] := by
    have hleft := trimLeft_append_of_isBlank blanks.isBlank_of_mem []
    rw [List.append_nil] at hleft
    rw [trim, hleft]
    rfl
  rw [entries, splitOn_of_not_mem hcomma, List.map_singleton, htrim]
  rfl

/-- Only blanks and the characters of names stand in an entry that renames. -/
theorem comma_not_mem_alias (name newName : Name) (gap gap' : Gap) :
    ',' ∉ name.text ++ (gap.text ++ ("as".toList ++ (gap'.text ++ newName.text))) := by
  have hname : ∀ n : Name, ',' ∉ n.text := fun n => not_mem_of_isIdent n.isIdent_text (by decide)
  have hgap : ∀ g : Gap, ',' ∉ g.text := fun g h => absurd (g.isBlank_of_mem _ h) (by decide)
  simp only [List.mem_append, not_or]
  exact ⟨hname name, hgap gap, by decide, hgap gap', hname newName⟩

/-- **A piece gives its own entry**, or nothing if it is blank. -/
theorem entries_piece (piece : Piece) : entries piece.text = piece.names?.toList := by
  cases piece with
  | blank blanks => exact entries_blank blanks
  | plain before name behind =>
      have hhead := name.isBlank_head?_append []
      rw [List.append_nil] at hhead
      rw [Piece.text, entries_padded before.isBlank_of_mem behind.isBlank_of_mem hhead
        (name.isBlank_getLast?_append []) (ne_nil_of_isIdent name.isIdent_text)
        (not_mem_of_isIdent name.isIdent_text (by decide)), entry_name name.isIdent_text]
      rfl
  | renamed before name gap gap' newName behind =>
      have hlast := newName.isBlank_getLast?_append
        (name.text ++ (gap.text ++ ("as".toList ++ gap'.text)))
      simp only [List.append_assoc] at hlast
      have hne : name.text ++ (gap.text ++ ("as".toList ++ (gap'.text ++ newName.text))) ≠ [] := by
        simp [ne_nil_of_isIdent name.isIdent_text]
      rw [Piece.text, entries_padded before.isBlank_of_mem behind.isBlank_of_mem
        (name.isBlank_head?_append _) hlast hne (comma_not_mem_alias name newName gap gap'),
        entry_alias name.isIdent_text newName.isIdent_text gap.isBlank_of_mem gap.ne_nil
        gap'.isBlank_of_mem gap'.ne_nil]
      rfl

/-- The pieces with a comma between each two. -/
def listText (pieces : List Piece) : List Char :=
  [','].intercalate (pieces.map Piece.text)

/-- **A list gives the entries of its pieces**, in order. -/
theorem entries_listText (pieces : List Piece) :
    entries (listText pieces) = pieces.filterMap Piece.names? := by
  induction pieces with
  | nil => rfl
  | cons piece pieces ih =>
      cases pieces with
      | nil =>
          rw [listText, List.map_singleton, List.intercalate_singleton, entries_piece]
          cases hnames : piece.names? <;> simp [hnames]
      | cons next more =>
          have hlist : listText (piece :: next :: more) =
              piece.text ++ ',' :: listText (next :: more) := by
            simp [listText, List.intercalate_cons_cons]
          rw [hlist, entries_append_comma, ih, entries_piece]
          cases hnames : piece.names? <;> simp [hnames]

/-! ### Imports and exports -/

/-- The binding of an import for the two names of an entry. -/
def binding (names : List Char × List Char) : ImportSpecifier :=
  .named (.ofList names.1) (.ofList names.2)

theorem imports_eq_map (text : List Char) : imports text = (entries text).map binding := rfl

/-- **Lists are read piece by piece.**  Two lists with a comma between them read as the one and the
other; the items of an export mirror the bindings of an import one by one; a name among blanks gives
one binding, and so does a name that is given another, with any blanks around the keyword; hence a
list of such pieces gives one binding for each that is not blank, in order. -/
theorem lists_read_by_pieces (s t : List Char) (p q : Blanks) (u v : Gap) (n m : Name)
    (pieces : List Piece) :
    imports (s ++ ',' :: t) = imports s ++ imports t ∧
      List.Forall₂ (fun item specifier => specifier = .named item.localName item.publicName)
        (exports s) (imports s) ∧
      imports (p.text ++ n.text ++ q.text) = [.named (.ofList n.text) (.ofList n.text)] ∧
      imports (p.text ++ n.text ++ u.text ++ "as".toList ++ v.text ++ m.text ++ q.text) =
        [.named (.ofList n.text) (.ofList m.text)] ∧
      imports (listText pieces) = pieces.filterMap fun piece => piece.names?.map binding := by
  refine ⟨?_, ?_, ?_, ?_, ?_⟩
  · rw [imports_eq_map, entries_append_comma, List.map_append]
    rfl
  · rw [imports, exports, List.forall₂_map_left_iff, List.forall₂_map_right_iff]
    exact List.forall₂_same.2 fun _ _ => rfl
  · rw [imports_eq_map, show p.text ++ n.text ++ q.text = (Piece.plain p n q).text from rfl,
      entries_piece]
    rfl
  · have htext : p.text ++ n.text ++ u.text ++ "as".toList ++ v.text ++ m.text ++ q.text =
        (Piece.renamed p n u v m q).text := by
      simp [Piece.text]
    rw [imports_eq_map, htext, entries_piece]
    rfl
  · rw [imports_eq_map, entries_listText, List.map_filterMap]

end SourceOutline.Specifier
