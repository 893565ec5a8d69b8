/-
**Files that hold a text.**

The octets of a text are read back as the text, for characters of every length: the first octet of a
character says how many follow, and the range that it leaves to the next octet holds the one that is
written.  The line ends of a text can be written in three ways, which all are read as line feeds.
So the outline of a file is that of the text it holds, however its line ends are written.

Main definitions:

* `Text.Utf8.encode` — the octets of a text;
* `Text.LineEnd`, `Text.LineEnd.write` — the ways to end lines, and a text with such line ends.

Main results:

* `Text.Utf8.decode_encode` — **octets of a text are read as the text**;
* `FileSystem.sourceText_encode` — in whatever way its line ends are written;
* `FileSystem.read_writeFile` — a file that is written anew is read under the same path;
* `FileSystem.outlineOf_encode` — **the outline of a file is that of the text it holds**.
-/

import SourceOutline.FileSystem.Edit
import SourceOutline.Proofs.Locating
import SourceOutline.Proofs.TreeShapes

set_option autoImplicit false

namespace SourceOutline

namespace Text

namespace Utf8

/-! ### The octets of a character -/

/-- The octets of a text. -/
def encode (text : List Char) : List UInt8 :=
  text.flatMap String.utf8EncodeChar

@[simp]
theorem encode_nil : encode [] = [] := rfl

@[simp]
theorem encode_cons (c : Char) (text : List Char) :
    encode (c :: text) = String.utf8EncodeChar c ++ encode text := rfl

section
variable {octet : Nat} (hoctet : octet < 256) (rest : List UInt8)

include hoctet

theorem decodeAfter_ofNat (pending : Option Pending) :
    decodeAfter pending (UInt8.ofNat octet :: rest) =
      (step pending octet).1 ++ decodeAfter (step pending octet).2 rest := by
  have hnat : (UInt8.ofNat octet).toNat = octet := UInt8.toNat_ofNat_of_lt hoctet
  rw [decodeAfter, hnat]

theorem decodeAfter_begins {p : Pending} (hlead : lead octet = .begins p) :
    decodeAfter none (UInt8.ofNat octet :: rest) = decodeAfter (some p) rest := by
  rw [decodeAfter_ofNat hoctet]
  simp [step, hlead]

variable {low high value : Nat} (hlow : low ≤ octet) (hhigh : octet ≤ high)

include hlow hhigh

/-- An octet in the range that was left to it goes on with a sequence. -/
theorem decodeAfter_continues (more : Nat) :
    decodeAfter (some ⟨low, high, more + 1, value⟩) (UInt8.ofNat octet :: rest) =
      decodeAfter (some ⟨0x80, 0xBF, more, value * 64 + (octet - 0x80)⟩) rest := by
  rw [decodeAfter_ofNat hoctet]
  simp [step, hlow, hhigh]

/-- The last octet completes a character. -/
theorem decodeAfter_completes :
    decodeAfter (some ⟨low, high, 0, value⟩) (UInt8.ofNat octet :: rest) =
      some (Char.ofNat (value * 64 + (octet - 0x80))) :: decodeAfter none rest := by
  rw [decodeAfter_ofNat hoctet]
  simp [step, hlow, hhigh]

end

/-! ### First octets -/

section
variable {v : Nat}

theorem lead_two (hlow : 0x80 ≤ v) (hhigh : v < 0x800) :
    lead (v / 64 % 32 + 192) = .begins ⟨0x80, 0xBF, 0, v / 64⟩ := by
  have hvalue : v / 64 % 32 + 192 - 0xC0 = v / 64 := by omega
  rw [lead, if_neg (by omega), if_neg (by omega), if_pos (by omega), hvalue]

/-- The range left to the second of three octets excludes overlong forms and surrogates. -/
theorem lead_three (hlow : 0x800 ≤ v) (hhigh : v < 0x10000) (hvalid : v < 0xD800 ∨ 0xDFFF < v) :
    ∃ low high, lead (v / 4096 % 16 + 224) = .begins ⟨low, high, 1, v / 4096⟩ ∧
      low ≤ v / 64 % 64 + 128 ∧ v / 64 % 64 + 128 ≤ high := by
  have hvalue : v / 4096 % 16 + 224 - 0xE0 = v / 4096 := by omega
  rw [lead, if_neg (by omega), if_neg (by omega), if_neg (by omega), hvalue]
  simp only [beq_iff_eq]
  split
  · exact ⟨_, _, rfl, by omega, by omega⟩
  · split
    · exact ⟨_, _, rfl, by omega, by omega⟩
    · rw [if_pos (by omega)]
      exact ⟨_, _, rfl, by omega, by omega⟩

/-- The range left to the second of four octets excludes overlong forms and numbers that are too
large. -/
theorem lead_four (hlow : 0x10000 ≤ v) (hhigh : v < 0x110000) :
    ∃ low high, lead (v / 262144 % 8 + 240) = .begins ⟨low, high, 2, v / 262144⟩ ∧
      low ≤ v / 4096 % 64 + 128 ∧ v / 4096 % 64 + 128 ≤ high := by
  have hvalue : v / 262144 % 8 + 240 - 0xF0 = v / 262144 := by omega
  rw [lead, if_neg (by omega), if_neg (by omega), if_neg (by omega)]
  simp only [beq_iff_eq]
  rw [if_neg (by omega), if_neg (by omega), if_neg (by omega), hvalue]
  split
  · exact ⟨_, _, rfl, by omega, by omega⟩
  · split
    · exact ⟨_, _, rfl, by omega, by omega⟩
    · rw [if_pos (by omega)]
      exact ⟨_, _, rfl, by omega, by omega⟩

end

/-! ### Reading back -/

/-- **The octets of a character are read as the character**, whatever follows them. -/
theorem decodeAfter_utf8EncodeChar (c : Char) (rest : List UInt8) :
    decodeAfter none (String.utf8EncodeChar c ++ rest) = some c :: decodeAfter none rest := by
  have hvalid : c.val.toNat < 0xD800 ∨ 0xDFFF < c.val.toNat ∧ c.val.toNat < 0x110000 := c.valid
  have hchar {n : Nat} (h : n = c.val.toNat) : Char.ofNat n = c := by
    rw [h]
    exact Char.ofNat_toNat c
  rw [String.utf8EncodeChar]
  generalize c.val.toNat = v at hvalid hchar
  split
  · rw [List.singleton_append, decodeAfter_ofNat (by omega)]
    have hlead : lead v = .char c := by
      rw [lead, if_pos (by omega), hchar rfl]
    simp [step, hlead]
  · split
    · rw [List.cons_append, List.singleton_append,
        decodeAfter_begins (by omega) _ (lead_two (by omega) (by omega)),
        decodeAfter_completes (by omega) _ (by omega) (by omega), hchar (by omega)]
    · split
      · obtain ⟨low, high, hlead, hlow, hhigh⟩ :=
          @lead_three v (by omega) (by omega) (by omega)
        rw [List.cons_append, List.cons_append, List.singleton_append,
          decodeAfter_begins (by omega) _ hlead,
          decodeAfter_continues (by omega) _ hlow hhigh,
          decodeAfter_completes (by omega) _ (by omega) (by omega), hchar (by omega)]
      · obtain ⟨low, high, hlead, hlow, hhigh⟩ := @lead_four v (by omega) (by omega)
        rw [List.cons_append, List.cons_append, List.cons_append, List.singleton_append,
          decodeAfter_begins (by omega) _ hlead,
          decodeAfter_continues (by omega) _ hlow hhigh,
          decodeAfter_continues (by omega) _ (by omega) (by omega),
          decodeAfter_completes (by omega) _ (by omega) (by omega), hchar (by omega)]

/-- **The octets of a text are read as the text.** -/
theorem decode_encode (text : List Char) : decode (encode text) = text.map some := by
  rw [decode]
  induction text with
  | nil => rfl
  | cons c text ih => rw [encode_cons, decodeAfter_utf8EncodeChar, ih, List.map_cons]

theorem decodeLossy_encode (text : List Char) : decodeLossy (encode text) = text := by
  rw [decodeLossy, decode_encode, List.map_map]
  exact List.map_id text

end Utf8

/-! ### Line ends -/

/-- The ways to end a line. -/
inductive LineEnd where
  | lineFeed
  | carriageReturnLineFeed
  | carriageReturn
  deriving DecidableEq, Repr

/-- The characters of a line end. -/
def LineEnd.chars : LineEnd → List Char
  | lineFeed => ['\n']
  | carriageReturnLineFeed => ['\r', '\n']
  | carriageReturn => ['\r']

/-- The text with its line ends written in one way. -/
def LineEnd.write (lineEnd : LineEnd) (text : List Char) : List Char :=
  text.flatMap fun c => if c == '\n' then lineEnd.chars else [c]

namespace LineEnd

@[simp]
theorem write_newline_cons (lineEnd : LineEnd) (text : List Char) :
    lineEnd.write ('\n' :: text) = lineEnd.chars ++ lineEnd.write text := rfl

theorem write_cons (lineEnd : LineEnd) {c : Char} (hc : c ≠ '\n') (text : List Char) :
    lineEnd.write (c :: text) = c :: lineEnd.write text := by
  simp [write, hc]

/-- Where lines end with carriage returns alone, no line feed is left. -/
theorem newline_not_mem_write (text : List Char) : '\n' ∉ carriageReturn.write text := by
  induction text with
  | nil => exact List.not_mem_nil
  | cons c text ih =>
      by_cases hc : c = '\n'
      · subst hc
        simpa [chars] using ih
      · rw [write_cons _ hc]
        exact List.not_mem_cons_of_ne_of_not_mem (Ne.symm hc) ih

end LineEnd

theorem unifyNewlines_cons {c : Char} (hc : c ≠ '\r') (text : List Char) :
    unifyNewlines (c :: text) = c :: unifyNewlines text := by
  rw [unifyNewlines]
  · exact fun rest h => absurd h hc
  · exact fun h => absurd h hc

/-- A carriage return alone ends a line. -/
theorem unifyNewlines_return_cons {text : List Char} (h : '\n' ∉ text) :
    unifyNewlines ('\r' :: text) = '\n' :: unifyNewlines text := by
  rw [unifyNewlines]
  rintro rest rfl
  exact absurd List.mem_cons_self h

/-- **All line ends are read as line feeds.** -/
theorem unifyNewlines_write (lineEnd : LineEnd) {text : List Char} (h : '\r' ∉ text) :
    unifyNewlines (lineEnd.write text) = text := by
  induction text with
  | nil => rfl
  | cons c text ih =>
      rw [List.mem_cons, not_or] at h
      obtain ⟨hc, htext⟩ := h
      by_cases hnewline : c = '\n'
      · subst hnewline
        rw [LineEnd.write_newline_cons]
        cases lineEnd with
        | lineFeed => exact (unifyNewlines_cons (by decide) _).trans (congrArg _ (ih htext))
        | carriageReturnLineFeed => exact congrArg ('\n' :: ·) (ih htext)
        | carriageReturn =>
            exact (unifyNewlines_return_cons (LineEnd.newline_not_mem_write text)).trans
              (congrArg _ (ih htext))
      · rw [LineEnd.write_cons _ hnewline, unifyNewlines_cons (Ne.symm hc), ih htext]

end Text

namespace FileSystem

open Text

/-- **A file that holds a text is read as that text**, in whatever way its line ends are written. -/
theorem sourceText_encode (lineEnd : LineEnd) {text : List Char} (h : '\r' ∉ text) :
    sourceText (Utf8.encode (lineEnd.write text)) = text := by
  rw [sourceText, Utf8.decodeLossy_encode, unifyNewlines_write lineEnd h]

/-! ### Files that are written anew -/

section
variable {fs : FileSystem} {path : Path} {old : List UInt8} (hread : fs.read path = .ok old)
  (new : List UInt8)

include hread

/-- A path that can be read leads to what may be read. -/
theorem isReadable_of_read : fs.isReadable path = true := by
  rw [read, stat_of_read hread] at hread
  dsimp only at hread
  split at hread
  · next hreadable => exact hreadable
  · exact absurd hread (by simp)

/-- A file is written at the place that its path leads to. -/
theorem exists_writeFile : ∃ place, fs.location? path = some place ∧
    fs.tree.at? place = some (.file old) ∧
    fs.writeFile path new = { fs with tree := fs.tree.put place (.file new) } := by
  obtain ⟨place, hplace, hfile, -⟩ := exists_location (stat_of_read hread)
  refine ⟨place, hplace, hfile, ?_⟩
  rw [writeFile, putAt, hplace, Option.getD_some]

theorem sameShape_writeFile : fs.SameShape (fs.writeFile path new) := by
  obtain ⟨place, -, hfile, hwrite⟩ := exists_writeFile hread new
  rw [hwrite]
  exact ⟨Node.sameShape_put hfile new, rfl, rfl⟩

/-- **A file that is written anew is read under the same path.** -/
theorem read_writeFile : (fs.writeFile path new).read path = .ok new := by
  obtain ⟨place, hplace, hfile, hwrite⟩ := exists_writeFile hread new
  have hshape := sameShape_writeFile hread new
  rcases hshape.stat_cases path with ⟨cause, hstat, -⟩ | ⟨before, after, -, hstat, -⟩
  · exact absurd ((stat_of_read hread).symm.trans hstat) (by simp)
  · obtain ⟨place', hplace', hafter, -⟩ := exists_location hstat
    obtain rfl : place = place' := by
      rw [← hshape.location?_eq, hplace] at hplace'
      exact Option.some.inj hplace'
    rw [hwrite, Node.at?_put hfile new] at hafter
    obtain rfl := Option.some.inj hafter
    rw [read, hstat]
    simp only [← hshape.isReadable_eq, isReadable_of_read hread, if_true]

end

theorem SameShape.rootOr_eq {fs gs : FileSystem} (h : fs.SameShape gs) (root : Option Path) :
    fs.rootOr root = gs.rootOr root := by
  cases root with
  | some given => rfl
  | none => rw [rootOr, rootOr, h.repositoryRoot_eq, workingPath, workingPath, h.workingDirectory]

section
variable {fs : FileSystem} {file : String} {root : Option Path} {base relative : Path}
  (hbase : fs.rootOr root = .ok base) (hsource : (base.join (Path.parse file)).isSource = true)
  (hrelative : fs.relativePath (base.join (Path.parse file)) base = .ok relative)
  (htree : fs.tree.wellFormed = true) {old : List UInt8}
  (hread : fs.read (base.join (Path.parse file)) = .ok old)

include hbase hsource hrelative htree hread

/-- A file that is written anew keeps its root and its path below that. -/
theorem outlineOf_writeFile (new : List UInt8) :
    (fs.writeFile (base.join (Path.parse file)) new).outlineOf file root =
      .ok (SourceFile.ofText relative.render (sourceText new)).outline := by
  have hshape := sameShape_writeFile hread new
  have hthere := exists?_of_stat htree (stat_of_read hread)
  rw [hshape.exists?_eq] at hthere
  rw [hshape.rootOr_eq] at hbase
  rw [hshape.relativePath_eq] at hrelative
  exact outlineOf_of_read hbase hthere hsource (read_writeFile hread new) hrelative

/-- **The outline of a file is that of the text it holds**, in whatever way its line ends are
written. -/
theorem outlineOf_encode {text : List Char} (htext : '\r' ∉ text) (lineEnd : LineEnd) :
    (fs.writeFile (base.join (Path.parse file)) (Utf8.encode (lineEnd.write text))).outlineOf file
      root = .ok (SourceFile.ofText relative.render text).outline := by
  rw [outlineOf_writeFile hbase hsource hrelative htree hread, sourceText_encode lineEnd htext]

end

/-- A text with a character of two octets, in a repository that is found from the working
directory. -/
theorem outlineOf_encode_accented :
    let fs : FileSystem :=
      ⟨.directory [("r", .directory [(".git", .directory []), ("a.js", .file [])])], ["r"], .free⟩
    let text := "// \u00E9\nclass A \x7b\n\x7d\n".toList
    Utf8.encode (LineEnd.carriageReturn.write "\u00E9\n".toList) = [0xC3, 0xA9, 0x0D] ∧
      ∀ lineEnd : LineEnd,
        (fs.writeFile ⟨.root, ["r", "a.js"]⟩ (Utf8.encode (lineEnd.write text))).outlineOf "a.js"
          none = .ok (SourceFile.ofText "a.js" text).outline := by
  intro fs text
  have hbase : fs.rootOr none = .ok ⟨.root, ["r"]⟩ := by decide +kernel
  have hpath : Path.join ⟨.root, ["r"]⟩ (Path.parse "a.js") = ⟨.root, ["r", "a.js"]⟩ := by
    decide +kernel
  have hrelative : fs.relativePath ⟨.root, ["r", "a.js"]⟩ ⟨.root, ["r"]⟩ =
      .ok ⟨.relative, ["a.js"]⟩ := by
    decide +kernel
  have hread : fs.read ⟨.root, ["r", "a.js"]⟩ = .ok [] := rfl
  rw [← hpath] at hrelative hread ⊢
  exact ⟨by decide +kernel, outlineOf_encode hbase (by decide +kernel) hrelative (by decide) hread
    (by decide)⟩

end FileSystem

end SourceOutline
