/-
**What a summary says.**

A comment is cleaned line by line, and its first lines that describe are gathered until one of four
things happens: the lines end, a tag begins, an empty line follows some text, or the text has grown
beyond a hundred characters and has a full stop.  Said without a loop, the descriptive lines are a run
of the cleaned lines, and the summary is that run in one line, or the first sentence of its shortest
beginning that is too long.

The delimiters of a block comment do not count.  They are removed from a comment that has them, and a
body that stands alone reads as it does between them.

Main definitions:

* `Comment.cleanedLines` — the lines of a comment without their marks;
* `Comment.described`, `Comment.joined` — the run of descriptive lines, and a run in one line;
* `Comment.isOverlong`, `Comment.cutAtStop`, `Comment.shortened` — when a run is cut, and where;
* `Comment.summaryOf` — **the summary by its rule**, without a loop;
* `Comment.OneLine` — a text without line feeds and without blanks at its ends.

Main results:

* `Comment.gather_eq` — the loop finds the first sentence of the shortest beginning that is too long;
* `Comment.digest_eq_summaryOf` — **the summary follows the rule**, if the lines are clean;
* `Comment.oneLine_shortened`, `Comment.count_stop_shortened` — the shape of a summary;
* `Comment.summary?_eq_summaryOf` — **the summary of every comment**, by the rule and by its shape;
* `Comment.docLines_delimited`, `Comment.summary?_delimited` — a body has the same lines and the same
  summary between delimiters and without them.
-/

import Mathlib.Data.List.Infix
import Mathlib.Data.List.TakeWhile
import SourceOutline.Proofs.ListedNames

set_option autoImplicit false

namespace SourceOutline.Comment

open Text

/-! ### The rule -/

/-- The lines of a comment without their marks: those of the block comment, or of the line comments
if the block comment is empty or absent. -/
def cleanedLines (doc lineComments : Option (List Char)) : List (List Char) :=
  match doc with
  | some (c :: text) => docLines (c :: text)
  | _ => plainLines (lineComments.getD [])

/-- Whether a line describes: it is not empty and no tag. -/
def describes (line : List Char) : Bool :=
  !line.isEmpty && line.head? != some '@'

/-- The first lines that describe, behind any empty ones. -/
def described (lines : List (List Char)) : List (List Char) :=
  (lines.dropWhile List.isEmpty).takeWhile describes

/-- A run of lines in one line, with single spaces between them. -/
def joined (run : List (List Char)) : List Char :=
  [' '].intercalate run

/-- Whether a text has to be cut and can be: it is long and has a full stop. -/
def isOverlong (text : List Char) : Bool :=
  decide (100 < text.length) && text.contains '.'

/-- The text up to its first full stop, which is included. -/
def cutAtStop (text : List Char) : List Char :=
  text.take (text.idxOf '.' + 1)

/-- A run in one line, or the first sentence of its shortest beginning that is too long. -/
def shortened (run : List (List Char)) : List Char :=
  match (run.inits.map joined).find? isOverlong with
  | some text => cutAtStop text
  | none => joined run

/-- The summary of cleaned lines. -/
def summaryOf (lines : List (List Char)) : Option (List Char) :=
  if (described lines).isEmpty then none else some (shortened (described lines))

/-! ### Sentences -/

/-- A text with a full stop is cut behind the first one. -/
theorem exists_sentence {text : List Char} (h : '.' ∈ text) :
    ∃ sentence more, text = sentence ++ '.' :: more ∧ '.' ∉ sentence ∧
      cutAtStop text = sentence ++ ['.'] ∧ firstSentence text = sentence ++ ['.'] := by
  obtain ⟨sentence, more, rfl, hsentence⟩ := List.eq_append_cons_of_mem h
  have hpass : ∀ x ∈ sentence, (x != '.') = true := by
    intro x hx
    rw [bne_iff_ne]
    rintro rfl
    exact hsentence hx
  refine ⟨sentence, more, rfl, hsentence, ?_, ?_⟩
  · have hindex : (sentence ++ '.' :: more).idxOf '.' = sentence.length := by
      rw [List.idxOf_append_of_notMem hsentence, List.idxOf_cons_self, Nat.add_zero]
    rw [cutAtStop, hindex, List.take_length_add_append]
    rfl
  · rw [firstSentence, List.takeWhile_append_of_pos hpass]
    simp

theorem stop_mem_of_isOverlong {text : List Char} (h : isOverlong text = true) : '.' ∈ text := by
  simpa [isOverlong] using (Bool.and_eq_true_iff.1 h).2

/-! ### The loop -/

theorem ne_nil_of_describes {line : List Char} (h : describes line = true) : line ≠ [] := by
  rintro rfl
  exact absurd h (by decide)

/-- An empty line before any text changes nothing. -/
theorem gather_dropWhile (lines : List (List Char)) :
    gather [] lines = gather [] (lines.dropWhile List.isEmpty) := by
  induction lines with
  | nil => rfl
  | cons line rest ih =>
      cases line with
      | nil => simpa [gather] using ih
      | cons c line => rfl

/-- One step of the loop: a line that does not describe ends the summary, and so does too long a
text. -/
theorem gather_cons {summary line : List Char} {rest : List (List Char)}
    (h : summary ≠ [] ∨ line ≠ []) :
    gather summary (line :: rest) =
      if describes line then
        if isOverlong (joinLine summary line) then cutAtStop (joinLine summary line)
        else gather (joinLine summary line) rest
      else summary := by
  cases line with
  | nil =>
      have hne : summary ≠ [] := h.resolve_right (not_not_intro rfl)
      simp [gather, describes, hne]
  | cons c line =>
      by_cases hc : c = '@'
      · simp [gather, describes, hc]
      · have hdescribes : describes (c :: line) = true := by simp [describes, hc]
        rw [gather, if_neg (by simpa using hc), if_neg (by simp), if_pos hdescribes]
        change (if isOverlong (joinLine summary (c :: line)) = true then _ else _) = _
        split
        · rename_i hlong
          obtain ⟨sentence, more, -, -, hcut, hfirst⟩ :=
            exists_sentence (stop_mem_of_isOverlong hlong)
          rw [hcut, hfirst]
        · rfl

/-- **What the loop gathers** from a summary that need not be cut: the first sentence of the shortest
extension that is too long, or else the summary with all lines that describe. -/
theorem gather_eq {summary : List Char} {lines : List (List Char)}
    (hshort : isOverlong summary = false) (h : summary ≠ [] ∨ lines.head? ≠ some []) :
    gather summary lines =
      match ((lines.takeWhile describes).inits.map (List.foldl joinLine summary)).find?
        isOverlong with
      | some text => cutAtStop text
      | none => (lines.takeWhile describes).foldl joinLine summary := by
  induction lines generalizing summary with
  | nil => simp [gather, hshort]
  | cons line rest ih =>
      have hne : summary ≠ [] ∨ line ≠ [] := by simpa using h
      rw [gather_cons hne]
      by_cases hline : describes line = true
      · -- the first extension is the summary itself, which is passed over
        rw [if_pos hline, List.takeWhile_cons_of_pos hline, List.inits_cons, List.map_cons,
          List.foldl_nil, List.find?_cons_of_neg (by simp [hshort]), List.map_map]
        have hextend : List.foldl joinLine summary ∘ (fun run => line :: run) =
            List.foldl joinLine (joinLine summary line) := rfl
        rw [hextend, List.foldl_cons]
        by_cases hlong : isOverlong (joinLine summary line) = true
        · have hfirst : ∀ run : List (List Char),
              (run.inits.map (List.foldl joinLine (joinLine summary line))).find? isOverlong =
                some (joinLine summary line) := by
            intro run
            cases run <;> simp [hlong]
          rw [if_pos hlong, hfirst]
        · rw [if_neg hlong]
          refine ih (by simpa using hlong) (Or.inl ?_)
          simp only [joinLine]
          split
          · exact ne_nil_of_describes hline
          · simp
      · rw [if_neg hline, List.takeWhile_cons_of_neg hline]
        simp [hshort]

/-! ### Runs in one line -/

theorem joined_cons (line : List Char) (run : List (List Char)) :
    joined (line :: run) = line ++ run.flatMap (' ' :: ·) := by
  induction run generalizing line with
  | nil => simp [joined]
  | cons next run ih =>
      have hnext := ih next
      rw [joined] at hnext
      rw [joined, List.intercalate_cons_cons, hnext]
      simp

/-- Adding line after line gives the run in one line, if none is empty. -/
theorem foldl_joinLine {run : List (List Char)} (h : ∀ line ∈ run, line ≠ []) :
    run.foldl joinLine [] = joined run := by
  have hmore : ∀ (more : List (List Char)) (summary : List Char), summary ≠ [] →
      more.foldl joinLine summary = summary ++ more.flatMap (' ' :: ·) := by
    intro more
    induction more with
    | nil => simp
    | cons line more ih =>
        intro summary hne
        have hjoin : joinLine summary line = summary ++ ' ' :: line := by simp [joinLine, hne]
        rw [List.foldl_cons, hjoin, ih _ (by simp), List.flatMap_cons, List.append_assoc]
  cases run with
  | nil => rfl
  | cons line run =>
      rw [List.foldl_cons, show joinLine [] line = line from rfl,
        hmore run line (h line List.mem_cons_self), joined_cons]

/-- The loop gathers the shortened run of descriptive lines. -/
theorem gather_nil (lines : List (List Char)) :
    gather [] lines = shortened (described lines) := by
  have hhead : (lines.dropWhile List.isEmpty).head? ≠ some [] := by
    intro h
    have hnot := List.head?_dropWhile_not List.isEmpty lines
    rw [h] at hnot
    exact absurd hnot (by decide)
  have hne : ∀ line ∈ described lines, line ≠ [] := fun line hline =>
    ne_nil_of_describes (List.mem_takeWhile_imp hline)
  have hjoined : (described lines).inits.map (List.foldl joinLine []) =
      (described lines).inits.map joined := by
    refine List.map_congr_left fun run hrun => foldl_joinLine fun line hline => ?_
    exact hne line (((List.mem_inits _ _).1 hrun).subset hline)
  rw [gather_dropWhile, gather_eq rfl (Or.inr hhead), ← described, hjoined, foldl_joinLine hne,
    shortened]

/-! ### The shape of a summary -/

/-- A text that stands in one line, with no blanks at its ends. -/
structure OneLine (text : List Char) : Prop where
  newline_not_mem : '\n' ∉ text
  isBlank_head : ∀ x ∈ text.head?, isBlank x = false
  isBlank_last : ∀ x ∈ text.getLast?, isBlank x = false

namespace OneLine

theorem trim_eq {text : List Char} (h : OneLine text) : trim text = text := by
  by_cases hne : text = []
  · rw [hne, trim_nil]
  · have hbetween := trim_between (p := []) (q := []) (by simp) (by simp) h.isBlank_head
      h.isBlank_last hne
    simpa using hbetween

/-- A text without line feeds, when it is trimmed. -/
theorem of_trim {text : List Char} (h : '\n' ∉ text) : OneLine (trim text) where
  newline_not_mem := fun hmem => h (trim_subset text hmem)
  isBlank_head := fun _ => isBlank_of_mem_head?_trim
  isBlank_last := fun _ => isBlank_of_mem_getLast?_trimRight

theorem append_space {s t : List Char} (hs : OneLine s) (ht : OneLine t) (hs' : s ≠ [])
    (ht' : t ≠ []) : OneLine (s ++ ' ' :: t) where
  newline_not_mem := by simp [hs.newline_not_mem, ht.newline_not_mem]
  isBlank_head := by
    rw [List.head?_append_of_ne_nil s hs']
    exact hs.isBlank_head
  isBlank_last := by
    obtain ⟨y, hy⟩ := Option.isSome_iff_exists.1 (List.getLast?_isSome.2 ht')
    have hlast := ht.isBlank_last
    simpa [List.getLast?_cons, hy] using hlast

/-- The first sentence of a line is a line. -/
theorem cutAtStop {text : List Char} (h : OneLine text) (hstop : '.' ∈ text) :
    OneLine (cutAtStop text) := by
  obtain ⟨sentence, more, rfl, -, hcut, -⟩ := exists_sentence hstop
  rw [hcut]
  refine ⟨fun hmem => h.newline_not_mem ?_, ?_, by simp [isBlank]⟩
  · simp only [List.mem_append, List.mem_cons, List.not_mem_nil, or_false] at hmem ⊢
    exact hmem.imp_right Or.inl
  · have hhead := h.isBlank_head
    simpa [List.head?_append] using hhead

end OneLine

/-- A run of lines that are clean and not empty is clean in one line. -/
theorem oneLine_joined {run : List (List Char)} (h : ∀ line ∈ run, OneLine line ∧ line ≠ []) :
    OneLine (joined run) ∧ (run ≠ [] → joined run ≠ []) := by
  induction run with
  | nil => exact ⟨⟨by simp [joined], by simp [joined], by simp [joined]⟩, fun hne => absurd rfl hne⟩
  | cons line run ih =>
      obtain ⟨hline, hline'⟩ := h line List.mem_cons_self
      cases run with
      | nil => simpa [joined] using ⟨hline, hline'⟩
      | cons next run =>
          obtain ⟨hrest, hrest'⟩ := ih fun l hl => h l (List.mem_cons_of_mem line hl)
          have hjoined : joined (line :: next :: run) = line ++ ' ' :: joined (next :: run) := by
            simp [joined_cons]
          rw [hjoined]
          exact ⟨hline.append_space hrest hline' (hrest' (by simp)), by simp⟩

/-- The two forms of a shortened run. -/
theorem shortened_cases (run : List (List Char)) :
    (∃ part, part <+: run ∧ isOverlong (joined part) = true ∧
        shortened run = cutAtStop (joined part)) ∨
      isOverlong (joined run) = false ∧ shortened run = joined run := by
  rw [shortened]
  split
  · rename_i text hfind
    obtain ⟨part, hpart, rfl⟩ := List.mem_map.1 (List.mem_of_find?_eq_some hfind)
    exact Or.inl ⟨part, (List.mem_inits _ _).1 hpart, List.find?_some hfind, rfl⟩
  · rename_i hfind
    have hwhole : joined run ∈ run.inits.map joined :=
      List.mem_map_of_mem ((List.mem_inits _ _).2 List.prefix_rfl)
    exact Or.inr ⟨by simpa using List.find?_eq_none.1 hfind _ hwhole, rfl⟩

/-- A shortened run is one line, and there is something in it. -/
theorem oneLine_shortened {run : List (List Char)} (h : ∀ line ∈ run, OneLine line ∧ line ≠ []) :
    OneLine (shortened run) ∧ (run ≠ [] → shortened run ≠ []) := by
  rcases shortened_cases run with ⟨part, hpart, hlong, hcut⟩ | ⟨-, hwhole⟩
  · have hstop := stop_mem_of_isOverlong hlong
    obtain ⟨sentence, more, -, -, hsentence, -⟩ := exists_sentence hstop
    have hline := (oneLine_joined fun line hline => h line (hpart.subset hline)).1
    rw [hcut]
    exact ⟨hline.cutAtStop hstop, fun _ => by simp [hsentence]⟩
  · rw [hwhole]
    exact oneLine_joined h

/-- A shortened run that is still long has no full stop, or only one, at its end. -/
theorem count_stop_shortened {run : List (List Char)} (h : 100 < (shortened run).length) :
    '.' ∉ shortened run ∨
      (shortened run).count '.' = 1 ∧ (shortened run).getLast? = some '.' := by
  rcases shortened_cases run with ⟨part, -, hlong, hcut⟩ | ⟨hshort, hwhole⟩
  · obtain ⟨sentence, more, -, hsentence, hcut', -⟩ :=
      exists_sentence (stop_mem_of_isOverlong hlong)
    rw [hcut, hcut']
    exact Or.inr ⟨by simp [List.count_eq_zero.2 hsentence], by simp⟩
  · rw [hwhole] at h ⊢
    exact Or.inl (by simpa [isOverlong, h] using hshort)

/-! ### Clean lines -/

theorem oneLine_dropMark (mark : List Char) {line : List Char} (h : '\n' ∉ line) :
    OneLine (dropMark mark line) := by
  rw [dropMark]
  split
  · rename_i rest hrest
    refine OneLine.of_trim fun hmem => h ?_
    have hline : trimLeft line = mark ++ rest := dropPrefix?_eq_some_iff.1 hrest
    have hmem' : '\n' ∈ trimLeft line := hline ▸ List.mem_append_right mark hmem
    exact List.dropWhile_subset isBlank hmem'
  · exact OneLine.of_trim h

/-- Every cleaned line is one line. -/
theorem oneLine_of_mem_cleanedLines {doc lineComments : Option (List Char)} {line : List Char}
    (h : line ∈ cleanedLines doc lineComments) : OneLine line := by
  have hpieces : ∀ {mark text}, line ∈ (splitOn '\n' text).map (dropMark mark) → OneLine line := by
    intro mark text hmem
    obtain ⟨piece, hpiece, rfl⟩ := List.mem_map.1 hmem
    exact oneLine_dropMark mark (not_mem_and_subset_of_mem_splitOn hpiece).1
  unfold cleanedLines at h
  split at h
  · exact hpieces h
  · exact hpieces h

theorem oneLine_of_mem_described {lines : List (List Char)} (h : ∀ line ∈ lines, OneLine line) :
    ∀ line ∈ described lines, OneLine line ∧ line ≠ [] := by
  intro line hline
  have hmem : line ∈ lines := List.dropWhile_subset _ ((List.takeWhile_prefix _).subset hline)
  exact ⟨h line hmem, ne_nil_of_describes (List.mem_takeWhile_imp hline)⟩

/-- **The summary follows the rule**, if the lines are clean. -/
theorem digest_eq_summaryOf {lines : List (List Char)} (h : ∀ line ∈ lines, OneLine line) :
    digest lines = summaryOf lines := by
  obtain ⟨hclean, hne⟩ := oneLine_shortened (oneLine_of_mem_described h)
  simp only [digest, gather_nil, hclean.trim_eq, summaryOf]
  by_cases hempty : described lines = []
  · simp [hempty, shortened, joined, isOverlong]
  · simp [hempty, hne hempty]

/-- The summary is that of the cleaned lines, since an absent comment has one line, which is empty. -/
theorem summary?_eq_digest (doc lineComments : Option (List Char)) :
    summary? doc lineComments = digest (cleanedLines doc lineComments) := by
  have hlines : ∀ lineComments : Option (List Char),
      summary? none lineComments = digest (plainLines (lineComments.getD [])) := by
    rintro (_ | _ | ⟨c, text⟩)
    · rfl
    · rfl
    · rfl
  rcases doc with _ | _ | ⟨c, text⟩
  · exact hlines lineComments
  · exact hlines lineComments
  · rfl

/-- **The summary of a comment** is that of its cleaned lines by the rule.  It is one line with some
text in it, and if it is longer than a hundred characters it has no full stop, or only the one at its
end. -/
theorem summary?_eq_summaryOf (doc lineComments : Option (List Char)) :
    summary? doc lineComments = summaryOf (cleanedLines doc lineComments) ∧
      ∀ text ∈ summary? doc lineComments,
        text ≠ [] ∧ OneLine text ∧
          (100 < text.length →
            '.' ∉ text ∨ text.count '.' = 1 ∧ text.getLast? = some '.') := by
  have hclean : ∀ line ∈ cleanedLines doc lineComments, OneLine line := fun _ =>
    oneLine_of_mem_cleanedLines
  have hrule := (summary?_eq_digest doc lineComments).trans (digest_eq_summaryOf hclean)
  refine ⟨hrule, fun text htext => ?_⟩
  rw [hrule, summaryOf] at htext
  split at htext
  · exact absurd htext (by simp)
  · rename_i hempty
    obtain rfl := Option.some.inj htext
    obtain ⟨hline, hne⟩ := oneLine_shortened (oneLine_of_mem_described hclean)
    exact ⟨hne (by simpa using hempty), hline, count_stop_shortened⟩

/-! ### Delimiters -/

/-- A text in which an opening does not stand has none at its beginning. -/
theorem dropOpening_eq_self {body : List Char} (h : ¬ "/**".toList <:+: body) :
    dropOpening body = body := by
  cases hrest : dropPrefix? ['/', '*', '*'] (trimLeft body) with
  | none => simp only [dropOpening, hrest]
  | some rest =>
      -- what is left behind the blanks is an end of the text, so an opening there stands in it
      have hbody : trimLeft body = "/**".toList ++ rest := dropPrefix?_eq_some_iff.1 hrest
      have hopening : "/**".toList <:+: trimLeft body := by
        rw [hbody]
        exact (List.prefix_append _ _).isInfix
      exact absurd (hopening.trans (List.dropWhile_suffix isBlank).isInfix) h

/-- A text in which a closing does not stand has none at its end. -/
theorem dropClosing_eq_self {body : List Char} (h : ¬ "*/".toList <:+: body) :
    dropClosing body = body := by
  cases hrest : dropPrefix? ['/', '*'] (body.reverse.dropWhile isBlank) with
  | none => simp only [dropClosing, hrest]
  | some rest =>
      have hbody : body.reverse.dropWhile isBlank = "*/".toList.reverse ++ rest :=
        dropPrefix?_eq_some_iff.1 hrest
      have hclosing : "*/".toList.reverse <:+: body.reverse := by
        refine List.IsInfix.trans ?_ (List.dropWhile_suffix isBlank).isInfix
        rw [hbody]
        exact (List.prefix_append _ _).isInfix
      exact absurd (List.reverse_infix.1 hclosing) h

/-- An opening is removed, with no more than itself where no exclamation mark follows. -/
theorem dropOpening_append {body : List Char} (h : body.head? ≠ some '!') :
    dropOpening ("/**".toList ++ body) = body := by
  have hfound : dropPrefix? ['/', '*', '*'] (trimLeft ("/**".toList ++ body)) = some body := rfl
  rw [dropOpening, hfound]
  split
  · rename_i rest hrest
    rw [Option.some.inj hrest] at h
    exact absurd rfl h
  · rename_i rest hrest
    exact (Option.some.inj hrest).symm
  · rename_i hrest
    exact absurd hrest (by simp)

theorem dropClosing_append (body : List Char) : dropClosing (body ++ "*/".toList) = body := by
  have hreverse : (body ++ "*/".toList).reverse = '/' :: '*' :: body.reverse := by simp
  have hslash : isBlank '/' = false := by decide
  rw [dropClosing, hreverse]
  simp [hslash, dropPrefix?]

/-- The lines of a body that begins with no exclamation mark. -/
theorem docLines_eq {text body : List Char} (h : dropClosing (dropOpening text) = body)
    (hmark : body.head? ≠ some '!') :
    docLines text = (splitOn '\n' (trim body)).map (dropMark ['*']) := by
  simp only [docLines, h]
  split
  · exact absurd rfl hmark
  · rfl

/-- The lines of a body that begins with an exclamation mark. -/
theorem docLines_mark {text body : List Char} (h : dropClosing (dropOpening text) = '!' :: body) :
    docLines text = (splitOn '\n' (trim body)).map (dropMark ['*']) := by
  simp only [docLines, h]

/-- **A body has the same lines between delimiters and without them.**  The exclamation mark that may
follow the opening is removed once in either case. -/
theorem docLines_delimited {body : List Char} (hclose : ¬ "*/".toList <:+: body)
    (hopen : ¬ "/**".toList <:+: body) (hmark : ¬ "!!".toList <+: body) :
    docLines ("/**".toList ++ body ++ "*/".toList) = docLines body := by
  have halone : dropClosing (dropOpening body) = body := by
    rw [dropOpening_eq_self hopen, dropClosing_eq_self hclose]
  by_cases hfirst : body.head? = some '!'
  · obtain ⟨rest, rfl⟩ := List.head?_eq_some_iff.1 hfirst
    have hopened : dropOpening ("/**".toList ++ '!' :: rest ++ "*/".toList) =
        rest ++ "*/".toList := rfl
    have hrest : rest.head? ≠ some '!' := by
      intro h
      obtain ⟨more, rfl⟩ := List.head?_eq_some_iff.1 h
      exact hmark (List.prefix_append "!!".toList more)
    rw [docLines_mark halone, docLines_eq (by rw [hopened, dropClosing_append]) hrest]
  · have hopened : dropOpening ("/**".toList ++ body ++ "*/".toList) = body ++ "*/".toList := by
      rw [List.append_assoc]
      refine dropOpening_append ?_
      cases body with
      | nil => decide
      | cons c body => exact hfirst
    rw [docLines_eq halone hfirst, docLines_eq (by rw [hopened, dropClosing_append]) hfirst]

/-- **A block comment gives the same summary with and without its delimiters**, whatever its body
begins and ends with, if it holds no delimiter itself and the exclamation mark at its beginning is not
doubled. -/
theorem summary?_delimited {body : List Char} (hclose : ¬ "*/".toList <:+: body)
    (hopen : ¬ "/**".toList <:+: body) (hmark : ¬ "!!".toList <+: body) :
    summary? (some ("/**".toList ++ body ++ "*/".toList)) none = summary? (some body) none := by
  have hblock : ∀ {text : List Char}, text ≠ [] →
      summary? (some text) none = digest (docLines text) := by
    rintro (_ | ⟨c, text⟩) hne
    · exact absurd rfl hne
    · rfl
  by_cases hne : body = []
  · subst hne
    rfl
  · rw [hblock (by simp), hblock hne, docLines_delimited hclose hopen hmark]

/-- A body that begins with the mark and something like an opening, and ends with a star. -/
theorem summary?_delimited_starred :
    let body := "!/* Adds two.\n * @param a\n *".toList
    ¬ "*/".toList <:+: body ∧ ¬ "/**".toList <:+: body ∧ ¬ "!!".toList <+: body ∧
      summary? (some ("/**".toList ++ body ++ "*/".toList)) none = summary? (some body) none ∧
        summary? (some body) none = some "/* Adds two.".toList := by
  intro body
  have hclose : ¬ "*/".toList <:+: body := by decide
  have hopen : ¬ "/**".toList <:+: body := by decide
  have hmark : ¬ "!!".toList <+: body := by decide
  exact ⟨hclose, hopen, hmark, summary?_delimited hclose hopen hmark, by decide⟩

end SourceOutline.Comment
