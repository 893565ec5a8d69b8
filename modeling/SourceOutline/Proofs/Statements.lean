/-
**Statements that begin a line.**

Imports and exports are looked for at the heads of lines only.  The search therefore goes through a
text line by line: whatever follows the keyword in its line is passed over, and the next line is
looked at afresh.  This module also has what both kinds of statement are written with: the name of a
module between quotes, a list between braces, and the semicolon at the end.

Main definitions:

* `Pattern.OnlyAtLineStart` — a pattern that matches at heads of lines only;
* `Printed.ModuleName`, `Printed.ModuleName.text` — the name of a module, and the literal;
* `Printed.page`, `Printed.gather` — lines, one below the other, and what they give.

Main results:

* `Pattern.scan_within_line` — nothing is found within a line;
* `scan_keyword_line` — a line that begins with the keyword is found, once;
* `Printed.flatMap_findAll_page` — a page is read line by line;
* `Printed.takes_fromModule`, `Printed.takes_braceList` — the common parts of statements.
-/

import SourceOutline.Export
import SourceOutline.Proofs.LineNumbers
import SourceOutline.Proofs.Preferred
import SourceOutline.Proofs.Specifiers

set_option autoImplicit false

namespace SourceOutline

open Text

/-! ### Line by line -/

namespace Pattern

variable {α : Type}

/-- The pattern has no outcome behind a character that does not end a line. -/
def OnlyAtLineStart (p : Pattern α) : Prop :=
  ∀ x rest, x ≠ '\n' → p.outcomes ⟨some x, rest⟩ = []

theorem OnlyAtLineStart.first?_eq_none {p : Pattern α} (hp : OnlyAtLineStart p) {x : Char}
    (hx : x ≠ '\n') (rest : List Char) : p.first? ⟨some x, rest⟩ = none := by
  rw [first?, hp x rest hx, List.head?_nil]

theorem onlyAtLineStart_lineStart_bind {β : Type} (next : Unit → Pattern β) :
    OnlyAtLineStart (lineStart >>= next) := by
  intro x rest hx
  have hstart : lineStart.outcomes ⟨some x, rest⟩ = [] := by
    simp [lineStart, outcomes_edge, hx]
  rw [outcomes_bind, hstart, List.flatMap_nil]

/-- Where a pattern matches, the scan lists the find and goes on where it is told to. -/
theorem scan_of_first? {p : Pattern α} {resume : Find α → Nat} {pos : Nat} {before : Option Char}
    {x : Char} {rest : List Char} {value : α} {stop : Cursor}
    (h : p.first? ⟨before, x :: rest⟩ = some (value, stop)) :
    scan p resume pos 0 before (x :: rest) =
      ⟨pos, ⟨before, x :: rest⟩, stop, value⟩ ::
        scan p resume (pos + 1) (resume ⟨pos, ⟨before, x :: rest⟩, stop, value⟩ - (pos + 1)) (some x)
          rest := by
  simp only [scan, h]

/-- Nothing is found within a line, wherever in it the scan goes on. -/
theorem scan_within_line {p : Pattern α} (hp : OnlyAtLineStart p) (resume : Find α → Nat)
    {x : Char} (hx : x ≠ '\n') {s : List Char} (hs : '\n' ∉ s) (t : List Char) {pos skip : Nat}
    (hskip : skip ≤ s.length) :
    scan p resume pos skip (some x) (s ++ t) =
      scan p resume (pos + s.length) 0 (some (s.getLast?.getD x)) t := by
  induction s generalizing x pos skip with
  | nil =>
      obtain rfl : skip = 0 := Nat.le_zero.1 hskip
      rfl
  | cons y s ih =>
      have hy : y ≠ '\n' := fun e => hs (e ▸ List.mem_cons_self)
      have hs' : '\n' ∉ s := fun h => hs (List.mem_cons_of_mem y h)
      have hpos : pos + 1 + s.length = pos + (y :: s).length := by
        simp only [List.length_cons]
        omega
      have hlast : (y :: s).getLast?.getD x = s.getLast?.getD y := by
        rw [List.getLast?_cons, Option.getD_some]
      rw [hlast, ← hpos]
      cases skip with
      | zero =>
          rw [← ih hy hs' (Nat.zero_le _), List.cons_append, scan, hp.first?_eq_none hx]
      | succ skip =>
          rw [← ih hy hs' (Nat.le_of_succ_le_succ hskip), List.cons_append, scan]

/-- A find at the head of a line is the only one in it. -/
theorem scan_line_of_first? {p : Pattern α} (hp : OnlyAtLineStart p) {resume : Find α → Nat}
    {pos : Nat} {before : Option Char} {line t : List Char} {value : α} {stop : Cursor}
    (hne : line ≠ []) (hline : '\n' ∉ line)
    (h : p.first? ⟨before, line ++ t⟩ = some (value, stop))
    (hresume : resume ⟨pos, ⟨before, line ++ t⟩, stop, value⟩ ≤ pos + line.length) :
    ∃ y, y ≠ '\n' ∧ scan p resume pos 0 before (line ++ t) =
      ⟨pos, ⟨before, line ++ t⟩, stop, value⟩ :: scan p resume (pos + line.length) 0 (some y) t := by
  obtain ⟨x, s, rfl⟩ := List.exists_cons_of_ne_nil hne
  have hx : x ≠ '\n' := fun e => hline (e ▸ List.mem_cons_self)
  have hs : '\n' ∉ s := fun h => hline (List.mem_cons_of_mem x h)
  refine ⟨s.getLast?.getD x, ?_, ?_⟩
  · cases hlast : s.getLast? with
    | none => exact hx
    | some y => exact fun e => hs (e ▸ List.mem_of_getLast? hlast)
  · rw [List.length_cons] at hresume
    rw [List.cons_append] at h hresume ⊢
    rw [scan_of_first? h, scan_within_line hp resume hx hs t (by omega), List.length_cons]
    congr 2
    omega

theorem scan_line_end {p : Pattern α} (hp : OnlyAtLineStart p) (resume : Find α → Nat) (pos : Nat)
    {y : Char} (hy : y ≠ '\n') (t : List Char) :
    scan p resume pos 0 (some y) ('\n' :: t) = scan p resume (pos + 1) 0 (some '\n') t := by
  rw [scan, hp.first?_eq_none hy]

theorem scan_text_end {p : Pattern α} (hp : OnlyAtLineStart p) (resume : Find α → Nat) (pos : Nat)
    {y : Char} (hy : y ≠ '\n') : scan p resume pos 0 (some y) [] = [] := by
  rw [scan, hp.first?_eq_none hy]

end Pattern

open Pattern

/-! ### Keywords at the heads of lines -/

theorem onlyAtLineStart_keywordAtLineStart (keyword : String) :
    OnlyAtLineStart (keywordAtLineStart keyword) :=
  onlyAtLineStart_lineStart_bind _

/-- A keyword that heads a line is found there, behind the indentation. -/
theorem first?_keywordAtLineStart_padding {keyword : String} {before : Option Char}
    {pad t : List Char} (hbefore : before.all (· == '\n') = true) (hne : keyword.toList ≠ [])
    (hkeyword : ∀ x ∈ keyword.toList, isWord x = true ∧ isPadding x = false)
    (hpad : ∀ x ∈ pad, isPadding x = true) (ht : Stops isWord t) :
    (keywordAtLineStart keyword).first? ⟨before, pad ++ (keyword.toList ++ t)⟩ =
      some (⟨pad.getLast?.or before, keyword.toList ++ t⟩,
        ⟨keyword.toList.getLast?.or (pad.getLast?.or before), t⟩) := by
  have hlineStart : lineStart.first? ⟨before, pad ++ (keyword.toList ++ t)⟩ =
      some ((), ⟨before, pad ++ (keyword.toList ++ t)⟩) := by
    simp [first?, lineStart, outcomes_edge, hbefore]
  have hstops : Stops isPadding (keyword.toList ++ t) := by
    refine Stops.append (fun x hx => (hkeyword x ?_).2) hne _
    exact List.mem_of_mem_head? hx
  obtain ⟨_, -, hpadding⟩ := takes_many hpad hstops before
  have hhere : here.first? ⟨pad.getLast?.or before, keyword.toList ++ t⟩ =
      some (⟨pad.getLast?.or before, keyword.toList ++ t⟩,
        ⟨pad.getLast?.or before, keyword.toList ++ t⟩) := by
    simp [first?, here, outcomes_captured]
  obtain ⟨_, -, hword⟩ := takes_word keyword t (pad.getLast?.or before)
  obtain ⟨y, hy⟩ : ∃ y, keyword.toList.getLast? = some y :=
    Option.isSome_iff_exists.1 (List.getLast?_isSome.2 hne)
  rw [hy, Option.some_or] at hword ⊢
  exact first?_bind hlineStart (first?_bind hpadding (first?_bind hhere (first?_bind hword
    (first?_bind (first?_wordEdge (hkeyword y (List.mem_of_getLast? hy)).1 ht) rfl))))

/-- The keyword with a space behind it is found at the head of a line. -/
theorem first?_keywordAtLineStart {keyword : String} {before : Option Char} {t : List Char}
    (hbefore : before.all (· == '\n') = true) (hne : keyword.toList ≠ [])
    (hkeyword : ∀ x ∈ keyword.toList, isWord x = true ∧ isPadding x = false) :
    (keywordAtLineStart keyword).first? ⟨before, keyword.toList ++ ' ' :: t⟩ =
      some (⟨before, keyword.toList ++ ' ' :: t⟩,
        ⟨keyword.toList.getLast?.or before, ' ' :: t⟩) :=
  @first?_keywordAtLineStart_padding keyword before [] (' ' :: t) hbefore hne hkeyword (by simp)
    (stops_cons.2 (by decide))

/-- A line that begins with the keyword and a space gives one find, at its head. -/
theorem scan_keyword_line {keyword : String} (pos : Nat) {before : Option Char} {line : List Char}
    (t : List Char) (hbefore : before.all (· == '\n') = true) (hne : keyword.toList ≠ [])
    (hkeyword : ∀ x ∈ keyword.toList, isWord x = true ∧ isPadding x = false)
    (hhead : keyword.toList ++ [' '] <+: line) (hline : '\n' ∉ line) :
    ∃ y stop, y ≠ '\n' ∧
      scan (keywordAtLineStart keyword) Find.stopOffset pos 0 before (line ++ t) =
        ⟨pos, ⟨before, line ++ t⟩, stop, ⟨before, line ++ t⟩⟩ ::
          scan (keywordAtLineStart keyword) Find.stopOffset (pos + line.length) 0 (some y) t := by
  obtain ⟨s, rfl⟩ := hhead
  have hfirst := first?_keywordAtLineStart (t := s ++ t) hbefore hne hkeyword
  have hrest : keyword.toList ++ ' ' :: (s ++ t) = keyword.toList ++ [' '] ++ s ++ t := by simp
  rw [hrest] at hfirst
  have hresume : Find.stopOffset ⟨pos, ⟨before, keyword.toList ++ [' '] ++ s ++ t⟩,
      ⟨keyword.toList.getLast?.or before, ' ' :: (s ++ t)⟩,
      (⟨before, keyword.toList ++ [' '] ++ s ++ t⟩ : Cursor)⟩ ≤
        pos + (keyword.toList ++ [' '] ++ s).length := by
    simp only [Find.stopOffset, Cursor.gap, List.length_append, List.length_cons]
    omega
  obtain ⟨y, hy, hscan⟩ := scan_line_of_first? (onlyAtLineStart_keywordAtLineStart keyword)
    (by simp) hline hfirst hresume
  exact ⟨y, _, hy, hscan⟩

/-- Nothing is found at the end of a text. -/
theorem scan_keyword_nil {keyword : String} (hne : keyword.toList ≠ []) (resume : Find Cursor → Nat)
    (pos : Nat) (before : Option Char) :
    scan (keywordAtLineStart keyword) resume pos 0 before [] = [] := by
  have hnone : (keywordAtLineStart keyword).first? ⟨before, []⟩ = none := by
    refine List.head?_eq_none_iff.2 (List.eq_nil_iff_forall_not_mem.2 fun found hfound => ?_)
    obtain ⟨-, pad, -, hpad, hword⟩ := mem_outcomes_keywordAtLineStart hfound
    have hempty := hpad.1
    rw [hword.1] at hempty
    exact hne (List.append_eq_nil_iff.1 (List.append_eq_nil_iff.1 hempty.symm).2).1
  simp only [scan, hnone]

/-! ### Statements in one line -/

namespace Export

/-- A word without semicolons and line feeds is no end of a statement. -/
theorem lineStatement_word {w : List Char} (hsemicolon : ';' ∉ w) (hline : '\n' ∉ w)
    (t : List Char) : lineStatement (w ++ t) = w ++ lineStatement t := by
  induction w with
  | nil => rfl
  | cons c w ih =>
      have hc : ¬ c = '\n' := fun e => hline (e ▸ List.mem_cons_self)
      have hc' : ¬ c = ';' := fun e => hsemicolon (e ▸ List.mem_cons_self)
      have ih' := ih (fun h => hsemicolon (List.mem_cons_of_mem c h))
        (fun h => hline (List.mem_cons_of_mem c h))
      simp [lineStatement, hc, hc', ih']

end Export

namespace Printed

/-! ### Pages -/

/-- Lines one below the other; a line feed ends the last one if `ended` says so. -/
def page (ended : Bool) : List (List Char) → List Char
  | [] => []
  | [line] => line ++ (if ended then ['\n'] else [])
  | line :: next :: more => line ++ '\n' :: page ended (next :: more)

/-- What the statements of a page give: `give offset line` says what one gives that begins at
`offset` in line `line`. -/
def gather {σ β : Type} (text : σ → List Char) (give : Nat → Nat → σ → List β) :
    (offset line : Nat) → List σ → List β
  | _, _, [] => []
  | offset, line, statement :: more =>
    give offset line statement ++
      gather text give (offset + (text statement).length + 1) (line + 1) more

theorem map_gather {σ β γ : Type} {text : σ → List Char} {give : Nat → Nat → σ → List β} (f : β → γ)
    (offset line : Nat) (statements : List σ) :
    (gather text give offset line statements).map f =
      gather text (fun o l s => (give o l s).map f) offset line statements := by
  induction statements generalizing offset line with
  | nil => rfl
  | cons s more ih => rw [gather, gather, List.map_append, ih]

/-- **A page is read line by line.**  If each statement gives what it should where it stands in the
page, the scan for its keyword gives this for all of them, in order and once. -/
theorem flatMap_scan_page {σ β : Type} {keyword : String} (hne : keyword.toList ≠ [])
    (hkeyword : ∀ x ∈ keyword.toList, isWord x = true ∧ isPadding x = false)
    {text : σ → List Char} (hhead : ∀ s, keyword.toList ++ [' '] <+: text s)
    (hline : ∀ s, '\n' ∉ text s) {ended : Bool} {whole : List Char} {f : Find Cursor → List β}
    {give : Nat → Nat → σ → List β}
    (hgive : ∀ (pre t : List Char) (s : σ) (stop : Cursor), whole = pre ++ (text s ++ t) →
      Stops (· != '\n') t →
      f ⟨pre.length, ⟨pre.getLast?, text s ++ t⟩, stop, ⟨pre.getLast?, text s ++ t⟩⟩ =
        give pre.length (pre.count '\n' + 1) s)
    (statements : List σ) {pre : List Char} (hpre : pre.getLast?.all (· == '\n') = true)
    (hwhole : whole = pre ++ page ended (statements.map text)) :
    (scan (keywordAtLineStart keyword) Find.stopOffset pre.length 0 pre.getLast?
        (page ended (statements.map text))).flatMap f =
      gather text give pre.length (pre.count '\n' + 1) statements := by
  have honly := onlyAtLineStart_keywordAtLineStart keyword
  -- induction on the statements that are left; `pre` is what was read before them
  induction statements generalizing pre with
  | nil => simp [page, gather, scan_keyword_nil hne]
  | cons s more ih =>
      cases more with
      | nil =>
          simp only [List.map_cons, List.map_nil, page] at hwhole ⊢
          have hstops : Stops (· != '\n') (if ended then ['\n'] else []) := by
            cases ended <;> simp
          obtain ⟨y, stop, hy, hscan⟩ := scan_keyword_line pre.length
            (if ended then ['\n'] else []) hpre hne hkeyword (hhead s) (hline s)
          have hnothing : scan (keywordAtLineStart keyword) Find.stopOffset
              (pre.length + (text s).length) 0 (some y) (if ended then ['\n'] else []) = [] := by
            cases ended with
            | false => exact scan_text_end honly _ _ hy
            | true => simp [scan_line_end honly _ _ hy, scan_keyword_nil hne]
          rw [hscan, hnothing, List.flatMap_cons, hgive pre _ s stop hwhole hstops]
          rfl
      | cons next more =>
          simp only [List.map_cons, page] at hwhole ⊢
          obtain ⟨y, stop, hy, hscan⟩ := scan_keyword_line pre.length
            ('\n' :: page ended (text next :: more.map text)) hpre hne hkeyword (hhead s) (hline s)
          have hpre' : pre.length + (text s).length + 1 = (pre ++ (text s ++ ['\n'])).length := by
            simp only [List.length_append, List.length_singleton]
            omega
          have hlast : (pre ++ (text s ++ ['\n'])).getLast? = some '\n' := by
            rw [← List.append_assoc, List.getLast?_concat]
          have hcount : (pre ++ (text s ++ ['\n'])).count '\n' = pre.count '\n' + 1 := by
            simp [List.count_eq_zero.2 (hline s)]
          have ih' := @ih (pre ++ (text s ++ ['\n'])) (by rw [hlast]; rfl) (by simp [hwhole])
          rw [hcount, hlast, ← hpre'] at ih'
          rw [hscan, List.flatMap_cons, hgive pre _ s stop hwhole (by simp),
            scan_line_end honly _ _ hy]
          exact congrArg _ ih'

/-- The same for a scan of the whole page. -/
theorem flatMap_findAll_page {σ β : Type} (keyword : String) (hne : keyword.toList ≠ [])
    (hkeyword : keyword.toList.all (fun x => isWord x && !isPadding x) = true)
    {text : σ → List Char} (hhead : ∀ s, keyword.toList ++ [' '] <+: text s)
    (hline : ∀ s, '\n' ∉ text s) {ended : Bool} {f : Find Cursor → List β}
    {give : Nat → Nat → σ → List β} (statements : List σ)
    (hgive : ∀ (pre t : List Char) (s : σ) (stop : Cursor),
      page ended (statements.map text) = pre ++ (text s ++ t) → Stops (· != '\n') t →
      f ⟨pre.length, ⟨pre.getLast?, text s ++ t⟩, stop, ⟨pre.getLast?, text s ++ t⟩⟩ =
        give pre.length (pre.count '\n' + 1) s) :
    (findAll (keywordAtLineStart keyword) (page ended (statements.map text))).flatMap f =
      gather text give 0 1 statements := by
  have hletters : ∀ x ∈ keyword.toList, isWord x = true ∧ isPadding x = false := by
    simpa using hkeyword
  exact @flatMap_scan_page _ _ _ hne hletters _ hhead hline _ _ _ _ hgive statements [] rfl rfl

/-- A statement that fills a line has that line as its extent. -/
theorem extent_line {file : SourceFile} {pre line t : List Char}
    (hfile : file.text = pre ++ (line ++ t)) (hline : '\n' ∉ line) (hne : line ≠ []) :
    file.extent pre.length (pre.length + line.length - 1) =
      ⟨pre.count '\n' + 1, pre.count '\n' + 1⟩ := by
  have hlen : 0 < line.length := List.length_pos_iff.2 hne
  have hnumber : ∀ k ≤ line.length,
      lineNumber file.text (pre.length + k : Nat) = pre.count '\n' + 1 := by
    intro k hk
    have hcount : (line.take k).count '\n' = 0 :=
      List.count_eq_zero.2 fun h => hline (List.mem_of_mem_take h)
    rw [hfile, lineNumber_append, lineNumber, clamp_natCast,
      Nat.min_eq_left (by simp only [List.length_append]; omega), List.take_append_of_le_length hk,
      hcount]
  have hlast : (pre.length + line.length - 1 : Int) = (pre.length + (line.length - 1) : Nat) := by
    omega
  rw [hlast, SourceFile.extent_natCast, hnumber (line.length - 1) (by omega)]
  congr 1
  exact hnumber 0 (Nat.zero_le _)

/-! ### Parts of statements -/

/-- The name of a module, with the quote it is written in. -/
structure ModuleName where
  quote : Char
  content : List Char
  isQuote_quote : isQuote quote = true
  content_ne_nil : content ≠ []
  quote_not_mem : quote ∉ content
  newline_not_mem : '\n' ∉ content

namespace ModuleName

/-- The literal: the name between two quotes. -/
def text (source : ModuleName) : List Char :=
  [source.quote] ++ (source.content ++ [source.quote])

theorem newline_not_mem_text (source : ModuleName) : '\n' ∉ source.text := by
  have hquote : '\n' ≠ source.quote := by
    intro h
    have := source.isQuote_quote
    rw [← h] at this
    exact absurd this (by decide)
  simp [text, hquote, source.newline_not_mem]

theorem isBlank_quote (source : ModuleName) : isBlank source.quote = false := by
  have h := source.isQuote_quote
  simp only [isQuote, Bool.or_eq_true, beq_iff_eq] at h
  rcases h with h | h <;> rw [h] <;> decide

theorem takes_text (source : ModuleName) (t : List Char) :
    Takes literal source.text t (·.text = source.content) :=
  takes_literal source.isQuote_quote source.content_ne_nil source.quote_not_mem
    source.newline_not_mem

theorem stops_isBlank_text (source : ModuleName) (t : List Char) :
    Stops isBlank (source.text ++ t) := by
  simpa [text] using source.isBlank_quote

/-- No name begins with a quote. -/
theorem stops_text_of_isQuote {test : Char → Bool} (source : ModuleName) (t : List Char)
    (h : ∀ x, isQuote x = true → test x = false) : Stops test (source.text ++ t) := by
  simpa [text] using h source.quote source.isQuote_quote

end ModuleName

/-- The semicolon at the end of a statement, or nothing. -/
def ending (semicolon : Bool) : List Char :=
  if semicolon then [';'] else []

theorem takes_optionalSemicolon (semicolon : Bool) {t : List Char} (ht : Stops (· != '\n') t) :
    Takes optionalSemicolon (ending semicolon) t fun _ => True := by
  cases semicolon with
  | true =>
      have hword : Takes (do padding; word ";") [';'] t fun _ => True :=
        Takes.bind_nil (takes_many (by simp) (by simp [isPadding])) fun _ _ => takes_word ";" t
      exact hword.optional.map fun _ _ => trivial
  | false =>
      have hpadding : Stops isPadding t := ht.mono fun x hx => by
        rcases Bool.or_eq_true_iff.1 hx with h | h <;> simp [beq_iff_eq.1 h]
      have hsemicolon : Stops (· == ';') t := ht.mono fun x hx => by simp [beq_iff_eq.1 hx]
      have hrefuses : Refuses (do padding; word ";") t := by
        refine refuses_many_bind (s := []) hpadding fun u v huv => ?_
        obtain ⟨-, rfl⟩ := List.append_eq_nil_iff.1 huv.symm
        exact refuses_word_of_head ';' rfl hsemicolon
      exact hrefuses.optional.map fun _ _ => trivial

/-- A list goes up to the first closing brace. -/
theorem takes_braceList {names : List Char} (hnames : '\x7d' ∉ names) (t : List Char) :
    Takes braceList ("\x7b".toList ++ (names ++ "\x7d".toList)) t (·.text = names) := by
  have hrun : ∀ x ∈ names, (x != '\x7d') = true := by
    intro x hx
    simp only [bne_iff_ne, ne_eq]
    rintro rfl
    exact hnames hx
  refine (takes_word _ _).bind fun _ _ => ?_
  refine (takes_many hrun (by simp)).captured.bind fun capture hcapture => ?_
  exact (takes_word _ t).map fun _ _ => hcapture

/-- `from`, a module and perhaps a semicolon. -/
def fromText (source : ModuleName) (semicolon : Bool) : List Char :=
  "from".toList ++ ([' '] ++ (source.text ++ ending semicolon))

theorem fromText_eq (source : ModuleName) (semicolon : Bool) :
    fromText source semicolon = "from".toList ++ ([' '] ++ (source.text ++ ending semicolon)) := rfl

theorem takes_fromModule (source : ModuleName) (semicolon : Bool) {t : List Char}
    (ht : Stops (· != '\n') t) :
    Takes Import.fromModule (fromText source semicolon) t (· = String.ofList source.content) := by
  refine (takes_word _ _).bind fun _ _ => ?_
  refine (takes_blanks_space ?_).bind fun _ _ => ?_
  · rw [List.append_assoc]
    exact source.stops_isBlank_text _
  refine (source.takes_text _).bind fun capture hcapture => ?_
  exact (takes_optionalSemicolon semicolon ht).map fun _ _ => by rw [hcapture]

theorem stops_fromText {test : Char → Bool} (h : test 'f' = false) (source : ModuleName)
    (semicolon : Bool) (t : List Char) : Stops test (fromText source semicolon ++ t) := by
  simpa [fromText_eq] using h

theorem newline_not_mem_ending (semicolon : Bool) : '\n' ∉ ending semicolon := by
  cases semicolon <;> decide

theorem newline_not_mem_fromText (source : ModuleName) (semicolon : Bool) :
    '\n' ∉ fromText source semicolon := by
  simp [fromText_eq, source.newline_not_mem_text, newline_not_mem_ending]

/-- A statement that ends with a literal and perhaps a semicolon has no blanks to be trimmed. -/
theorem trimRight_append_ending (s : List Char) (source : ModuleName) (semicolon : Bool) :
    trimRight (s ++ (source.text ++ ending semicolon)) = s ++ (source.text ++ ending semicolon) := by
  cases semicolon with
  | true =>
      have h := trimRight_concat (by decide : isBlank ';' = false) (s ++ source.text)
      simpa [ending] using h
  | false =>
      have h := trimRight_concat source.isBlank_quote (s ++ ([source.quote] ++ source.content))
      simpa [ending, ModuleName.text] using h

end Printed

end SourceOutline
