/-
**Finds with and without carriage returns.**

A scan of the text with carriage returns comes by more places, those between a carriage return and
its line feed.  Nothing new is found there: a head found there takes in the line feed with its
comment, and would have taken in the carriage return as well.  So the scan finds what the scan of
the text without carriage returns finds, at the offsets that these finds move to.

Main definitions:

* `Pattern.Find.Mirrored` — the same find in the text with carriage returns.

Main results:

* `Pattern.Cursor.StandsAt.crlf` — where a place stands then;
* `Pattern.forall₂_scan_crlf` — **a scan finds the same**;
* `forall₂_keywordFinds_crlf`, `Declaration.forall₂_headFinds_crlf`,
  `Declaration.forall₂_methodFinds_crlf` — the scans of the library.
-/

import SourceOutline.Proofs.MirroredStatements

set_option autoImplicit false

namespace SourceOutline

open Text Pattern

namespace Pattern

variable {α : Type}

/-- A place moves on with its offset. -/
theorem Cursor.StandsAt.crlf {c : Cursor} {text : List Char} {offset : Nat}
    (h : c.StandsAt text offset) : c.crlf.StandsAt (Text.crlf text) (crlfOffset text offset) where
  le_length := crlfOffset_le_length text offset
  rest_eq := by rw [drop_crlf, ← h.rest_eq]; rfl
  before_eq := by rw [take_crlf, getLast?_crlf, ← h.before_eq]; rfl

/-- The same find in the text with carriage returns. -/
structure Find.Mirrored (R : α → α → Prop) (text : List Char) (f g : Find α) : Prop where
  standsAt : f.start.StandsAt text f.offset
  offset_eq : g.offset = crlfOffset text f.offset
  start_eq : g.start = f.start.crlf
  stop_eq : g.stop = f.stop.crlf
  value : R f.value g.value

namespace Find.Mirrored
variable {R : α → α → Prop} {text : List Char} {f g : Find α}

/-- A place that the find reaches moves on with it. -/
theorem offsetOf_eq (h : f.Mirrored R text g) {place : Cursor} (hreach : f.start.Reaches place) :
    g.offsetOf place.crlf = crlfOffset text (f.offsetOf place) := by
  obtain ⟨s, hs⟩ := hreach
  have hplace := (standsAt_offsetOf h.standsAt hs).crlf
  have hreads : g.start.Reads (crlf s) place.crlf := by
    rw [h.start_eq]
    refine ⟨?_, ?_⟩
    · simp only [Cursor.crlf, hs.1, crlf_append]
    · simp only [Cursor.crlf, hs.2, getLast?_crlf]
  have hstart : g.start.StandsAt (crlf text) g.offset := by
    rw [h.start_eq, h.offset_eq]
    exact h.standsAt.crlf
  exact (standsAt_offsetOf hstart hreads).offset_unique hplace

theorem stopOffset_eq (h : f.Mirrored R text g) (hreach : f.start.Reaches f.stop) :
    g.stopOffset = crlfOffset text f.stopOffset := by
  have hstop := h.offsetOf_eq hreach
  rw [← h.stop_eq] at hstop
  exact hstop

end Find.Mirrored

/-! ### Scans -/

theorem scan_of_first?_eq_none {p : Pattern α} {resume : Find α → Nat} {before : Option Char}
    {x : Char} {rest : List Char} (h : p.first? ⟨before, x :: rest⟩ = none) (pos : Nat) :
    scan p resume pos 0 before (x :: rest) = scan p resume (pos + 1) 0 (some x) rest := by
  simp only [scan, h]

section
variable {p : Pattern α} {R : α → α → Prop} {resume resume' : Find α → Nat} {text : List Char}

/-- **A scan finds the same in the text with carriage returns**, if the pattern does so at each
place and finds nothing new within a line end, and if both scans go on at the same places. -/
theorem forall₂_scan_crlf (hreturn : '\r' ∉ text)
    (hfirst : ∀ c : Cursor, '\r' ∉ c.rest →
      Option.Rel (fun x y => R x.1 y.1 ∧ y.2 = x.2.crlf) (p.first? c) (p.first? c.crlf))
    (hwithin : ∀ before rest, p.first? ⟨before, '\r' :: '\n' :: rest⟩ = none →
      p.first? ⟨some '\r', '\n' :: rest⟩ = none)
    (hresume : ∀ f g, f.Mirrored R text g → p.first? f.start = some (f.value, f.stop) →
      f.offset < resume f ∧ resume f ≤ text.length ∧ resume' g = crlfOffset text (resume f))
    (rest : List Char) (pos skip : Nat) (before : Option Char)
    (hplace : Cursor.StandsAt ⟨before, rest⟩ text pos) (hskip : skip ≤ rest.length) :
    List.Forall₂ (Find.Mirrored R text) (scan p resume pos skip before rest)
      (scan p resume' (crlfOffset text pos) (crlfOffset rest skip) before (crlf rest)) := by
  induction rest generalizing pos skip before with
  | nil =>
      obtain rfl : skip = 0 := Nat.le_zero.1 hskip
      have hhere := hfirst ⟨before, []⟩ (by simp)
      simp only [crlfOffset_zero, crlf_nil, scan]
      cases hp : p.first? ⟨before, []⟩ with
      | none => exact .nil
      | some found =>
          rw [hp] at hhere
          obtain ⟨found', hfound', hvalue, hstop⟩ := exists_of_rel_some hhere
          obtain rfl : found = found' := Option.some.inj (hp.symm.trans hfound')
          exact .cons ⟨hplace, rfl, rfl, hstop, hvalue⟩ .nil
  | cons x rest ih =>
      have hdrop : text.drop pos = x :: rest := hplace.rest_eq.symm
      have hnext : Cursor.StandsAt ⟨some x, rest⟩ text (pos + 1) := hplace.next
      cases skip with
      | succ skip =>
          have hrest := ih (pos + 1) skip (some x) hnext (by simpa using hskip)
          by_cases hx : x = '\n'
          · subst hx
            rw [crlfOffset_newline_step hdrop] at hrest
            exact hrest
          · rw [crlfOffset_succ hx hdrop] at hrest
            rw [crlf_cons hx, crlfOffset_cons_succ rest hx]
            exact hrest
      | zero =>
          have hinline : '\r' ∉ x :: rest := fun h => hreturn (List.mem_of_mem_drop (hdrop ▸ h))
          have hhere := hfirst ⟨before, x :: rest⟩ hinline
          cases hp : p.first? ⟨before, x :: rest⟩ with
          | none =>
              rw [hp] at hhere
              have hnone := eq_none_of_rel_none hhere
              have hrest := ih (pos + 1) 0 (some x) hnext (Nat.zero_le _)
              rw [crlfOffset_zero] at hrest
              rw [scan_of_first?_eq_none hp, crlfOffset_zero]
              by_cases hx : x = '\n'
              · subst hx
                rw [Cursor.crlf, crlf_newline_cons] at hnone
                rw [crlf_newline_cons, scan_of_first?_eq_none hnone,
                  scan_of_first?_eq_none (hwithin _ _ hnone)]
                rwa [crlfOffset_newline_step hdrop] at hrest
              · rw [Cursor.crlf, crlf_cons hx] at hnone
                rw [crlf_cons hx, scan_of_first?_eq_none hnone]
                rwa [crlfOffset_succ hx hdrop] at hrest
          | some found =>
              rw [hp] at hhere
              obtain ⟨found', hfound', hvalue, hstop⟩ := exists_of_rel_some hhere
              have hmirrored : Find.Mirrored R text ⟨pos, ⟨before, x :: rest⟩, found.2, found.1⟩
                  ⟨crlfOffset text pos, ⟨before, crlf (x :: rest)⟩, found'.2, found'.1⟩ :=
                ⟨hplace, rfl, rfl, hstop, hvalue⟩
              obtain ⟨hlt, hle, hsame⟩ := hresume _ _ hmirrored hp
              -- the scans go on behind the character here and `k` further ones
              obtain ⟨k, hk⟩ := Nat.exists_eq_add_of_lt hlt
              simp only at hk
              have hdrop' : text.drop (pos + 1) = rest := hnext.rest_eq.symm
              have hk' : k ≤ rest.length := by
                rw [← hdrop', List.length_drop]
                omega
              have hrest := ih (pos + 1) k (some x) hnext hk'
              rw [hk, Nat.add_right_comm pos k 1, crlfOffset_add, hdrop'] at hsame
              rw [scan_of_first? hp, hk, crlfOffset_zero, show pos + k + 1 - (pos + 1) = k by omega]
              by_cases hx : x = '\n'
              · subst hx
                rw [crlfOffset_newline_step hdrop] at hsame hrest
                rw [Cursor.crlf, crlf_newline_cons] at hfound'
                rw [crlf_newline_cons] at hmirrored hsame ⊢
                have hskip : crlfOffset text pos + 2 + crlfOffset rest k -
                    (crlfOffset text pos + 1) = crlfOffset rest k + 1 := by omega
                rw [scan_of_first? hfound', hsame, hskip]
                exact .cons hmirrored hrest
              · rw [crlfOffset_succ hx hdrop] at hsame hrest
                rw [Cursor.crlf, crlf_cons hx] at hfound'
                rw [crlf_cons hx] at hmirrored hsame ⊢
                rw [scan_of_first? hfound', hsame, Nat.add_sub_cancel_left]
                exact .cons hmirrored hrest

/-- **A scan for finds that do not overlap finds the same.** -/
theorem forall₂_findAll_crlf (hreturn : '\r' ∉ text) (hmirrors : Mirrors .exact .exact R p p)
    (hadvances : Advances p)
    (hwithin : ∀ before rest, p.first? ⟨before, '\r' :: '\n' :: rest⟩ = none →
      p.first? ⟨some '\r', '\n' :: rest⟩ = none) :
    List.Forall₂ (Find.Mirrored R text) (findAll p text) (findAll p (crlf text)) := by
  refine forall₂_scan_crlf hreturn (fun c hc => hmirrors.first? hc) hwithin ?_ text 0 0 none
    (Cursor.standsAt_ofText text) (Nat.zero_le _)
  intro f g hmirrored hfirst
  have hmem := List.mem_of_head? hfirst
  have hlt := hadvances _ _ hmem
  refine ⟨?_, (Find.standsAt_stopOffset hmirrored.standsAt hmem).le_length,
    hmirrored.stopOffset_eq (reaches_of_mem_outcomes p _ _ hmem)⟩
  simp only [Find.stopOffset, Cursor.gap] at hlt ⊢
  omega

end

end Pattern

/-! ### Keywords -/

/-- **The keywords that begin lines are found again.** -/
theorem forall₂_keywordFinds_crlf {keyword : String} (hkeyword : Inline keyword.toList)
    {text : List Char} (hreturn : '\r' ∉ text) :
    List.Forall₂ (Find.Mirrored (fun a b => b = a.crlf) text)
      (findAll (keywordAtLineStart keyword) text)
      (findAll (keywordAtLineStart keyword) (crlf text)) := by
  refine forall₂_findAll_crlf hreturn (mirrors_keywordAtLineStart hkeyword)
    (advances_keywordAtLineStart hkeyword.1) fun _ rest _ => ?_
  exact (onlyAtLineStart_keywordAtLineStart keyword).first?_eq_none (by decide) _

/-! ### Heads -/

namespace Declaration

variable {α : Type} {p : Pattern α} {R : α → α → Prop} {text : List Char}

/-- What is found within a line end is found in front of it. -/
theorem outcomes_header_within (hp : Opens p (!isBlank ·)) (before : Option Char)
    (rest : List Char) :
    (header p).outcomes ⟨some '\r', '\n' :: rest⟩ =
      (header p).outcomes ⟨before, '\r' :: '\n' :: rest⟩ := by
  rw [outcomes_header_cons rfl rfl hp, outcomes_header_cons rfl rfl hp, commented, commented,
    outcomes_comment_cons rfl rfl]

/-- **The heads of declarations are found again.** -/
theorem forall₂_headFinds_crlf (hreturn : '\r' ∉ text) (hp : Mirrors .exact .exact R p p)
    (hopens : Opens p (!isBlank ·)) :
    List.Forall₂ (Find.Mirrored (Header.Same R) text) (findAll (header p) text)
      (findAll (header p) (crlf text)) := by
  refine forall₂_findAll_crlf hreturn (mirrors_header hp hopens) (advances_header hopens)
    fun before rest hnone => ?_
  rwa [Pattern.first?, outcomes_header_within hopens before]

section
variable {f g : Find (Header α)} (h : f.Mirrored (Header.Same R) text g)
  (hmem : (f.value, f.stop) ∈ (header p).outcomes f.start)
include h hmem

/-- A head moves on with its offset. -/
theorem headOffset_crlf : g.headOffset = crlfOffset text f.headOffset := by
  have hhead := h.offsetOf_eq (reads_of_mem_outcomes_header hmem).1
  rw [← h.value.start_eq] at hhead
  exact hhead

/-- So does the end of its body. -/
theorem bodyEnd?_crlf (hends : EndsWith p '\x7b') :
    bodyEnd? (crlf text) g = (bodyEnd? text f).map (crlfOffset text) := by
  have hplaced := Find.placed h.standsAt hmem
  obtain ⟨hlt, hdrop⟩ := hplaced.exists_last hends
  have hstop : g.stopOffset - 1 = crlfOffset text (f.stopOffset - 1) := by
    have hsucc := crlfOffset_succ (by decide) hdrop
    rw [show f.stopOffset - 1 + 1 = f.stopOffset by omega] at hsucc
    rw [h.stopOffset_eq (reaches_of_mem_outcomes _ _ _ hmem), hsucc, Nat.add_sub_cancel]
  rw [bodyEnd?, bodyEnd?, hstop, closingBrace?_crlf]

end

theorem crlfOffset_closing {start close : Nat} (h : closingBrace? text start = some close) :
    crlfOffset text (close + 1) = crlfOffset text close + 1 := by
  obtain ⟨-, hlt, hbrace⟩ := closingBrace?_bounds h
  have hdrop : text.drop close = '\x7d' :: text.drop (close + 1) := by
    rw [List.getElem?_eq_getElem hlt, Option.some.injEq] at hbrace
    rw [List.drop_eq_getElem_cons hlt, hbrace]
  exact crlfOffset_succ (by decide) hdrop

/-- **The heads of methods are found again.** -/
theorem forall₂_methodFinds_crlf {body : List Char} (hreturn : '\r' ∉ body) :
    List.Forall₂ (Find.Mirrored (Header.Same MethodHead.Same) body) (methodFinds body)
      (methodFinds (crlf body)) := by
  refine forall₂_scan_crlf hreturn
    (fun c hc => (mirrors_header mirrors_methodHead opens_methodHead).first? hc)
    (fun before rest hnone => ?_) ?_ body 0 0 none (Cursor.standsAt_ofText body) (Nat.zero_le _)
  · rwa [Pattern.first?, outcomes_header_within opens_methodHead before]
  · intro f g hmirrored hfirst
    have hmem := List.mem_of_head? hfirst
    have hstop := hmirrored.stopOffset_eq (reaches_of_mem_outcomes _ _ _ hmem)
    obtain ⟨hlt, hle⟩ := lt_resumeOffset hmirrored.standsAt hfirst
    refine ⟨hlt, hle, ?_⟩
    rw [resumeOffset, resumeOffset, hmirrored.value.parts.name_eq,
      bodyEnd?_crlf hmirrored hmem endsWith_methodHead]
    split
    · exact hstop
    · cases hclose : bodyEnd? body f with
      | none => exact hstop
      | some close => exact (crlfOffset_closing hclose).symm

end Declaration

end SourceOutline
