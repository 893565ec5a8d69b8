/-
**Keys of records.**

A record is known by its file, its kind, its class, its name and its first line.  Classes and
functions begin a line each, so their keys differ.  A method need not begin a line, since it may
follow the brace of its class; but then no other method stands in this line.  What remains is a
method that is found twice: the body of a class is searched for methods with all the classes in it,
so a method of an inner class is listed for the outer class as well.  If both classes have one name,
both records have one key.

Main definitions:

* `Element.Key`, `Element.key` — what a record is known by;
* `Declaration.MethodAt` — a method of a class, at an offset of the file.

Main results:

* `Declaration.MethodAt.start_eq_of_line` — **a line holds at most one head of a method**;
* `Declaration.MethodAt.same_method` — methods that begin at one offset are one method;
* `keys_repeat_iff` — **two records have one key exactly if they are one method**, listed for two
  classes of one name, the one inside the other;
* `keys_repeat_nested` — such a method.
-/

import SourceOutline.Proofs.ClassNesting
import SourceOutline.Proofs.MethodBlocks
import SourceOutline.Proofs.MethodHeads

set_option autoImplicit false

namespace SourceOutline

open Text Pattern

/-! ### Methods of a file -/

namespace Pattern.Cursor

/-- A head of a line of a part of a text heads a line of the text, or only spaces and tabs stand
before it in that part. -/
theorem HeadsLine.of_range {c : Cursor} {text : List Char} {base stop k : Nat}
    (h : c.HeadsLine (range text base stop) k) :
    (∃ c', HeadsLine c' text (base + k)) ∨
      ∀ x ∈ range text base (base + k), isPadding x = true := by
  obtain ⟨line, start, pad, hline, hbefore, hpadding, hpad, rfl⟩ := h
  have hbegins : pad <+: text.drop (base + start) := by
    refine List.IsPrefix.trans ?_ (drop_range_begins text base stop start)
    rw [← hline.rest_eq, hpad.1]
    exact List.prefix_append _ _
  rcases Nat.eq_zero_or_pos start with rfl | hpos
  · right
    rw [Nat.add_zero] at hbegins
    rw [Nat.zero_add, range_eq_of_prefix hbegins]
    exact hpadding
  · left
    have hlast := hline.getLast?_take hpos hbefore
    have hle := hline.le_length
    rw [range, List.length_take, List.length_drop] at hle
    have hplace := standsAt_drop (show base + start ≤ text.length by omega)
    have hnewline : (text.take (base + start)).getLast? = some '\n' := by
      rw [range, List.take_take, Nat.min_eq_left (by omega)] at hlast
      rw [List.take_add, List.getLast?_append, hlast]
      rfl
    obtain ⟨t, ht⟩ := hbegins
    refine ⟨⟨pad.getLast?.or (some '\n'), t⟩, _, base + start, pad, hplace, ?_, hpadding, ?_,
      (Nat.add_assoc _ _ _).symm⟩
    · rw [hnewline]
      rfl
    · exact ⟨ht.symm, by rw [hnewline]⟩

end Pattern.Cursor

namespace Declaration

/-- The element is a method of the body behind the head of a class; its own head stands at `start`,
at the head of a line or behind nothing but the brace of the class. -/
structure MethodAt (file : SourceFile) (cls : Find (Header Capture)) (start : Nat)
    (head : Written.MethodHead) (m : Element) : Prop where
  path_eq : m.path = file.path
  kind_eq : m.kind = .method
  name_eq : m.name = .ofList head.name.text
  first_eq : m.extent.first = lineNumber file.text start
  span_eq : ∃ close, closingBrace? file.text (start + head.text.length - 1) = some close ∧
    m.span = ⟨start, close + 1⟩
  base_le : cls.stopOffset ≤ start
  begins : head.text <+: file.text.drop start
  stops : Stops isPadding (file.text.drop start)
  place : (∃ c : Cursor, c.HeadsLine file.text start) ∨
    ∀ x ∈ range file.text cls.stopOffset start, isPadding x = true

section
variable {file : SourceFile} {cls : Find (Header Capture)} {close : Nat} {m : Element}

theorem exists_methodAt (hcls : cls ∈ findAll (header classHead) file.text)
    (hclose : bodyEnd? file.text cls = some close)
    (hm : m ∈ Finding.records
      (file.methodFindings (.ofList cls.value.parts.text) cls.stopOffset close)) :
    ∃ start head, MethodAt file cls start head m := by
  rw [SourceFile.records_methodFindings, ← classBody, List.mem_filterMap] at hm
  obtain ⟨find, hfind, hrecord⟩ := hm
  obtain ⟨-, stop, hstop, rfl⟩ := methodRecord?_eq_some_iff.1 hrecord
  have hplaced := placed_of_mem_methodFinds hfind
  obtain ⟨head, hreads, hname⟩ := exists_methodHead hplaced.mem_outcomes
  obtain ⟨-, stop', hstop', hwhole⟩ := exists_bodyEnd? hcls hclose hplaced
  obtain rfl : stop' = stop := Option.some.inj (hstop'.symm.trans hstop)
  rw [classBody_eq_range hcls hclose] at hplaced
  have hbegins : head.text ++ find.stop.rest <+:
      file.text.drop (cls.stopOffset + find.headOffset) := by
    rw [← hplaced.drop_eq hreads]
    exact drop_range_begins _ _ _ _
  have hline : file.lineOf ((cls.stopOffset : Int) + find.headOffset) =
      lineNumber file.text (cls.stopOffset + find.headOffset : Nat) :=
    SourceFile.lineOf_natCast file (cls.stopOffset + find.headOffset)
  refine ⟨cls.stopOffset + find.headOffset, head, rfl, rfl,
    congrArg String.ofList hname, hline, ?_, Nat.le_add_right _ _,
    (List.prefix_append _ _).trans hbegins, ?_, hplaced.headsLine.of_range⟩
  · have hlength := hplaced.stopOffset_eq _ hreads
    have hne := List.length_pos_iff.2 head.text_ne_nil
    refine ⟨cls.stopOffset + stop', ?_, rfl⟩
    rw [← hwhole, hlength]
    congr 1
    omega
  · obtain ⟨t, ht⟩ := hbegins
    rw [← ht]
    refine Stops.append ?_ (by simp [head.text_ne_nil]) t
    have := hplaced.stops_isPadding opens_methodHead
    rwa [hreads.1] at this

end

/-! ### One method in a line -/

/-- The brace that ends the head of a class. -/
theorem standsAt_brace {text : List Char} {cls : Find (Header Capture)}
    (hcls : cls.Placed classHead text) :
    cls.headOffset ≤ cls.stopOffset - 1 ∧
      Cursor.StandsAt ⟨(text.take (cls.stopOffset - 1)).getLast?, '\x7b' :: cls.stop.rest⟩ text
        (cls.stopOffset - 1) := by
  obtain ⟨hpos, hbrace⟩ := hcls.exists_last endsWith_classHead
  refine ⟨by omega, ?_, hbrace.symm, rfl⟩
  have hlength := congrArg List.length hbrace
  rw [List.length_drop, List.length_cons] at hlength
  omega

namespace MethodAt

section
variable {file : SourceFile} {cls cls' : Find (Header Capture)} {start start' : Nat}
  {head head' : Written.MethodHead} {m n : Element}

theorem standsAt (h : MethodAt file cls start head m) :
    Cursor.StandsAt ⟨(file.text.take start).getLast?, file.text.drop start⟩ file.text start := by
  refine Cursor.standsAt_drop ?_
  have := length_le_of_prefix_drop h.begins head.text_ne_nil
  omega

theorem start_eq (h : MethodAt file cls start head m) : m.span.start = start := by
  obtain ⟨close, -, hspan⟩ := h.span_eq
  rw [hspan]

/-- **Methods that begin at one offset are one method.** -/
theorem same_method (h : MethodAt file cls start head m) (h' : MethodAt file cls' start head' n) :
    m.name = n.name ∧ m.span = n.span := by
  obtain ⟨t, ht⟩ := h.begins
  obtain ⟨t', ht'⟩ := h'.begins
  obtain ⟨hfront, htext⟩ := Written.MethodHead.text_unique (ht.trans ht'.symm)
  obtain ⟨close, hclose, hspan⟩ := h.span_eq
  obtain ⟨close', hclose', hspan'⟩ := h'.span_eq
  rw [htext, hclose', Option.some.injEq] at hclose
  constructor
  · rw [h.name_eq, h'.name_eq, Written.MethodHead.name_unique hfront]
  · rw [hspan, hspan', hclose]

/-- The next method of the same body heads a line of its own. -/
theorem lineNumber_lt (h : MethodAt file cls start head m) (h' : MethodAt file cls start' head' n)
    (hlt : start < start') : m.extent.first < n.extent.first := by
  rw [h.first_eq, h'.first_eq]
  rcases h'.place with ⟨c, hheads⟩ | hpadding
  · exact hheads.lineNumber_lt h.standsAt h.stops hlt
  · -- the first head would be indentation
    have hbase := h.base_le
    obtain ⟨x, s, hx⟩ : ∃ x s, file.text.drop start = x :: s := by
      refine List.exists_cons_of_ne_nil fun hnil => ?_
      have hbegins := h.begins
      rw [hnil, List.prefix_nil] at hbegins
      exact head.text_ne_nil hbegins
    have hmem : x ∈ range file.text cls.stopOffset start' := by
      refine List.mem_of_getElem? (i := start - cls.stopOffset) ?_
      rw [range, List.getElem?_take_of_lt (by omega), List.getElem?_drop, Nat.add_sub_cancel' hbase,
        ← List.head?_drop, hx, List.head?_cons]
    have hstops := h.stops
    rw [hx, stops_cons, hpadding x hmem] at hstops
    exact absurd hstops (by decide)

/-- The line of a method that follows the brace of its class is the line of this brace. -/
theorem line_eq_brace (hcls : cls.Placed classHead file.text) (h : MethodAt file cls start head m)
    (hpadding : ∀ x ∈ range file.text cls.stopOffset start, isPadding x = true) :
    lineNumber file.text start = lineNumber file.text (cls.stopOffset - 1 : Nat) := by
  obtain ⟨-, hbrace⟩ := standsAt_brace hcls
  have hpos := (hcls.exists_last endsWith_classHead).1
  have hbase := h.base_le
  have hle := h.standsAt.le_length
  have hafter : file.text.drop (cls.stopOffset - 1) = '\x7b' :: file.text.drop cls.stopOffset := by
    have hrest := hbrace.next.rest_eq
    rw [Nat.sub_add_cancel (by omega)] at hrest
    rw [← hbrace.rest_eq, hrest]
  have hbegins : '\x7b' :: range file.text cls.stopOffset start <+:
      file.text.drop (cls.stopOffset - 1) := by
    rw [hafter, List.cons_prefix_cons]
    exact ⟨rfl, range_prefix_drop _ _ _⟩
  have hline : '\n' ∉ '\x7b' :: range file.text cls.stopOffset start := by
    intro hmem
    rcases List.mem_cons.1 hmem with heq | hmem
    · exact absurd heq (by decide)
    · exact absurd (hpadding _ hmem) (by decide)
  have hlength : cls.stopOffset - 1 + ('\x7b' :: range file.text cls.stopOffset start).length =
      start := by
    rw [List.length_cons, range, List.length_take, List.length_drop]
    omega
  rw [← lineNumber_add_of_not_mem hbegins hline, hlength]

/-- No head of a method heads the line in which the head of a class ends. -/
theorem line_ne_brace (hcls : cls'.Placed classHead file.text)
    (h : MethodAt file cls start head m) {c : Cursor} (hheads : c.HeadsLine file.text start) :
    lineNumber file.text start ≠ lineNumber file.text (cls'.stopOffset - 1 : Nat) := by
  intro hline
  obtain ⟨hhead, hbrace⟩ := standsAt_brace hcls
  have hle : start ≤ cls'.stopOffset - 1 := by
    refine Nat.le_of_not_lt fun hlt => ?_
    have := hheads.lineNumber_lt hbrace (stops_cons.2 (by decide)) hlt
    omega
  have hge : cls'.headOffset ≤ start := by
    refine Nat.le_of_not_lt fun hlt => ?_
    have hfirst := hcls.headsLine.lineNumber_lt h.standsAt h.stops hlt
    have hlast := lineNumber_mono file.text hhead
    omega
  -- so it begins within the head of the class, before its brace
  obtain ⟨classHead, hreads, -⟩ := exists_classHead hcls.mem_outcomes
  have hstop := hcls.stopOffset_eq _ hreads
  have hdrop := hcls.drop_eq hreads
  rw [Written.ClassHead.text, List.length_append, List.length_singleton] at hstop
  rw [Written.ClassHead.text, List.append_assoc, List.singleton_append] at hdrop
  obtain ⟨k, rfl⟩ := Nat.exists_eq_add_of_le hge
  obtain ⟨t, ht⟩ := h.begins
  rw [← List.drop_drop, hdrop, List.drop_append_of_le_length (by omega)] at ht
  refine head.not_begins_of_brace (fun hmem => ?_) ht.symm
  exact classHead.not_mem_front (by decide) (by decide) (List.mem_of_mem_drop hmem)

/-- **A line holds at most one head of a method.** -/
theorem start_eq_of_line (hcls : cls.Placed classHead file.text)
    (hcls' : cls'.Placed classHead file.text) (hlt : cls.stopOffset ≤ cls'.headOffset)
    (h : MethodAt file cls start head m) (h' : MethodAt file cls' start' head' n)
    (hline : m.extent.first = n.extent.first) : start = start' := by
  rw [h.first_eq, h'.first_eq] at hline
  rcases h.place with ⟨c, hheads⟩ | hpadding
  · rcases h'.place with ⟨c', hheads'⟩ | hpadding'
    · refine hheads.unique hheads' ?_ ?_ hline
      · exact hheads.standsAt.rest_eq ▸ h.stops
      · exact hheads'.standsAt.rest_eq ▸ h'.stops
    · have hbrace := h'.line_eq_brace hcls' hpadding'
      exact absurd (hline.trans hbrace) (h.line_ne_brace hcls' hheads)
  · have hbrace := h.line_eq_brace hcls hpadding
    rcases h'.place with ⟨c', hheads'⟩ | hpadding'
    · exact absurd (hline.symm.trans hbrace) (h'.line_ne_brace hcls hheads')
    · -- the second class heads a later line than that of the first brace
      have hbrace' := h'.line_eq_brace hcls' hpadding'
      obtain ⟨hhead, hplace⟩ := standsAt_brace hcls
      obtain ⟨hhead', -⟩ := standsAt_brace hcls'
      have hpos := (hcls.exists_last endsWith_classHead).1
      have hfirst := hcls'.headsLine.lineNumber_lt hplace (stops_cons.2 (by decide)) (by omega)
      have hlast := lineNumber_mono file.text hhead'
      omega

end

end MethodAt

end Declaration

/-! ### Keys -/

/-- What a record is known by. -/
structure Element.Key where
  path : String
  kind : ElementKind
  className : Option String
  name : String
  line : Nat
  deriving DecidableEq, Repr

/-- The key of a record. -/
def Element.key (e : Element) : Element.Key :=
  ⟨e.path, e.kind, e.className, e.name, e.extent.first⟩

/-- How two records of an outline with the given classes compare.  They have one key exactly if they
are one method, listed for two classes of one name; and one of these classes is inside the other,
with the method in both. -/
structure Element.KeysCompare (classes : List Element) (e f : Element) : Prop where
  key_eq_iff : e.key = f.key ↔
    e.kind = .method ∧ f.kind = .method ∧ e.className = f.className ∧ e.span = f.span
  nested_of_key_eq : e.key = f.key → ∃ outer ∈ classes, ∃ inner ∈ classes,
    e.className = some outer.name ∧ inner.name = outer.name ∧
      inner.InBodyOf outer ∧ e.InBodyOf inner

section
variable {classes : List Element} {e f : Element}

theorem Element.KeysCompare.of_ne (hkey : e.key ≠ f.key)
    (hmethods : e.kind = .method → f.kind = .method → e.span ≠ f.span) :
    e.KeysCompare classes f where
  key_eq_iff := ⟨fun h => absurd h hkey, fun ⟨he, hf, _, hspan⟩ => absurd hspan (hmethods he hf)⟩
  nested_of_key_eq h := absurd h hkey

theorem Element.KeysCompare.of_kind_ne (h : e.kind ≠ f.kind) : e.KeysCompare classes f :=
  .of_ne (fun hkey => h (congrArg Key.kind hkey)) fun he hf => absurd (he.trans hf.symm) h

theorem Element.KeysCompare.of_line_lt (hline : e.extent.first < f.extent.first)
    (hspan : e.kind = .method → f.kind = .method → e.span ≠ f.span) : e.KeysCompare classes f :=
  .of_ne (fun hkey => Nat.ne_of_lt hline (congrArg Key.line hkey)) hspan

end

/-- Heads stand in different lines. -/
theorem pairwise_headLines {α : Type} {p : Pattern α} {x : Char} (hp : EndsWith p x)
    (hopens : Opens p (!isBlank ·)) (text : List Char) :
    (findAll (Declaration.header p) text).Pairwise fun f g =>
      lineNumber text f.headOffset < lineNumber text g.headOffset := by
  refine (pairwise_headFinds hp text).imp_of_mem fun {f g} hf hg hlt => ?_
  have hplaced := placed_of_mem_findAll hf
  exact (placed_of_mem_findAll hg).headsLine.lineNumber_lt hplaced.headsLine.standsAt
    (hplaced.stops_isPadding hopens) hlt

namespace Declaration

section
variable {file : SourceFile} {c c' : Find (Header Capture)} {g g' : ClassGroup}

/-- The methods of one class have different keys. -/
theorem keysCompare_methods (hc : c ∈ findAll (header classHead) file.text)
    (hg : group? file c = some g) (classes : List Element) :
    g.methods.Pairwise (Element.KeysCompare classes) := by
  have hplaced := wellPlaced_of_group? hc hg
  refine hplaced.apart.imp_of_mem fun {m n} hm hn hapart => ?_
  have hlt := (hplaced.inside m hm).2.1
  obtain ⟨close, hclose, rfl⟩ := Option.map_eq_some_iff.1 hg
  obtain ⟨start, head, hmethod⟩ := exists_methodAt hc hclose hm
  obtain ⟨start', head', hmethod'⟩ := exists_methodAt hc hclose hn
  have hstart := hmethod.start_eq
  have hstart' := hmethod'.start_eq
  refine .of_line_lt (hmethod.lineNumber_lt hmethod' (by omega)) fun _ _ hspan => ?_
  rw [hspan] at hlt hapart
  omega

/-- Methods of two classes have one key exactly if they are one method and the classes have one
name; the second class is then inside the first. -/
theorem keysCompare_method (hc : c ∈ findAll (header classHead) file.text)
    (hc' : c' ∈ findAll (header classHead) file.text) (hlt : c.stopOffset ≤ c'.offset)
    (hg : group? file c = some g) (hg' : group? file c' = some g') {m n : Element}
    (hm : m ∈ g.methods) (hn : n ∈ g'.methods) :
    m.KeysCompare file.outline.value.classes n := by
  have hplaced := wellPlaced_of_group? hc hg
  have hplaced' := wellPlaced_of_group? hc' hg'
  obtain ⟨close, hclose, rfl⟩ := Option.map_eq_some_iff.1 hg
  obtain ⟨close', hclose', rfl⟩ := Option.map_eq_some_iff.1 hg'
  obtain ⟨start, head, hmethod⟩ := exists_methodAt hc hclose hm
  obtain ⟨start', head', hmethod'⟩ := exists_methodAt hc' hclose' hn
  have hstart := hmethod.start_eq
  have hstart' := hmethod'.start_eq
  -- one line is one method
  have hone : m.extent.first = n.extent.first → start = start' ∧ m.span = n.span := by
    intro hline
    obtain rfl := hmethod.start_eq_of_line (placed_of_mem_findAll hc) (placed_of_mem_findAll hc')
      (Nat.le_trans hlt c'.offset_le_headOffset) hmethod' hline
    exact ⟨rfl, (hmethod.same_method hmethod').2⟩
  refine ⟨⟨fun hkey => ?_, ?_⟩, fun hkey => ?_⟩
  · exact ⟨hmethod.kind_eq, hmethod'.kind_eq, congrArg Element.Key.className hkey,
      (hone (congrArg Element.Key.line hkey)).2⟩
  · rintro ⟨-, -, hclass, hspan⟩
    obtain rfl : start = start' := by
      rw [hspan, hstart'] at hstart
      omega
    rw [Element.key, Element.key, hmethod.path_eq, hmethod'.path_eq, hmethod.kind_eq,
      hmethod'.kind_eq, hclass, (hmethod.same_method hmethod').1, hmethod.first_eq,
      hmethod'.first_eq]
  · obtain ⟨rfl, hspan⟩ := hone (congrArg Element.Key.line hkey)
    have howner : classRecord? file c = some (classElement file c close) := by
      rw [classRecord?, hclose, Option.map_some]
    have howner' : classRecord? file c' = some (classElement file c' close') := by
      rw [classRecord?, hclose', Option.map_some]
    have hclass : m.className = n.className := congrArg Element.Key.className hkey
    rw [hplaced.className_method m hm, hplaced'.className_method n hn, Option.some.injEq] at hclass
    have hinside := hplaced.inside m hm
    have hinside' := hplaced'.inside n hn
    rw [← hspan] at hinside'
    have hnested : (classElement file c' close').InBodyOf (classElement file c close) := by
      rcases (nested_of_classRecord? hc hc' hlt howner howner').2.2 with hapart | hnested
      · simp only at hinside hinside'
        omega
      · exact hnested
    have hbody := bodyStart_classElement hc' hclose'
    have hbase := hmethod'.base_le
    refine ⟨_, SourceFile.mem_classes_iff.2 ⟨c, hc, howner⟩,
      _, SourceFile.mem_classes_iff.2 ⟨c', hc', howner'⟩, hplaced.className_method m hm,
      hclass.symm, hnested, ?_, hinside'.2.2⟩
    omega

/-- The records of two classes. -/
theorem keysCompare_elements (hc : c ∈ findAll (header classHead) file.text)
    (hc' : c' ∈ findAll (header classHead) file.text) (hlt : c.stopOffset ≤ c'.offset)
    (hline : lineNumber file.text c.headOffset < lineNumber file.text c'.headOffset)
    (hg : group? file c = some g) (hg' : group? file c' = some g') :
    ∀ e ∈ g.elements, ∀ f ∈ g'.elements, e.KeysCompare file.outline.value.classes f := by
  intro e he f hf
  have hplaced := wellPlaced_of_group? hc hg
  have hplaced' := wellPlaced_of_group? hc' hg'
  rcases List.mem_cons.1 he with rfl | hmethod
  · rcases List.mem_cons.1 hf with rfl | hmethod'
    · obtain ⟨close, -, rfl⟩ := Option.map_eq_some_iff.1 hg
      obtain ⟨close', -, rfl⟩ := Option.map_eq_some_iff.1 hg'
      rw [← SourceFile.lineOf_natCast, ← SourceFile.lineOf_natCast] at hline
      exact .of_line_lt hline nofun
    · refine .of_kind_ne ?_
      rw [hplaced.kind_owner, hplaced'.kind_method f hmethod']
      decide
  · rcases List.mem_cons.1 hf with rfl | hmethod'
    · refine .of_kind_ne ?_
      rw [hplaced.kind_method e hmethod, hplaced'.kind_owner]
      decide
    · exact keysCompare_method hc hc' hlt hg hg' hmethod hmethod'

end

end Declaration

/-- **How the records of an outline compare.** -/
theorem SourceFile.pairwise_keysCompare (file : SourceFile) :
    file.outline.value.elements.Pairwise
      (Element.KeysCompare file.outline.value.classes) := by
  have hkinds : ∀ g ∈ file.groups, ∀ e ∈ g.elements, e.kind ≠ .function := by
    intro g hg e he
    have hplaced := wellPlaced_of_mem_groups hg
    rcases List.mem_cons.1 he with rfl | hmethod
    · rw [hplaced.kind_owner]
      decide
    · rw [hplaced.kind_method e hmethod]
      decide
  have hfunctions := orderedFunctions file (file.groups.flatMap ClassGroup.elements) file.exports
  rw [show file.outline.value.elements = _ from file.elements_eq]
  refine List.pairwise_append.2 ⟨List.pairwise_flatMap.2 ⟨fun g hg => ?_, ?_⟩, ?_,
    fun e he f hf => ?_⟩
  · -- one class
    have hplaced := wellPlaced_of_mem_groups hg
    obtain ⟨c, hc, hgroup⟩ := List.mem_filterMap.1 hg
    refine List.pairwise_cons.2 ⟨fun m hm => .of_kind_ne ?_,
      Declaration.keysCompare_methods hc hgroup _⟩
    rw [hplaced.kind_owner, hplaced.kind_method m hm]
    decide
  · -- two classes
    have hlines := pairwise_headLines endsWith_classHead opens_classHead file.text
    refine List.pairwise_filterMap.2 (((pairwise_findAll _ _).and hlines).imp_of_mem ?_)
    intro c c' hc hc' h g hg g' hg'
    exact Declaration.keysCompare_elements hc hc' h.1.2 h.2 hg hg'
  · -- two functions
    have hlines := pairwise_headLines endsWith_functionHead opens_functionHead file.text
    refine List.pairwise_filterMap.2 (hlines.imp fun {c c'} hlt e he f hf => ?_)
    obtain ⟨-, -, close, -, rfl⟩ := Declaration.functionRecord?_eq_some_iff.1 he
    obtain ⟨-, -, close', -, rfl⟩ := Declaration.functionRecord?_eq_some_iff.1 hf
    refine .of_line_lt ?_ nofun
    rw [← lineOf_natCast, ← lineOf_natCast] at hlt
    exact hlt
  · obtain ⟨g, hg, he⟩ := List.mem_flatMap.1 he
    refine .of_kind_ne ?_
    rw [hfunctions.kind_eq f hf]
    exact hkinds g hg e he

/-- **Two records have one key exactly if they are one method**, listed for two classes of one name,
the one inside the other.  Where no class is inside another of its name, every record has a key of
its own. -/
theorem keys_repeat_iff (path : String) (text : List Char) :
    let outline := (SourceFile.ofText path text).outline.value
    outline.elements.Pairwise (Element.KeysCompare outline.classes) ∧
      ((∀ outer ∈ outline.classes, ∀ inner ∈ outline.classes, inner.InBodyOf outer →
          inner.name ≠ outer.name) →
        (outline.elements.map Element.key).Nodup) := by
  intro outline
  have hpairwise := (SourceFile.ofText path text).pairwise_keysCompare
  refine ⟨hpairwise, fun hnames => List.pairwise_map.2 (hpairwise.imp fun {e f} h hkey => ?_)⟩
  obtain ⟨outer, houter, inner, hinner, -, hname, hnested, -⟩ := h.nested_of_key_eq hkey
  exact hnames outer houter inner hinner hnested hname

/-- A method of a class inside another of its name has two records with one key. -/
theorem keys_repeat_nested :
    let text := "class A \x7b\n  static \x7b\n    class A \x7b\n      m() \x7b\n      \x7d\n" ++
      "    \x7d\n  \x7d\n\x7d\n"
    let outline := (SourceFile.ofText "p.js" text.toList).outline.value
    ¬ (outline.elements.map Element.key).Nodup := by
  decide +kernel

end SourceOutline
