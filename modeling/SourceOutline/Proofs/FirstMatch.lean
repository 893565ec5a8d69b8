/-
**The first element of a name.**

A name is looked up in a file by going through the elements of its outline: classes with their
methods, then functions.  So an element is found if there is one.  It stands before all others that
answer to the name, except those that are listed late: a function may stand before the class or method
that was found, and an element of an inner class before the method of the outer class.

Main results:

* `SourceFile.listedLate_of_find?` — what stands before the element that is found is listed late;
* `FileSystem.exists_outline_of_find` — a lookup goes through the elements of one outline;
* `FileSystem.found_first_iff` — **when the first element of a name is found**;
* `FileSystem.found_behind_function` — a method that is found although a function stands before it.
-/

import SourceOutline.Proofs.LocatedOrder

set_option autoImplicit false

namespace SourceOutline

/-! ### The first in an outline -/

namespace SourceFile

variable {file : SourceFile} {name : String} {e : Element}

/-- What stands before the first element of a name, and answers to it too, is listed late. -/
theorem listedLate_of_find?
    (h : file.outline.value.elements.find? (·.answersTo name) = some e) {f : Element}
    (hf : f ∈ file.outline.value.elements) (hname : f.answersTo name = true)
    (hlt : f.span.start < e.span.start) : file.ListedLate e f := by
  obtain ⟨-, before, behind, hsplit, hbefore⟩ := List.find?_eq_some_iff_append.1 h
  have hpairwise := pairwise_elements file
  rw [hsplit] at hf hpairwise
  rcases List.mem_append.1 hf with hf | hf
  · -- nothing that is listed before answers to the name
    have hno := hbefore f hf
    rw [hname] at hno
    exact absurd hno (by decide)
  · rcases List.mem_cons.1 hf with rfl | hf
    · exact absurd hlt (Int.lt_irrefl _)
    · have hlater := List.pairwise_cons.1 (List.pairwise_append.1 hpairwise).2.1
      rcases hlater.1 f hf with hle | hlate
      · omega
      · exact hlate

/-- A method of the outer class, and one of an inner class that stands before it. -/
example :
    let inner := "    class B \x7b\n      foo() \x7b\n      \x7d\n    \x7d\n"
    let text := "class B \x7b\n  m() \x7b\n" ++ inner ++ "  \x7d\n  foo() \x7b\n  \x7d\n\x7d\n"
    let elements := (SourceFile.ofText "p.js" text.toList).outline.value.elements
    (elements.filter (·.answersTo "B.foo")).map (·.span.start) = [66, 38] := by
  decide +kernel

end SourceFile

/-! ### Lookups -/

namespace FileSystem

variable {fs : FileSystem} {path name : String} {root : Option Path}

/-- A sequence that succeeds has parts that do. -/
theorem exists_of_bind_eq_ok {α β : Type} {x : Except Failure α} {next : α → Except Failure β}
    {b : β} (h : (x >>= next) = .ok b) : ∃ a, x = .ok a ∧ next a = .ok b := by
  cases x with
  | error failure => exact absurd h (by simp [bind, Except.bind])
  | ok a => exact ⟨a, rfl, h⟩

/-- An outline of a file is the outline of some text. -/
theorem exists_source {outline : Reported Outline} (h : fs.outlineOf path root = .ok outline) :
    ∃ file : SourceFile, outline = file.outline := by
  obtain ⟨place, -, h⟩ := exists_of_bind_eq_ok h
  obtain ⟨isThere, -, h⟩ := exists_of_bind_eq_ok h
  split at h
  · exact absurd h (by simp [throw, throwThe, MonadExceptOf.throw])
  · split at h
    · exact absurd h (by simp [throw, throwThe, MonadExceptOf.throw])
    · obtain ⟨octets, -, h⟩ := exists_of_bind_eq_ok h
      obtain ⟨relative, -, h⟩ := exists_of_bind_eq_ok h
      exact ⟨_, (Except.ok.inj h).symm⟩

/-- A lookup goes through the elements of one outline. -/
theorem exists_outline_of_find {found : Reported (Option Element)}
    (h : fs.find path name root = .ok found) :
    ∃ file : SourceFile, fs.outlineOf path root = .ok file.outline ∧
      found.value = file.outline.value.elements.find? (·.answersTo name) := by
  obtain ⟨outline, houtline, h⟩ := exists_of_bind_eq_ok h
  obtain ⟨file, rfl⟩ := exists_source houtline
  exact ⟨file, houtline, congrArg Reported.value (Except.ok.inj h).symm⟩

/-- **When the first element of a name is found.**  Nothing is found only if nothing answers to the
name.  What is found answers to it, and it is the first to do so if no function and no element of an
inner class stands before it that is listed late and answers too. -/
theorem found_first_iff {found : Reported (Option Element)}
    (h : fs.find path name root = .ok found) :
    ∃ file : SourceFile, fs.outlineOf path root = .ok file.outline ∧
      let elements := file.outline.value.elements
      (found.value = none ↔ ∀ f ∈ elements, f.answersTo name = false) ∧
      ∀ e, found.value = some e → e ∈ elements ∧ e.answersTo name = true ∧
        ((∀ f ∈ elements, f.answersTo name = true → e.span.start ≤ f.span.start) ↔
          ∀ f ∈ elements, f.answersTo name = true → file.ListedLate e f →
            e.span.start ≤ f.span.start) := by
  obtain ⟨file, houtline, hfound⟩ := exists_outline_of_find h
  refine ⟨file, houtline, ?_, ?_⟩
  · rw [hfound, List.find?_eq_none]
    simp only [Bool.not_eq_true]
  · intro e he
    rw [hfound] at he
    have hanswers : e.answersTo name = true := by simpa using List.find?_some he
    refine ⟨List.mem_of_find?_eq_some he, hanswers, ?_⟩
    constructor
    · intro hfirst f hf hname _
      exact hfirst f hf hname
    · intro hlate f hf hname
      rcases Int.lt_or_le f.span.start e.span.start with hlt | hle
      · exact hlate f hf hname (SourceFile.listedLate_of_find? he hf hname hlt)
      · exact hle

/-- A method, and a function of its name behind it. -/
theorem found_first_iff_method :
    let octets := "class A \x7b\n  foo() \x7b\n  \x7d\n\x7d\nfunction foo() \x7b\n\x7d\n".toList.map
      fun c => UInt8.ofNat c.toNat
    let fs : FileSystem := ⟨.directory [("r", .directory [("a.js", .file octets)])], [], .free⟩
    let root : Path := ⟨.root, ["r"]⟩
    ∃ found, fs.find "a.js" "foo" (some root) = .ok found ∧
      found.value.map (·.span.start) = some 12 ∧
      ∃ file : SourceFile, fs.outlineOf "a.js" (some root) = .ok file.outline ∧
        ∀ e, found.value = some e →
          ((∀ f ∈ file.outline.value.elements, f.answersTo "foo" = true →
            e.span.start ≤ f.span.start) ↔
              ∀ f ∈ file.outline.value.elements, f.answersTo "foo" = true →
                file.ListedLate e f → e.span.start ≤ f.span.start) := by
  intro octets fs root
  have hvalue : (fs.find "a.js" "foo" (some root)).map (fun found =>
      found.value.map (·.span.start)) = .ok (some 12) := by
    decide +kernel
  cases hfind : fs.find "a.js" "foo" (some root) with
  | error failure => exact absurd hvalue (by rw [hfind]; simp [Except.map])
  | ok found =>
      rw [hfind] at hvalue
      obtain ⟨file, houtline, -, hfirst⟩ := found_first_iff hfind
      exact ⟨found, rfl, Except.ok.inj hvalue, file, houtline, fun e he => (hfirst e he).2.2⟩

/-- **A method that is found although a function of its name stands before it.** -/
theorem found_behind_function :
    let octets := "function foo() \x7b\n\x7d\nclass A \x7b\n  foo() \x7b\n  \x7d\n\x7d\n".toList.map
      fun c => UInt8.ofNat c.toNat
    let fs : FileSystem := ⟨.directory [("r", .directory [("a.js", .file octets)])], [], .free⟩
    let root : Path := ⟨.root, ["r"]⟩
    ∃ found outline e f, fs.find "a.js" "foo" (some root) = .ok found ∧
      fs.outlineOf "a.js" (some root) = .ok outline ∧ found.value = some e ∧
      f ∈ outline.value.elements ∧ f.answersTo "foo" = true ∧ f.kind = .function ∧
      e.kind = .method ∧ f.span.start < e.span.start := by
  intro octets fs root
  have hvalue : (fs.find "a.js" "foo" (some root)).map (fun found =>
      found.value.map fun e => (e.kind, e.span.start)) = .ok (some (.method, 31)) := by
    decide +kernel
  have helements : (fs.outlineOf "a.js" (some root)).map (fun outline =>
      outline.value.elements.any fun f =>
        f.answersTo "foo" && f.kind == .function && f.span.start == 0) = .ok true := by
    decide +kernel
  cases hfind : fs.find "a.js" "foo" (some root) with
  | error failure => exact absurd hvalue (by rw [hfind]; simp [Except.map])
  | ok found =>
      rw [hfind] at hvalue
      obtain ⟨e, he, hmethod⟩ := Option.map_eq_some_iff.1 (Except.ok.inj hvalue)
      obtain ⟨hkind, hstart⟩ := Prod.mk.inj hmethod
      cases houtline : fs.outlineOf "a.js" (some root) with
      | error failure => exact absurd helements (by rw [houtline]; simp [Except.map])
      | ok outline =>
          rw [houtline] at helements
          obtain ⟨f, hf, hfunction⟩ := List.any_eq_true.1 (Except.ok.inj helements)
          simp only [Bool.and_eq_true, beq_iff_eq] at hfunction
          obtain ⟨⟨hname, hfunction⟩, hzero⟩ := hfunction
          exact ⟨found, outline, e, f, rfl, rfl, he, hf, hname, hfunction, hkind, by omega⟩

end FileSystem

end SourceOutline
