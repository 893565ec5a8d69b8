/-
**Findings and warnings.**

A pass over a file lists what it finds in the order of the text.  Some finds become records; others,
such as a block that never closes, only a warning.

Main definitions:

* `UnclosedBlock`, `UnclosedBlock.message` — a block whose closing brace is missing;
* `Warning`, `Warning.message` — the warnings;
* `Finding`, `Finding.records`, `Finding.warnings` — what a pass lists, and its two views.

Main results:

* `Finding.records_map_record`, `Finding.warnings_map_record` — both views where nothing is wrong.
-/

import SourceOutline.FileSystem.Error

set_option autoImplicit false

namespace SourceOutline

/-! ### Blocks that never close -/

/-- A declaration whose block has no closing brace. -/
structure UnclosedBlock where
  kind : String
  name : String
  line : Int
  deriving DecidableEq, Repr

/-- What is wrong with the block. -/
def UnclosedBlock.message (block : UnclosedBlock) : String :=
  "Could not find closing brace for " ++ block.kind ++ " " ++ block.name ++ " starting at line " ++
    toString block.line

/-! ### Warnings -/

/-- What is reported while work goes on. -/
inductive Warning where
  /-- A class or function is left out. -/
  | skipped (path : String) (block : UnclosedBlock)
  /-- A method is left out. -/
  | skippedMethod (path className : String) (block : UnclosedBlock)
  /-- An exported block is recorded without its body. -/
  | headerOnly (path : String) (block : UnclosedBlock)
  /-- A file is left out. -/
  | unreadable (file : String) (error : FileSystem.Error)
  deriving DecidableEq, Repr

/-- The wording of a warning. -/
def Warning.message : Warning → String
  | skipped path block => "[" ++ path ++ "] " ++ block.message ++ ". Skipping."
  | skippedMethod path className block =>
    "[" ++ path ++ "] " ++ block.message ++ " in class " ++ className ++ ". Skipping."
  | headerOnly path block => "[" ++ path ++ "] " ++ block.message ++ "; export ends at its header"
  | unreadable file error => "Failed to read " ++ file ++ ": " ++ error.message

/-! ### Findings -/

/-- A record or a warning. -/
inductive Finding (α : Type) where
  | record (a : α)
  | warning (w : Warning)
  deriving DecidableEq, Repr

namespace Finding
variable {α : Type}

/-- The record of a finding, if it is one. -/
def record? : Finding α → Option α
  | record a => some a
  | warning _ => none

/-- The warning of a finding, if it is one. -/
def warning? : Finding α → Option Warning
  | record _ => none
  | warning w => some w

/-- The records among the findings, in order. -/
def records (findings : List (Finding α)) : List α :=
  findings.filterMap record?

/-- The warnings among the findings, in order. -/
def warnings (findings : List (Finding α)) : List Warning :=
  findings.filterMap warning?

@[simp]
theorem records_nil : records ([] : List (Finding α)) = [] := rfl

@[simp]
theorem warnings_nil : warnings ([] : List (Finding α)) = [] := rfl

@[simp]
theorem records_record_cons (a : α) (xs : List (Finding α)) :
    records (record a :: xs) = a :: records xs := rfl

@[simp]
theorem warnings_record_cons (a : α) (xs : List (Finding α)) :
    warnings (record a :: xs) = warnings xs := rfl

@[simp]
theorem warnings_warning_cons (w : Warning) (xs : List (Finding α)) :
    warnings (warning w :: xs) = w :: warnings xs := rfl

theorem records_map_record (xs : List α) : records (xs.map record) = xs := by
  induction xs with
  | nil => rfl
  | cons a xs ih => rw [List.map_cons, records_record_cons, ih]

theorem warnings_map_record (xs : List α) : warnings (xs.map record) = [] := by
  induction xs with
  | nil => rfl
  | cons a xs ih => rw [List.map_cons, warnings_record_cons, ih]

end Finding

end SourceOutline
