/-
**Trees of files.**

Main definitions:

* `FileSystem.Node` — a file, a link or a directory with named entries;
* `FileSystem.Node.child?`, `FileSystem.Node.at?` — the entry of a name, and the node at the end of
  a list of names;
* `FileSystem.Node.linkCount` — how many links a tree holds;
* `FileSystem.Node.put` — the tree with a node added.

Main results:

* `FileSystem.Node.at?_append` — going on from a node.
-/

set_option autoImplicit false

namespace SourceOutline.FileSystem

/-- An entry of a file system. -/
inductive Node where
  | file (content : List UInt8)
  | link (target : String)
  | directory (entries : List (String × Node))

namespace Node

/-- The first entry of a given name. -/
def lookup (name : String) : List (String × Node) → Option Node
  | [] => none
  | (key, node) :: rest => if key == name then some node else lookup name rest

/-- The entry of a directory with a given name. -/
def child? (node : Node) (name : String) : Option Node :=
  match node with
  | directory entries => lookup name entries
  | _ => none

/-- The node that names lead to, without following links. -/
def at? (node : Node) : List String → Option Node
  | [] => some node
  | name :: rest => (node.child? name).bind fun next => next.at? rest

/-- Whether a node is a directory. -/
def isDirectory : Node → Bool
  | directory _ => true
  | _ => false

/-- Whether a node is a file. -/
def isFile : Node → Bool
  | file _ => true
  | _ => false

mutual

/-- The number of links in a tree. -/
def linkCount : Node → Nat
  | file _ => 0
  | link _ => 1
  | directory entries => linkCountOf entries

/-- The number of links among entries and below them. -/
def linkCountOf : List (String × Node) → Nat
  | [] => 0
  | (_, node) :: rest => linkCount node + linkCountOf rest

end

/-! ### Changing a tree -/

/-- The entries with `node` under a name, in the place of an entry that has it. -/
def replace (name : String) (node : Node) : List (String × Node) → List (String × Node)
  | [] => [(name, node)]
  | (key, old) :: rest =>
    if key == name then (name, node) :: rest else (key, old) :: replace name node rest

/-- The tree with `node` where the names lead.  Directories that are missing on the way are made;
one that is there already is kept if `node` is an empty directory. -/
def put (tree : Node) : List String → Node → Node
  | [], node =>
    match tree, node with
    | directory entries, directory [] => directory entries
    | _, _ => node
  | name :: rest, node =>
    let entries :=
      match tree with
      | directory entries => entries
      | _ => []
    let below := (lookup name entries).getD (directory [])
    directory (replace name (put below rest node) entries)

/-! ### Small facts -/

@[simp]
theorem at?_nil (node : Node) : node.at? [] = some node := rfl

@[simp]
theorem at?_cons (node : Node) (name : String) (rest : List String) :
    node.at? (name :: rest) = (node.child? name).bind fun next => next.at? rest := rfl

theorem at?_append (node : Node) (names more : List String) :
    node.at? (names ++ more) = (node.at? names).bind fun next => next.at? more := by
  induction names generalizing node with
  | nil => rfl
  | cons name rest ih =>
      simp only [List.cons_append, at?_cons]
      cases node.child? name with
      | none => rfl
      | some next => exact ih next

end Node

end SourceOutline.FileSystem
