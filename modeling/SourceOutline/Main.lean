/-
**The program.**

The names of the files to work on are read from standard input, one in a line, as a listing of the
repository prints them.  Their contents, and that of a file named on the command line, make up the
tree that the command works on.  A directory at or above the working directory that has an entry
`.git` is a repository.

Main definitions:

* `Main.readTree` — the tree of the files that are listed;
* `main` — runs a command line and prints its answer.
-/

import SourceOutline.CommandLine
import SourceOutline.FileSystem.Edit
import SourceOutline.Yaml.Value

set_option autoImplicit false

namespace SourceOutline.Main

/-- The file system with the content of a file, if it can be read. -/
def addFile (fs : FileSystem) (name : String) : IO FileSystem := do
  let path := fs.workingPath.join (Path.parse name)
  try
    let content ← IO.FS.readBinFile path.render
    return fs.writeFile path content.toList
  catch _ =>
    return fs

/-- The file system with the entry `.git` of a directory, if there is one. -/
def addGit (fs : FileSystem) (directory : Path) : IO FileSystem := do
  let path := directory.child ".git"
  try
    let _ ← IO.FS.realPath path.render
    return fs.makeDirectory path
  catch _ =>
    return fs

/-- The lines of an input, without their ends. -/
partial def readLines (input : IO.FS.Stream) (lines : List String) : IO (List String) := do
  let line ← input.getLine
  if line.isEmpty then
    return lines.reverse
  else
    readLines input (String.ofList (Text.trimRight line.toList) :: lines)

/-- The tree of the files that are listed. -/
def readTree (names : List String) : IO FileSystem := do
  let current := Path.parse (← IO.currentDir).toString
  let start : FileSystem := ⟨.directory [], current.parts, .free⟩
  let fs := start.makeDirectory current
  let fs ← current.ancestors.foldlM addGit fs
  names.foldlM addFile fs

/-- A row of a table, its cells apart. -/
def printRow (cells : List String) : IO Unit :=
  IO.println ("  ".intercalate cells)

/-- Prints what a terminal shows. -/
def printDisplay : Display → IO Unit
  | .line text => IO.println text
  | .table title columns rows => do
    if let some title := title then
      IO.println title
    printRow columns
    rows.forM printRow

/-- How to use the program. -/
def usageText : String :=
  "usage: outline [--json] FILE | info FILE:NAME | locate [--json] NAME | --version | --help"

/-- Prints an answer and gives the exit code. -/
def printResponse : CommandLine.Response → IO UInt32
  | .usage code => do
    IO.println usageText
    return code.toUInt32
  | .output o => do
    for warning in o.warnings do
      IO.eprintln warning.message
    o.display.forM printDisplay
    IO.print o.stdout
    IO.eprint o.stderr
    return o.exitCode.toUInt32

/-- The files that a command line names. -/
def namedFiles (arguments : List String) : List String :=
  arguments ++ arguments.filterMap fun argument =>
    (CommandLine.splitAtLastColon? argument.toList).map Prod.fst

end SourceOutline.Main

open SourceOutline in
/-- Runs a command line and prints its answer. -/
def main (arguments : List String) : IO UInt32 := do
  let listed ← Main.readLines (← IO.getStdin) []
  let fs ← Main.readTree (listed ++ Main.namedFiles arguments)
  Main.printResponse (CommandLine.run fs Yaml.read arguments)
