/-
**The command line.**

Three commands outline a file, show one declaration of a file, and locate declarations by name.
Options stand in front of the command, or anywhere among its arguments; two hyphens end them.

Main definitions:

* `CommandLine.Switch`, `CommandLine.Grammar.split?` — options, and arguments split into options and
  the rest;
* `CommandLine.Response` — what a command prints and how it ends;
* `CommandLine.outline`, `CommandLine.info`, `CommandLine.locate` — the commands;
* `CommandLine.run` — a whole command line.
-/

import SourceOutline.Lookup
import SourceOutline.Report

set_option autoImplicit false

namespace SourceOutline.CommandLine

/-! ### Options -/

/-- The options; none takes a value. -/
inductive Switch where
  | help
  | version
  | json
  deriving DecidableEq, Repr

/-- The options that a part of the command line knows, by their texts. -/
structure Grammar where
  long : List (String × Switch)
  short : List (Char × Switch)
  /-- Whether options may follow other arguments. -/
  interspersed : Bool

/-- The options that an argument stands for.  A single hyphen may stand before several letters. -/
def Grammar.switches? (g : Grammar) (argument : String) : Option (List Switch) :=
  match g.long.lookup argument with
  | some switch => some [switch]
  | none =>
    match argument.toList with
    | '-' :: '-' :: _ => none
    | _ :: letters => letters.mapM fun c => g.short.lookup c
    | [] => none

/-- Whether an argument is an option. -/
def isOption (argument : String) : Bool :=
  argument.toList.head? == some '-' && argument.length > 1

/-- The options and the other arguments of a list, or nothing if it has an unknown option. -/
def Grammar.split? (g : Grammar) : List String → Option (List Switch × List String)
  | [] => some ([], [])
  | argument :: rest =>
    if argument == "--" then
      some ([], rest)
    else if isOption argument then do
      let here ← g.switches? argument
      let (switches, others) ← g.split? rest
      return (here ++ switches, others)
    else if g.interspersed then do
      let (switches, others) ← g.split? rest
      return (switches, argument :: others)
    else
      some ([], argument :: rest)

/-- The options in front of the command. -/
def topGrammar : Grammar :=
  ⟨[("--help", .help), ("--version", .version)], [('v', .version)], false⟩

/-- The options of a command that can print JSON. -/
def jsonGrammar : Grammar :=
  ⟨[("--help", .help), ("--json", .json)], [('j', .json)], true⟩

/-- The options of a command that has none of its own. -/
def plainGrammar : Grammar :=
  ⟨[("--help", .help)], [], true⟩

/-! ### Responses -/

/-- What a command prints and how it ends. -/
structure Output where
  exitCode : Nat
  stdout : String
  stderr : String
  display : List Display
  warnings : List Warning

/-- How a command line is answered. -/
inductive Response where
  /-- With a screen on how to use the program. -/
  | usage (exitCode : Nat)
  /-- With the output of a command. -/
  | output (o : Output)

/-- A command that succeeds. -/
def success (stdout : String) (display : List Display) (warnings : List Warning) : Output :=
  ⟨0, stdout, "", display, warnings⟩

/-- A command that ends with a message. -/
def failed (exitCode : Nat) (message : String) (warnings : List Warning) : Output :=
  ⟨exitCode, "", "Error: " ++ message ++ "\n", [], warnings⟩

/-- A value on standard output. -/
def printed (value : Json) : String :=
  value.render ++ "\n"

/-- The exit code of a failure: one if the request is to blame, two otherwise. -/
def exitCodeOf (failure : Failure) : Nat :=
  if failure.isMistake then 1 else 2

/-! ### Commands -/

section
variable (fs : FileSystem)

/-- The outline of a file. -/
def outline (file : String) (asJson : Bool) : Output :=
  match fs.outlineOf file none with
  | .error failure => failed (exitCodeOf failure) failure.message []
  | .ok report =>
    if asJson then
      success (printed report.value.toJson) [] report.warnings
    else
      success "" (report.value.display file) report.warnings

/-- The text before and after the last colon. -/
def splitAtLastColon? (text : List Char) : Option (String × String) :=
  if text.contains ':' then
    let after := (text.reverse.takeWhile (· != ':')).reverse
    some (.ofList (text.take (text.length - after.length - 1)), .ofList after)
  else
    none

/-- One declaration of a file, named after a colon. -/
def info (location : String) : Output :=
  match splitAtLastColon? location.toList with
  | none => failed 1 "Expected location in format file_path:entity_name" []
  | some (_, "") => failed 1 "Entity name is empty" []
  | some (file, name) =>
    match fs.find file name none with
    | .error failure => failed (exitCodeOf failure) failure.message []
    | .ok ⟨some element, warnings⟩ => success (printed element.toLabelledJson) [] warnings
    | .ok ⟨none, warnings⟩ =>
      failed 1 ("Entity '" ++ name ++ "' not found in " ++ file) warnings

/-- All declarations of a name. -/
def locate (load : Yaml.Loader) (name : String) (asJson : Bool) : Output :=
  let report := fs.locate load name none
  match report.value with
  | .error failure =>
    let code :=
      match failure with
      | .noRepository _ => 1
      | _ => 2
    failed code failure.message report.warnings
  | .ok elements =>
    if asJson then
      success (printed (.array (elements.map Element.toLocationJson))) [] report.warnings
    else
      success "" [Element.displayAll elements] report.warnings

/-! ### Whole command lines -/

/-- A command with its one argument and options. -/
def command (grammar : Grammar) (arguments : List String)
    (action : String → List Switch → Output) : Response :=
  match grammar.split? arguments with
  | none => .usage 2
  | some (switches, others) =>
    if switches.contains .help then
      .usage 0
    else
      match others with
      | [argument] => .output (action argument switches)
      | _ => .usage 2

/-- The version line. -/
def versionText : String := "jsoutline version 0.1.0"

/-- What the first of the options in front of a command asks for. -/
def topSwitch? (switches : List Switch) : Option Response :=
  match switches with
  | [] => none
  | .version :: _ => some (.output (success "" [.line versionText] []))
  | _ :: _ => some (.usage 0)

/-- A command by its name. -/
def dispatch (load : Yaml.Loader) (name : String) (arguments : List String) : Option Response :=
  match name with
  | "outline" =>
    some (command jsonGrammar arguments fun file switches =>
      outline fs file (switches.contains .json))
  | "info" => some (command plainGrammar arguments fun location _ => info fs location)
  | "locate" =>
    some (command jsonGrammar arguments fun entity switches =>
      locate fs load entity (switches.contains .json))
  | _ => none

/-- A command that does not exist.  Its name is still read as options if it could be some. -/
def unknownCommand (arguments : List String) : Response :=
  match topGrammar.split? arguments with
  | some (switches, _) => (topSwitch? switches).getD (.usage 2)
  | none => .usage 2

/-- The answer to a command line. -/
def run (load : Yaml.Loader) (arguments : List String) : Response :=
  if arguments.isEmpty then
    .usage 2
  else
    match topGrammar.split? arguments with
    | none => .usage 2
    | some (switches, rest) =>
      match topSwitch? switches, rest with
      | some response, _ => response
      | none, [] => .output (success "" [] [])
      | none, name :: rest => (dispatch fs load name rest).getD (unknownCommand (name :: rest))

end

end SourceOutline.CommandLine
