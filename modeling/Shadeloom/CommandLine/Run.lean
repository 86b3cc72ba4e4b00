import Shadeloom.CommandLine.Command
import Shadeloom.Compile
import Shadeloom.Evaluation.Machine
import Shadeloom.Graph.Stored
import Shadeloom.Json.Printer
import Shadeloom.Json.Reader
import Shadeloom.Source.Statements
/-!
# Running commands

A command is run on what has been read so far. It either needs another file or comes to a report:
an exit code, what is printed, and what went wrong. An expression that is refused gives the code 1,
and files and settings that cannot be used give the code 2.
-/
namespace Shadeloom.CommandLine

/-- Files that have been read, or why they could not be. -/
structure Known where
  /-- The files named by the command, by path. -/
  named : Source.Files
  /-- The files included by sources, by the names in the include lines. -/
  included : Source.Files

/-- Nothing has been read. -/
def Known.nothing : Known := ⟨.empty, .empty⟩

/-- A file that has to be read. -/
inductive Need where
  | named (path : String)
  | included (name path : String)
  deriving Repr, DecidableEq

/-- What a command has come to. -/
structure Report where
  code : Nat
  output : String
  error : Option String
  deriving Repr, DecidableEq, Inhabited

namespace Report

/-- A command that has done what it should. -/
def success (output : String) : Report := ⟨0, output, none⟩

/-- An expression that is refused. -/
def rejected (message : String) : Report := ⟨1, "", some message⟩

/-- A file or a setting that cannot be used. -/
def unusable (message : String) : Report := ⟨2, "", some message⟩

/-- An evaluation that broke off without a message. -/
def broken : Report := ⟨101, "", none⟩

end Report

/-- How a run stops before its end: it needs a file, or the report is there. -/
inductive Stop where
  | need (need : Need)
  | report (report : Report)

/-- A part of a run. -/
abbrev Run := Except Stop

/-- Stops with a report. -/
def stopWith {α : Type} (report : Report) : Run α :=
  .error (.report report)

/-- The folder of a path, empty if the path has none. -/
def folder (path : String) : String :=
  let upTo := (path.toList.reverse.dropWhile (· ≠ '/')).reverse
  String.ofList (if upTo = ['/'] then upTo else upTo.dropLast)

/-- A path seen from a folder. -/
def within (folder path : String) : String :=
  if folder = "" || path.toList.head? = some '/' then path
  else if folder.toList.getLast? = some '/' then folder ++ path
  else folder ++ "/" ++ path

/-- Checks an expression. -/
def check (expression : String) : Report :=
  match Source.validate expression with
  | .ok _ => .success "valid\n"
  | .error problem => .rejected problem.message

/-- The width of the column of names. -/
def nameWidth : Nat := 20

/-- The line of a function: its name, and how many arguments it takes. -/
def functionLine (function : Function) : String :=
  function.name ++ "".pushn ' ' (nameWidth - function.name.length) ++ " " ++
    toString function.minArgs ++ "-" ++ toString function.maxArgs ++ "\n"

/-- Lists the functions. -/
def functions : Report :=
  .success (String.join (Function.all.map functionLine))

/-- The name and the value of a setting: one number, or three for a vector. -/
def readSetting? (setting : String) : Option (String × Value) := do
  let (name, text) ← Text.splitAtFirst? '=' setting.toList
  let numbers ← (Text.splitAll ',' text).mapM fun part => Decimal.read? (Text.trim part)
  let name := String.ofList (Text.trim name)
  match numbers with
  | [a] => some (name, .scalar a)
  | [x, y, z] => some (name, .vector ⟨x, y, z⟩)
  | _ => none

/-- The name and the value of a setting, or the report that it has none. -/
def readSetting (setting : String) : Except Report (String × Value) :=
  match readSetting? setting with
  | some entry => .ok entry
  | none => .error (.unusable ("invalid --set '" ++ setting ++ "', expected NAME=VALUE"))

/-- The stored form of outputs. -/
def outputsJson (outputs : Assignment) : Json :=
  .obj (outputs.entries.map fun entry => (entry.1, entry.2.toJson))

/-- Evaluates an expression with settings. -/
def evalCommand (expression : String) (settings : List String) : Report :=
  match settings.mapM readSetting with
  | .error report => report
  | .ok entries =>
    match Source.compile expression .standard with
    | .error error => .rejected error.message
    | .ok site =>
      match evaluate site.graph site.library .standard (.ofList entries) with
      | .ok outputs => .success ((outputsJson outputs).indented ++ "\n")
      | .error (.unbracketedFactor _) => .broken
      | .error error => .rejected error.message

/-- The text of a file that a command names. -/
def readNamed (known : Known) (path : String) : Run String :=
  match known.named.get? path with
  | none => .error (.need (.named path))
  | some (.ok text) => .ok text
  | some (.error reason) =>
    stopWith (.unusable ("failed to read '" ++ path ++ "': " ++ reason))

/-- The options of a file. -/
def readOptions (known : Known) (path : String) : Run BuildOptions := do
  let text ← readNamed known path
  match (Json.read? text).bind BuildOptions.ofJson? with
  | some options => .ok options
  | none => stopWith (.unusable ("invalid options in '" ++ path ++ "'"))

/-- The source of a file with the lines that are enabled and all that it includes. -/
def readSource (known : Known) (path : String) (enabled : List String) : Run String := do
  let text ← readNamed known path
  let select (text : String) : List Char := Source.selectOptions enabled text.toList
  let files := known.included.mapValues fun content =>
    content.map fun text => String.ofList (select text)
  match Source.joinStatementsWith files (select text) with
  | .ok source => .ok (String.ofList source)
  | .error (.missingFile name) => .error (.need (.included name (within (folder path) name)))
  | .error error => stopWith (.unusable error.message)

/-- The options that a request asks for. -/
def requestedOptions (known : Known) (request : BuildRequest) : Run BuildOptions := do
  let options ←
    match request.optionsFile with
    | some path => readOptions known path
    | none => .ok .standard
  .ok {
    optimize := options.optimize && !request.noOptimize
    isolateStatements := options.isolateStatements
    pruneUnused := options.pruneUnused && !request.keepUnused
    foldConstants := options.foldConstants && !request.noFold
    resequenceInputs := options.resequenceInputs || request.resequence
    validate := options.validate && !request.noValidate }

/-- Builds what a request asks for. -/
def build (known : Known) (request : BuildRequest) : Run Report := do
  let options ← requestedOptions known request
  let source ←
    match request.file, request.expression with
    | some path, _ => readSource known path request.enabled
    | none, some expression => .ok expression
    | none, none => stopWith (.unusable "no expression or --file given")
  match Source.compile source options with
  | .ok site => .ok (.success (site.toAssembly.toJson.indented ++ "\n"))
  | .error error => .ok (.rejected error.message)

/-- Runs a command on what is known. -/
def Command.run (command : Command) (known : Known) : Run Report :=
  match command with
  | .check expression => .ok (CommandLine.check expression)
  | .build request => CommandLine.build known request
  | .eval expression settings => .ok (evalCommand expression settings)
  | .functions => .ok CommandLine.functions

/-- Runs the program with arguments on what is known; what cannot be used gives the code 2. -/
def run (arguments : List String) (known : Known) : Except Need Report :=
  match Command.ofArguments arguments with
  | .error .help => .ok (.success "")
  | .error .misuse => .ok ⟨2, "", none⟩
  | .ok command =>
    match command.run known with
    | .ok report => .ok report
    | .error (.report report) => .ok report
    | .error (.need need) => .error need

/-- What is known once a file has been read. -/
def Known.add (known : Known) (need : Need) (content : Except String String) : Known :=
  match need with
  | .named path => { known with named := known.named.insert path content }
  | .included name _ => { known with included := known.included.insert name content }

/-- The path of a file that has to be read. -/
def Need.path : Need → String
  | .named path => path
  | .included _ path => path

end Shadeloom.CommandLine
