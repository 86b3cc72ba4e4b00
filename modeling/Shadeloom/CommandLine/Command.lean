import Shadeloom.CommandLine.Arguments
/-!
# Commands

What the arguments of the program ask for: to check an expression, to build one or a file into a
graph, to evaluate one, or to list the functions. The first argument that is no option names the
command; how much is logged may be asked for before and after it.
-/
namespace Shadeloom.CommandLine

/-- What is to be built, and how. -/
structure BuildRequest where
  expression : Option String
  file : Option String
  /-- The file of stored options. -/
  optionsFile : Option String
  /-- The names of the lines to be kept. -/
  enabled : List String
  noOptimize : Bool
  noFold : Bool
  keepUnused : Bool
  resequence : Bool
  noValidate : Bool
  deriving Repr, DecidableEq, Inhabited

/-- What is to be done. -/
inductive Command where
  | check (expression : String)
  | build (request : BuildRequest)
  | eval (expression : String) (settings : List String)
  | functions
  deriving Repr, DecidableEq, Inhabited

namespace Command

/-- The options of every command. -/
def commonOptions : List OptionSpec :=
  [⟨some 'v', "verbose", .count⟩, ⟨some 'h', "help", .help⟩]

/-- The options of building. -/
def buildOptions : List OptionSpec := [
  ⟨some 'f', "file", .one⟩,
  ⟨none, "options", .one⟩,
  ⟨some 'e', "enable", .many⟩,
  ⟨none, "no-optimize", .nothing⟩,
  ⟨none, "no-fold", .nothing⟩,
  ⟨none, "keep-unused", .nothing⟩,
  ⟨none, "resequence", .nothing⟩,
  ⟨none, "no-validate", .nothing⟩]

/-- The options of evaluating. -/
def evalOptions : List OptionSpec := [⟨some 's', "set", .many⟩]

/-- The command to check, from its arguments. -/
def ofCheck (arguments : Arguments) : Except Unusable Command :=
  match arguments.positional with
  | [expression] => .ok (.check expression)
  | _ => .error .misuse

/-- The command to build, from its arguments: an expression or a file. -/
def ofBuild (arguments : Arguments) : Except Unusable Command :=
  let request (expression : Option String) : BuildRequest := {
    expression
    file := (arguments.values "file").head?
    optionsFile := (arguments.values "options").head?
    enabled := arguments.values "enable"
    noOptimize := arguments.has "no-optimize"
    noFold := arguments.has "no-fold"
    keepUnused := arguments.has "keep-unused"
    resequence := arguments.has "resequence"
    noValidate := arguments.has "no-validate" }
  match arguments.positional, arguments.has "file" with
  | [expression], false => .ok (.build (request (some expression)))
  | [], true => .ok (.build (request none))
  | _, _ => .error .misuse

/-- The command to evaluate, from its arguments. -/
def ofEval (arguments : Arguments) : Except Unusable Command :=
  match arguments.positional with
  | [expression] => .ok (.eval expression (arguments.values "set"))
  | _ => .error .misuse

/-- The command to list functions, from its arguments. -/
def ofFunctions (arguments : Arguments) : Except Unusable Command :=
  match arguments.positional with
  | [] => .ok .functions
  | _ => .error .misuse

/-- The names of the commands that help may be asked for. -/
def names : List String := ["check", "build", "eval", "functions", "help"]

/-- What asking for help comes to: help, for at most one command that there is. -/
def askHelp : List String → Unusable
  | [] => .help
  | [name] => if names.contains name then .help else .misuse
  | _ => .misuse

/-- The command of a name with the arguments after the name. -/
def ofName (name : String) (rest : List String) : Except Unusable Command := do
  match name with
  | "check" => ofCheck (← Arguments.empty.sort ⟨commonOptions, 1⟩ rest)
  | "build" => ofBuild (← Arguments.empty.sort ⟨commonOptions ++ buildOptions, 1⟩ rest)
  | "eval" => ofEval (← Arguments.empty.sort ⟨commonOptions ++ evalOptions, 1⟩ rest)
  | "functions" => ofFunctions (← Arguments.empty.sort ⟨commonOptions, 0⟩ rest)
  | "help" => throw (askHelp rest)
  | _ => throw .misuse

/-- The command of the arguments of the program. -/
def ofArguments : List String → Except Unusable Command
  | [] => .error .misuse
  | argument :: rest =>
    match Arguments.shape argument with
    | .plain => ofName argument rest
    | .separator => .error .misuse
    | _ => do
      let _ ← Arguments.empty.sort ⟨commonOptions, 0⟩ [argument]
      ofArguments rest

end Command

end Shadeloom.CommandLine
