import Shadeloom.Text.Lines
/-!
# Arguments of a command line

An argument is an option, the value of an option, or positional. Options have a long name after
two dashes and may have a letter after one dash; letters may be joined, and a value may follow
its option directly or after an equals sign. After a lone `--` everything is positional. Nothing
that looks like an option is taken as the value of another one. Arguments are sorted in the order
given: the first one that has no place, or asks for help, decides.
-/
namespace Shadeloom.CommandLine

/-- What an option takes, and how often it may be given. -/
inductive Takes where
  | nothing
  /-- Nothing, any number of times. -/
  | count
  /-- A value that is not empty. -/
  | one
  /-- A value each time, any number of times. -/
  | many
  /-- Nothing: it asks for help, and the rest does not matter. -/
  | help
  deriving Repr, DecidableEq, Inhabited

/-- An option that a command has. -/
structure OptionSpec where
  letter : Option Char
  name : String
  takes : Takes
  deriving Repr, DecidableEq, Inhabited

namespace OptionSpec

/-- Whether the option takes a value. -/
def takesValue (spec : OptionSpec) : Bool :=
  spec.takes = .one || spec.takes = .many

/-- Whether the option may be given again. -/
def isRepeatable (spec : OptionSpec) : Bool :=
  spec.takes = .count || spec.takes = .many

end OptionSpec

/-- The arguments that a command has a place for. -/
structure Places where
  options : List OptionSpec
  /-- How many positional arguments there may be. -/
  positional : Nat
  deriving Repr, DecidableEq, Inhabited

/-- Why arguments do not say what is to be done. -/
inductive Unusable where
  | help
  | misuse
  deriving Repr, DecidableEq, Inhabited

/-- Arguments sorted into options and positional ones, each in the order given. -/
structure Arguments where
  /-- The names of the options with their values, empty for those that take none. -/
  options : List (String × String)
  positional : List String
  deriving Repr, DecidableEq, Inhabited

namespace Arguments

/-- No arguments. -/
def empty : Arguments := ⟨[], []⟩

/-- Whether an option is given. -/
def has (arguments : Arguments) (name : String) : Bool :=
  arguments.options.any fun option => option.1 = name

/-- The values of an option. -/
def values (arguments : Arguments) (name : String) : List String :=
  (arguments.options.filter fun option => option.1 = name).map Prod.snd

/-- Adds an option with its value, unless it may not be given again or lacks its value. -/
def addOption (arguments : Arguments) (spec : OptionSpec) (value : String) :
    Except Unusable Arguments :=
  if spec.takes = .help then .error .help
  else if arguments.has spec.name && !spec.isRepeatable then .error .misuse
  else if spec.takes = .one && value = "" then .error .misuse
  else .ok { arguments with options := arguments.options ++ [(spec.name, value)] }

/-- Adds a positional argument, unless there is no place for it. -/
def addPositional (arguments : Arguments) (places : Places) (value : String) :
    Except Unusable Arguments :=
  if arguments.positional.length < places.positional then
    .ok { arguments with positional := arguments.positional ++ [value] }
  else .error .misuse

/-- Adds the options of joined letters; gives the one that still lacks its value, if there is
one. -/
def addLetters (specs : List OptionSpec) (arguments : Arguments) :
    List Char → Except Unusable (Arguments × Option OptionSpec)
  | [] => .ok (arguments, none)
  | letter :: rest =>
    match specs.find? fun spec => spec.letter = some letter with
    | none => .error .misuse
    | some spec =>
      if spec.takesValue then
        match rest with
        | [] => .ok (arguments, some spec)
        | '=' :: value => do .ok (← arguments.addOption spec (String.ofList value), none)
        | value => do .ok (← arguments.addOption spec (String.ofList value), none)
      else do
        (← arguments.addOption spec "").addLetters specs rest

/-- Adds an option by its long name, with what follows an equals sign; gives the option if it
still lacks its value. -/
def addNamed (specs : List OptionSpec) (arguments : Arguments) (text : List Char) :
    Except Unusable (Arguments × Option OptionSpec) :=
  let (name, value) :=
    match Text.splitAtFirst? '=' text with
    | some (name, value) => (name, some (String.ofList value))
    | none => (text, none)
  match specs.find? fun spec => spec.name = String.ofList name with
  | none => .error .misuse
  | some spec =>
    match value with
    | some value =>
      if spec.takesValue then do .ok (← arguments.addOption spec value, none)
      else .error .misuse
    | none =>
      if spec.takesValue then .ok (arguments, some spec)
      else do .ok (← arguments.addOption spec "", none)

/-- What an argument looks like. -/
inductive Shape where
  | separator
  | named (text : List Char)
  | letters (text : List Char)
  | plain
  deriving Repr, DecidableEq

/-- The look of an argument; a lone dash is plain. -/
def shape (argument : String) : Shape :=
  match argument.toList with
  | ['-', '-'] => .separator
  | '-' :: '-' :: text => .named text
  | '-' :: c :: text => .letters (c :: text)
  | _ => .plain

mutual

/-- Sorts arguments. -/
def sort (places : Places) (arguments : Arguments) : List String → Except Unusable Arguments
  | [] => .ok arguments
  | argument :: rest =>
    match shape argument with
    | .separator =>
      rest.foldlM (fun arguments value => arguments.addPositional places value) arguments
    | .named text => do
      let (arguments, pending) ← arguments.addNamed places.options text
      supply places arguments pending rest
    | .letters text => do
      let (arguments, pending) ← arguments.addLetters places.options text
      supply places arguments pending rest
    | .plain => do sort places (← arguments.addPositional places argument) rest
termination_by rest => (rest.length, 0)

/-- Sorts arguments of which the first one is the value of an option, if one lacks its value. -/
def supply (places : Places) (arguments : Arguments) (pending : Option OptionSpec)
    (rest : List String) : Except Unusable Arguments :=
  match pending, rest with
  | none, rest => sort places arguments rest
  | some _, [] => .error .misuse
  | some spec, value :: rest =>
    if shape value = .plain then do
      sort places (← arguments.addOption spec value) rest
    else .error .misuse
termination_by (rest.length, 1)

end

end Arguments

end Shadeloom.CommandLine
