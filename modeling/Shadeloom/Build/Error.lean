import Shadeloom.Decimal.Layout
import Shadeloom.Graph.Basic
/-!
# Build errors

Why a tree cannot be built into a graph, with the text of each error.
-/
namespace Shadeloom

/-- What is wrong with the settings of a call. -/
inductive SettingFault where
  | unknownOption (word : String)
  | notANumber (argument : String)
  | notACount (argument : String)
  /-- A literal stands where a quoted name is expected. -/
  | unquotedLiteral (literal : String)
  /-- Something else stands where a quoted name is expected. -/
  | notALiteral (argument : String)
  | colorWithoutPosition (color : String)
  | positionOutside (position : Float)
  | positionWithoutColor (position : Float)
  | unexpectedValue (argument : String)
  deriving Repr, DecidableEq, Inhabited

/-- The text of a fault in settings. -/
def SettingFault.reason : SettingFault → String
  | unknownOption word => "unknown option '" ++ word ++ "'"
  | notANumber argument => "'" ++ argument ++ "' is not a number"
  | notACount argument => "'" ++ argument ++ "' is not a positive whole number"
  | unquotedLiteral literal => "expected a quoted name, found " ++ literal
  | notALiteral argument => "expected a quoted name, found '" ++ argument ++ "'"
  | colorWithoutPosition color => "color '" ++ color ++ "' has no position before it"
  | positionOutside position =>
    "position " ++ Decimal.messageText position ++ " is outside 0..1"
  | positionWithoutColor position =>
    "position " ++ Decimal.messageText position ++ " has no color"
  | unexpectedValue argument => "unexpected value '" ++ argument ++ "'"

/-- What is wrong with a directive or an assignment. -/
inductive DirectiveFault where
  | noGroupName
  | notOneGroupName
  | noInstanceName
  | notAName (argument : String)
  | notAnInput (argument : String)
  | componentInput (variableText : String)
  | unassignable (target : String)
  deriving Repr, DecidableEq, Inhabited

/-- The text of a fault in a directive. -/
def DirectiveFault.reason : DirectiveFault → String
  | noGroupName => "expects a group name"
  | notOneGroupName => "expects one group name"
  | noInstanceName => "expects a group name and an instance name"
  | notAName argument => "'" ++ argument ++ "' is not a name"
  | notAnInput argument => "'" ++ argument ++ "' is not an input name"
  | componentInput variableText => "input '" ++ variableText ++ "' cannot select a component"
  | unassignable target => "cannot assign to '" ++ target ++ "'"

/-- Why a tree cannot be built. -/
inductive BuildError where
  | unknownOperation (name : String)
  | unexpectedComma
  | missingGroupContext (name : String)
  | unbalancedBrackets (expression : String)
  | tooManyArguments (function : String) (max : Nat)
  | missingOperand (function : String)
  | invalidLiteral (value : String)
  | badSubscript (variableText subscript : String)
  | unknownGroup (name : String)
  | unknownInstance (name : String)
  | unknownSocket (instanceName socket : String)
  | invalidDirective (directive : String) (fault : DirectiveFault)
  | misplacedDirective (directive : String)
  | invalidConfiguration (function : String) (fault : SettingFault)
  | groupMismatch (expected found : String)
  | unterminatedGroup (name : String)
  | cyclicDefinition (name : String)
  /-- An operation on the graph is refused. -/
  | graph (error : GraphError)
  deriving Repr, DecidableEq, Inhabited

/-- The text of a build error. -/
def BuildError.message : BuildError → String
  | unknownOperation name => "unknown operation '" ++ name ++ "'"
  | unexpectedComma => "unexpected ',' outside a function call"
  | missingGroupContext name => "'" ++ name ++ "' ends a group but no group is open"
  | unbalancedBrackets expression => "unmatched brackets in '" ++ expression ++ "'"
  | tooManyArguments function max =>
    "'" ++ function ++ "' takes at most " ++ toString max ++ " argument(s)"
  | missingOperand function => "'" ++ function ++ "' is missing an operand"
  | invalidLiteral value => "'" ++ value ++ "' is not a number"
  | badSubscript variableText subscript =>
    "variable '" ++ variableText ++ "' has unknown element '[" ++ subscript ++ "]'"
  | unknownGroup name => "group '" ++ name ++ "' is not defined"
  | unknownInstance name => "no group instance named '" ++ name ++ "'"
  | unknownSocket instanceName socket =>
    "group instance '" ++ instanceName ++ "' has no output '" ++ socket ++ "'"
  | invalidDirective directive fault => "invalid '" ++ directive ++ "': " ++ fault.reason
  | misplacedDirective directive => "'" ++ directive ++ "' can only be used as a statement"
  | invalidConfiguration function fault =>
    "invalid '" ++ function ++ "' settings: " ++ fault.reason
  | groupMismatch expected found =>
    "'" ++ found ++ "' ends a group but the open group is '" ++ expected ++ "'"
  | unterminatedGroup name => "group '" ++ name ++ "' is never ended"
  | cyclicDefinition name => "'" ++ name ++ "' is defined in terms of itself"
  | graph error => error.message

/-- An edit of a graph as a step of a build. -/
def GraphError.lift {α : Type} : Except GraphError α → Except BuildError α :=
  Except.mapError .graph

end Shadeloom
