import Shadeloom.Json.Codec
import Shadeloom.Source.Parser
/-!
# Validity

A source is valid when its brackets are balanced and its tree passes the check. The check stops
at the first problem: a missing expression, no variable at all, then the variables, the literals
and the operations, each in preorder.
-/
namespace Shadeloom

/-- What is wrong with the name of a variable. -/
inductive NameFault where
  | noLetter
  | badCharacter
  deriving Repr, DecidableEq, Inhabited

/-- The text of a name fault. -/
def NameFault.reason : NameFault → String
  | noLetter => "doesn't start with a letter"
  | badCharacter => "contains non-alphanumeric character or expression cannot be parsed"

/-- The first thing that is wrong with an expression. -/
inductive Problem where
  | unbalancedBrackets (expression : String)
  | emptyExpression
  | noVariables
  | badVariableName (variableText : String) (fault : NameFault)
  | badSubscript (variableText subscript : String)
  | nonNumericLiteral (value : String)
  | arityMismatch (function : String) (min max found : Nat)
  | unknownFunction (function : String)
  | missingArgument (function : String)
  deriving Repr, DecidableEq, Inhabited

namespace Problem

/-- The text of a problem. -/
def message : Problem → String
  | unbalancedBrackets expression => "Unmatched brackets in '" ++ expression ++ "'"
  | emptyExpression => "Must enter an expression"
  | noVariables => "No variables"
  | badVariableName variableText fault => "Variable '" ++ variableText ++ "' " ++ fault.reason
  | badSubscript variableText subscript =>
    "Variable '" ++ variableText ++ "' has unknown element '[" ++ subscript ++ "]'"
  | nonNumericLiteral value => "Value '" ++ value ++ "' is not numeric"
  | arityMismatch function _ _ found =>
    "Function '" ++ function ++ "' called with incorrect number of arguments (" ++
      toString found ++ ")"
  | unknownFunction function => "Function '" ++ function ++ "' is not recognised"
  | missingArgument function => "Function '" ++ function ++ "' is missing an argument"

/-- The name of the kind of a problem. -/
def kind : Problem → String
  | unbalancedBrackets _ => "UnbalancedBrackets"
  | emptyExpression => "EmptyExpression"
  | noVariables => "NoVariables"
  | badVariableName _ _ => "BadVariableName"
  | badSubscript _ _ => "BadSubscript"
  | nonNumericLiteral _ => "NonNumericLiteral"
  | arityMismatch _ _ _ _ => "ArityMismatch"
  | unknownFunction _ => "UnknownFunction"
  | missingArgument _ => "MissingArgument"

/-- The data of a problem by name. -/
def details : Problem → List (String × Json)
  | unbalancedBrackets expression => [("expression", .str expression)]
  | emptyExpression => []
  | noVariables => []
  | badVariableName variableText fault =>
    [("variable", .str variableText), ("reason", .str fault.reason)]
  | badSubscript variableText subscript =>
    [("variable", .str variableText), ("subscript", .str subscript)]
  | nonNumericLiteral value => [("value", .str value)]
  | arityMismatch function min max found =>
    [("function", .str function), ("min", Json.ofNat min), ("max", Json.ofNat max),
      ("found", Json.ofNat found)]
  | unknownFunction function => [("function", .str function)]
  | missingArgument function => [("function", .str function)]

/-- The stored form of a problem: its kind with its data, if it has any. -/
def toJson (problem : Problem) : Json :=
  if problem.details.isEmpty then .str problem.kind
  else Json.tagged problem.kind (.obj problem.details)

end Problem

namespace Variable

/-- The socket of a vector that a component subscript selects. -/
def component? : String → Option Nat
  | "x" | "r" | "0" => some 0
  | "y" | "g" | "1" => some 1
  | "z" | "b" | "2" => some 2
  | _ => none

/-- The characters of a name without a leading underscore. -/
def shownName (v : Variable) : List Char :=
  match v.name.toList with
  | '_' :: rest => rest
  | name => name

/-- Whether a subscript may stand after a variable that is no instance reference. -/
def isKnownSubscript (subscript : String) : Bool :=
  subscript = "" || (component? subscript).isSome

/-- Whether a character may stand in a name. -/
def isNameChar (c : Char) : Bool :=
  Text.isAlphanumeric c || c = '.' || c = ':' || c = '_'

/-- Checks the name of a variable. -/
def checkName (v : Variable) : Except Problem Unit :=
  if !v.shownName.head?.any Text.isAlphabetic then
    .error (.badVariableName v.text .noLetter)
  else if !v.shownName.all isNameChar then
    .error (.badVariableName v.text .badCharacter)
  else .ok ()

/-- Checks the subscript of a variable; those of instance references name sockets. -/
def checkSubscript (v : Variable) : Except Problem Unit :=
  match v.subscript with
  | none => .ok ()
  | some subscript =>
    if (Text.dropStart? Function.instanceMark.toList v.shownName).isSome ||
        isKnownSubscript subscript then .ok ()
    else .error (.badSubscript v.text subscript)

/-- The number that a default is. -/
def readDefault? (text : String) : Option Float :=
  Decimal.read? (Text.trim text.toList)

/-- Checks the default of a variable. -/
def checkDefault (v : Variable) : Except Problem Unit :=
  match v.fallback with
  | none => .ok ()
  | some text =>
    if (readDefault? text).isSome then .ok () else .error (.nonNumericLiteral text)

/-- Checks a variable. -/
def check (v : Variable) : Except Problem Unit := do
  v.checkName
  v.checkSubscript
  v.checkDefault

end Variable

/-- Checks that a literal is quoted or a number. -/
def Literal.check (literal : Literal) : Except Problem Unit :=
  if literal.number?.isSome || literal.isQuoted then .ok ()
  else .error (.nonNumericLiteral literal.text)

namespace Expr

/-- Checks a call of a function with operands. -/
def checkCall (function : String) (operands : List Expr) : Except Problem Unit :=
  if operands.any isEmpty then .error (.missingArgument function)
  else if (Function.calledGroup? function).isSome then .ok ()
  else
    match Function.find? function with
    | none => .error (.unknownFunction function)
    | some entry =>
      if entry.accepts operands.length then .ok ()
      else .error (.arityMismatch function entry.minArgs entry.maxArgs operands.length)

/-- Checks the operation at the root of a tree; chains and assignments are none. -/
def checkOperation (e : Expr) : Except Problem Unit :=
  match e with
  | .binary op _ _ => if op.isStructural then .ok () else checkCall op.symbol e.operands
  | _ =>
    match e.operation? with
    | none => .ok ()
    | some function => checkCall function e.operands

/-- Checks a tree. -/
def check (e : Expr) : Except Problem Unit := do
  if e.isEmpty then throw .emptyExpression
  if e.usedVariables = [] then throw .noVariables
  e.usedVariables.forM Variable.check
  e.literals.forM Literal.check
  e.preorder.forM checkOperation

end Expr

namespace Source

/-- The tree of a source that is valid. -/
def validate (source : String) : Except Problem Expr := do
  if !isBalanced source then throw (.unbalancedBrackets source)
  let e := parse source
  e.check
  pure e

end Source

end Shadeloom
