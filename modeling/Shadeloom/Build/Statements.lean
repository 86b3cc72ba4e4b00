import Shadeloom.Build.Cleanup
import Shadeloom.Build.Lowering
/-!
# Statements

A build goes through the statements of a tree in order. A statement is a directive, an output with
a name or a bare expression; it belongs to the innermost group that is open, or to the root. A
group that ends is cleaned up and kept in the library, and the root is cleaned up at the end.
-/
namespace Shadeloom

/-- A group that has been started. -/
structure OpenGroup where
  name : String
  scope : Scope

/-- A build between two statements. -/
structure Builder where
  options : BuildOptions
  root : Scope
  /-- The groups that are open, the innermost first. -/
  opened : List OpenGroup
  library : Library

namespace Builder

/-- The name of the outermost graph. -/
def rootName : String := "root"

/-- The name of the output of a bare expression. -/
def bareOutput : String := "Value"

/-- A build before the first statement. -/
def start (options : BuildOptions) : Builder where
  options
  root := .empty rootName
  opened := []
  library := .empty

/-- The innermost scope. -/
def scope (builder : Builder) : Scope :=
  match builder.opened with
  | [] => builder.root
  | group :: _ => group.scope

/-- Replaces the innermost scope. -/
def setScope (builder : Builder) (scope : Scope) : Builder :=
  match builder.opened with
  | [] => { builder with root := scope }
  | group :: rest => { builder with opened := { group with scope } :: rest }

/-- The name that an argument of a directive is. -/
def plainName (directive : String) (argument : Expr) : Except BuildError String :=
  match argument with
  | .var ⟨name, none, none⟩ => .ok name
  | _ => .error (.invalidDirective directive (.notAName argument.text))

/-- The name and the type of the output that an assignment names. -/
def outputTarget (target : Expr) : Except BuildError (String × SocketType) :=
  match target with
  | .var ⟨name, _, none⟩ => .ok (name, .scalar)
  | .var ⟨name, _, some ""⟩ => .ok (name, .vector)
  | _ => .error (.invalidDirective "=" (.unassignable target.text))

/-- Builds an expression into an output of the innermost scope. -/
def output (builder : Builder) (name : String) (type : SocketType) (e : Expr) :
    Except BuildError Builder := do
  if e.isEmpty then throw (.missingOperand name)
  let scope := builder.scope
  let (id, graph) := scope.graph.addOutput name type
  let scope ← lowerInto builder.library builder.options.optimize e ⟨id, 0⟩ { scope with graph }
  .ok (builder.setScope scope)

/-- The type of an input that a group declares. -/
def declaredType (directive : String) (v : Variable) : Except BuildError SocketType :=
  match v.subscript with
  | none => .ok .scalar
  | some "" => .ok .vector
  | some _ => .error (.invalidDirective directive (.componentInput v.text))

/-- Adds an input that a group declares. -/
def declareInput (directive : String) (scope : Scope) (argument : Expr) :
    Except BuildError Scope :=
  match argument with
  | .var v => do
    let type ← declaredType directive v
    let scope ← scope.noteDefault v
    .ok (scope.addInput v.name type).2
  | _ => .error (.invalidDirective directive (.notAnInput argument.text))

/-- Starts a group with its inputs. -/
def startGroup (builder : Builder) (directive : String) (arguments : List Expr) :
    Except BuildError Builder :=
  match arguments with
  | [] => .error (.invalidDirective directive .noGroupName)
  | name :: inputs => do
    let name ← plainName directive name
    let scope ← inputs.foldlM (declareInput directive) (.empty name)
    .ok { builder with opened := ⟨name, scope⟩ :: builder.opened }

/-- Cleans up a scope; gives the graph that it has become and the library. -/
def close (builder : Builder) (scope : Scope) : Except BuildError Site :=
  let (result, site) :=
    cleanUp scope.declarations builder.options ⟨scope.graph, builder.library⟩
  result.map fun _ => site

/-- Ends the innermost group and keeps it as the definition of its name. -/
def endGroup (builder : Builder) (directive : String) (arguments : List Expr) :
    Except BuildError Builder :=
  match arguments with
  | [name] => do
    let name ← plainName directive name
    match builder.opened with
    | [] => throw (.missingGroupContext name)
    | group :: rest =>
      if group.name ≠ name then throw (.groupMismatch group.name name)
      let site ← builder.close group.scope
      .ok { builder with opened := rest, library := site.library.insert name site.graph }
  | _ => .error (.invalidDirective directive .notOneGroupName)

/-- Adds an instance of a group under a name of its own. -/
def addInstance (builder : Builder) (directive : String) (arguments : List Expr) :
    Except BuildError Builder :=
  match arguments with
  | group :: called :: inputs => do
    let group ← plainName directive group
    let called ← plainName directive called
    let recipe ← Recipe.ofGroup builder.library directive group inputs
    let scope := builder.scope
    let id := scope.graph.nextNode
    let scope ← feed builder.library builder.options.optimize recipe.operands id
      (scope.addNode recipe.node)
    let graph ← GraphError.lift (scope.graph.setLabel id (some called))
    .ok (builder.setScope { scope with graph, instances := scope.instances.insert called id })
  | _ => .error (.invalidDirective directive .noInstanceName)

/-- Carries out a directive. -/
def directive (builder : Builder) (directive : Directive) (name : String)
    (arguments : List Expr) : Except BuildError Builder :=
  match directive with
  | .groupStart => builder.startGroup name arguments
  | .groupEnd => builder.endGroup name arguments
  | .groupAdd => builder.addInstance name arguments
  | .inputs => do
    let names ← arguments.mapM (plainName name)
    let scope := builder.scope
    .ok (builder.setScope { scope with declaredInputs := scope.declaredInputs ++ names })
  | .outputs => do
    let names ← arguments.mapM (plainName name)
    let scope := builder.scope
    .ok (builder.setScope { scope with declaredOutputs := scope.declaredOutputs ++ names })

/-- The directive that a name calls. -/
def directive? (name : String) : Option Directive :=
  match (Function.find? name).map Function.role with
  | some (.directive directive) => some directive
  | _ => none

/-- Builds a statement. -/
def statement (builder : Builder) (e : Expr) : Except BuildError Builder :=
  let builder :=
    if builder.options.isolateStatements then builder.setScope builder.scope.forget else builder
  match e with
  | .empty => .ok builder
  | .call name args =>
    match directive? name with
    | some directive => builder.directive directive name args.arguments
    | none => builder.output bareOutput .scalar e
  | .binary .assign target value => do
    let (name, type) ← outputTarget target
    builder.output name type value
  | _ => builder.output bareOutput .scalar e

/-- Ends a build: no group may be open, and the root is cleaned up. -/
def finish (builder : Builder) : Except BuildError Site :=
  match builder.opened with
  | group :: _ => .error (.unterminatedGroup group.name)
  | [] => builder.close builder.root

end Builder

/-- Builds a tree into a graph and the definitions of its groups. -/
def Expr.build (e : Expr) (options : BuildOptions) : Except BuildError Site := do
  (← e.arguments.foldlM Builder.statement (.start options)).finish

end Shadeloom
