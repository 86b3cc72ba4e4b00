import Shadeloom.Build.Error
import Shadeloom.Validity
/-!
# Scopes

The root and every open group are scopes: a graph that is being filled, and what is known about
it. An input is made when its variable is first read, and a vector is split at most once for all
its components.
-/
namespace Shadeloom

/-- A graph that is being built. -/
structure Scope where
  graph : Graph
  /-- The sockets of trees that have been built, the last one first. -/
  built : List (Expr × Socket)
  /-- The nodes that split vectors, by the name of the variable. -/
  splits : Table String Nat
  /-- The defaults written for inputs, the last one for each. -/
  defaults : Table String Float
  /-- The inputs to be shown; all of them if none is named. -/
  declaredInputs : List String
  /-- The outputs to be shown; all of them if none is named. -/
  declaredOutputs : List String
  /-- The instances of groups by the names given to them. -/
  instances : Table String Nat

namespace Scope

/-- An empty scope. -/
def empty (name : String) : Scope where
  graph := .empty name
  built := []
  splits := .empty
  defaults := .empty
  declaredInputs := []
  declaredOutputs := []
  instances := .empty

/-- Whether a port is shown under a declaration. -/
def isDeclared (declared : List String) (name : String) : Bool :=
  declared.isEmpty || declared.contains name

/-- Forgets which trees have been built and which vectors split. -/
def forget (scope : Scope) : Scope :=
  { scope with built := [], splits := .empty }

/-- The socket of a tree that has been built, if sockets are used again. -/
def remembered? (scope : Scope) (reuse : Bool) (e : Expr) : Option Socket :=
  if reuse then (scope.built.find? fun entry => entry.1.same e).map Prod.snd else none

/-- Keeps the socket of a tree, if sockets are used again. -/
def remember (scope : Scope) (reuse : Bool) (e : Expr) (socket : Socket) : Scope :=
  if reuse then { scope with built := (e, socket) :: scope.built } else scope

/-- Links two sockets. -/
def connect (scope : Scope) (source target : Socket) : Except BuildError Scope := do
  .ok { scope with graph := ← GraphError.lift (scope.graph.connect source target) }

/-- Adds a node. -/
def addNode (scope : Scope) (node : Node) : Scope :=
  { scope with graph := scope.graph.addNode node }

/-- The input of a name, and the scope with it. -/
def addInput (scope : Scope) (name : String) (type : SocketType) : Nat × Scope :=
  let (id, graph) := scope.graph.addInput name type
  (id, { scope with graph })

/-- The number that the text of a default is. -/
def readDefault (text : String) : Except BuildError Float :=
  match Variable.readDefault? text with
  | some number => .ok number
  | none => .error (.invalidLiteral text)

/-- Sets the default that is written for an input, if there is one. -/
def noteDefault (scope : Scope) (v : Variable) : Except BuildError Scope :=
  match v.fallback with
  | none => .ok scope
  | some text => do
    .ok { scope with defaults := scope.defaults.insert v.name (← readDefault text) }

/-- The output socket of an instance that a reference names; without a name it is the first. -/
def instanceOutput (scope : Scope) (name : String) (subscript : Option String) :
    Except BuildError Socket := do
  match scope.instances.get? name with
  | none => .error (.unknownInstance name)
  | some id =>
    match subscript with
    | none => .ok ⟨id, 0⟩
    | some "" => .ok ⟨id, 0⟩
    | some socket =>
      match (scope.graph.node? id).bind fun node => node.outputIndex? socket with
      | some place => .ok ⟨id, place⟩
      | none => .error (.unknownSocket name socket)

/-- The node that splits the vector of a variable, and the scope with it. -/
def split (scope : Scope) (name : String) (input : Nat) : Except BuildError (Nat × Scope) :=
  match scope.splits.get? name with
  | some id => .ok (id, scope)
  | none => do
    let id := scope.graph.nextNode
    let scope ← (scope.addNode (.ofOp .separateXyz)).connect ⟨input, 0⟩ ⟨id, 0⟩
    .ok (id, { scope with splits := scope.splits.insert name id })

/-- The socket that a variable reads: an input, a component of one, or an output of an instance. -/
def readVariable (scope : Scope) (v : Variable) : Except BuildError (Socket × Scope) := do
  match Text.afterStart? Function.instanceMark v.name with
  | some name => .ok (← scope.instanceOutput name v.subscript, scope)
  | none =>
    let scope ← scope.noteDefault v
    match v.subscript with
    | none =>
      let (id, scope) := scope.addInput v.name .scalar
      .ok (⟨id, 0⟩, scope)
    | some "" =>
      let (id, scope) := scope.addInput v.name .vector
      .ok (⟨id, 0⟩, scope)
    | some subscript =>
      match Variable.component? subscript with
      | none => .error (.badSubscript v.text subscript)
      | some place =>
        let (id, scope) := scope.addInput v.name .vector
        let (id, scope) ← scope.split v.name id
        .ok (⟨id, place⟩, scope)

end Scope

end Shadeloom
