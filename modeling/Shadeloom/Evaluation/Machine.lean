import Shadeloom.Evaluation.Operator
import Shadeloom.Graph.Assembly
/-!
# Evaluation

A machine evaluates a graph one node at a time, in an order in which every node comes after those
that it is linked from. It keeps the values of all evaluated nodes, so that an evaluation which
stops shows how far it came. An instance of a group is evaluated by a machine of its own within
one step, up to a limit of nesting.
-/
namespace Shadeloom

/-- Values by name. -/
abbrev Assignment := Table String Value

/-- How evaluations are run. -/
structure EvalConfig where
  /-- Whether every evaluated node is recorded. -/
  trace : Bool
  /-- Whether every input that is shown has to be given. -/
  requireInputs : Bool
  /-- How deep instances may be nested. -/
  maxDepth : Nat
  deriving Repr, DecidableEq, Inhabited

/-- Nothing is recorded, inputs have defaults, and instances may be nested 64 deep. -/
def EvalConfig.standard : EvalConfig := ⟨false, false, 64⟩

/-- A record of the evaluation of a node. -/
structure TraceEntry where
  node : Nat
  op : String
  inputs : List Value
  outputs : List Value
  deriving Repr, Inhabited, DecidableEq

/-- How far a machine is. -/
inductive Phase where
  | ready
  | running
  | completed (outputs : Assignment)
  /-- Stopped, with the values of the nodes evaluated before. -/
  | failed (error : EvalError) (values : Table Nat (List Value))
  deriving Repr, Inhabited, DecidableEq

/-- The state of an evaluation. -/
structure Machine where
  phase : Phase
  /-- The nodes in the order in which they are evaluated. -/
  order : List Nat
  /-- How many nodes of the order have been tried. -/
  cursor : Nat
  /-- The values given for the inputs. -/
  supplied : Assignment
  /-- The values of the output sockets of the evaluated nodes. -/
  values : Table Nat (List Value)
  outputs : Assignment
  /-- The records of the evaluated nodes, in order. -/
  trace : List TraceEntry
  deriving Repr, Inhabited, DecidableEq

/-- A way to evaluate a graph for an assignment. -/
abbrev Evaluator := Graph → Assignment → Except EvalError Assignment

/-- What an evaluation depends on: the graph, the definitions of groups, and how instances are
evaluated where they may still be nested. -/
structure Setting where
  graph : Graph
  library : Library
  config : EvalConfig
  nested : Option Evaluator

namespace Machine

/-- A machine that is not started. -/
def fresh : Machine := ⟨.ready, [], 0, .empty, .empty, .empty, []⟩

/-- Stops with an error; the values go with it. -/
def fail (machine : Machine) (error : EvalError) : Machine :=
  { machine with phase := .failed error machine.values, values := .empty }

/-- Checks the names of an assignment and finds the order of evaluation. -/
def prepare (setting : Setting) (supplied : Assignment) : Except EvalError (List Nat) := do
  match supplied.keys.find? fun name => (setting.graph.input? name).isNone with
  | some name => throw (.unknownInput name)
  | none => pure ()
  if setting.config.requireInputs then
    match setting.graph.exposedInputs.find? fun entry => !supplied.contains entry.1 with
    | some entry => throw (.missingInput entry.1)
    | none => pure ()
  match setting.graph.order with
  | .ok order => pure order
  | .error (.cycle node) => throw (.cycleDetected node)
  | .error (.stray number) => throw (.strayLink number)

/-- Starts with an assignment. What was evaluated before a second start is kept. -/
def start (setting : Setting) (supplied : Assignment) (machine : Machine) : Machine :=
  match prepare setting supplied with
  | .ok order => { machine with phase := .running, order, supplied }
  | .error error => machine.fail error

/-- The value that an input socket reads: that of the output socket it is linked to, if it has
one, otherwise the default. -/
def read (graph : Graph) (values : Table Nat (List Value)) (id place : Nat)
    (socket : InputSocket) : Value :=
  let linked := (graph.source? ⟨id, place⟩).bind fun source =>
    (values.get? source.node).bind fun outputs => outputs[source.place]?
  (linked.getD socket.default).convert socket.type

/-- The values that the input sockets of a node read. -/
def readAll (graph : Graph) (values : Table Nat (List Value)) (id : Nat) (node : Node) :
    List Value :=
  node.inputs.zipIdx.map fun (socket, place) => read graph values id place socket

/-- The values of the output sockets of an instance: those of the outputs of the definition by
name, zero where there is none. -/
def evalInstance (setting : Setting) (id : Nat) (node : Node) (group : String)
    (inputs : List Value) : Except EvalError (List Value) :=
  match setting.nested with
  | none => .error (.recursionLimitExceeded id setting.config.maxDepth)
  | some evaluate =>
    match setting.library.get? group with
    | none => .error (.unknownGroup id group)
    | some definition => do
      let outputs ← evaluate definition
        (.ofList ((node.inputs.map InputSocket.name).zip inputs))
      .ok (node.outputs.map fun socket =>
        ((outputs.get? socket.name).getD (.scalar 0.0)).convert socket.type)

/-- The values of the output sockets of a node. -/
def evalNode (setting : Setting) (supplied : Assignment) (id : Nat) (node : Node)
    (inputs : List Value) : Except EvalError (List Value) :=
  match node.op with
  | .input port => .ok [((supplied.get? port.name).getD port.default).convert port.type]
  | .output _ => .ok []
  | .group group => evalInstance setting id node group inputs
  | op => op.eval inputs id

/-- The outputs with the value that a node gives, if it is an output that is shown. -/
def report (outputs : Assignment) (op : NodeOp) (inputs : List Value) : Assignment :=
  match op with
  | .output port =>
    if port.exposed then
      outputs.insert port.name ((inputs.head?.getD (.scalar 0.0)).convert port.type)
    else outputs
  | _ => outputs

/-- Evaluates a node. -/
def visit (setting : Setting) (machine : Machine) (id : Nat) : Machine :=
  match setting.graph.node? id with
  | none => machine.fail (.vanished id)
  | some node =>
    let inputs := readAll setting.graph machine.values id node
    match evalNode setting machine.supplied id node inputs with
    | .error error => machine.fail error
    | .ok outputs =>
      { machine with
        values := machine.values.insert id outputs
        outputs := report machine.outputs node.op inputs
        trace :=
          if setting.config.trace then machine.trace ++ [⟨id, node.op.text, inputs, outputs⟩]
          else machine.trace }

/-- Evaluates the next node, or completes if there is none; a machine that does not run stays as
it is. -/
def step (setting : Setting) (machine : Machine) : Machine :=
  match machine.phase with
  | .running =>
    match machine.order[machine.cursor]? with
    | none => { machine with phase := .completed machine.outputs, outputs := .empty }
    | some id => visit setting { machine with cursor := machine.cursor + 1 } id
  | _ => machine

/-- Makes a number of steps. -/
def stepMany (setting : Setting) : Nat → Machine → Machine
  | 0, machine => machine
  | count + 1, machine => stepMany setting count (step setting machine)

/-- Steps until the machine does not run any more: once for each node that is left, and once to
complete. -/
def run (setting : Setting) (machine : Machine) : Machine :=
  stepMany setting (machine.order.length - machine.cursor + 1) machine

/-- What a machine that does not run has come to. -/
def result (machine : Machine) : Except EvalError Assignment :=
  match machine.phase with
  | .completed outputs => .ok outputs
  | .failed error _ => .error error
  | _ => .ok machine.outputs

end Machine

/-- The outputs of a graph in a setting. -/
def Setting.evaluate (setting : Setting) (supplied : Assignment) : Except EvalError Assignment :=
  ((Machine.fresh.start setting supplied).run setting).result

/-- How instances are evaluated that may be nested to a depth. -/
def nestedWithin (library : Library) (config : EvalConfig) : Nat → Option Evaluator
  | 0 => none
  | depth + 1 => some fun graph supplied =>
    Setting.evaluate ⟨graph, library, config, nestedWithin library config depth⟩ supplied

/-- What the evaluation of an outermost graph depends on. -/
def Setting.outermost (graph : Graph) (library : Library) (config : EvalConfig) : Setting :=
  ⟨graph, library, config, nestedWithin library config config.maxDepth⟩

/-- The outputs of a graph for an assignment. -/
def evaluate (graph : Graph) (library : Library) (config : EvalConfig) (supplied : Assignment) :
    Except EvalError Assignment :=
  (Setting.outermost graph library config).evaluate supplied

end Shadeloom
