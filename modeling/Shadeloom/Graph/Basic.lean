import Shadeloom.Graph.Slots
import Shadeloom.Graph.Tangle
import Shadeloom.Node.Basic
import Shadeloom.Table
/-!
# Graphs

A graph holds numbered nodes and numbered links from output sockets to input sockets, with the
newest link first. An edit gives an input socket at most one link, and links nodes only; the lists
of links at the nodes of a stored graph may be in a tangle, though. A named port of a graph is a
node, listed under its name if it is an input; an instance of a graph has a socket for every port
that is shown.
-/
namespace Shadeloom

/-- Why an operation on a graph is refused. -/
inductive GraphError where
  | nodeNotFound (node : Nat)
  | linkNotFound (link : Nat)
  | socketOutOfRange (socket : Socket) (available : Nat) (side : Side)
  | notAPort (node : Nat)
  | cycleDetected (node : Nat)
  /-- A search along links met a number above all nodes, or a list with a link that is gone. -/
  | strayLink (number : Nat)
  deriving Repr, DecidableEq, Inhabited

/-- The text of a graph error. -/
def GraphError.message : GraphError → String
  | nodeNotFound node => "node not found: NodeId(" ++ toString node ++ ")"
  | linkNotFound link => "edge not found: EdgeId(" ++ toString link ++ ")"
  | socketOutOfRange socket available side =>
    "node " ++ toString socket.node ++ " has " ++ toString available ++ " " ++ side.name ++
      " socket(s), socket " ++ toString socket.place ++ " requested"
  | notAPort node => "node " ++ toString node ++ " is not a named port"
  | cycleDetected node => "cycle detected through node " ++ toString node
  | strayLink number => "links lead astray at number " ++ toString number

/-- A graph of nodes and links. -/
@[ext]
structure Graph where
  name : String
  nodes : Slots Node
  /-- The links, newest first. -/
  links : List Link
  linkNumbers : NumberPool
  /-- The tangle of the lists of links, if these do not follow from the links. -/
  tangle : Option Tangle
  /-- The named inputs by name. -/
  inputs : Table String Nat
  /-- The named outputs. -/
  outputs : List Nat
  deriving Repr, Inhabited, DecidableEq

namespace Graph

/-- A graph without nodes. -/
def empty (name : String) : Graph where
  name
  nodes := .empty
  links := []
  linkNumbers := .empty
  tangle := none
  inputs := .empty
  outputs := []

/-- The node of a number. -/
def node? (graph : Graph) (id : Nat) : Option Node :=
  graph.nodes.get? id

/-- The number of nodes. -/
def nodeCount (graph : Graph) : Nat :=
  graph.nodes.numbers.length

/-- The number of links. -/
def linkCount (graph : Graph) : Nat :=
  graph.links.length

/-- How many nodes have an operation that passes a test. -/
def countNodes (graph : Graph) (test : NodeOp → Bool) : Nat :=
  (graph.nodes.entries.filter fun entry => test entry.2.op).length

/-- The node of a number, or why there is none. -/
def node (graph : Graph) (id : Nat) : Except GraphError Node :=
  match graph.node? id with
  | some node => .ok node
  | none => .error (.nodeNotFound id)

/-- The number that the next node gets. -/
def nextNode (graph : Graph) : Nat :=
  graph.nodes.nextNumber

/-- Whether a number that a tangle led to could not be used as it should be. -/
def isBroken (graph : Graph) : Bool :=
  graph.tangle.any Tangle.broken

/-- Adds a node to a graph with a tangle. -/
def addTangledNode (graph : Graph) (tangle : Tangle) (node : Node) : Graph :=
  match graph.nodes.freed with
  | [] => { graph with nodes := graph.nodes.add node, tangle := some tangle.addNode }
  | id :: _ =>
    if graph.nodes.cells[id]? = some none then
      { graph with
        nodes := { graph.nodes.add node with freed := (tangle.first .output id).toList }
        tangle := some (tangle.occupy id) }
    else { graph with tangle := some tangle.damage }

/-- Adds a node. -/
def addNode (graph : Graph) (node : Node) : Graph :=
  match graph.tangle with
  | none => { graph with nodes := graph.nodes.add node }
  | some tangle => graph.addTangledNode tangle node

/-- Replaces a node. -/
def setNode (graph : Graph) (id : Nat) (node : Node) : Graph :=
  { graph with nodes := graph.nodes.set id node }

/-- Sets or clears the label of a node. -/
def setLabel (graph : Graph) (id : Nat) (label : Option String) : Except GraphError Graph := do
  .ok (graph.setNode id { ← graph.node id with label })

/-- The link of a number. -/
def link? (graph : Graph) (number : Nat) : Option Link :=
  graph.links.find? fun link => link.number = number

/-- The links of numbers, up to the first vacant number. -/
def linksBefore (graph : Graph) : List Nat → List Link
  | [] => []
  | number :: rest =>
    match graph.link? number with
    | some link => link :: graph.linksBefore rest
    | none => []

/-- The links at a side of a node, newest first. -/
def linksAt (graph : Graph) (side : Side) (id : Nat) : List Link :=
  match graph.tangle with
  | none => graph.links.filter fun link => link.nodeAt side = id
  | some tangle =>
    if (graph.node? id).isSome then graph.linksBefore (tangle.listed side id) else []

/-- The links in the lists at a side, each with the node whose list it is in. -/
def listedLinks (graph : Graph) (side : Side) : List (Nat × Link) :=
  match graph.tangle with
  | none => graph.links.map fun link => (link.nodeAt side, link)
  | some _ => graph.nodes.numbers.flatMap fun id =>
    (graph.linksAt side id).map fun link => (id, link)

/-- Whether a list of a node has a link that is gone. -/
def isFrayed (graph : Graph) (side : Side) (id : Nat) : Bool :=
  graph.tangle.any fun tangle =>
    (graph.node? id).isSome &&
      (tangle.listed side id).any fun number => (graph.link? number).isNone

/-- The lists of a graph without a tangle follow from its links. -/
theorem linksAt_eq_filter {graph : Graph} (orderly : graph.tangle = none) (side : Side)
    (id : Nat) :
    graph.linksAt side id = graph.links.filter fun link => link.nodeAt side = id := by
  simp only [linksAt, orderly]

/-- No list of a graph without a tangle has a link that is gone. -/
theorem isFrayed_eq_false {graph : Graph} (orderly : graph.tangle = none) (side : Side)
    (id : Nat) : graph.isFrayed side id = false := by
  simp [isFrayed, orderly]

/-- The links that enter a node, newest first. -/
def incoming (graph : Graph) (id : Nat) : List Link :=
  graph.linksAt .input id

/-- The links that leave a node, newest first. -/
def outgoing (graph : Graph) (id : Nat) : List Link :=
  graph.linksAt .output id

/-- The output socket that an input socket is linked to. -/
def source? (graph : Graph) (target : Socket) : Option Socket :=
  ((graph.incoming target.node).find? fun link => link.target.place = target.place).map Link.source

/-- The input sockets that an output socket is linked to, newest first. -/
def consumers (graph : Graph) (source : Socket) : List Socket :=
  ((graph.outgoing source.node).filter fun link => link.source.place = source.place).map Link.target

/-- Takes links away, and their numbers out of use in the order given. -/
def dropLinks (graph : Graph) (dropped : List Link) : Graph :=
  { graph with
    links := graph.links.filter fun link => !dropped.contains link
    linkNumbers := (dropped.map Link.number).foldl NumberPool.release graph.linkNumbers
    tangle := graph.tangle.map fun tangle =>
      tangle.removeLinks graph.linkNumbers.freed.head? dropped }

/-- Puts a new link in front. -/
def pushLink (graph : Graph) (source target : Socket) : Graph :=
  let (number, pool) := graph.linkNumbers.take
  let link := ⟨number, source, target⟩
  { graph with
    links := link :: graph.links
    linkNumbers := pool
    tangle := graph.tangle.map fun tangle => tangle.addLink link }

/-- The named input of a name. -/
def input? (graph : Graph) (name : String) : Option Nat :=
  graph.inputs.get? name

/-- The node of a named input of a name, and the graph with it. A named input that is there
already is used again, and made a vector if a vector is asked for. -/
def addInput (graph : Graph) (name : String) (type : SocketType) : Nat × Graph :=
  match graph.input? name with
  | some id =>
    match type, graph.node? id with
    | .vector, some node => (id, ((node.retypeInput? .vector).map (graph.setNode id)).getD graph)
    | _, _ => (id, graph)
  | none =>
    let id := graph.nextNode
    let graph := graph.addNode (.ofOp (.input ⟨name, type, .zero type, true⟩))
    (id, { graph with inputs := graph.inputs.insert name id })

/-- Adds a named output; its name may be that of another one. -/
def addOutput (graph : Graph) (name : String) (type : SocketType) : Nat × Graph :=
  let id := graph.nextNode
  let graph := graph.addNode (.ofOp (.output ⟨name, type, true⟩))
  (id, { graph with outputs := graph.outputs ++ [id] })

/-- Whether a node is a port that is shown. -/
def isExposed (graph : Graph) (id : Nat) : Bool :=
  (graph.node? id).any fun node => node.op.isExposed

/-- The named inputs that are shown, by name. -/
def exposedInputs (graph : Graph) : List (String × Nat) :=
  graph.inputs.entries.filter fun entry => graph.isExposed entry.2

/-- The name of a port that is shown. -/
def exposedName? (graph : Graph) (id : Nat) : Option String := do
  let node ← graph.node? id
  let name ← node.op.portName?
  if node.op.isExposed then some name else none

/-- The named outputs that are shown, with their names. -/
def exposedOutputs (graph : Graph) : List (String × Nat) :=
  graph.outputs.filterMap fun id => (graph.exposedName? id).map fun name => (name, id)

/-- Puts the named inputs into the order of their names; inputs that the order does not separate
stay put. -/
def sortInputs (graph : Graph) (le : String → String → Bool) : Graph :=
  { graph with inputs := graph.inputs.sortBy le }

end Graph

/-- Steps that edit a graph in place; what a step has done stays done if a later one is refused. -/
abbrev Editing := EStateM GraphError Graph

namespace Editing

/-- What steps give and what they make of a graph, or why they are refused. -/
def outcome {α : Type} (steps : Editing α) (graph : Graph) : Except GraphError (α × Graph) :=
  match steps graph with
  | .ok a after => .ok (a, after)
  | .error error _ => .error error

/-- What steps make of a graph, or why they are refused. -/
def result {α : Type} (steps : Editing α) (graph : Graph) : Except GraphError Graph :=
  (steps.outcome graph).map Prod.snd

/-- The node of a number. -/
def node (id : Nat) : Editing Node := do
  match (← get).node? id with
  | some node => return node
  | none => throw (.nodeNotFound id)

/-- Checks that a socket is one of so many. -/
def checkSocket (socket : Socket) (available : Nat) (side : Side) : Editing Unit :=
  if socket.place < available then pure () else throw (.socketOutOfRange socket available side)

/-- Takes links away, one after the other. -/
def dropLinks (dropped : List Link) : Editing Unit :=
  dropped.forM fun link => modify fun graph => graph.dropLinks [link]

/-- Sets the default of an input socket. -/
def setSocketDefault (socket : Socket) (value : Value) : Editing Unit := do
  let node ← node socket.node
  checkSocket socket node.inputs.length .input
  modify fun graph => graph.setNode socket.node (node.setInputDefault socket.place value)

/-- Links an output socket to an input socket in place of any link that enters it, and gives the
number of the link. -/
def connect (source target : Socket) : Editing Nat := do
  let sender ← node source.node
  checkSocket source sender.outputs.length .output
  let receiver ← node target.node
  checkSocket target receiver.inputs.length .input
  if (← get).isFrayed .input target.node then throw (.strayLink target.node)
  let replaced := ((← get).incoming target.node).filter fun link =>
    link.target.place = target.place
  dropLinks replaced
  let number := (← get).linkNumbers.take.1
  modify fun graph => graph.pushLink source target
  return number

/-- Takes the link of a number away, and gives it. -/
def disconnect (number : Nat) : Editing Link := do
  match (← get).link? number with
  | some link =>
    modify fun graph => graph.dropLinks [link]
    return link
  | none => throw (.linkNotFound number)

/-- Takes the first link of a list in a tangle away until there is none, in so many steps. -/
def clearList (side : Side) (id : Nat) : Nat → Editing Unit
  | 0 => throw (.strayLink id)
  | steps + 1 => do
    match (← get).tangle.bind fun tangle => tangle.first side id with
    | none => pure ()
    | some number =>
      match (← get).link? number with
      | none => throw (.strayLink id)
      | some link =>
        modify fun graph => graph.dropLinks [link]
        clearList side id steps

/-- Takes the links of a node away, those that leave it first. -/
def dropNodeLinks (id : Nat) : Editing Unit := do
  match (← get).tangle with
  | none =>
    dropLinks ((← get).outgoing id)
    dropLinks ((← get).incoming id)
  | some _ =>
    let steps := (← get).links.length + 1
    clearList .output id steps
    clearList .input id steps

/-- Takes a node away with its links and the ports that it was, and gives it. -/
def removeNode (id : Nat) : Editing Node := do
  let node ← node id
  dropNodeLinks id
  modify fun graph => { graph with
    nodes := graph.nodes.remove id
    tangle := graph.tangle.map fun tangle => tangle.vacate id graph.nodes.freed.head? }
  modify fun graph => { graph with inputs := graph.inputs.filter fun _ port => port ≠ id }
  modify fun graph => { graph with outputs := graph.outputs.filter fun port => port ≠ id }
  return node

/-- Changes a port in place; a node that does not allow the change is kept as the change has left
it. -/
def changePort (id : Nat) (change : StateM Node Bool) : Editing Unit := do
  let (allowed, changed) := change.run (← node id)
  modify fun graph => graph.setNode id changed
  unless allowed do throw (.notAPort id)

/-- Shows or hides a port. -/
def setExposed (id : Nat) (exposed : Bool) : Editing Unit :=
  changePort id (Node.setExposed exposed)

/-- Changes the type of a named input. -/
def setInputType (id : Nat) (type : SocketType) : Editing Unit :=
  changePort id (Node.retypeInput type)

/-- Changes the default of a named input. -/
def setInputDefault (id : Nat) (value : Value) : Editing Unit :=
  changePort id (Node.setPortDefault value)

end Editing

namespace Graph

/-- A graph with the default of an input socket set. -/
def setSocketDefault (graph : Graph) (socket : Socket) (value : Value) : Except GraphError Graph :=
  (Editing.setSocketDefault socket value).result graph

/-- A graph with a link from an output socket to an input socket. -/
def connect (graph : Graph) (source target : Socket) : Except GraphError Graph :=
  (Editing.connect source target).result graph

/-- The link of a number, and a graph without it. -/
def disconnect (graph : Graph) (number : Nat) : Except GraphError (Link × Graph) :=
  (Editing.disconnect number).outcome graph

/-- The node of a number, and a graph without it. -/
def removeNode (graph : Graph) (id : Nat) : Except GraphError (Node × Graph) :=
  (Editing.removeNode id).outcome graph

/-- A graph with a port shown or hidden. -/
def setExposed (graph : Graph) (id : Nat) (exposed : Bool) : Except GraphError Graph :=
  (Editing.setExposed id exposed).result graph

/-- A graph with another type of a named input. -/
def setInputType (graph : Graph) (id : Nat) (type : SocketType) : Except GraphError Graph :=
  (Editing.setInputType id type).result graph

/-- A graph with another default of a named input. -/
def setInputDefault (graph : Graph) (id : Nat) (value : Value) : Except GraphError Graph :=
  (Editing.setInputDefault id value).result graph

/-- The socket of an instance for a port of the definition. -/
def inputSocket? (definition : Graph) (entry : String × Nat) : Option InputSocket :=
  match (definition.node? entry.2).map Node.op with
  | some (.input port) => some ⟨entry.1, port.type, port.default⟩
  | _ => none

/-- The socket of an instance for a port of the definition. -/
def outputSocket? (definition : Graph) (entry : String × Nat) : Option OutputSocket :=
  match (definition.node? entry.2).map Node.op with
  | some (.output port) => some ⟨entry.1, port.type⟩
  | _ => none

/-- An instance of a graph, with a socket for every port that is shown. -/
def instanceNode (definition : Graph) : Node where
  op := .group definition.name
  inputs := definition.exposedInputs.filterMap definition.inputSocket?
  outputs := definition.exposedOutputs.filterMap definition.outputSocket?
  label := none

end Graph

end Shadeloom
