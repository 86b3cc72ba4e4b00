import Mathlib
import Shadeloom.Graph.Assembly
import Shadeloom.Proofs.Graph.Editing
/-!
# Graphs with changed doubles

A change of all doubles of a graph leaves everything else as it is: the links, the ports and the
numbers of the nodes. No edit of a graph looks at a double, so it makes no difference whether a
graph is edited before or after such a change, as long as the defaults that new sockets get stay.
-/
namespace Shadeloom

namespace Slots

variable {α β : Type} (g : α → β)

/-- The slots with every value changed. -/
def map (slots : Slots α) : Slots β :=
  ⟨slots.cells.map (Option.map g), slots.freed⟩

variable (slots : Slots α)

/-- The values in changed slots are the changed values. -/
@[simp] theorem get?_map (number : Nat) :
    (slots.map g).get? number = (slots.get? number).map g := by
  unfold get? map
  rw [List.getElem?_map]
  rcases slots.cells[number]? with _ | _ | value <;> rfl

/-- A cell of changed slots is vacant when it is in the slots. -/
theorem vacant_map (number : Nat) :
    (slots.map g).cells[number]? = some none ↔ slots.cells[number]? = some none := by
  show (slots.cells.map (Option.map g))[number]? = some none ↔ _
  rw [List.getElem?_map]
  rcases slots.cells[number]? with _ | _ | value <;> simp

/-- The next number does not depend on the values. -/
@[simp] theorem nextNumber_map : (slots.map g).nextNumber = slots.nextNumber := by
  simp [nextNumber, map]

/-- A changed value is added to changed slots. -/
theorem add_map (value : α) : (slots.map g).add (g value) = (slots.add value).map g := by
  obtain ⟨cells, freed⟩ := slots
  cases freed <;> simp [add, map]

/-- A value of changed slots is set to a changed one. -/
theorem set_map (number : Nat) (value : α) :
    (slots.map g).set number (g value) = (slots.set number value).map g := by
  simp [set, map]

/-- A value of changed slots is taken away. -/
theorem remove_map (number : Nat) : (slots.map g).remove number = (slots.remove number).map g := by
  simp [remove, map]

/-- The numbers in use do not depend on the values. -/
@[simp] theorem numbers_map : (slots.map g).numbers = slots.numbers := by
  simp only [numbers, get?_map, Option.isSome_map]
  rw [show (slots.map g).cells.length = slots.cells.length from List.length_map _]

/-- The highest number in use does not depend on the values. -/
@[simp] theorem bound_map : (slots.map g).bound = slots.bound := by
  simp [bound]

/-- The entries of changed slots are the changed entries. -/
theorem entries_map :
    (slots.map g).entries = slots.entries.map fun entry => (entry.1, g entry.2) := by
  unfold entries
  rw [List.map_filterMap, show (slots.map g).cells.length = slots.cells.length from List.length_map _]
  refine List.filterMap_congr fun number _ => ?_
  rw [get?_map, Option.map_map, Option.map_map]
  rfl

end Slots

variable (f : Float → Float)

namespace Value

/-- The value with its doubles changed. -/
def mapDoubles : Value → Value
  | scalar a => scalar (f a)
  | vector v => vector (v.map f)

/-- A double is converted before or after it is changed. -/
theorem convert_scalar (x : Float) (type : SocketType) :
    (scalar (f x)).convert type = ((scalar x).convert type).mapDoubles f := by
  cases type <;> rfl

/-- A value becomes a vector before or after its doubles are changed. -/
theorem convert_vector (value : Value) :
    (value.mapDoubles f).convert .vector = (value.convert .vector).mapDoubles f := by
  cases value <;> rfl

end Value

namespace InputSocket

/-- The socket with the doubles of its default changed. -/
def mapDoubles (socket : InputSocket) : InputSocket :=
  { socket with default := socket.default.mapDoubles f }

/-- A scalar socket has its default changed. -/
@[simp] theorem mapDoubles_scalar (name : String) (x : Float) :
    (scalar name x).mapDoubles f = scalar name (f x) := rfl

/-- A vector socket has its default changed. -/
@[simp] theorem mapDoubles_vector (name : String) (x : Float) :
    (vector name x).mapDoubles f = vector name (f x) := rfl

end InputSocket

/-- The stop with its doubles changed. -/
def RampStop.mapDoubles (stop : RampStop) : RampStop :=
  ⟨f stop.position, stop.color.map f⟩

/-- The ramp with the doubles of its stops changed. -/
def ColorRamp.mapDoubles (ramp : ColorRamp) : ColorRamp :=
  { ramp with stops := ramp.stops.map (RampStop.mapDoubles f) }

/-- The density with its radius changed. -/
def PointDensity.mapDoubles (density : PointDensity) : PointDensity :=
  { density with radius := f density.radius }

/-- The port with the doubles of its default changed. -/
def InputPort.mapDoubles (port : InputPort) : InputPort :=
  { port with default := port.default.mapDoubles f }

/-- Whether a change of doubles leaves those alone that are defaults of new sockets. -/
def KeepsDefaults : Prop :=
  ∀ x ∈ [(0.0 : Float), 0.5, 1.0, 2.0, 5.0], f x = x

namespace NodeOp

/-- The operation with its doubles changed. -/
def mapDoubles : NodeOp → NodeOp
  | colorRamp ramp => colorRamp (ramp.mapDoubles f)
  | pointDensity density => pointDensity (density.mapDoubles f)
  | constant value => constant (f value)
  | input port => input (port.mapDoubles f)
  | op => op

variable (op : NodeOp)

/-- The outputs of an operation do not depend on its doubles. -/
@[simp] theorem outputSockets_mapDoubles : (op.mapDoubles f).outputSockets = op.outputSockets := by
  cases op <;> rfl

/-- Whether inputs stay linked does not depend on doubles. -/
@[simp] theorem isBoundary_mapDoubles : (op.mapDoubles f).isBoundary = op.isBoundary := by
  cases op <;> rfl

/-- The name of a port does not depend on doubles. -/
@[simp] theorem portName?_mapDoubles : (op.mapDoubles f).portName? = op.portName? := by
  cases op <;> rfl

/-- Whether a port is shown does not depend on doubles. -/
@[simp] theorem isExposed_mapDoubles : (op.mapDoubles f).isExposed = op.isExposed := by
  cases op <;> rfl

/-- The group of an instance does not depend on doubles. -/
@[simp] theorem isInstanceOf_mapDoubles (group : String) :
    (op.mapDoubles f).isInstanceOf group = op.isInstanceOf group := by
  cases op <;> rfl

end NodeOp

variable {f}

/-- The zero of a type stays where defaults do. -/
theorem KeepsDefaults.zero (keeps : KeepsDefaults f) (type : SocketType) :
    (Value.zero type).mapDoubles f = .zero type := by
  rw [Value.zero, Value.splat, ← Value.convert_scalar, keeps 0.0 (by simp)]

/-- The inputs of an operation stay where defaults do. -/
theorem KeepsDefaults.inputSockets (keeps : KeepsDefaults f) (op : NodeOp) :
    (op.mapDoubles f).inputSockets = op.inputSockets.map (InputSocket.mapDoubles f) := by
  have plain := keeps
  simp only [KeepsDefaults, List.forall_mem_cons, List.not_mem_nil, false_implies, implies_true,
    and_true] at plain
  cases op with
  | mix blend =>
    by_cases mixes : blend = .mix <;> simp [NodeOp.inputSockets, NodeOp.mapDoubles, mixes, plain]
  | output port => simp [NodeOp.inputSockets, NodeOp.mapDoubles, InputSocket.mapDoubles, keeps.zero]
  | _ => simp [NodeOp.inputSockets, NodeOp.mapDoubles, plain]

namespace Node

variable (f) in
/-- The node with its doubles changed. -/
def mapDoubles (node : Node) : Node :=
  { node with op := node.op.mapDoubles f, inputs := node.inputs.map (InputSocket.mapDoubles f) }

variable (node : Node)

/-- The operation of a node has its doubles changed. -/
@[simp] theorem op_mapDoubles : (node.mapDoubles f).op = node.op.mapDoubles f := rfl

/-- A node has as many inputs. -/
@[simp] theorem length_inputs_mapDoubles :
    (node.mapDoubles f).inputs.length = node.inputs.length := by
  simp [mapDoubles]

/-- The place of an output stays. -/
@[simp] theorem outputIndex?_mapDoubles (name : String) :
    (node.mapDoubles f).outputIndex? name = node.outputIndex? name := rfl

/-- A default of an input is set before or after doubles are changed. -/
theorem setInputDefault_mapDoubles (place : Nat) (x : Float) :
    (node.mapDoubles f).setInputDefault place (.scalar (f x)) =
      (node.setInputDefault place (.scalar x)).mapDoubles f := by
  simp only [setInputDefault, mapDoubles, Node.mk.injEq, true_and, and_true]
  refine List.ext_getElem? fun other => ?_
  rw [List.getElem?_modify, List.getElem?_map, List.getElem?_map, List.getElem?_modify]
  cases node.inputs[other]? with
  | none => rfl
  | some socket =>
    by_cases here : place = other <;>
      simp [here, InputSocket.mapDoubles, Value.convert_scalar]

/-- A named input becomes a vector before or after doubles are changed. -/
theorem retypeInput?_mapDoubles :
    (node.mapDoubles f).retypeInput? .vector = (node.retypeInput? .vector).map (mapDoubles f) := by
  cases op : node.op with
  | input port =>
    simp [retypeInput?, mapDoubles, op, NodeOp.mapDoubles, InputPort.mapDoubles, Value.convert_vector]
  | _ => simp [retypeInput?, mapDoubles, op, NodeOp.mapDoubles]

/-- The default of a port is set before or after doubles are changed. -/
theorem setPortDefault?_mapDoubles (x : Float) :
    (node.mapDoubles f).setPortDefault? (.scalar (f x)) =
      (node.setPortDefault? (.scalar x)).map (mapDoubles f) := by
  cases op : node.op with
  | input port =>
    simp [setPortDefault?, mapDoubles, op, NodeOp.mapDoubles, InputPort.mapDoubles,
      Value.convert_scalar]
  | _ => simp [setPortDefault?, mapDoubles, op, NodeOp.mapDoubles]

/-- A port is shown or hidden before or after doubles are changed. -/
theorem setExposed?_mapDoubles (exposed : Bool) :
    (node.mapDoubles f).setExposed? exposed = (node.setExposed? exposed).map (mapDoubles f) := by
  cases op : node.op with
  | input port => simp [setExposed?, mapDoubles, op, NodeOp.mapDoubles, InputPort.mapDoubles]
  | _ => simp [setExposed?, mapDoubles, op, NodeOp.mapDoubles]

end Node

/-- The node of an operation has its doubles changed when this does. -/
theorem KeepsDefaults.ofOp (keeps : KeepsDefaults f) (op : NodeOp) :
    Node.ofOp (op.mapDoubles f) = (Node.ofOp op).mapDoubles f := by
  simp [Node.ofOp, Node.mapDoubles, keeps.inputSockets]

/-- Nothing is changed in a value without a change. -/
@[simp] theorem Value.mapDoubles_id : Value.mapDoubles id = id := by
  funext value
  cases value <;> rfl

/-- Nothing is changed in a socket without a change. -/
@[simp] theorem InputSocket.mapDoubles_id : InputSocket.mapDoubles id = id := by
  funext socket
  simp [InputSocket.mapDoubles]

/-- Nothing is changed in a ramp without a change. -/
@[simp] theorem ColorRamp.mapDoubles_id : ColorRamp.mapDoubles id = id := by
  have stops : RampStop.mapDoubles id = id := rfl
  funext ramp
  simp [ColorRamp.mapDoubles, stops]

/-- Nothing is changed in a node without a change. -/
@[simp] theorem Node.mapDoubles_id : Node.mapDoubles id = id := by
  have ops (op : NodeOp) : op.mapDoubles id = op := by
    cases op <;> simp [NodeOp.mapDoubles, InputPort.mapDoubles, PointDensity.mapDoubles]
  funext node
  simp [Node.mapDoubles, ops]

namespace Graph

variable (f) in
/-- The graph with the doubles of its nodes changed. -/
def mapDoubles (graph : Graph) : Graph :=
  { graph with nodes := graph.nodes.map (Node.mapDoubles f) }

variable (graph : Graph)

/-- The name of a graph stays. -/
@[simp] theorem name_mapDoubles : (graph.mapDoubles f).name = graph.name := rfl

/-- The nodes of a graph have their doubles changed. -/
@[simp] theorem nodes_mapDoubles :
    (graph.mapDoubles f).nodes = graph.nodes.map (Node.mapDoubles f) := rfl

/-- The links of a graph stay. -/
@[simp] theorem links_mapDoubles : (graph.mapDoubles f).links = graph.links := rfl

/-- The tangle of a graph stays. -/
@[simp] theorem tangle_mapDoubles : (graph.mapDoubles f).tangle = graph.tangle := rfl

/-- The inputs of a graph stay. -/
@[simp] theorem inputs_mapDoubles : (graph.mapDoubles f).inputs = graph.inputs := rfl

/-- The outputs of a graph stay. -/
@[simp] theorem outputs_mapDoubles : (graph.mapDoubles f).outputs = graph.outputs := rfl

/-- The input of a name stays. -/
@[simp] theorem input?_mapDoubles (name : String) :
    (graph.mapDoubles f).input? name = graph.input? name := rfl

/-- A node has its doubles changed. -/
@[simp] theorem node?_mapDoubles (id : Nat) :
    (graph.mapDoubles f).node? id = (graph.node? id).map (Node.mapDoubles f) :=
  Slots.get?_map _ _ _

/-- A node has its doubles changed, or there is none. -/
theorem node_mapDoubles (id : Nat) :
    (graph.mapDoubles f).node id = (graph.node id).map (Node.mapDoubles f) := by
  unfold node
  rw [node?_mapDoubles]
  cases graph.node? id <;> rfl

/-- The next node gets the same number. -/
@[simp] theorem nextNode_mapDoubles : (graph.mapDoubles f).nextNode = graph.nextNode :=
  Slots.nextNumber_map _ _

/-- A node is added before or after doubles are changed. -/
theorem addNode_mapDoubles (node : Node) :
    (graph.mapDoubles f).addNode (node.mapDoubles f) = (graph.addNode node).mapDoubles f := by
  unfold addNode
  cases tangle : graph.tangle with
  | none => simp [tangle, mapDoubles, Slots.add_map]
  | some tangle =>
    simp only [tangle_mapDoubles, tangle, addTangledNode, nodes_mapDoubles,
      show (graph.nodes.map (Node.mapDoubles f)).freed = graph.nodes.freed from rfl]
    cases graph.nodes.freed with
    | nil => simp [mapDoubles, Slots.add_map]
    | cons id rest =>
      simp only [Slots.vacant_map, Slots.add_map]
      split <;> rfl

/-- A node is replaced before or after doubles are changed. -/
theorem setNode_mapDoubles (id : Nat) (node : Node) :
    (graph.mapDoubles f).setNode id (node.mapDoubles f) = (graph.setNode id node).mapDoubles f := by
  simp [setNode, mapDoubles, Slots.set_map]

/-- A node is changed before or after doubles are. -/
theorem changeNode_mapDoubles (id : Nat) {change change' : Node → Option Node}
    (same : ∀ node, change' (node.mapDoubles f) = (change node).map (Node.mapDoubles f)) :
    (graph.mapDoubles f).changeNode id change' =
      (graph.changeNode id change).map (mapDoubles f) := by
  unfold changeNode
  rw [node_mapDoubles, map_bind_eq, bind_map_eq]
  refine bind_congr fun node => ?_
  rw [same]
  cases change node with
  | none => rfl
  | some changed => exact congrArg Except.ok (setNode_mapDoubles graph id changed)

/-- The default of a socket is set before or after doubles are changed. -/
theorem setSocketDefault_mapDoubles (socket : Socket) (x : Float) :
    (graph.mapDoubles f).setSocketDefault socket (.scalar (f x)) =
      (graph.setSocketDefault socket (.scalar x)).map (mapDoubles f) := by
  rw [setSocketDefault_eq, setSocketDefault_eq, node_mapDoubles, map_bind_eq, bind_map_eq]
  refine bind_congr fun node => ?_
  rw [Node.length_inputs_mapDoubles, Node.setInputDefault_mapDoubles, setNode_mapDoubles]
  split <;> rfl

/-- A label is set before or after doubles are changed. -/
theorem setLabel_mapDoubles (id : Nat) (label : Option String) :
    (graph.mapDoubles f).setLabel id label = (graph.setLabel id label).map (mapDoubles f) := by
  unfold setLabel
  rw [node_mapDoubles, map_bind_eq, bind_map_eq]
  exact bind_congr fun node => congrArg Except.ok (setNode_mapDoubles graph id { node with label })

/-- The link of a number stays. -/
@[simp] theorem link?_mapDoubles (number : Nat) :
    (graph.mapDoubles f).link? number = graph.link? number := rfl

/-- The links of numbers stay. -/
@[simp] theorem linksBefore_mapDoubles (numbers : List Nat) :
    (graph.mapDoubles f).linksBefore numbers = graph.linksBefore numbers := by
  induction numbers with
  | nil => rfl
  | cons number rest ih => simp only [linksBefore, link?_mapDoubles, ih]

/-- The links at a node stay. -/
@[simp] theorem linksAt_mapDoubles (side : Side) (id : Nat) :
    (graph.mapDoubles f).linksAt side id = graph.linksAt side id := by
  simp [linksAt]

/-- The links in lists stay. -/
@[simp] theorem listedLinks_mapDoubles (side : Side) :
    (graph.mapDoubles f).listedLinks side = graph.listedLinks side := by
  simp [listedLinks]

/-- Lists with links that are gone stay so. -/
@[simp] theorem isFrayed_mapDoubles (side : Side) (id : Nat) :
    (graph.mapDoubles f).isFrayed side id = graph.isFrayed side id := by
  simp [isFrayed]

/-- The links that enter a node stay. -/
@[simp] theorem incoming_mapDoubles (id : Nat) :
    (graph.mapDoubles f).incoming id = graph.incoming id :=
  linksAt_mapDoubles _ _ _

/-- The links that leave a node stay. -/
@[simp] theorem outgoing_mapDoubles (id : Nat) :
    (graph.mapDoubles f).outgoing id = graph.outgoing id :=
  linksAt_mapDoubles _ _ _

/-- What an input socket is linked to stays. -/
@[simp] theorem source?_mapDoubles (target : Socket) :
    (graph.mapDoubles f).source? target = graph.source? target := by
  simp [source?]

/-- What an output socket is linked to stays. -/
@[simp] theorem consumers_mapDoubles (source : Socket) :
    (graph.mapDoubles f).consumers source = graph.consumers source := by
  simp [consumers]

/-- Links are taken away before or after doubles are changed. -/
theorem dropLinks_mapDoubles (dropped : List Link) :
    (graph.mapDoubles f).dropLinks dropped = (graph.dropLinks dropped).mapDoubles f := rfl

/-- Sockets are linked before or after doubles are changed. -/
theorem connect_mapDoubles (source target : Socket) :
    (graph.mapDoubles f).connect source target =
      (graph.connect source target).map (mapDoubles f) := by
  rw [connect_eq, connect_eq, node_mapDoubles, map_bind_eq, bind_map_eq]
  refine bind_congr fun sender => ?_
  rw [show (sender.mapDoubles f).outputs = sender.outputs from rfl]
  split
  · rw [node_mapDoubles, map_bind_eq, bind_map_eq]
    refine bind_congr fun receiver => ?_
    rw [Node.length_inputs_mapDoubles, isFrayed_mapDoubles, incoming_mapDoubles]
    split
    · split <;> rfl
    · rfl
  · rfl

/-- A link is taken away before or after doubles are changed. -/
theorem disconnect_mapDoubles (number : Nat) :
    (graph.mapDoubles f).disconnect number =
      (graph.disconnect number).map fun cut => (cut.1, cut.2.mapDoubles f) := by
  rw [disconnect_eq, disconnect_eq, link?_mapDoubles]
  cases graph.link? number <;> rfl

/-- A list of a tangle is cleared before or after doubles are changed. -/
theorem clearList_mapDoubles (side : Side) (id steps : Nat) :
    (Editing.clearList side id steps).result (graph.mapDoubles f) =
      ((Editing.clearList side id steps).result graph).map (mapDoubles f) := by
  induction steps generalizing graph with
  | zero => rfl
  | succ steps ih =>
    simp only [Editing.result_clearList_succ, tangle_mapDoubles]
    cases graph.tangle.bind fun tangle => tangle.first side id with
    | none => rfl
    | some number =>
      cases found : graph.link? number with
      | none => simp [found]; rfl
      | some link => simp [found, dropLinks_mapDoubles, ih]

/-- The links of a node are taken away before or after doubles are changed. -/
theorem dropNodeLinks_mapDoubles (id : Nat) :
    (Editing.dropNodeLinks id).result (graph.mapDoubles f) =
      ((Editing.dropNodeLinks id).result graph).map (mapDoubles f) := by
  cases tangle : graph.tangle with
  | none =>
    unfold Editing.result
    rw [Editing.outcome_dropNodeLinks tangle, Editing.outcome_dropNodeLinks (by simp [tangle])]
    simp only [outgoing_mapDoubles, incoming_mapDoubles, dropLinks_mapDoubles]
    rfl
  | some lists =>
    rw [Editing.result_dropNodeLinks_tangled tangle,
      Editing.result_dropNodeLinks_tangled (by rw [tangle_mapDoubles, tangle]), bind_map_eq,
      links_mapDoubles, clearList_mapDoubles, map_bind_eq]
    exact bind_congr fun cleared => clearList_mapDoubles _ _ _ _

/-- A node is taken away before or after doubles are changed. -/
theorem removeNode_mapDoubles (id : Nat) :
    (graph.mapDoubles f).removeNode id =
      (graph.removeNode id).map fun taken => (taken.1.mapDoubles f, taken.2.mapDoubles f) := by
  rw [removeNode_eq, removeNode_eq, node_mapDoubles, map_bind_eq, bind_map_eq]
  refine bind_congr fun node => ?_
  rw [dropNodeLinks_mapDoubles, map_bind_eq, bind_map_eq]
  refine bind_congr fun cleared => ?_
  simp only [nodes_mapDoubles, Slots.remove_map]
  rfl

/-- An input is added before or after doubles are changed, where defaults stay. -/
theorem addInput_mapDoubles (keeps : KeepsDefaults f) (name : String) (type : SocketType) :
    (graph.mapDoubles f).addInput name type =
      ((graph.addInput name type).1, (graph.addInput name type).2.mapDoubles f) := by
  unfold addInput
  rw [input?_mapDoubles]
  cases graph.input? name with
  | some id =>
    cases type with
    | scalar => rfl
    | vector =>
      simp only [node?_mapDoubles]
      cases graph.node? id with
      | none => rfl
      | some node =>
        simp only [Option.map_some, Node.retypeInput?_mapDoubles]
        cases node.retypeInput? .vector with
        | none => rfl
        | some changed => simp [setNode_mapDoubles]
  | none =>
    have plain : Node.ofOp (.input ⟨name, type, .zero type, true⟩) =
        (Node.ofOp (.input ⟨name, type, .zero type, true⟩)).mapDoubles f := by
      rw [← keeps.ofOp]
      simp [NodeOp.mapDoubles, InputPort.mapDoubles, keeps.zero]
    rw [plain, addNode_mapDoubles, ← plain, nextNode_mapDoubles]
    rfl

/-- An output is added before or after doubles are changed, where defaults stay. -/
theorem addOutput_mapDoubles (keeps : KeepsDefaults f) (name : String) (type : SocketType) :
    (graph.mapDoubles f).addOutput name type =
      ((graph.addOutput name type).1, (graph.addOutput name type).2.mapDoubles f) := by
  have plain : Node.ofOp (.output ⟨name, type, true⟩) =
      (Node.ofOp (.output ⟨name, type, true⟩)).mapDoubles f :=
    keeps.ofOp (.output ⟨name, type, true⟩)
  unfold addOutput
  rw [plain, addNode_mapDoubles, ← plain, nextNode_mapDoubles]
  rfl

/-- Which ports are shown stays. -/
@[simp] theorem isExposed_mapDoubles (id : Nat) :
    (graph.mapDoubles f).isExposed id = graph.isExposed id := by
  unfold isExposed
  rw [node?_mapDoubles]
  cases graph.node? id <;> simp

/-- The inputs that are shown stay. -/
@[simp] theorem exposedInputs_mapDoubles :
    (graph.mapDoubles f).exposedInputs = graph.exposedInputs := by
  simp [exposedInputs]

/-- The names of ports that are shown stay. -/
@[simp] theorem exposedName?_mapDoubles (id : Nat) :
    (graph.mapDoubles f).exposedName? id = graph.exposedName? id := by
  unfold exposedName?
  rw [node?_mapDoubles]
  cases graph.node? id with
  | none => rfl
  | some node => simp [Node.mapDoubles]

/-- The outputs that are shown stay. -/
@[simp] theorem exposedOutputs_mapDoubles :
    (graph.mapDoubles f).exposedOutputs = graph.exposedOutputs := by
  simp [exposedOutputs]

/-- A port is shown or hidden before or after doubles are changed. -/
theorem setExposed_mapDoubles (id : Nat) (exposed : Bool) :
    (graph.mapDoubles f).setExposed id exposed =
      (graph.setExposed id exposed).map (mapDoubles f) := by
  rw [setExposed_eq, setExposed_eq]
  exact changeNode_mapDoubles graph id fun node => node.setExposed?_mapDoubles exposed

/-- The default of an input is set before or after doubles are changed. -/
theorem setInputDefault_mapDoubles (id : Nat) (x : Float) :
    (graph.mapDoubles f).setInputDefault id (.scalar (f x)) =
      (graph.setInputDefault id (.scalar x)).map (mapDoubles f) := by
  rw [setInputDefault_eq, setInputDefault_eq]
  exact changeNode_mapDoubles graph id fun node => node.setPortDefault?_mapDoubles x

/-- The socket of an instance for an input has its doubles changed. -/
theorem inputSocket?_mapDoubles (entry : String × Nat) :
    (graph.mapDoubles f).inputSocket? entry =
      (graph.inputSocket? entry).map (InputSocket.mapDoubles f) := by
  unfold inputSocket?
  rw [node?_mapDoubles]
  cases graph.node? entry.2 with
  | none => rfl
  | some node =>
    simp only [Option.map_some, Node.op_mapDoubles]
    cases node.op <;> rfl

/-- The socket of an instance for an output stays. -/
theorem outputSocket?_mapDoubles (entry : String × Nat) :
    (graph.mapDoubles f).outputSocket? entry = graph.outputSocket? entry := by
  unfold outputSocket?
  rw [node?_mapDoubles]
  cases graph.node? entry.2 with
  | none => rfl
  | some node =>
    simp only [Option.map_some, Node.op_mapDoubles]
    cases node.op <;> rfl

/-- An instance of a graph has its doubles changed when the graph has. -/
theorem instanceNode_mapDoubles :
    (graph.mapDoubles f).instanceNode = graph.instanceNode.mapDoubles f := by
  simp only [instanceNode, Node.mapDoubles, exposedInputs_mapDoubles, exposedOutputs_mapDoubles,
    List.map_filterMap, name_mapDoubles]
  congr 2
  · funext entry
    exact inputSocket?_mapDoubles graph entry
  · funext entry
    exact outputSocket?_mapDoubles graph entry

/-- What can be reached stays. -/
@[simp] theorem reaches_mapDoubles (source target : Nat) :
    (graph.mapDoubles f).reaches source target = graph.reaches source target := by
  simp [reaches, arcs]

end Graph

end Shadeloom
