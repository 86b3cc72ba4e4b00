import Mathlib
import Shadeloom.Proofs.Graph.Edits
import Shadeloom.Proofs.Tables
/-!
# Ports of sound graphs

What adding, changing and ordering ports does to a sound graph. An input that is asked for again
stays the same node, and becomes a vector when a vector is asked for; it never becomes a scalar
again.
-/
namespace Shadeloom

namespace Node

/-- A node after it is asked for as an input of a type. -/
def widened (node : Node) : SocketType → Node
  | .scalar => node
  | .vector => (node.retypeInput? .vector).getD node

/-- The node that a new input is. -/
def newInput (name : String) (type : SocketType) : Node :=
  .ofOp (.input ⟨name, type, .zero type, true⟩)

/-- The node that a new output is. -/
def newOutput (name : String) (type : SocketType) : Node :=
  .ofOp (.output ⟨name, type, true⟩)

/-- New inputs are the same node when they have the same name and the same type. -/
theorem newInput_inj {name name' : String} {type type' : SocketType}
    (same : newInput name type = newInput name' type') : name = name' ∧ type = type' := by
  have port := NodeOp.input.inj (congrArg Node.op same)
  exact ⟨congrArg InputPort.name port, congrArg InputPort.type port⟩

/-- A node that a named input replaces keeps its sockets and its name. -/
theorem IsInput.replaces {old new : Node} {port : InputPort} (isInput : old.IsInput port)
    (port' : InputPort) (isInput' : new.IsInput port') (named : port'.name = port.name) : new.Replaces old where
  inputs := by rw [isInput.inputs, isInput'.inputs]
  outputs := by rw [isInput.outputs, isInput'.outputs]; rfl
  input other same := by
    rw [isInput.op, NodeOp.input.injEq] at same
    exact ⟨port', isInput'.op, by rw [named, same]⟩
  output other same := by
    rw [isInput.op] at same
    cases same
  shaped other same := by
    rw [isInput'.op, NodeOp.input.injEq] at same
    exact same ▸ isInput'

/-- A new input is shaped as one. -/
theorem isInput_newInput (name : String) (type : SocketType) :
    (newInput name type).IsInput ⟨name, type, .zero type, true⟩ where
  op := rfl
  inputs := rfl
  outputs := rfl
  default := by cases type <;> rfl

/-- A named input of another type is shaped as a named input. -/
theorem IsInput.retype {old new : Node} {port : InputPort} (isInput : old.IsInput port)
    {type : SocketType} (changed : old.retypeInput? type = some new) :
    new.IsInput { port with type, default := port.default.convert type } := by
  unfold retypeInput? at changed
  rw [isInput.op] at changed
  cases changed
  exact ⟨rfl, isInput.inputs, by simp [isInput.outputs], Value.type_convert _ _⟩

/-- Every named input can be given another type. -/
theorem IsInput.exists_retype {old : Node} {port : InputPort} (isInput : old.IsInput port)
    (type : SocketType) : ∃ new, old.retypeInput? type = some new := by
  unfold retypeInput?
  rw [isInput.op]
  exact ⟨_, rfl⟩

/-- Only a named input can be given another type. -/
theorem exists_input_of_retype {old new : Node} {type : SocketType}
    (changed : old.retypeInput? type = some new) : ∃ port, old.op = .input port := by
  unfold retypeInput? at changed
  split at changed
  · rename_i port input
    exact ⟨port, input⟩
  · cases changed

/-- A named input that is asked for again stays a named input. -/
theorem IsInput.widened {old : Node} {port : InputPort} (isInput : old.IsInput port)
    (type : SocketType) : ∃ port', (old.widened type).IsInput port' ∧ port'.name = port.name := by
  cases type with
  | scalar => exact ⟨port, isInput, rfl⟩
  | vector =>
    obtain ⟨new, changed⟩ := isInput.exists_retype .vector
    have same : old.widened .vector = new := by simp only [Node.widened, changed, Option.getD_some]
    rw [same]
    exact ⟨_, isInput.retype changed, rfl⟩

/-- A new input that is asked for again is a new input. -/
theorem widened_newInput (name : String) (type asked : SocketType) :
    (newInput name type).widened asked =
      newInput name (if asked = .vector then .vector else type) := by
  cases asked <;> cases type <;> rfl

/-- A port that is shown or hidden takes the place of the port. -/
theorem replaces_setExposed {old new : Node} {exposed : Bool}
    (shaped : ∀ port, old.op = .input port → old.IsInput port)
    (changed : old.setExposed? exposed = some new) : new.Replaces old := by
  unfold setExposed? at changed
  split at changed
  · rename_i port same
    have isInput := shaped port same
    cases changed
    exact isInput.replaces { port with exposed }
      ⟨rfl, isInput.inputs, isInput.outputs, isInput.default⟩ rfl
  · rename_i port same
    cases changed
    exact ⟨rfl, rfl, fun other is => by simp [same] at is, fun other _ => ⟨_, rfl⟩,
      fun other is => by simp at is⟩
  · cases changed

/-- A named input with another default takes the place of the input. -/
theorem replaces_setPortDefault {old new : Node} {value : Value}
    (shaped : ∀ port, old.op = .input port → old.IsInput port)
    (changed : old.setPortDefault? value = some new) : new.Replaces old := by
  unfold setPortDefault? at changed
  split at changed
  · rename_i port same
    have isInput := shaped port same
    cases changed
    exact isInput.replaces { port with default := value.convert port.type }
      ⟨rfl, isInput.inputs, isInput.outputs, Value.type_convert _ _⟩ rfl
  · cases changed

/-- A node with another default takes the place of the node. -/
theorem replaces_setInputDefault {node : Node}
    (shaped : ∀ port, node.op = .input port → node.IsInput port) (place : Nat) (value : Value) :
    (node.setInputDefault place value).Replaces node where
  inputs := by simp [setInputDefault]
  outputs := rfl
  input port same := ⟨port, same, rfl⟩
  output port same := ⟨port, same⟩
  shaped port same := by
    obtain ⟨op, inputs, outputs, default⟩ := shaped port same
    exact ⟨op, by simp [setInputDefault, inputs], outputs, default⟩

/-- A node with another label takes the place of the node. -/
theorem replaces_setLabel {node : Node}
    (shaped : ∀ port, node.op = .input port → node.IsInput port) (label : Option String) :
    ({ node with label } : Node).Replaces node where
  inputs := rfl
  outputs := rfl
  input port same := ⟨port, same, rfl⟩
  output port same := ⟨port, same⟩
  shaped port same := by
    obtain ⟨op, inputs, outputs, default⟩ := shaped port same
    exact ⟨op, inputs, outputs, default⟩

end Node

namespace Graph

/-- What asking for an input does to a graph. -/
structure AddsInput (before after : Graph) (name : String) (type : SocketType) (id : Nat) :
    Prop where
  sound : after.Sound
  source? : ∀ target, after.source? target = before.source? target
  input? : ∀ other, after.input? other = if name = other then some id else before.input? other
  /-- An input of the name that there was is used again. -/
  known : ∀ old, before.node? id = some old →
    before.input? name = some id ∧ after.node? id = some (old.widened type)
  /-- Otherwise the input is new. -/
  fresh : before.node? id = none →
    before.input? name = none ∧ after.node? id = some (.newInput name type)
  node? : ∀ other, other ≠ id → after.node? other = before.node? other
  outputs : after.outputs = before.outputs
  name : after.name = before.name

/-- Asking for an input that is listed widens its node. -/
theorem addInput_of_listed {graph : Graph} {name : String} {type : SocketType} {id : Nat}
    {old : Node} {port : InputPort} (listed : graph.input? name = some id)
    (found : graph.node? id = some old) (isInput : old.IsInput port) :
    graph.addInput name type =
      (id, if type = .vector then graph.setNode id (old.widened type) else graph) := by
  unfold addInput
  cases type with
  | scalar => simp [listed]
  | vector =>
    obtain ⟨new, changed⟩ := isInput.exists_retype .vector
    simp [listed, found, changed, Node.widened]

/-- Asking for an input that is not listed adds a node. -/
theorem addInput_of_unlisted {graph : Graph} {name : String} {type : SocketType}
    (unlisted : graph.input? name = none) :
    graph.addInput name type =
      (graph.nextNode, { graph.addNode (.newInput name type) with
        inputs := graph.inputs.insert name graph.nextNode }) := by
  unfold addInput
  rw [unlisted]
  simp only [inputs_addNode]
  rfl

/-- Asking for an input of a sound graph gives the input and keeps the graph sound. -/
theorem Sound.addInput {graph : Graph} (sound : graph.Sound) (name : String) (type : SocketType) :
    AddsInput graph (graph.addInput name type).2 name type (graph.addInput name type).1 := by
  cases listed : graph.input? name with
  | some id =>
    obtain ⟨old, port, found, input, -⟩ := sound.input?_spec listed
    have isInput := sound.inputShaped id old port found input
    obtain ⟨port', isInput', named⟩ := isInput.widened type
    rw [addInput_of_listed listed found isInput]
    have input? (other : String) : graph.input? other =
        if name = other then some id else graph.input? other := by
      split
      · rename_i same; rw [← same, listed]
      · rfl
    cases type with
    | scalar =>
      exact ⟨sound, fun _ => rfl, input?, fun other here => ⟨listed, here⟩,
        fun none => by simp [found] at none, fun _ _ => rfl, rfl, rfl⟩
    | vector =>
      have node? := node?_setNode found (old.widened .vector)
      rw [if_pos rfl]
      refine ⟨sound.setNode found (isInput.replaces _ isInput' named), sound.source?_setNode _ _,
        input?, fun other here => ⟨listed, ?_⟩, fun absent => ?_, fun other apart => ?_, rfl, rfl⟩
      · rw [found, Option.some.injEq] at here
        rw [node?, if_pos rfl, here]
      · rw [found] at absent
        cases absent
      · exact (node? other).trans (if_neg (Ne.symm apart))
  | none =>
    rw [addInput_of_unlisted listed]
    have added := sound.addNode (.newInput name type) fun port same => by
      have isInput := Node.isInput_newInput name type
      rw [isInput.op, NodeOp.input.injEq] at same
      exact same ▸ isInput
    have node? := sound.node?_addNode (.newInput name type)
    have entries := Table.entries_insert_of_get?_eq_none listed graph.nextNode
    refine ⟨?_, fun target => ?_, fun other => Table.get?_insert _ _ _ _, fun old here => ?_,
      fun _ => ⟨listed, ?_⟩, fun other apart => ?_, outputs_addNode _ _, ?_⟩
    · exact {
        orderly := added.orderly
        slots := added.slots
        numbers := added.numbers
        joined := added.joined
        single := added.single
        inputNamed := fun entry mem => by
          rcases List.mem_append.1 (entries ▸ mem) with before | last
          · exact added.inputNamed entry ((inputs_addNode graph _).symm ▸ before)
          · rw [List.mem_singleton.1 last]
            exact ⟨_, _, (node? _).trans (if_pos rfl), rfl, rfl⟩
        outputNamed := added.outputNamed
        outputsDistinct := added.outputsDistinct
        inputShaped := added.inputShaped }
    · refine Eq.trans (source?_congr _ (graph.addNode (.newInput name type)) ?_ added.orderly ?_
        target) (sound.source?_addNode target)
      · exact added.orderly
      · rfl
    · have here : graph.node? graph.nextNode = some old := here
      rw [sound.node?_nextNode] at here
      cases here
    · exact (node? _).trans (if_pos rfl)
    · exact (node? other).trans (if_neg (Ne.symm apart))
    · rw [sound.addNode_eq]

/-- What adding an output does to a graph. -/
structure AddsOutput (before after : Graph) (name : String) (type : SocketType) (id : Nat) :
    Prop where
  sound : after.Sound
  fresh : before.node? id = none
  source? : ∀ target, after.source? target = before.source? target
  node? : ∀ other, after.node? other =
    if id = other then some (.newOutput name type) else before.node? other
  inputs : after.inputs = before.inputs
  outputs : after.outputs = before.outputs ++ [id]
  name : after.name = before.name

/-- Adding an output to a sound graph keeps it sound. -/
theorem Sound.addOutput {graph : Graph} (sound : graph.Sound) (name : String)
    (type : SocketType) :
    AddsOutput graph (graph.addOutput name type).2 name type (graph.addOutput name type).1 := by
  have added := sound.addNode (.newOutput name type) fun port same => by cases same
  have node? := sound.node?_addNode (.newOutput name type)
  have outputs : (graph.addOutput name type).2.outputs = graph.outputs ++ [graph.nextNode] := by
    simp only [Graph.addOutput, outputs_addNode]
  refine ⟨?_, sound.node?_nextNode, fun target => ?_, node?, inputs_addNode _ _, outputs, ?_⟩
  · exact {
      orderly := added.orderly
      slots := added.slots
      numbers := added.numbers
      joined := added.joined
      single := added.single
      inputNamed := added.inputNamed
      outputNamed := fun id mem => by
        rw [outputs] at mem
        rcases List.mem_append.1 mem with before | last
        · exact added.outputNamed id ((outputs_addNode graph _).symm ▸ before)
        · rw [List.mem_singleton.1 last]
          exact ⟨_, _, (node? _).trans (if_pos rfl), rfl⟩
      outputsDistinct := by
        rw [outputs]
        refine List.nodup_append.2 ⟨sound.outputsDistinct, by simp, fun id mem last same => ?_⟩
        rw [List.mem_singleton] at same
        intro equal
        obtain ⟨node, port, found, -⟩ := sound.outputNamed id mem
        rw [equal, same, sound.node?_nextNode] at found
        cases found
      inputShaped := added.inputShaped }
  · refine Eq.trans (source?_congr _ (graph.addNode (.newOutput name type)) ?_ added.orderly ?_
      target) (sound.source?_addNode target)
    · exact added.orderly
    · rfl
  · show (graph.addNode _).name = graph.name
    rw [sound.addNode_eq]

/-- A node is changed exactly when there is one and it allows the change. -/
theorem changeNode_eq_ok_iff {graph after : Graph} {id : Nat} {change? : Node → Option Node} :
    graph.changeNode id change? = .ok after ↔
      ∃ old new, graph.node? id = some old ∧ change? old = some new ∧
        after = graph.setNode id new := by
  unfold changeNode Graph.node
  cases graph.node? id with
  | none => simp [bind, Except.bind]
  | some old =>
    cases changed : change? old with
    | none => simp [bind, Except.bind, changed]
    | some new => simp [bind, Except.bind, changed, eq_comm]

/-- A port is shown or hidden exactly when the node is one. -/
theorem setExposed_eq_ok_iff {graph after : Graph} {id : Nat} {exposed : Bool} :
    graph.setExposed id exposed = .ok after ↔
      ∃ old new, graph.node? id = some old ∧ old.setExposed? exposed = some new ∧
        after = graph.setNode id new := by
  rw [setExposed_eq, changeNode_eq_ok_iff]

/-- The type of an input is changed exactly when the node is one. -/
theorem setInputType_eq_ok_iff {graph after : Graph} {id : Nat} {type : SocketType} :
    graph.setInputType id type = .ok after ↔
      ∃ old new, graph.node? id = some old ∧ old.retypeInput? type = some new ∧
        after = graph.setNode id new := by
  rw [setInputType_eq, changeNode_eq_ok_iff]

/-- The default of an input is changed exactly when the node is one. -/
theorem setInputDefault_eq_ok_iff {graph after : Graph} {id : Nat} {value : Value} :
    graph.setInputDefault id value = .ok after ↔
      ∃ old new, graph.node? id = some old ∧ old.setPortDefault? value = some new ∧
        after = graph.setNode id new := by
  rw [setInputDefault_eq, changeNode_eq_ok_iff]

/-- Putting the inputs into another order keeps a graph sound. -/
theorem Sound.sortInputs {graph : Graph} (sound : graph.Sound) (le : String → String → Bool) :
    (graph.sortInputs le).Sound where
  orderly := sound.orderly
  slots := sound.slots
  numbers := sound.numbers
  joined := sound.joined
  single := sound.single
  inputNamed entry mem := sound.inputNamed entry ((List.mergeSort_perm _ _).mem_iff.1 mem)
  outputNamed := sound.outputNamed
  outputsDistinct := sound.outputsDistinct
  inputShaped := sound.inputShaped

/-- Putting the inputs into another order changes none of them. -/
theorem input?_sortInputs (graph : Graph) (le : String → String → Bool) (name : String) :
    (graph.sortInputs le).input? name = graph.input? name :=
  Table.get?_sortBy _ _ _

end Graph

end Shadeloom
