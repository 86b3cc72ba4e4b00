import Mathlib
import Shadeloom.Proofs.Graph.Shapes
/-!
# Standard layouts

A graph that is made by calls has nodes with the sockets that follow from their operations, and
lists every named input under its name. Only the defaults of input sockets are free, and the sockets
of instances, which come from the ports of a definition. Every call keeps this.
-/
namespace Shadeloom

/-- What a layout says of an input socket: all but its default. -/
def InputSocket.layout (socket : InputSocket) : String × SocketType :=
  (socket.name, socket.type)

namespace Node

/-- Whether a node that is no instance has the sockets that follow from its operation. -/
structure Standard (node : Node) : Prop where
  inputs : node.op.kind ≠ .groupInstance →
    node.inputs.map InputSocket.layout = node.op.inputSockets.map InputSocket.layout
  outputs : node.op.kind ≠ .groupInstance → node.outputs = node.op.outputSockets

/-- A node that is made for an operation has its sockets. -/
theorem standard_ofOp (op : NodeOp) : (ofOp op).Standard :=
  ⟨fun _ => rfl, fun _ => rfl⟩

/-- An instance may have any sockets. -/
theorem standard_of_group {node : Node} {group : String} (same : node.op = .group group) :
    node.Standard := by
  constructor <;> intro other <;> exact absurd (congrArg NodeOp.kind same) other

/-- A named input has one output socket of its name and type. -/
theorem IsInput.standard {node : Node} {port : InputPort} (isInput : node.IsInput port) :
    node.Standard where
  inputs _ := by rw [isInput.inputs, isInput.op]; rfl
  outputs _ := by rw [isInput.outputs, isInput.op]; rfl

/-- Another default of a socket leaves the layouts as they are. -/
theorem layouts_setInputDefault (node : Node) (place : Nat) (value : Value) :
    (node.setInputDefault place value).inputs.map InputSocket.layout =
      node.inputs.map InputSocket.layout := by
  refine List.ext_getElem (by simp [Node.setInputDefault]) fun at_ below below' => ?_
  simp only [List.getElem_map, Node.setInputDefault, List.getElem_modify]
  split <;> rfl

/-- A node keeps its layout with another default. -/
theorem Standard.setInputDefault {node : Node} (standard : node.Standard) (place : Nat)
    (value : Value) : (node.setInputDefault place value).Standard where
  inputs other := (node.layouts_setInputDefault place value).trans (standard.inputs other)
  outputs other := standard.outputs other

/-- A node keeps its layout with another operation of the same sockets. -/
theorem Standard.of_op {old new : Node} (standard : old.Standard)
    (plain : old.op.kind ≠ .groupInstance) (kept : new.inputs = old.inputs)
    (kept' : new.outputs = old.outputs)
    (inputs : old.op.inputSockets.map InputSocket.layout =
      new.op.inputSockets.map InputSocket.layout)
    (outputs : old.op.outputSockets = new.op.outputSockets) : new.Standard where
  inputs _ := by rw [kept, standard.inputs plain, inputs]
  outputs _ := by rw [kept', standard.outputs plain, outputs]

/-- A port keeps its layout when it is shown or hidden. -/
theorem Standard.setExposed {old new : Node} (standard : old.Standard) {exposed : Bool}
    (changed : old.setExposed? exposed = some new) : new.Standard := by
  unfold setExposed? at changed
  split at changed
  · rename_i op
    cases changed
    exact standard.of_op (by rw [op]; exact nofun) rfl rfl (by rw [op]; rfl) (by rw [op]; rfl)
  · rename_i op
    cases changed
    exact standard.of_op (by rw [op]; exact nofun) rfl rfl (by rw [op]; rfl) (by rw [op]; rfl)
  · cases changed

/-- A named input keeps its layout with another default. -/
theorem Standard.setPortDefault {old new : Node} (standard : old.Standard) {value : Value}
    (changed : old.setPortDefault? value = some new) : new.Standard := by
  unfold setPortDefault? at changed
  split at changed
  · rename_i op
    cases changed
    exact standard.of_op (by rw [op]; exact nofun) rfl rfl (by rw [op]; rfl) (by rw [op]; rfl)
  · cases changed

/-- A node of a standard layout has the shape of its operation. -/
theorem Standard.shaped {node : Node} (standard : node.Standard) : node.Shaped where
  constant constant := by
    have plain : node.op.kind ≠ .groupInstance := by rw [constant]; exact nofun
    have layout := standard.inputs plain
    cases op : node.op <;> rw [op] at constant layout <;> cases constant
    exact List.map_eq_nil_iff.mp layout
  output output := by
    have plain : node.op.kind ≠ .groupInstance := by rw [output]; exact nofun
    rw [standard.outputs plain]
    cases op : node.op <;> rw [op] at output <;> first | rfl | cases output

end Node

namespace Graph

/-- The bookkeeping of a graph that is made by edits, with nodes in standard layouts and all named
inputs listed. -/
structure Standard (graph : Graph) : Prop extends graph.Sound where
  layouts : ∀ id node, graph.node? id = some node → node.Standard
  listed : ∀ id node port, graph.node? id = some node → node.op = .input port →
    graph.input? port.name = some id

/-- An empty graph has no nodes that are not in a standard layout. -/
theorem standard_empty (name : String) : (empty name).Standard where
  toSound := sound_empty name
  layouts id node found := by simp [empty, node?, Slots.empty, Slots.get?] at found
  listed id node port found := by simp [empty, node?, Slots.empty, Slots.get?] at found

section

variable {graph : Graph}

/-- A graph of nodes in standard layouts is shaped. -/
theorem Standard.shaped (standard : graph.Standard) : graph.Shaped :=
  ⟨standard.toSound, fun id node found => (standard.layouts id node found).shaped⟩

/-- Adding a node in a standard layout that is no port keeps a graph standard. -/
theorem Standard.addNode (standard : graph.Standard) {node : Node} (fits : node.Standard)
    (plain : ∀ port, node.op ≠ .input port) : (graph.addNode node).Standard where
  toSound := standard.toSound.addNode node fun port op => absurd op (plain port)
  layouts id other found := by
    rw [standard.node?_addNode] at found
    split at found
    · cases found; exact fits
    · exact standard.layouts id other found
  listed id other port found op := by
    rw [standard.node?_addNode] at found
    unfold Graph.input?
    rw [inputs_addNode]
    split at found
    · cases found; exact absurd op (plain port)
    · exact standard.listed id other port found op

/-- Replacing a node by one that plays the same role in a standard layout keeps a graph standard. -/
theorem Standard.setNode (standard : graph.Standard) {id : Nat} {old new : Node}
    (found : graph.node? id = some old) (fits : new.Replaces old)
    (kind : new.op.kind = old.op.kind) (layout : new.Standard) :
    (graph.setNode id new).Standard where
  toSound := standard.toSound.setNode found fits
  layouts other node here := by
    rw [node?_setNode found] at here
    split at here
    · cases here; exact layout
    · exact standard.layouts other node here
  listed other node port here op := by
    rw [node?_setNode found] at here
    split at here
    · rename_i same
      subst same
      cases here
      obtain ⟨port', op'⟩ : ∃ port', old.op = .input port' := by
        rw [op] at kind
        cases old' : old.op <;> rw [old'] at kind <;> first | exact ⟨_, rfl⟩ | cases kind
      obtain ⟨port'', op'', name⟩ := fits.input port' op'
      rw [op, NodeOp.input.injEq] at op''
      rw [op'', name]
      exact standard.listed id old port' found op'
    · exact standard.listed other node port here op

/-- Linking sockets in another way keeps a graph standard. -/
theorem Standard.of_nodes (standard : graph.Standard) {after : Graph} (sound : after.Sound)
    (nodes : ∀ id, after.node? id = graph.node? id)
    (inputs : ∀ name, after.input? name = graph.input? name) : after.Standard where
  toSound := sound
  layouts id node found := standard.layouts id node (nodes id ▸ found)
  listed id node port found op := by
    rw [inputs]
    exact standard.listed id node port (nodes id ▸ found) op

/-- Removing a node keeps a graph standard. -/
theorem Standard.removes (standard : graph.Standard) {after : Graph} {id : Nat}
    (removes : Removes graph after id) : after.Standard where
  toSound := removes.sound
  layouts other node found := by
    rw [removes.node?] at found
    split at found
    · cases found
    · exact standard.layouts other node found
  listed other node port found op := by
    rw [removes.node?] at found
    split at found
    · cases found
    · rename_i apart
      unfold Graph.input?
      rw [removes.inputs, Table.get?_filter, Option.filter_eq_some_iff]
      exact ⟨standard.listed other node port found op, by simpa using Ne.symm apart⟩

/-- Asking for an input keeps a graph standard. -/
theorem Standard.addInput (standard : graph.Standard) (name : String) (type : SocketType) :
    (graph.addInput name type).2.Standard := by
  have adds := standard.toSound.addInput name type
  have isInput : ∀ node, (graph.addInput name type).2.node? (graph.addInput name type).1 =
      some node → ∃ port, node.IsInput port ∧ port.name = name := by
    intro node found
    have listed := adds.input? name
    rw [if_pos rfl] at listed
    obtain ⟨node', port, found', op, named⟩ := adds.sound.input?_spec listed
    rw [found, Option.some.injEq] at found'
    subst found'
    exact ⟨port, adds.sound.inputShaped _ node port found op, named⟩
  refine ⟨adds.sound, fun id node found => ?_, fun id node port found op => ?_⟩
  · by_cases same : id = (graph.addInput name type).1
    · subst same
      obtain ⟨port, isInput, -⟩ := isInput node found
      exact isInput.standard
    · exact standard.layouts id node (adds.node? id same ▸ found)
  · rw [adds.input?]
    by_cases same : id = (graph.addInput name type).1
    · subst same
      obtain ⟨port', isInput, named⟩ := isInput node found
      rw [isInput.op, NodeOp.input.injEq] at op
      rw [if_pos (named.symm.trans (congrArg InputPort.name op))]
    · have listed := standard.listed id node port (adds.node? id same ▸ found) op
      rw [if_neg]
      · exact listed
      · rintro rfl
        cases old : graph.node? (graph.addInput port.name type).1 with
        | none =>
          rw [(adds.fresh old).1] at listed
          cases listed
        | some node' =>
          rw [(adds.known node' old).1, Option.some.injEq] at listed
          exact same listed.symm

/-- Adding an output keeps a graph standard. -/
theorem Standard.addOutput (standard : graph.Standard) (name : String) (type : SocketType) :
    (graph.addOutput name type).2.Standard := by
  have adds := standard.toSound.addOutput name type
  refine ⟨adds.sound, fun id node found => ?_, fun id node port found op => ?_⟩
  · rw [adds.node?] at found
    split at found
    · cases found; exact Node.standard_ofOp _
    · exact standard.layouts id node found
  · rw [adds.node?] at found
    unfold Graph.input?
    rw [adds.inputs]
    split at found
    · cases found; cases op
    · exact standard.listed id node port found op

end

end Graph

namespace Edit

/-- A call keeps a graph standard. -/
theorem change_standard {graph after : Graph} (standard : graph.Standard) {edit : Edit}
    (done : edit.steps.result graph = .ok after) : after.Standard := by
  have sound := change_sound standard.toSound done
  cases edit with
  | addNode op plain =>
    cases done
    refine standard.addNode (Node.standard_ofOp op) fun port same => ?_
    have same : op = .input port := same
    rw [same] at plain
    cases plain
  | addInstance definition =>
    cases done
    exact standard.addNode (Node.standard_of_group rfl) nofun
  | removeNode id =>
    rw [steps, Editing.result_discard] at done
    obtain ⟨⟨node, removed⟩, carriedOut, rfl⟩ := map_eq_ok_iff.1 done
    exact standard.removes (standard.toSound.removeNode carriedOut)
  | connect source target =>
    rw [steps, Editing.result_discard] at done
    have connects := standard.toSound.connect done
    exact standard.of_nodes sound connects.node? fun name => by
      unfold Graph.input?
      rw [connects.inputs]
  | disconnect number =>
    rw [steps, Editing.result_discard] at done
    obtain ⟨⟨link, dropped⟩, carriedOut, rfl⟩ := map_eq_ok_iff.1 done
    obtain ⟨-, rfl⟩ := Graph.disconnect_eq_ok_iff.1 carriedOut
    exact standard.of_nodes sound (fun _ => rfl) fun _ => rfl
  | setSocketDefault socket value =>
    obtain ⟨node, found, done⟩ := bind_eq_ok_iff.1 ((graph.setSocketDefault_eq ..).symm.trans done)
    split at done
    · cases done
      rw [Graph.node_eq_ok_iff] at found
      exact standard.setNode found
        (Node.replaces_setInputDefault (standard.inputShaped _ node · found) socket.place value) rfl
        ((standard.layouts _ node found).setInputDefault socket.place value)
    · cases done
  | addInput name type => cases done; exact standard.addInput name type
  | addOutput name type => cases done; exact standard.addOutput name type
  | setExposed id exposed =>
    obtain ⟨old, new, found, changed, rfl⟩ := Graph.setExposed_eq_ok_iff.1 done
    exact standard.setNode found
      (Node.replaces_setExposed (standard.inputShaped id old · found) changed)
      (Node.kind_setExposed changed) ((standard.layouts id old found).setExposed changed)
  | setInputType id type =>
    obtain ⟨old, new, found, changed, rfl⟩ := Graph.setInputType_eq_ok_iff.1 done
    obtain ⟨port, input⟩ := Node.exists_input_of_retype changed
    have isInput := standard.inputShaped id old port found input
    exact standard.setNode found (isInput.replaces _ (isInput.retype changed) rfl)
      (Node.kind_retypeInput changed) (isInput.retype changed).standard
  | setInputDefault id value =>
    obtain ⟨old, new, found, changed, rfl⟩ := Graph.setInputDefault_eq_ok_iff.1 done
    exact standard.setNode found
      (Node.replaces_setPortDefault (standard.inputShaped id old · found) changed)
      (Node.kind_setPortDefault changed) ((standard.layouts id old found).setPortDefault changed)
  | sortInputs le =>
    cases done
    exact standard.of_nodes sound (fun _ => rfl) (graph.input?_sortInputs le)
  | addGroup definition => cases done; exact standard

/-- Calls one after another leave a standard graph of a new one, refused ones included. -/
theorem made_standard (name : String) (edits : List Edit) : (made name edits).Standard := by
  have start : (Assembly.ofGraph (.empty name)).graph.Standard := Graph.standard_empty name
  obtain ⟨assembly, done, standard⟩ :=
    performAll_keeps (fun _ standard => standard.orderly)
      (fun _ _ _ standard changed => change_standard standard changed) edits start
  unfold made
  rw [done]
  exact standard

end Edit

end Shadeloom
