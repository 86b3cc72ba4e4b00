import Mathlib
import Shadeloom.Proofs.Graph.Acyclic
import Shadeloom.Proofs.Graph.History
/-!
# Shaped graphs

What else holds of every graph that is made by edits, besides its bookkeeping: a constant has no
input sockets and a named output has no output sockets, so nothing enters the one and nothing leaves
the other. Every edit keeps this.
-/
namespace Shadeloom

namespace Node

/-- Whether a node has no input sockets if it is a constant, and no output sockets if it is a named
output. -/
structure Shaped (node : Node) : Prop where
  constant : node.op.kind = .constant → node.inputs = []
  output : node.op.kind = .namedOutput → node.outputs = []

/-- The sockets that follow from an operation have the shape of it. -/
theorem shaped_ofOp (op : NodeOp) : (ofOp op).Shaped := by
  constructor
  · intro constant
    cases op <;> first | rfl | cases constant
  · intro output
    cases op <;> first | rfl | cases output

/-- A node keeps its shape while it plays the same role and gets no more sockets. -/
theorem Shaped.of_counts {old new : Node} (shaped : old.Shaped) (kind : new.op.kind = old.op.kind)
    (inputs : new.inputs.length ≤ old.inputs.length)
    (outputs : new.outputs.length = old.outputs.length) : new.Shaped where
  constant same := by
    rw [shaped.constant (kind ▸ same), List.length_nil, Nat.le_zero] at inputs
    exact List.length_eq_zero_iff.1 inputs
  output same := by
    rw [shaped.output (kind ▸ same), List.length_nil] at outputs
    exact List.length_eq_zero_iff.1 outputs

/-- A port that is shown or hidden plays the same role. -/
theorem kind_setExposed {old new : Node} {exposed : Bool}
    (changed : old.setExposed? exposed = some new) : new.op.kind = old.op.kind := by
  unfold setExposed? at changed
  split at changed
  · rename_i same; cases changed; rw [same]; rfl
  · rename_i same; cases changed; rw [same]; rfl
  · cases changed

/-- A named input with another default plays the same role. -/
theorem kind_setPortDefault {old new : Node} {value : Value}
    (changed : old.setPortDefault? value = some new) : new.op.kind = old.op.kind := by
  unfold setPortDefault? at changed
  split at changed
  · rename_i same; cases changed; rw [same]; rfl
  · cases changed

/-- A named input of another type plays the same role. -/
theorem kind_retypeInput {old new : Node} {type : SocketType}
    (changed : old.retypeInput? type = some new) : new.op.kind = old.op.kind := by
  unfold retypeInput? at changed
  split at changed
  · rename_i same; cases changed; rw [same]; rfl
  · cases changed

/-- A node that is asked for again as an input plays the same role. -/
theorem kind_widened (node : Node) (type : SocketType) :
    (node.widened type).op.kind = node.op.kind := by
  cases type with
  | scalar => rfl
  | vector =>
    show ((node.retypeInput? .vector).getD node).op.kind = node.op.kind
    cases changed : node.retypeInput? .vector with
    | none => rfl
    | some new => exact kind_retypeInput changed

end Node

namespace Graph

/-- The bookkeeping of a graph that is made by edits, with the shape of its nodes. -/
structure Shaped (graph : Graph) : Prop extends graph.Sound where
  nodes : ∀ id node, graph.node? id = some node → node.Shaped

/-- An empty graph is shaped. -/
theorem shaped_empty (name : String) : (empty name).Shaped where
  toSound := sound_empty name
  nodes id node found := by simp [empty, node?, Slots.empty, Slots.get?] at found

section

variable {graph : Graph}

/-- Nothing enters a constant. -/
theorem Shaped.source?_constant (shaped : graph.Shaped) {id : Nat} {node : Node}
    (found : graph.node? id = some node) (constant : node.op.kind = .constant) (place : Nat) :
    graph.source? ⟨id, place⟩ = none := by
  rw [Option.eq_none_iff_forall_not_mem]
  intro source linked
  obtain ⟨receiver, here, below⟩ := shaped.hasInput linked
  simp only at here
  rw [found, Option.some.injEq] at here
  rw [← here, (shaped.nodes id node found).constant constant] at below
  exact Nat.not_lt_zero _ below

/-- Nothing leaves a named output. -/
theorem Shaped.idle_output (shaped : graph.Shaped) {id : Nat} {node : Node}
    (found : graph.node? id = some node) (output : node.op.kind = .namedOutput) :
    graph.Idle id := by
  rintro target source linked rfl
  obtain ⟨sender, here, below⟩ := shaped.hasOutput linked
  rw [found, Option.some.injEq] at here
  rw [← here, (shaped.nodes _ node found).output output] at below
  exact Nat.not_lt_zero _ below

/-- Adding a node that has the shape of its operation keeps a graph shaped. -/
theorem Shaped.addNode (shaped : graph.Shaped) {node : Node} (fits : node.Shaped)
    (isInput : ∀ port, node.op = .input port → node.IsInput port) :
    (graph.addNode node).Shaped where
  toSound := shaped.toSound.addNode node isInput
  nodes id other found := by
    rw [shaped.node?_addNode] at found
    split at found
    · cases found; exact fits
    · exact shaped.nodes id other found

/-- Replacing a node by one that plays the same role keeps a graph shaped. -/
theorem Shaped.setNode (shaped : graph.Shaped) {id : Nat} {old new : Node}
    (found : graph.node? id = some old) (fits : new.Replaces old)
    (kind : new.op.kind = old.op.kind) : (graph.setNode id new).Shaped where
  toSound := shaped.toSound.setNode found fits
  nodes other node here := by
    rw [node?_setNode found] at here
    split at here
    · cases here
      exact (shaped.nodes id old found).of_counts kind fits.inputs.le fits.outputs
    · exact shaped.nodes other node here

/-- Removing a node keeps a graph shaped. -/
theorem Shaped.removes (shaped : graph.Shaped) {after : Graph} {id : Nat}
    (removes : Removes graph after id) : after.Shaped where
  toSound := removes.sound
  nodes other node found := by
    rw [removes.node?] at found
    split at found
    · cases found
    · exact shaped.nodes other node found

/-- Asking for an input keeps a graph shaped. -/
theorem Shaped.addInput (shaped : graph.Shaped) (name : String) (type : SocketType) :
    (graph.addInput name type).2.Shaped where
  toSound := (shaped.toSound.addInput name type).sound
  nodes other node found := by
    have adds := shaped.toSound.addInput name type
    by_cases same : other = (graph.addInput name type).1
    · subst same
      cases old : graph.node? (graph.addInput name type).1 with
      | none =>
        rw [(adds.fresh old).2] at found
        cases found
        exact Node.shaped_ofOp _
      | some node' =>
        obtain ⟨listed, widened⟩ := adds.known node' old
        rw [widened] at found
        cases found
        obtain ⟨input, port, here, op, -⟩ := shaped.input?_spec listed
        rw [old, Option.some.injEq] at here
        subst here
        have kind : (node'.widened type).op.kind = .namedInput := by
          rw [Node.kind_widened, op]
          rfl
        constructor <;> intro other <;> rw [kind] at other <;> cases other
    · rw [adds.node? other same] at found
      exact shaped.nodes other node found

/-- Adding an output keeps a graph shaped. -/
theorem Shaped.addOutput (shaped : graph.Shaped) (name : String) (type : SocketType) :
    (graph.addOutput name type).2.Shaped where
  toSound := (shaped.toSound.addOutput name type).sound
  nodes other node found := by
    rw [(shaped.toSound.addOutput name type).node?] at found
    split at found
    · cases found
      exact Node.shaped_ofOp _
    · exact shaped.nodes other node found

end

end Graph

namespace Edit

/-- A call keeps a graph shaped. -/
theorem change_shaped {graph after : Graph} (shaped : graph.Shaped) {edit : Edit}
    (done : edit.steps.result graph = .ok after) : after.Shaped := by
  have sound := change_sound shaped.toSound done
  cases edit with
  | addNode op plain =>
    cases done
    refine shaped.addNode (Node.shaped_ofOp op) fun port input => ?_
    have input : op = .input port := input
    rw [input] at plain
    cases plain
  | addInstance definition =>
    cases done
    exact shaped.addNode ⟨nofun, nofun⟩ fun port input => by cases input
  | removeNode id =>
    rw [steps, Editing.result_discard] at done
    obtain ⟨⟨node, removed⟩, carriedOut, rfl⟩ := map_eq_ok_iff.1 done
    exact shaped.removes (shaped.toSound.removeNode carriedOut)
  | connect source target =>
    rw [steps, Editing.result_discard] at done
    exact ⟨sound, fun id node found => shaped.nodes id node
      ((shaped.toSound.connect done).node? id ▸ found)⟩
  | disconnect number =>
    rw [steps, Editing.result_discard] at done
    obtain ⟨⟨link, dropped⟩, carriedOut, rfl⟩ := map_eq_ok_iff.1 done
    obtain ⟨-, rfl⟩ := Graph.disconnect_eq_ok_iff.1 carriedOut
    exact ⟨sound, shaped.nodes⟩
  | setSocketDefault socket value =>
    obtain ⟨node, found, done⟩ := bind_eq_ok_iff.1 ((graph.setSocketDefault_eq ..).symm.trans done)
    split at done
    · cases done
      rw [Graph.node_eq_ok_iff] at found
      exact shaped.setNode found
        (Node.replaces_setInputDefault (shaped.inputShaped _ node · found) socket.place value) rfl
    · cases done
  | addInput name type => cases done; exact shaped.addInput name type
  | addOutput name type => cases done; exact shaped.addOutput name type
  | setExposed id exposed =>
    obtain ⟨old, new, found, changed, rfl⟩ := Graph.setExposed_eq_ok_iff.1 done
    exact shaped.setNode found
      (Node.replaces_setExposed (shaped.inputShaped id old · found) changed)
      (Node.kind_setExposed changed)
  | setInputType id type =>
    obtain ⟨old, new, found, changed, rfl⟩ := Graph.setInputType_eq_ok_iff.1 done
    obtain ⟨port, input⟩ := Node.exists_input_of_retype changed
    have isInput := shaped.inputShaped id old port found input
    exact shaped.setNode found (isInput.replaces _ (isInput.retype changed) rfl)
      (Node.kind_retypeInput changed)
  | setInputDefault id value =>
    obtain ⟨old, new, found, changed, rfl⟩ := Graph.setInputDefault_eq_ok_iff.1 done
    exact shaped.setNode found
      (Node.replaces_setPortDefault (shaped.inputShaped id old · found) changed)
      (Node.kind_setPortDefault changed)
  | sortInputs le => cases done; exact ⟨sound, shaped.nodes⟩
  | addGroup definition => cases done; exact shaped

/-- The graph that calls one after another leave of a new one. -/
def made (name : String) (edits : List Edit) : Graph :=
  match performAll edits (.ofGraph (.empty name)) with
  | .ok _ assembly => assembly.graph
  | .error _ assembly => assembly.graph

/-- Calls one after another leave a shaped graph of a new one, refused ones included. -/
theorem made_shaped (name : String) (edits : List Edit) : (made name edits).Shaped := by
  have start : (Assembly.ofGraph (.empty name)).graph.Shaped := Graph.shaped_empty name
  obtain ⟨assembly, done, shaped⟩ :=
    performAll_keeps (fun _ shaped => shaped.orderly)
      (fun _ _ _ shaped changed => change_shaped shaped changed) edits start
  unfold made
  rw [done]
  exact shaped

end Edit

end Shadeloom
