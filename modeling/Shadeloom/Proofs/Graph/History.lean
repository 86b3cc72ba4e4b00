import Mathlib
import Shadeloom.Graph.Assembly
import Shadeloom.Proofs.Graph.Ports
import Shadeloom.Proofs.Results
/-!
# Histories of graphs

A caller edits a new graph by calls, with numbers and places of its own choice. A call that is
refused is caught, and the next one is made on what it has left. However the calls are chosen, the
graph is in order after them: what a caller can look up in it is there, once, and of one type.
-/
namespace Shadeloom

namespace Graph

/-- What a caller may rely on between two calls. -/
structure InOrder (graph : Graph) : Prop where
  /-- An input socket is entered by one link at most. -/
  enteredOnce : ∀ target, (graph.links.filter fun link => link.target = target).length ≤ 1
  /-- Links join sockets of nodes. -/
  joined : ∀ link ∈ graph.links, graph.HasOutput link.source ∧ graph.HasInput link.target
  /-- The table of inputs lists named inputs under their names. -/
  inputNamed : ∀ entry ∈ graph.inputs.entries,
    ∃ node port, graph.node? entry.2 = some node ∧ node.op = .input port ∧ port.name = entry.1
  inputsDistinct : graph.inputs.values.Nodup
  /-- The list of outputs lists named outputs. -/
  outputNamed : ∀ id ∈ graph.outputs,
    ∃ node port, graph.node? id = some node ∧ node.op = .output port
  outputsDistinct : graph.outputs.Nodup
  /-- A named input, its default and its output socket have the same type. -/
  inputTyped : ∀ id node port, graph.node? id = some node → node.op = .input port →
    port.default.type = port.type ∧ node.outputs.map OutputSocket.type = [port.type]

/-- One link of a sound graph at most enters an input socket. -/
theorem Sound.enteredOnce {graph : Graph} (sound : graph.Sound) (target : Socket) :
    (graph.links.filter fun link => link.target = target).length ≤ 1 := by
  have distinct : graph.links.Nodup := List.Nodup.of_map _ sound.numbers.used_distinct
  rw [← List.toFinset_card_of_nodup (distinct.filter _)]
  apply Finset.card_le_one.2
  intro a here b there
  have here := List.mem_filter.1 (List.mem_toFinset.1 here)
  have there := List.mem_filter.1 (List.mem_toFinset.1 there)
  simp only [decide_eq_true_eq] at here there
  exact sound.single a here.1 b there.1 (here.2.trans there.2.symm)

/-- No node is listed for two names of inputs, since it has only one name. -/
theorem Sound.inputsDistinct {graph : Graph} (sound : graph.Sound) :
    graph.inputs.values.Nodup := by
  have entries : graph.inputs.entries.Nodup := List.Nodup.of_map _ graph.inputs.distinct
  refine List.Nodup.map_on (fun a here b there same => ?_) entries
  obtain ⟨node, port, found, input, named⟩ := sound.inputNamed a here
  obtain ⟨node', port', found', input', named'⟩ := sound.inputNamed b there
  have nodes : node = node' := by rw [same, found', Option.some.injEq] at found; exact found.symm
  have ports : port = port' := by rw [nodes, input', NodeOp.input.injEq] at input; exact input.symm
  exact Prod.ext (by rw [← named, ← named', ports]) same

/-- A sound graph is in order. -/
theorem Sound.inOrder {graph : Graph} (sound : graph.Sound) : graph.InOrder where
  enteredOnce := sound.enteredOnce
  joined := sound.joined
  inputNamed := sound.inputNamed
  inputsDistinct := sound.inputsDistinct
  outputNamed := sound.outputNamed
  outputsDistinct := sound.outputsDistinct
  inputTyped id node port found input := by
    have isInput := sound.inputShaped id node port found input
    exact ⟨isInput.default, by rw [isInput.outputs]; rfl⟩

end Graph

/-- An operator is no port. -/
@[simp] theorem NodeOp.isPort_math (op : MathOp) : (NodeOp.math op).isPort = false := rfl

/-- A call that edits a graph or the definitions that are stored with it. -/
inductive Edit where
  /-- Adds a node that is no port, as only calls of their own add ports. -/
  | addNode (op : NodeOp) (plain : op.isPort = false)
  | addInstance (definition : Graph)
  | removeNode (id : Nat)
  | connect (source target : Socket)
  | disconnect (number : Nat)
  | setSocketDefault (socket : Socket) (value : Value)
  | addInput (name : String) (type : SocketType)
  | addOutput (name : String) (type : SocketType)
  | setExposed (id : Nat) (exposed : Bool)
  | setInputType (id : Nat) (type : SocketType)
  | setInputDefault (id : Nat) (value : Value)
  | sortInputs (le : String → String → Bool)
  | addGroup (definition : Assembly)

namespace Edit

/-- What a call does to a graph. -/
def steps : Edit → Editing Unit
  | addNode op _ => modify fun graph => graph.addNode (.ofOp op)
  | addInstance definition => modify fun graph => graph.addNode definition.instanceNode
  | removeNode id => discard (Editing.removeNode id)
  | connect source target => discard (Editing.connect source target)
  | disconnect number => discard (Editing.disconnect number)
  | setSocketDefault socket value => Editing.setSocketDefault socket value
  | addInput name type => modify fun graph => (graph.addInput name type).2
  | addOutput name type => modify fun graph => (graph.addOutput name type).2
  | setExposed id exposed => Editing.setExposed id exposed
  | setInputType id type => Editing.setInputType id type
  | setInputDefault id value => Editing.setInputDefault id value
  | sortInputs le => modify fun graph => graph.sortInputs le
  | addGroup _ => pure ()

/-- Edits the graph of an assembly in place; what the steps have done stays done if one is
refused. -/
def onGraph (steps : Editing Unit) : EStateM GraphError Assembly Unit := fun assembly =>
  match steps assembly.graph with
  | .ok _ graph => .ok () { assembly with graph }
  | .error error graph => .error error { assembly with graph }

/-- Makes a call. -/
def perform : Edit → EStateM GraphError Assembly Unit
  | addGroup definition => modify fun assembly => assembly.addGroup definition
  | edit => onGraph edit.steps

/-- Makes calls one after another and goes on after those that are refused. -/
def performAll (edits : List Edit) : EStateM GraphError Assembly Unit :=
  edits.forM fun edit => tryCatch edit.perform fun _ => pure ()

/-- A call that is refused leaves the graph as it was. -/
theorem spares_steps {graph : Graph} (orderly : graph.tangle = none) (edit : Edit) :
    edit.steps.Spares graph := by
  cases edit with
  | addNode op plain => exact (Editing.succeeds_modify _).spares graph
  | addInstance definition => exact (Editing.succeeds_modify _).spares graph
  | removeNode id => exact (Editing.spares_removeNode orderly id).discard
  | connect source target => exact (Editing.spares_connect source target graph).discard
  | disconnect number => exact (Editing.spares_disconnect number graph).discard
  | setSocketDefault socket value => exact Editing.spares_setSocketDefault socket value graph
  | addInput name type => exact (Editing.succeeds_modify _).spares graph
  | addOutput name type => exact (Editing.succeeds_modify _).spares graph
  | setExposed id exposed =>
    exact Editing.spares_changePort (Node.setExposed_eq exposed) id graph
  | setInputType id type => exact Editing.spares_changePort (Node.retypeInput_eq type) id graph
  | setInputDefault id value =>
    exact Editing.spares_changePort (Node.setPortDefault_eq value) id graph
  | sortInputs le => exact (Editing.succeeds_modify _).spares graph
  | addGroup definition => exact (Editing.succeeds_pure ()).spares graph

/-- Steps on the graph of an assembly that are refused leave the assembly as it was if they leave
the graph so. -/
theorem onGraph_eq_of_refused {steps : Editing Unit} {assembly after : Assembly}
    {error : GraphError} (spares : steps.Spares assembly.graph)
    (refused : onGraph steps assembly = .error error after) : after = assembly := by
  unfold onGraph at refused
  cases done : steps assembly.graph with
  | ok _ graph => rw [done] at refused; cases refused
  | error fault graph =>
    rw [done] at refused
    cases refused
    rw [spares _ graph done]
    cases assembly
    rfl

/-- A call stores a definition or edits the graph. -/
theorem perform_cases (edit : Edit) :
    (∃ definition : Assembly, edit.perform = modify fun assembly => assembly.addGroup definition) ∨
      edit.perform = onGraph edit.steps := by
  cases edit with
  | addGroup definition => exact .inl ⟨definition, rfl⟩
  | _ => exact .inr rfl

/-- A call that is refused leaves the graph and the definitions as they were. -/
theorem eq_of_refused {edit : Edit} {assembly after : Assembly} {error : GraphError}
    (orderly : assembly.graph.tangle = none) (refused : edit.perform assembly = .error error after) :
    after = assembly := by
  rcases edit.perform_cases with ⟨definition, stores⟩ | edits
  · rw [stores] at refused
    cases refused
  · rw [edits] at refused
    exact onGraph_eq_of_refused (spares_steps orderly edit) refused

/-- A call keeps a graph sound. -/
theorem change_sound {graph after : Graph} (sound : graph.Sound) {edit : Edit}
    (done : edit.steps.result graph = .ok after) : after.Sound := by
  cases edit with
  | addNode op plain =>
    cases done
    refine sound.addNode (.ofOp op) fun port input => ?_
    have input : op = .input port := input
    rw [input] at plain
    cases plain
  | addInstance definition =>
    cases done
    exact sound.addNode definition.instanceNode fun port input => by cases input
  | removeNode id =>
    rw [steps, Editing.result_discard] at done
    obtain ⟨⟨node, removed⟩, carriedOut, rfl⟩ := map_eq_ok_iff.1 done
    exact (sound.removeNode carriedOut).sound
  | connect source target =>
    rw [steps, Editing.result_discard] at done
    exact (sound.connect done).sound
  | disconnect number =>
    rw [steps, Editing.result_discard] at done
    obtain ⟨⟨link, dropped⟩, carriedOut, rfl⟩ := map_eq_ok_iff.1 done
    obtain ⟨found, rfl⟩ := Graph.disconnect_eq_ok_iff.1 carriedOut
    have linked := (sound.link?_eq_some_iff.1 found).1
    exact sound.dropLinks [link] (by simpa using linked) (by simp)
  | setSocketDefault socket value =>
    obtain ⟨node, found, done⟩ := bind_eq_ok_iff.1 ((graph.setSocketDefault_eq ..).symm.trans done)
    split at done
    · cases done
      rw [Graph.node_eq_ok_iff] at found
      exact sound.setNode found
        (Node.replaces_setInputDefault (sound.inputShaped _ node · found) socket.place value)
    · cases done
  | addInput name type => cases done; exact (sound.addInput name type).sound
  | addOutput name type => cases done; exact (sound.addOutput name type).sound
  | setExposed id exposed =>
    obtain ⟨old, new, found, changed, rfl⟩ := Graph.setExposed_eq_ok_iff.1 done
    exact sound.setNode found (Node.replaces_setExposed (sound.inputShaped id old · found) changed)
  | setInputType id type =>
    obtain ⟨old, new, found, changed, rfl⟩ := Graph.setInputType_eq_ok_iff.1 done
    obtain ⟨port, input⟩ := Node.exists_input_of_retype changed
    have isInput := sound.inputShaped id old port found input
    exact sound.setNode found (isInput.replaces _ (isInput.retype changed) rfl)
  | setInputDefault id value =>
    obtain ⟨old, new, found, changed, rfl⟩ := Graph.setInputDefault_eq_ok_iff.1 done
    exact sound.setNode found
      (Node.replaces_setPortDefault (sound.inputShaped id old · found) changed)
  | sortInputs le => cases done; exact sound.sortInputs le
  | addGroup definition => cases done; exact sound

/-- A definition that is stored leaves the graph alone. -/
theorem graph_addGroup (assembly definition : Assembly) :
    (assembly.addGroup definition).graph = assembly.graph := by
  unfold Assembly.addGroup Assembly.setGroup
  split
  · rfl
  · rfl

/-- Steps on the graph of an assembly that are carried out leave what they leave of the graph. -/
theorem result_of_onGraph {steps : Editing Unit} {assembly after : Assembly}
    (done : onGraph steps assembly = .ok () after) :
    steps.result assembly.graph = .ok after.graph := by
  unfold onGraph at done
  unfold Editing.result Editing.outcome
  cases carriedOut : steps assembly.graph with
  | ok _ graph => rw [carriedOut] at done; cases done; rfl
  | error error graph => rw [carriedOut] at done; cases done

section

variable {holds : Graph → Prop}

/-- A call that is carried out keeps what its steps keep. -/
theorem perform_keeps
    (keeps : ∀ graph after (edit : Edit), holds graph → edit.steps.result graph = .ok after →
      holds after)
    {assembly after : Assembly} (start : holds assembly.graph) {edit : Edit}
    (done : edit.perform assembly = .ok () after) : holds after.graph := by
  rcases edit.perform_cases with ⟨definition, stores⟩ | edits
  · rw [stores] at done
    cases done
    rw [graph_addGroup]
    exact start
  · rw [edits] at done
    exact keeps _ _ edit start (result_of_onGraph done)

/-- A call that is caught if it is refused goes through, and what every call keeps is kept. -/
theorem attempt_keeps (orderly : ∀ graph, holds graph → graph.tangle = none)
    (keeps : ∀ graph after (edit : Edit), holds graph → edit.steps.result graph = .ok after →
      holds after)
    {assembly : Assembly} (start : holds assembly.graph) (edit : Edit) :
    ∃ after, (tryCatch edit.perform fun _ => pure () : EStateM GraphError Assembly Unit)
        assembly = .ok () after ∧ holds after.graph := by
  have step : (tryCatch edit.perform fun _ => pure () : EStateM GraphError Assembly Unit)
      assembly = match edit.perform assembly with
        | .ok done after => .ok done after
        | .error _ after => .ok () after := by
    show EStateM.tryCatch edit.perform _ assembly = _
    unfold EStateM.tryCatch
    cases edit.perform assembly <;> rfl
  cases performed : edit.perform assembly with
  | ok _ after =>
    rw [performed] at step
    exact ⟨after, step, perform_keeps keeps start performed⟩
  | error error after =>
    rw [performed] at step
    rw [eq_of_refused (orderly _ start) performed] at step
    exact ⟨assembly, step, start⟩

/-- Calls one after another go through, and what every call keeps is kept. -/
theorem performAll_keeps (orderly : ∀ graph, holds graph → graph.tangle = none)
    (keeps : ∀ graph after (edit : Edit), holds graph → edit.steps.result graph = .ok after →
      holds after)
    (edits : List Edit) {assembly : Assembly} (start : holds assembly.graph) :
    ∃ after, performAll edits assembly = .ok () after ∧ holds after.graph := by
  induction edits generalizing assembly with
  | nil => exact ⟨assembly, rfl, start⟩
  | cons edit rest ih =>
    obtain ⟨between, attempted, kept⟩ := attempt_keeps orderly keeps start edit
    obtain ⟨after, done, kept⟩ := ih kept
    refine ⟨after, ?_, kept⟩
    show EStateM.bind _ (fun _ => performAll rest) assembly = _
    unfold EStateM.bind
    rw [attempted]
    exact done

end

/-- A new graph is in order after any calls, refused ones included, and a call that is refused
then leaves the graph and the definitions as they are. -/
theorem performAll_inOrder (name : String) (edits : List Edit) :
    ∃ assembly, performAll edits (.ofGraph (.empty name)) = .ok () assembly ∧
      assembly.graph.InOrder ∧
      ∀ (edit : Edit) error after, edit.perform assembly = .error error after →
        after = assembly := by
  have start : (Assembly.ofGraph (.empty name)).graph.Sound := Graph.sound_empty name
  obtain ⟨assembly, done, sound⟩ := performAll_keeps (fun _ sound => sound.orderly)
    (fun _ _ _ sound changed => change_sound sound changed) edits start
  exact ⟨assembly, done, sound.inOrder, fun _ _ _ refused => eq_of_refused sound.orderly refused⟩

end Edit

end Shadeloom
