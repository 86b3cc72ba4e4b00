import Mathlib
import Shadeloom.Proofs.Build.Closing
import Shadeloom.Proofs.Evaluation.Serving
/-!
# What a cleanup leaves as it is

All steps of a cleanup but relinking leave a graph that serves for the one before: what is taken away
is read by nothing, a default says what the constant said that it takes the place of, and defaults of
inputs do not matter where the inputs are given. So a graph without groups computes the same after
it, and shows the outputs that are declared.
-/
namespace Shadeloom

open Machine

/-- What a node computes depends on its operation, the names of its input sockets and its output
sockets. -/
theorem Machine.evalNode_congr {setting : Setting} {supplied : Assignment} {id : Nat}
    {node node' : Node} (op : node'.op = node.op)
    (names : node'.inputs.map InputSocket.name = node.inputs.map InputSocket.name)
    (outputs : node'.outputs = node.outputs) (inputs : List Value) :
    evalNode setting supplied id node' inputs = evalNode setting supplied id node inputs := by
  unfold evalNode evalInstance
  rw [op, names, outputs]

/-- Ports and constants can be evaluated whatever they read. -/
theorem Machine.exists_evalNode {node : Node}
    (steady : node.op.isPort = true ∨ node.op.kind = .constant) (setting : Setting)
    (supplied : Assignment) (id : Nat) (inputs : List Value) :
    ∃ produced, evalNode setting supplied id node inputs = .ok produced := by
  unfold evalNode
  cases op : node.op <;> rw [op] at steady <;>
    first | exact ⟨_, rfl⟩ | (rcases steady with other | other <;> cases other)

namespace Node

/-- Hiding a port changes no input socket. -/
theorem inputs_hidden (node : Node) : node.hidden.inputs = node.inputs := by
  obtain ⟨op, inputs, outputs, label⟩ := node
  unfold Node.hidden Node.setExposed?
  cases op <;> rfl

/-- A hidden output is the output of the same name and type. -/
theorem op_hidden_of_output {node : Node} {port : OutputPort} (output : node.op = .output port) :
    node.hidden.op = .output { port with exposed := false } := by
  unfold Node.hidden Node.setExposed?
  rw [output]
  rfl

/-- A port that is hidden can be taken for the one that is shown. -/
theorem hidden_resembles (node : Node) : node.hidden.Resembles node := by
  obtain ⟨op, inputs, outputs, label⟩ := node
  unfold Node.hidden Node.setExposed?
  cases op with
  | input port =>
    refine ⟨fun other same => ⟨port, rfl, ?_⟩, nofun, nofun, rfl⟩
    cases same
    rfl
  | output port => exact ⟨nofun, fun other same => ⟨port, rfl⟩, nofun, rfl⟩
  | _ => exact Node.resembles_of_op rfl rfl

end Node

/-- Hiding a port changes nothing that it computes. -/
theorem Machine.evalNode_hidden (setting : Setting) (supplied : Assignment) (id : Nat) (node : Node)
    (inputs : List Value) : evalNode setting supplied id node.hidden inputs =
      evalNode setting supplied id node inputs := by
  obtain ⟨op, sockets, outputs, label⟩ := node
  unfold Node.hidden Node.setExposed?
  cases op <;> rfl

namespace Graph

section

variable {setting : Setting} {supplied : Assignment} {before after : Graph}

/-- A node reads the same after a constant has become a default. -/
theorem Folds.reads_eq (sound : before.Sound) (single : ∀ id node value,
      before.node? id = some node → node.op = .constant value → node.outputs.length = 1)
    {target : Socket} {value : Float} (folds : before.Folds after target value)
    {valuation : Nat → List Value} (constants : ∀ id node, before.node? id = some node →
      node.op = .constant value → valuation id = [.scalar value]) {id : Nat} {node node' : Node}
    (found : before.node? id = some node) (found' : after.node? id = some node') :
    after.reads valuation id node' = before.reads valuation id node ∧ node'.op = node.op ∧
      node'.inputs.map InputSocket.name = node.inputs.map InputSocket.name ∧
        node'.outputs = node.outputs := by
  obtain ⟨receiver, here, -, node?⟩ := folds.node?
  rw [node?] at found'
  split at found'
  · rename_i same
    subst same
    rw [here, Option.some.injEq] at found
    subst found
    cases found'
    obtain ⟨source, sender, linked, sent, op⟩ := folds.fed
    have place : source.place = 0 := by
      obtain ⟨other, sent', below⟩ := sound.hasOutput linked
      rw [sent, Option.some.injEq] at sent'
      rw [← sent', single _ _ _ sent op] at below
      omega
    refine ⟨List.ext_getElem (by simp [reads, Node.setInputDefault]) fun at_ below below' => ?_, rfl,
      List.ext_getElem (by simp [Node.setInputDefault]) fun at_ below below' => ?_, rfl⟩
    · by_cases entered : target.place = at_
      · subst entered
        have cut : after.source? ⟨target.node, target.place⟩ = none := by
          rw [folds.source?, if_pos rfl]
        have linked : before.source? ⟨target.node, target.place⟩ = some source := linked
        simp [reads, Node.setInputDefault, cut, linked, constants _ _ sent op, place]
      · have kept : after.source? ⟨target.node, at_⟩ = before.source? ⟨target.node, at_⟩ := by
          rw [folds.source?, if_neg]
          intro same
          exact entered (congrArg Socket.place same)
        simp [reads, Node.setInputDefault, kept, entered]
    · simp only [List.getElem_map, Node.setInputDefault, List.getElem_modify]
      split <;> rfl
  · rename_i apart
    rw [found, Option.some.injEq] at found'
    subst found'
    refine ⟨?_, rfl, rfl, rfl⟩
    unfold reads
    refine List.map_congr_left fun entry _ => ?_
    obtain ⟨socket, place⟩ := entry
    have kept : after.source? ⟨id, place⟩ = before.source? ⟨id, place⟩ := by
      rw [folds.source?, if_neg]
      rintro rfl
      exact apart rfl
    simp only [kept]

/-- The node that a constant was folded into is no output. -/
theorem Folds.ne_output {target : Socket} {value : Float} (folds : before.Folds after target value)
    {id : Nat} {node : Node} {port : OutputPort} (found : before.node? id = some node)
    (op : node.op = .output port) : target.node ≠ id := by
  obtain ⟨receiver, here, inner, -⟩ := folds.node?
  rintro rfl
  rw [here, Option.some.injEq] at found
  rw [found, op] at inner
  cases inner

/-- Other nodes are linked as before when a constant is folded. -/
theorem Folds.source?_of_ne {target : Socket} {value : Float}
    (folds : before.Folds after target value) {id : Nat} (apart : target.node ≠ id) (place : Nat) :
    after.source? ⟨id, place⟩ = before.source? ⟨id, place⟩ := by
  rw [folds.source?, if_neg]
  rintro rfl
  exact apart rfl

/-- A wired graph stays so when a constant is folded. -/
theorem IsWired.folds (wired : before.IsWired) {target : Socket} {value : Float}
    (folds : before.Folds after target value) : after.IsWired := by
  refine wired.of_nodes (fun id new found => ?_)
    (fun name => by unfold Graph.input?; rw [folds.inputs]) folds.outputs
    fun id node port found op => by rw [folds.source?_of_ne (folds.ne_output found op)]
  obtain ⟨receiver, here, -, node?⟩ := folds.node?
  rw [node?] at found
  split at found
  · rename_i same
    cases found
    exact ⟨receiver, same ▸ here, Node.resembles_of_op rfl rfl⟩
  · exact ⟨new, found, Node.resembles_of_op rfl rfl⟩

/-- A graph in which a constant has become a default serves for the one before. -/
theorem serves_of_folds (sound : before.Sound) (single : ∀ id node value,
      before.node? id = some node → node.op = .constant value → node.outputs.length = 1)
    {target : Socket} {value : Float} (folds : before.Folds after target value) :
    before.Serves setting supplied (fun _ => true) after := by
  obtain ⟨receiver, here, -, node?⟩ := folds.node?
  refine serves_of_agree (fun id => ?_)
    (fun name => by unfold Graph.input?; rw [folds.inputs]; exact fun here => here)
    (fun valuation valid id node node' found found' => ?_) fun valuation id => ?_
  · rw [node?]
    split
    · rename_i same
      rw [← same, here]
      rfl
    · rfl
  · have constants (id : Nat) (node : Node) (found : before.node? id = some node)
        (op : node.op = .constant value) : valuation id = [.scalar value] := by
      have computed (node : Node) (op : node.op = .constant value) (inputs : List Value) :
          evalNode setting supplied id node inputs = .ok [.scalar value] := by
        unfold evalNode
        rw [op]
        rfl
      rcases valid with valued | valued
      · exact Except.ok.inj ((valued id node found).symm.trans (computed node op _))
      · obtain ⟨node', found', op'⟩ := folds.op found
        exact Except.ok.inj ((valued id node' found').symm.trans (computed node' (op'.trans op) _))
    obtain ⟨reads, op, names, outputs⟩ := folds.reads_eq sound single constants found found'
    rw [reads]
    exact evalNode_congr op names outputs _
  · rw [filter_true]
    by_cases same : target.node = id
    · subst same
      rw [delivery?_eq_none fun node found => ?_, delivery?_eq_none fun node found => ?_]
      · exact fun port op => folds.ne_output found op rfl
      · obtain ⟨node', found', op'⟩ := folds.op here
        rw [found, Option.some.injEq] at found'
        exact fun port op => folds.ne_output here (op'.symm.trans (found' ▸ op)) rfl
    · unfold delivery? shownOutput?
      rw [node?, if_neg same]
      refine Option.map_congr fun shown _ => ?_
      unfold reads
      simp only [folds.source?_of_ne same]

/-- A node of the same input sockets that are linked as before reads the same. -/
theorem reads_of_same {valuation : Nat → List Value} {id : Nat} {node node' : Node}
    (inputs : node'.inputs = node.inputs)
    (source? : ∀ target, after.source? target = before.source? target) :
    after.reads valuation id node' = before.reads valuation id node := by
  unfold reads
  rw [inputs]
  exact List.map_congr_left fun (socket, place) _ => by simp only [source?]

/-- A wired graph stays so when ports are hidden. -/
theorem IsWired.hides (wired : before.IsWired) {ids : List Nat}
    (hides : Cleanup.Hides before after ids) : after.IsWired := by
  refine wired.of_nodes (fun id new found => ?_)
    (fun name => by unfold Graph.input?; rw [hides.inputs]) hides.outputs
    fun id node port found op => by rw [hides.source?]
  rw [hides.node?] at found
  obtain ⟨old, found', rfl⟩ := Option.map_eq_some_iff.1 found
  refine ⟨old, found', ?_⟩
  split
  · exact old.hidden_resembles
  · exact Node.resembles_of_op rfl rfl

/-- A graph in which some outputs are hidden serves for the one before. -/
theorem serves_of_hides {ids : List Nat} (hides : Cleanup.Hides before after ids)
    {shows : String → Bool} (outputs : ∀ id node port, before.node? id = some node →
      node.op = .output port → (id ∈ ids ↔ shows port.name = false)) :
    before.Serves setting supplied shows after := by
  have same {id : Nat} {node node' : Node} (found : before.node? id = some node)
      (found' : after.node? id = some node') : node'.inputs = node.inputs ∧ ∀ inputs,
        evalNode setting supplied id node' inputs = evalNode setting supplied id node inputs := by
    rw [hides.node?, found, Option.map_some, Option.some.injEq] at found'
    subst found'
    split
    · exact ⟨node.inputs_hidden, evalNode_hidden setting supplied id node⟩
    · exact ⟨rfl, fun _ => rfl⟩
  refine serves_of_agree (fun id => by rw [hides.node?, Option.isSome_map])
    (fun name => by unfold Graph.input?; rw [hides.inputs]; exact fun here => here)
    (fun valuation _ id node node' found found' => ?_) fun valuation id => ?_
  · obtain ⟨inputs, computed⟩ := same found found'
    rw [computed, reads_of_same inputs hides.source?]
  · by_cases output : ∃ node port, before.node? id = some node ∧ node.op = .output port
    · obtain ⟨node, port, found, op⟩ := output
      have found' := hides.node? id
      rw [found, Option.map_some] at found'
      by_cases mem : id ∈ ids
      · rw [if_pos mem] at found'
        have hidden : after.delivery? valuation id = none := by
          unfold delivery? shownOutput?
          rw [found']
          simp [Node.op_hidden_of_output op]
        have unshown := (outputs id node port found op).1 mem
        rw [hidden]
        unfold delivery? shownOutput?
        rw [found]
        cases exposed : port.exposed <;> simp [op, exposed, unshown, Option.filter_some]
      · rw [if_neg mem] at found'
        have shown : shows port.name = true :=
          Bool.eq_true_of_not_eq_false fun unshown => mem ((outputs id node port found op).2 unshown)
        unfold delivery? shownOutput?
        rw [found, found']
        cases exposed : port.exposed <;>
          simp [op, exposed, shown, Option.filter_some,
            @reads_of_same before after valuation id node node rfl hides.source?]
    · have plain (node : Node) (found : before.node? id = some node) (port : OutputPort) :
          node.op ≠ .output port := fun op => output ⟨node, port, found, op⟩
      rw [delivery?_eq_none plain, delivery?_eq_none fun node' found' port op => ?_]
      · rfl
      · rw [hides.node?] at found'
        obtain ⟨old, found, rfl⟩ := Option.map_eq_some_iff.1 found'
        split at op
        · obtain ⟨port', op'⟩ := old.hidden_resembles.output port op
          exact plain old found port' op'
        · exact plain old found port op

/-- A node with another default can be taken for the node. -/
theorem resembles_setPortDefault {old new : Node} {value : Value}
    (changed : old.setPortDefault? value = some new) :
    new.Resembles old ∧ new.inputs = old.inputs ∧ ∃ port, old.op = .input port ∧
      new.op = .input { port with default := value.convert port.type } := by
  unfold Node.setPortDefault? at changed
  split at changed
  · rename_i port op
    cases changed
    refine ⟨⟨fun other same => ⟨port, op, ?_⟩, nofun, nofun, rfl⟩, rfl, port, op, rfl⟩
    cases same
    rfl
  · cases changed

/-- A wired graph stays so when an input gets another default. -/
theorem IsWired.setPortDefault (wired : before.IsWired) (sound : before.Sound) {id : Nat}
    {old new : Node} {value : Value} (found : before.node? id = some old)
    (changed : old.setPortDefault? value = some new) : (before.setNode id new).IsWired := by
  refine wired.of_nodes (fun other node here => ?_) (fun name => rfl) rfl
    fun other node port here op => by rw [sound.source?_setNode]
  rw [node?_setNode found] at here
  split at here
  · rename_i same
    cases here
    exact ⟨old, same ▸ found, (resembles_setPortDefault changed).1⟩
  · exact ⟨node, here, Node.resembles_of_op rfl rfl⟩

/-- A graph with another default of an input serves for the one before, if the input is given. -/
theorem serves_of_setPortDefault (sound : before.Sound) (wired : before.IsWired)
    (given : ∀ name, (before.input? name).isSome = true → supplied.contains name = true) {id : Nat}
    {old new : Node} {value : Value} (found : before.node? id = some old)
    (changed : old.setPortDefault? value = some new) :
    before.Serves setting supplied (fun _ => true) (before.setNode id new) := by
  obtain ⟨-, inputs, port, op, op'⟩ := resembles_setPortDefault changed
  refine serves_of_agree (fun other => ?_) (fun name here => here)
    (fun valuation _ other node node' here there => ?_) fun valuation other => ?_
  · rw [node?_setNode found]
    split
    · rename_i same
      rw [← same, found]
      rfl
    · rfl
  · rw [node?_setNode found] at there
    split at there
    · rename_i same
      subst same
      cases there
      rw [found, Option.some.injEq] at here
      subst here
      have listed := wired.input id old port found op
      have there := given port.name (Option.isSome_iff_exists.2 ⟨id, listed⟩)
      rw [← Table.isSome_get?, Option.isSome_iff_exists] at there
      obtain ⟨assigned, there⟩ := there
      unfold evalNode
      rw [op, op']
      simp only [there, Option.getD_some]
    · rw [here, Option.some.injEq] at there
      subst there
      rw [reads_of_same rfl (sound.source?_setNode id new)]
  · rw [filter_true]
    by_cases same : id = other
    · subst same
      rw [delivery?_eq_none fun node here other same => ?_,
        delivery?_eq_none fun node here other same => ?_]
      · rw [found, Option.some.injEq] at here
        rw [← here, op] at same
        cases same
      · rw [node?_setNode found, if_pos rfl, Option.some.injEq] at here
        rw [← here, op'] at same
        cases same
    · unfold delivery? shownOutput?
      rw [node?_setNode found, if_neg same]
      refine Option.map_congr fun shown _ => ?_
      dsimp only
      rw [reads_of_same rfl (sound.source?_setNode id new)]

/-- Putting the inputs in order links nothing. -/
theorem Sound.source?_sortInputs (sound : before.Sound) (le : String → String → Bool)
    (target : Socket) : (before.sortInputs le).source? target = before.source? target :=
  source?_congr (before.sortInputs le) before sound.orderly sound.orderly rfl target

/-- A wired graph stays so when its inputs are put in order. -/
theorem IsWired.sortInputs (wired : before.IsWired) (sound : before.Sound)
    (le : String → String → Bool) : (before.sortInputs le).IsWired :=
  wired.of_nodes (fun id new found => ⟨new, found, Node.resembles_of_op rfl rfl⟩)
    (input?_sortInputs before le) rfl fun id node port found op => by
      rw [sound.source?_sortInputs]

/-- A graph with its inputs in order serves for the one before. -/
theorem serves_of_sortInputs (sound : before.Sound) (le : String → String → Bool) :
    before.Serves setting supplied (fun _ => true) (before.sortInputs le) := by
  refine serves_of_agree (fun id => rfl)
    (fun name => by rw [input?_sortInputs]; exact fun here => here)
    (fun valuation _ id node node' found found' => ?_) fun valuation id => ?_
  · have same : node' = node := Option.some.inj (found'.symm.trans found)
    rw [same, reads_of_same rfl (sound.source?_sortInputs le)]
  · rw [filter_true]
    refine Option.map_congr fun shown _ => ?_
    dsimp only
    rw [reads_of_same rfl (sound.source?_sortInputs le)]

end

section

variable {before after : Graph}

/-- Whether a node other than an input or a constant reads the input of a name. -/
def Reads (graph : Graph) (name : String) : Prop :=
  ∃ id reader node, graph.input? name = some id ∧ graph.source? reader = some ⟨id, 0⟩ ∧
    graph.node? reader.node = some node ∧ (∀ port, node.op ≠ .input port) ∧
      ∀ value, node.op ≠ .constant value

/-- An input is still read when nodes are replaced by ones that can be taken for them. -/
theorem Reads.of_nodes {name : String} (reads : before.Reads name)
    (input? : ∀ name, after.input? name = before.input? name)
    (source? : ∀ target, after.source? target = before.source? target)
    (nodes : ∀ id old, before.node? id = some old →
      ∃ new, after.node? id = some new ∧ new.Resembles old) : after.Reads name := by
  obtain ⟨id, reader, node, listed, linked, found, plain, varying⟩ := reads
  obtain ⟨new, found', same⟩ := nodes reader.node node found
  refine ⟨id, reader, new, (input? name).trans listed, (source? reader).trans linked, found',
    fun port op => ?_, fun value op => varying value (same.constant value op)⟩
  obtain ⟨port', op', -⟩ := same.input port op
  exact plain port' op'

/-- An input is still read when an input or a constant goes that leads nowhere. -/
theorem Reads.removes {name : String} (reads : before.Reads name) {id : Nat} {node : Node}
    (found : before.node? id = some node)
    (either : (∃ port, node.op = .input port) ∨ ∃ value, node.op = .constant value)
    (idle : before.Idle id) (removes : Removes before after id) : after.Reads name := by
  obtain ⟨source, reader, other, listed, linked, here, plain, varying⟩ := reads
  obtain ⟨node?, source?, input?⟩ := removes.stays idle
  have apart : id ≠ reader.node := by
    rintro rfl
    rw [found, Option.some.injEq] at here
    subst here
    rcases either with ⟨port, op⟩ | ⟨value, op⟩
    · exact plain port op
    · exact varying value op
  have led : source ≠ id := idle reader ⟨source, 0⟩ linked
  exact ⟨source, reader, other, (input? name source).2 ⟨listed, led⟩,
    (source? reader.node reader.place apart).trans linked, (node? reader.node other).2 ⟨apart, here⟩,
    plain, varying⟩

/-- An input is still read when ports are hidden. -/
theorem Reads.hides {name : String} (reads : before.Reads name) {ids : List Nat}
    (hides : Cleanup.Hides before after ids) : after.Reads name := by
  refine reads.of_nodes (fun name => by unfold Graph.input?; rw [hides.inputs]) hides.source?
    fun id old found => ⟨_, (hides.node? id).trans (congrArg _ found), ?_⟩
  split
  · exact old.hidden_resembles
  · exact Node.resembles_of_op rfl rfl

/-- An input is still read when an input gets another default. -/
theorem Reads.setPortDefault {name : String} (reads : before.Reads name) (sound : before.Sound)
    {id : Nat} {old new : Node} {value : Value} (found : before.node? id = some old)
    (changed : old.setPortDefault? value = some new) : (before.setNode id new).Reads name := by
  refine reads.of_nodes (fun _ => rfl) (sound.source?_setNode id new) fun other node here => ?_
  rw [node?_setNode found]
  split
  · rename_i same
    rw [← same, found, Option.some.injEq] at here
    exact ⟨new, rfl, here ▸ (resembles_setPortDefault changed).1⟩
  · exact ⟨node, here, Node.resembles_of_op rfl rfl⟩

/-- An input is still read when a constant is folded. -/
theorem Reads.folds {name : String} (reads : before.Reads name) (sound : before.Sound)
    {target : Socket} {value : Float} (folds : Folds before after target value) :
    after.Reads name := by
  obtain ⟨id, reader, node, listed, linked, found, plain, varying⟩ := reads
  obtain ⟨node', found', op⟩ := folds.op found
  have apart : target ≠ reader := by
    rintro rfl
    obtain ⟨source, sender, linked', sent, constant⟩ := folds.fed
    rw [linked, Option.some.injEq] at linked'
    subst linked'
    obtain ⟨input, port, here, isInput, -⟩ := sound.input?_spec listed
    rw [sent, Option.some.injEq] at here
    rw [← here, constant] at isInput
    cases isInput
  refine ⟨id, reader, node', ?_, ?_, found', op ▸ plain, op ▸ varying⟩
  · unfold input?
    rw [folds.inputs]
    exact listed
  · rw [folds.source?, if_neg apart]
    exact linked

end

/-- What a cleanup may make of a graph without groups: one that can be evaluated, that serves for it
wherever its inputs are given, and in which inputs are read that were. -/
structure Leaves (shows : String → Bool) (before after : Graph) : Prop where
  runnable : after.Runnable .empty
  wired : after.IsWired
  serves : ∀ setting supplied,
    (∀ name, (before.input? name).isSome = true → supplied.contains name = true) →
      before.Serves setting supplied shows after
  reads : ∀ name, before.Reads name → after.Reads name

/-- A graph may be left as it is. -/
theorem Leaves.refl {graph : Graph} (runnable : graph.Runnable .empty) (wired : graph.IsWired) :
    graph.Leaves (fun _ => true) graph :=
  ⟨runnable, wired, fun _ _ _ => .refl graph, fun _ reads => reads⟩

/-- What a cleanup may make of what it may make of a graph may be made of the graph. -/
theorem Leaves.trans {shows shows' : String → Bool} {before between after : Graph}
    (early : before.Leaves shows between) (late : between.Leaves shows' after) :
    before.Leaves (fun name => shows name && shows' name) after where
  runnable := late.runnable
  wired := late.wired
  serves setting supplied given := by
    have first := early.serves setting supplied given
    exact first.trans (late.serves setting supplied fun name here =>
      given name (first.inputs name here))
  reads name here := late.reads name (early.reads name here)

/-- What hides nothing more may be made of what a cleanup may make of a graph. -/
theorem Leaves.next {shows : String → Bool} {before between after : Graph}
    (early : before.Leaves shows between) (late : between.Leaves (fun _ => true) after) :
    before.Leaves shows after := by
  have leaves := early.trans late
  simpa only [Bool.and_true] using leaves

end Graph

namespace Cleanup

open Shadeloom.Graph

/-- All steps of a cleanup after outputs have been relinked. -/
def trim (declarations : Declarations) (options : BuildOptions) (relinkedOutputs : Nat) :
    Cleanup CleanupReport := do
  let removedInputs ← ifChosen options.pruneUnused removeUnusedInputs
  let removedOutputs ← ifChosen options.pruneUnused removeUnusedOutputs
  let hiddenPorts ← hidePorts declarations
  let mergedInputs ← mergeDuplicateInputs
  let foldedConstants ← ifChosen options.foldConstants foldConstants
  applyDefaults declarations.defaults
  orderInputs options.resequenceInputs
  return ⟨relinkedOutputs, removedInputs, removedOutputs, hiddenPorts, mergedInputs,
    foldedConstants⟩

/-- A cleanup relinks outputs and then takes its other steps. -/
theorem all_eq_trim (declarations : Declarations) (options : BuildOptions) :
    all declarations options = relinkOutputs >>= trim declarations options :=
  all_eq declarations options

variable {shows : String → Bool} {site : Site}

/-- Removing unused inputs leaves a graph that serves. -/
theorem removeUnusedInputs_leaves (runnable : site.graph.Runnable .empty)
    (wired : site.graph.IsWired) : ∃ total graph,
      removeUnusedInputs site = .ok total { site with graph } ∧
        site.graph.Leaves (fun _ => true) graph := by
  exact removeUnusedInputs_ok (fun _ leaves => leaves.runnable.sound)
    (fun before after id node port leaves found op idle removes => leaves.next
      ⟨leaves.runnable.removeNode removes, leaves.wired.removes idle removes,
        fun setting supplied _ => serves_of_removes found idle removes (by rw [op]; exact nofun)
          (exists_evalNode (.inl (by rw [op]; rfl)) setting supplied id),
        fun _ reads => reads.removes found (.inl ⟨port, op⟩) idle removes⟩)
    site (.refl runnable wired)

/-- No output of a wired graph is unused. -/
theorem removeUnusedOutputs_leaves (runnable : site.graph.Runnable .empty)
    (wired : site.graph.IsWired) : ∃ total graph,
      removeUnusedOutputs site = .ok total { site with graph } ∧
        site.graph.Leaves (fun _ => true) graph := by
  refine removeUnusedOutputs_ok (fun _ leaves => leaves.runnable.sound)
    (fun before after id node port leaves found op unfed removes => ?_) site (.refl runnable wired)
  have fed := (leaves.wired.output id node port found op).2
  rw [unfed] at fed
  cases fed

/-- Hiding ports leaves a graph that shows the outputs that are declared. -/
theorem hidePorts_leaves (runnable : site.graph.Runnable .empty) (wired : site.graph.IsWired)
    (declarations : Declarations) : ∃ total graph,
      hidePorts declarations site = .ok total { site with graph } ∧
        site.graph.Leaves (fun name => !isHidden declarations.outputs name) graph := by
  obtain ⟨total, graph, done, hides⟩ := hidePorts_ok runnable.sound declarations
  refine ⟨total, graph, done, runnable.hides hides, wired.hides hides,
    fun _ _ _ => serves_of_hides hides fun id node port found op => ?_,
    fun _ reads => reads.hides hides⟩
  have named : portName? site.graph id = some port.name := by
    unfold portName?
    rw [found, Option.bind_some, op]
    rfl
  have listed := (wired.output id node port found op).1
  have other : id ∉ (site.graph.inputs.entries.filter fun entry =>
      isHidden declarations.inputs entry.1).map Prod.snd := by
    intro mem
    obtain ⟨entry, here, rfl⟩ := List.mem_map.1 mem
    obtain ⟨node', port', found', op', -⟩ :=
      runnable.sound.inputNamed entry (List.mem_filter.1 here).1
    rw [found, Option.some.injEq] at found'
    rw [← found', op] at op'
    cases op'
  unfold portsToHide
  rw [List.mem_append, List.mem_filter, named]
  simp [other, listed]

/-- Folding constants leaves a graph that serves. -/
theorem foldConstants_leaves (runnable : site.graph.Runnable .empty) (wired : site.graph.IsWired) :
    ∃ total graph, foldConstants site = .ok total { site with graph } ∧
      site.graph.Leaves (fun _ => true) graph := by
  exact foldConstants_ok (fun _ leaves => leaves.runnable.sound)
    (fun _ _ _ _ leaves folds => leaves.next
      ⟨leaves.runnable.folds folds, leaves.wired.folds folds,
        fun _ _ _ => serves_of_folds leaves.runnable.sound leaves.wired.constant folds,
        fun _ reads => reads.folds leaves.runnable.sound folds⟩)
    (fun before after id node value leaves found op idle removes => leaves.next
      ⟨leaves.runnable.removeNode removes, leaves.wired.removes idle removes,
        fun setting supplied _ => serves_of_removes found idle removes (by rw [op]; exact nofun)
          (exists_evalNode (.inr (by rw [op]; rfl)) setting supplied id),
        fun _ reads => reads.removes found (.inr ⟨value, op⟩) idle removes⟩)
    site (.refl runnable wired)

/-- Setting defaults leaves a graph that serves. -/
theorem applyDefaults_leaves (runnable : site.graph.Runnable .empty) (wired : site.graph.IsWired)
    (defaults : Table String Float) : ∃ graph,
      applyDefaults defaults site = .ok () { site with graph } ∧
        site.graph.Leaves (fun _ => true) graph :=
  applyDefaults_ok (fun _ leaves => leaves.runnable.sound)
    (fun _ _ _ _ _ leaves found changed => leaves.next
      ⟨leaves.runnable.setPortDefault found changed,
        leaves.wired.setPortDefault leaves.runnable.sound found changed,
        fun _ _ given =>
          serves_of_setPortDefault leaves.runnable.sound leaves.wired given found changed,
        fun _ reads => reads.setPortDefault leaves.runnable.sound found changed⟩)
    defaults site (.refl runnable wired)

/-- Putting inputs in order leaves a graph that serves. -/
theorem orderInputs_leaves (runnable : site.graph.Runnable .empty) (wired : site.graph.IsWired)
    (chosen : Bool) : ∃ graph, orderInputs chosen site = .ok () { site with graph } ∧
      site.graph.Leaves (fun _ => true) graph := by
  refine ⟨_, orderInputs_eq chosen site, ?_⟩
  split
  · exact ⟨runnable.sortInputs _, wired.sortInputs runnable.sound _,
      fun _ _ _ => serves_of_sortInputs runnable.sound _,
      fun _ reads => reads.of_nodes (input?_sortInputs _ _) (runnable.sound.source?_sortInputs _)
        fun id old found => ⟨old, found, Node.resembles_of_op rfl rfl⟩⟩
  · exact .refl runnable wired

/-- Without instances there is nothing to merge. -/
theorem mergeDuplicateInputs_eq (runnable : site.graph.Runnable .empty) :
    mergeDuplicateInputs site = .ok 0 site := by
  have none : instances site.graph = [] := by
    unfold instances
    rw [List.filterMap_eq_nil_iff]
    intro entry mem
    split
    · rename_i group op
      have known := runnable.refers entry.1 entry.2 (Slots.mem_entries.1 mem) group op
      cases known
    · rfl
  show (instances site.graph).foldlM (fun total entry => do
    return total + (← mergeInstance entry.1 entry.2) : Nat → Nat × String → Cleanup Nat) 0 site = _
  rw [none]
  rfl

/-- A step leaves a graph that serves, whether it is chosen or not. -/
theorem ifChosen_leaves {step : Cleanup Nat} (chosen : Bool)
    (runnable : site.graph.Runnable .empty) (wired : site.graph.IsWired)
    (leaves : ∃ total graph, step site = .ok total { site with graph } ∧
      site.graph.Leaves (fun _ => true) graph) : ∃ total graph,
      ifChosen chosen step site = .ok total { site with graph } ∧
        site.graph.Leaves (fun _ => true) graph := by
  cases chosen with
  | true => exact leaves
  | false => exact ⟨0, site.graph, rfl, .refl runnable wired⟩

/-- The steps of a cleanup after relinking are never refused where there are no groups, and leave a
graph that shows the outputs that are declared. -/
theorem trim_leaves (runnable : site.graph.Runnable .empty) (wired : site.graph.IsWired)
    (declarations : Declarations) (options : BuildOptions) (relinked : Nat) : ∃ report graph,
      trim declarations options relinked site = .ok report { site with graph } ∧
        site.graph.Leaves (fun name => !isHidden declarations.outputs name) graph := by
  obtain ⟨fewer, first, inputs, leaves⟩ := ifChosen_leaves options.pruneUnused runnable wired
    (removeUnusedInputs_leaves runnable wired)
  obtain ⟨unfed, second, outputs, leaves'⟩ := @ifChosen_leaves { site with graph := first }
    removeUnusedOutputs options.pruneUnused leaves.runnable leaves.wired
    (removeUnusedOutputs_leaves leaves.runnable leaves.wired)
  have leaves := leaves.next leaves'
  obtain ⟨hidden, third, hides, leaves'⟩ := @hidePorts_leaves { site with graph := second }
    leaves.runnable leaves.wired declarations
  have leaves := leaves.trans leaves'
  have merges := @mergeDuplicateInputs_eq { site with graph := third } leaves.runnable
  obtain ⟨folded, fourth, folds, leaves'⟩ := @ifChosen_leaves { site with graph := third }
    foldConstants options.foldConstants leaves.runnable leaves.wired
    (foldConstants_leaves leaves.runnable leaves.wired)
  have leaves := leaves.next leaves'
  obtain ⟨fifth, sets, leaves'⟩ := @applyDefaults_leaves { site with graph := fourth }
    leaves.runnable leaves.wired declarations.defaults
  have leaves := leaves.next leaves'
  obtain ⟨last, orders, leaves'⟩ := @orderInputs_leaves { site with graph := fifth }
    leaves.runnable leaves.wired options.resequenceInputs
  refine ⟨⟨relinked, fewer, unfed, hidden, 0, folded⟩, last, ?_, leaves.next leaves'⟩
  exact bind_eq_ok_iff.2 ⟨_, _, inputs, bind_eq_ok_iff.2 ⟨_, _, outputs, bind_eq_ok_iff.2 ⟨_, _, hides,
    bind_eq_ok_iff.2 ⟨_, _, merges, bind_eq_ok_iff.2 ⟨_, _, folds, bind_eq_ok_iff.2 ⟨_, _, sets,
      bind_eq_ok_iff.2 ⟨_, _, orders, rfl⟩⟩⟩⟩⟩⟩⟩

/-- What a cleanup comes to is what its steps come to. -/
theorem cleanUp_eq (declarations : Declarations) (options : BuildOptions) (site : Site) :
    ((cleanUp declarations options site).1.map fun _ => (cleanUp declarations options site).2) =
      match (relinkOutputs >>= trim declarations options) site with
      | .ok _ after => .ok after
      | .error error _ => .error error := by
  rw [← all_eq_trim]
  show Except.map _ (match all declarations options site with
    | .ok report site => (.ok report, site)
    | .error error site => (.error error, site) : Except BuildError CleanupReport × Site).1 = _
  unfold cleanUp EStateM.run
  cases all declarations options site <;> rfl

end Cleanup

end Shadeloom
