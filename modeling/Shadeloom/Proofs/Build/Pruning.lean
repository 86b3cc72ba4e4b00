import Mathlib
import Shadeloom.Proofs.Build.Steps
import Shadeloom.Proofs.Graph.Acyclic
/-!
# Pruning ports

Inputs that nothing reads and outputs that nothing feeds are taken away, and ports that are not
shown are hidden. None of this is ever refused in a sound graph, and what each single edit keeps is
kept by all of them.
-/
namespace Shadeloom

namespace Graph

/-- No link leaves a node exactly when it has no outgoing links. -/
theorem Sound.isEmpty_outgoing {graph : Graph} (sound : graph.Sound) (id : Nat) :
    (graph.outgoing id).isEmpty = true ↔ graph.Idle id := by
  rw [sound.outgoing_eq, List.isEmpty_iff, List.filter_eq_nil_iff]
  constructor
  · intro none target source linked
    obtain ⟨link, mem, rfl, rfl⟩ := sound.source?_eq_some_iff.1 linked
    simpa using none link mem
  · intro idle link mem
    have linked := sound.source?_eq_some_iff.2 ⟨link, mem, rfl, rfl⟩
    simpa using idle link.target link.source linked

/-- No link enters a node exactly when it has no incoming links. -/
theorem Sound.isEmpty_incoming {graph : Graph} (sound : graph.Sound) (id : Nat) :
    (graph.incoming id).isEmpty = true ↔ ∀ place, graph.source? ⟨id, place⟩ = none := by
  rw [sound.incoming_eq, List.isEmpty_iff, List.filter_eq_nil_iff]
  constructor
  · intro none place
    rw [sound.source?_eq_none_iff]
    intro link mem same
    exact none link mem (by simp [same])
  · intro free link mem same
    rw [decide_eq_true_eq] at same
    have none := sound.source?_eq_none_iff.1 (free link.target.place) link mem
    exact none (by rw [← same])

/-- The nodes of different inputs are different. -/
theorem Sound.nodup_inputs {graph : Graph} (sound : graph.Sound) : graph.inputs.values.Nodup := by
  have distinct := graph.inputs.distinct
  unfold Table.values
  rw [List.Nodup, List.pairwise_map] at distinct ⊢
  refine distinct.imp_of_mem fun {a b} here there apart same => apart ?_
  obtain ⟨node, port, found, input, named⟩ := sound.inputNamed a here
  obtain ⟨node', port', found', input', named'⟩ := sound.inputNamed b there
  rw [← same, found, Option.some.injEq] at found'
  rw [← found', input, NodeOp.input.injEq] at input'
  rw [← named, ← named', input']

end Graph

/-- A port hidden; any other node as it is. -/
def Node.hidden (node : Node) : Node :=
  (node.setExposed? false).getD node

/-- The exposure of what is exposed can be set. -/
theorem Node.exists_setExposed? {node : Node} (shown : node.op.isExposed = true) :
    ∃ new, node.setExposed? false = some new := by
  obtain ⟨op, inputs, outputs, label⟩ := node
  cases op <;> first | exact ⟨_, rfl⟩ | cases shown

/-- A node that is no shown port stays as it is. -/
theorem Node.hidden_of_unshown {node : Node} (unshown : node.op.isExposed = false) :
    node.hidden = node := by
  obtain ⟨op, inputs, outputs, label⟩ := node
  unfold Node.hidden Node.setExposed?
  cases op with
  | input port =>
    have same : port.exposed = false := unshown
    simp [← same]
  | output port =>
    have same : port.exposed = false := unshown
    simp [← same]
  | _ => rfl

/-- A hidden port is not shown. -/
theorem Node.isExposed_hidden (node : Node) : node.hidden.op.isExposed = false := by
  obtain ⟨op, inputs, outputs, label⟩ := node
  unfold Node.hidden Node.setExposed?
  cases op <;> rfl

/-- What is no port is not changed by hiding. -/
theorem Node.op_hidden {node : Node} (plain : node.hidden.op.isPort = false) :
    node.hidden.op = node.op := by
  obtain ⟨op, inputs, outputs, label⟩ := node
  unfold Node.hidden Node.setExposed? at plain ⊢
  cases op with
  | input port => cases plain
  | output port => cases plain
  | _ => rfl

/-- What is an instance when its port is hidden was one before. -/
theorem Node.op_of_hidden {node : Node} {group : String} (same : node.hidden.op = .group group) :
    node.op = .group group :=
  (op_hidden (by rw [same]; rfl)).symm.trans same

namespace Cleanup

/-- A node of a sound graph is taken away. -/
theorem removeNode_ok (site : Site) (sound : site.graph.Sound) {id : Nat}
    (here : (site.graph.node? id).isSome = true) :
    ∃ graph, removeNode id site = .ok () { site with graph } ∧
      Graph.Removes site.graph graph id := by
  obtain ⟨node, found⟩ := Option.isSome_iff_exists.1 here
  obtain ⟨graph, done⟩ := sound.exists_removeNode found
  refine ⟨graph, edit_eq_ok_iff.2 ⟨graph, ?_, rfl⟩, sound.removeNode done⟩
  show (site.graph.removeNode id).map Prod.snd = .ok graph
  rw [done]
  rfl

/-- Takes a node away that passes a test. -/
def removeIf (test : Graph → Nat → Bool) (id : Nat) : Cleanup Bool := do
  if test (← graph) id then
    removeNode id
    return true
  else return false

/-- What taking a node of a kind away keeps, if it passes a test, taking all of them away keeps. -/
theorem removeAll_ok {test : Graph → Nat → Bool} (kind : Node → Prop) {holds : Graph → Prop}
    (isSound : ∀ graph, holds graph → graph.Sound)
    (keeps : ∀ before after id node, holds before → before.node? id = some node → kind node →
      test before id = true → Graph.Removes before after id → holds after)
    (ids : List Nat) (site : Site) (distinct : ids.Nodup)
    (here : ∀ id ∈ ids, ∃ node, site.graph.node? id = some node ∧ kind node)
    (start : holds site.graph) :
    ∃ total graph, count ids (removeIf test) site = .ok total { site with graph } ∧
      holds graph := by
  obtain ⟨total, after, done, -, -, final, library⟩ := count_ok (removeIf test)
    (fun rest now => rest.Nodup ∧
      (∀ id ∈ rest, ∃ node, now.graph.node? id = some node ∧ kind node) ∧ holds now.graph ∧
        now.library = site.library)
    (fun id rest now ⟨distinct, here, start, library⟩ => by
      rw [List.nodup_cons] at distinct
      by_cases passes : test now.graph id = true
      · obtain ⟨node, found, isKind⟩ := here id (by simp)
        obtain ⟨graph, removed, removes⟩ := removeNode_ok now (isSound _ start)
          (Option.isSome_iff_exists.2 ⟨node, found⟩)
        refine ⟨true, { now with graph }, ?_, distinct.2, fun other mem => ?_,
          keeps _ _ id node start found isKind passes removes, library⟩
        · refine bind_eq_ok_iff.2 ⟨now.graph, now, rfl, ?_⟩
          rw [if_pos passes]
          exact bind_eq_ok_iff.2 ⟨(), _, removed, rfl⟩
        · obtain ⟨node', found', isKind'⟩ := here other (by simp [mem])
          refine ⟨node', (removes.node? other).trans ?_, isKind'⟩
          rw [if_neg]
          · exact found'
          · rintro rfl
            exact distinct.1 mem
      · refine ⟨false, now, ?_, distinct.2, fun other mem => here other (by simp [mem]), start,
          library⟩
        refine bind_eq_ok_iff.2 ⟨now.graph, now, rfl, ?_⟩
        rw [if_neg passes]
        rfl)
    ids site ⟨distinct, here, start, rfl⟩
  exact ⟨total, after.graph, by rw [done, ← library], final⟩

/-- Unused inputs are taken away, and what taking one away keeps is kept. -/
theorem removeUnusedInputs_ok {holds : Graph → Prop}
    (isSound : ∀ graph, holds graph → graph.Sound)
    (keeps : ∀ before after id node port, holds before → before.node? id = some node →
      node.op = .input port → before.Idle id → Graph.Removes before after id → holds after)
    (site : Site) (start : holds site.graph) :
    ∃ total graph, removeUnusedInputs site = .ok total { site with graph } ∧ holds graph := by
  have sound := isSound _ start
  refine removeAll_ok (fun node => ∃ port, node.op = .input port) isSound
    (fun before after id node start found ⟨port, input⟩ passes removes => ?_)
    site.graph.inputs.values site sound.nodup_inputs (fun id mem => ?_) start
  · exact keeps before after id node port start found input
      (((isSound _ start).isEmpty_outgoing id).1 passes) removes
  · obtain ⟨entry, listed, rfl⟩ := List.mem_map.1 mem
    obtain ⟨node, port, found, input, -⟩ := sound.inputNamed entry listed
    exact ⟨node, found, port, input⟩

/-- Unused outputs are taken away, and what taking one away keeps is kept. -/
theorem removeUnusedOutputs_ok {holds : Graph → Prop}
    (isSound : ∀ graph, holds graph → graph.Sound)
    (keeps : ∀ before after id node port, holds before → before.node? id = some node →
      node.op = .output port → (∀ place, before.source? ⟨id, place⟩ = none) →
        Graph.Removes before after id → holds after)
    (site : Site) (start : holds site.graph) :
    ∃ total graph, removeUnusedOutputs site = .ok total { site with graph } ∧ holds graph := by
  have sound := isSound _ start
  refine removeAll_ok (fun node => ∃ port, node.op = .output port) isSound
    (fun before after id node start found ⟨port, output⟩ passes removes => ?_)
    site.graph.outputs site sound.outputsDistinct (fun id mem => ?_) start
  · exact keeps before after id node port start found output
      (((isSound _ start).isEmpty_incoming id).1 passes) removes
  · obtain ⟨node, port, found, output⟩ := sound.outputNamed id mem
    exact ⟨node, found, port, output⟩

/-- Hides a port that is shown. -/
def hidePort (id : Nat) : Cleanup Bool := do
  if (← graph).isExposed id then
    edit fun graph => graph.setExposed id false
    return true
  else return false

/-- Whether a graph has become another one by hiding ports. -/
structure Hides (before after : Graph) (ids : List Nat) : Prop where
  sound : after.Sound
  node? : ∀ id, after.node? id =
    (before.node? id).map fun node => if id ∈ ids then node.hidden else node
  source? : ∀ target, after.source? target = before.source? target
  inputs : after.inputs = before.inputs
  outputs : after.outputs = before.outputs
  name : after.name = before.name

/-- A port is hidden, and anything else is left alone. -/
theorem hidePort_ok {site : Site} (sound : site.graph.Sound) (id : Nat) :
    ∃ changed graph, hidePort id site = .ok changed { site with graph } ∧
      Hides site.graph graph [id] := by
  cases found : site.graph.node? id with
  | none =>
    have unshown : site.graph.isExposed id = false := by simp [Graph.isExposed, found]
    refine ⟨false, site.graph, bind_eq_ok_iff.2 ⟨site.graph, site, rfl, ?_⟩, sound, fun other => ?_,
      fun _ => rfl, rfl, rfl, rfl⟩
    · simp only [unshown]
      rfl
    · by_cases same : other = id
      · rw [same, found]; rfl
      · simp [same]
  | some node =>
    by_cases shown : node.op.isExposed = true
    · have isExposed : site.graph.isExposed id = true := by simp [Graph.isExposed, found, shown]
      obtain ⟨new, changed⟩ := Node.exists_setExposed? shown
      have hidden : node.hidden = new := by simp [Node.hidden, changed]
      have edited : site.graph.setExposed id false = .ok (site.graph.setNode id new) :=
        Graph.setExposed_eq_ok_iff.2 ⟨node, new, found, changed, rfl⟩
      have fits := Node.replaces_setExposed (sound.inputShaped id node · found) changed
      refine ⟨true, site.graph.setNode id new, bind_eq_ok_iff.2 ⟨site.graph, site, rfl, ?_⟩,
        sound.setNode found fits, fun other => ?_, sound.source?_setNode id new, rfl, rfl, rfl⟩
      · simp only [isExposed, if_true]
        exact bind_eq_ok_iff.2 ⟨(), _, edit_eq_ok_iff.2 ⟨_, edited, rfl⟩, rfl⟩
      · rw [Graph.node?_setNode found]
        by_cases same : id = other
        · subst same; simp [found, hidden]
        · simp [same, Ne.symm same]
    · have unshown : site.graph.isExposed id = false := by
        simpa [Graph.isExposed, found] using shown
      have hidden := Node.hidden_of_unshown (Bool.eq_false_iff.2 shown)
      refine ⟨false, site.graph, bind_eq_ok_iff.2 ⟨site.graph, site, rfl, ?_⟩, sound,
        fun other => ?_, fun _ => rfl, rfl, rfl, rfl⟩
      · simp only [unshown]
        rfl
      · by_cases same : other = id
        · rw [same, found]; simp [hidden]
        · simp [same]

/-- Hiding ports after others hides all of them. -/
theorem Hides.trans {first second third : Graph} {ids ids' : List Nat}
    (early : Hides first second ids) (late : Hides second third ids') :
    Hides first third (ids ++ ids') where
  sound := late.sound
  node? id := by
    rw [late.node?, early.node?, Option.map_map]
    refine congrArg (fun change => Option.map change (first.node? id)) (funext fun node => ?_)
    have hidden := Node.hidden_of_unshown (Node.isExposed_hidden node)
    by_cases here : id ∈ ids <;> by_cases there : id ∈ ids' <;> simp [here, there, hidden]
  source? target := (late.source? target).trans (early.source? target)
  inputs := late.inputs.trans early.inputs
  outputs := late.outputs.trans early.outputs
  name := late.name.trans early.name

/-- The ports that are not to be shown are hidden. -/
theorem hidePorts_ok {site : Site} (sound : site.graph.Sound) (declarations : Declarations) :
    ∃ total graph, hidePorts declarations site = .ok total { site with graph } ∧
      Hides site.graph graph (portsToHide declarations site.graph) := by
  obtain ⟨total, after, done, ids, split, hides, library⟩ := count_ok hidePort
    (fun rest now => ∃ ids, ids ++ rest = portsToHide declarations site.graph ∧
      Hides site.graph now.graph ids ∧ now.library = site.library)
    (fun id rest now ⟨ids, split, hides, library⟩ => by
      obtain ⟨changed, graph, hidden, more⟩ := hidePort_ok hides.sound id
      exact ⟨changed, { now with graph }, hidden, ids ++ [id], by simpa using split,
        hides.trans more, library⟩)
    (portsToHide declarations site.graph) site
    ⟨[], rfl, ⟨sound, fun id => by simp, fun _ => rfl, rfl, rfl, rfl⟩, rfl⟩
  rw [List.append_nil] at split
  refine ⟨total, after.graph, ?_, split ▸ hides⟩
  rw [← library]
  exact done

end Cleanup

end Shadeloom
