import Mathlib
import Shadeloom.Proofs.Build.Folding
import Shadeloom.Proofs.Build.Relinking
import Shadeloom.Proofs.Graph.Counting
/-!
# Thinning graphs

Every step of a cleanup after the relinking leaves less of a graph: nodes go, links go or move to
another socket of the node that they enter, and ports are shown no more. What is left feeds the
outputs that are left as before, and the inputs that are left are read if they were.
-/
namespace Shadeloom

/-- A node is an instance of a group exactly when that is what it computes. -/
theorem NodeOp.isInstanceOf_iff {op : NodeOp} {group : String} :
    op.isInstanceOf group = true ↔ op = .group group := by
  cases op <;> simp [isInstanceOf]

/-- A node that is left of another one: it plays the same role under the same name, is not shown
unless it was, and has no more input sockets. -/
structure Node.Succeeds (new old : Node) : Prop where
  kind : new.op.kind = old.op.kind
  portName : new.op.portName? = old.op.portName?
  exposed : new.op.isExposed = true → old.op.isExposed = true
  instanceOf : ∀ group, new.op.isInstanceOf group = old.op.isInstanceOf group
  inputs : new.inputs.length ≤ old.inputs.length
  outputs : new.outputs.length = old.outputs.length

namespace Node

/-- A node with the operation and the output sockets of another one, and no more input sockets, is
left of it. -/
theorem succeeds_of_op {new old : Node} (op : new.op = old.op)
    (inputs : new.inputs.length ≤ old.inputs.length)
    (outputs : new.outputs.length = old.outputs.length) : new.Succeeds old :=
  ⟨by rw [op], by rw [op], by rw [op]; exact id, fun _ => by rw [op], inputs, outputs⟩

/-- A node is left of itself. -/
theorem Succeeds.refl (node : Node) : node.Succeeds node :=
  succeeds_of_op rfl le_rfl rfl

/-- What is left of what is left of a node is left of it. -/
theorem Succeeds.trans {first second third : Node} (early : second.Succeeds first)
    (late : third.Succeeds second) : third.Succeeds first where
  kind := late.kind.trans early.kind
  portName := late.portName.trans early.portName
  exposed shown := early.exposed (late.exposed shown)
  instanceOf group := (late.instanceOf group).trans (early.instanceOf group)
  inputs := late.inputs.trans early.inputs
  outputs := late.outputs.trans early.outputs

/-- A hidden port is left of the port. -/
theorem hidden_succeeds (node : Node) : node.hidden.Succeeds node := by
  obtain ⟨op, inputs, outputs, label⟩ := node
  unfold Node.hidden Node.setExposed?
  cases op with
  | input port => exact ⟨rfl, rfl, nofun, fun _ => rfl, le_rfl, rfl⟩
  | output port => exact ⟨rfl, rfl, nofun, fun _ => rfl, le_rfl, rfl⟩
  | _ => exact succeeds_of_op rfl le_rfl rfl

/-- An input with another default is left of the input. -/
theorem setPortDefault_succeeds {old new : Node} {value : Value}
    (changed : old.setPortDefault? value = some new) : new.Succeeds old := by
  unfold setPortDefault? at changed
  split at changed
  · rename_i port same
    cases changed
    exact ⟨by rw [same]; rfl, by rw [same]; rfl, by rw [same]; exact id, fun _ => by rw [same]; rfl,
      le_rfl, rfl⟩
  · cases changed

/-- A node keeps its links where a constant could be set when what it is left of does. -/
theorem Succeeds.isBoundary {new old : Node} (succeeds : new.Succeeds old) :
    new.op.isBoundary = old.op.isBoundary := by
  have byKind (op : NodeOp) : op.isBoundary =
      (decide (op.kind = .namedOutput) || decide (op.kind = .groupInstance)) := by
    cases op <;> rfl
  rw [byKind, byKind, succeeds.kind]

end Node

namespace Cleanup

/-- Graphs that have instances of a group under the same numbers have as many. -/
theorem instanceCount_congr {graph graph' : Graph} {group : String}
    (same : ∀ id, ((graph.node? id).any fun node => node.op.isInstanceOf group) =
      (graph'.node? id).any fun node => node.op.isInstanceOf group) :
    instanceCount graph group = instanceCount graph' group :=
  Graph.countNodes_congr fun id => by
    rw [← Option.any_eq_true (fun node : Node => node.op.isInstanceOf group),
      ← Option.any_eq_true (fun node : Node => node.op.isInstanceOf group), same]

end Cleanup

namespace Graph

/-- Whether a graph has become another one by losing nodes and links, where links may have moved
to another socket of the node that they enter. -/
structure Thins (before after : Graph) : Prop where
  sound : after.Sound
  node : ∀ id new, after.node? id = some new →
    ∃ old, before.node? id = some old ∧ new.Succeeds old
  instances : ∀ group id, ((after.node? id).any fun node => node.op.isInstanceOf group) =
    (before.node? id).any fun node => node.op.isInstanceOf group
  input : ∀ name id, after.input? name = some id → before.input? name = some id
  output : ∀ id ∈ after.outputs, id ∈ before.outputs
  linked : ∀ target source, after.source? target = some source →
    ∃ place, before.source? ⟨target.node, place⟩ = some source
  /-- Inputs that are left are read if they were. -/
  read : ∀ name id, after.input? name = some id → after.Idle id → before.Idle id
  /-- Outputs that are left are fed as before. -/
  fed : ∀ id ∈ after.outputs, ∀ place, after.source? ⟨id, place⟩ = before.source? ⟨id, place⟩

/-- Whether a graph has become another one by losing nodes and links, where no link has moved. -/
structure Prunes (before after : Graph) : Prop extends before.Thins after where
  kept : ∀ target source, after.source? target = some source →
    before.source? target = some source

section

variable {first second third before after : Graph}

/-- A sound graph has become itself. -/
theorem Sound.prunes (sound : before.Sound) : before.Prunes before where
  sound := sound
  node _ new found := ⟨new, found, .refl new⟩
  instances _ _ := rfl
  input _ _ := id
  output _ := id
  linked target _ linked := ⟨target.place, linked⟩
  read _ _ _ := id
  fed _ _ _ := rfl
  kept _ _ := id

/-- Thinning goes on. -/
theorem Thins.trans (early : first.Thins second) (late : second.Thins third) :
    first.Thins third where
  sound := late.sound
  node id new found := by
    obtain ⟨between, found', succeeds⟩ := late.node id new found
    obtain ⟨old, found'', succeeds'⟩ := early.node id between found'
    exact ⟨old, found'', succeeds'.trans succeeds⟩
  instances group id := (late.instances group id).trans (early.instances group id)
  input name id listed := early.input name id (late.input name id listed)
  output id mem := early.output id (late.output id mem)
  linked target source linked := by
    obtain ⟨place, linked'⟩ := late.linked target source linked
    exact early.linked ⟨target.node, place⟩ source linked'
  read name id listed idle :=
    early.read name id (late.input name id listed) (late.read name id listed idle)
  fed id mem place := (late.fed id mem place).trans (early.fed id (late.output id mem) place)

/-- Pruning goes on. -/
theorem Prunes.trans (early : first.Prunes second) (late : second.Prunes third) :
    first.Prunes third where
  toThins := early.toThins.trans late.toThins
  kept target source linked := early.kept target source (late.kept target source linked)

/-- A shaped graph that is thinned out stays shaped. -/
theorem Thins.shaped (thins : before.Thins after) (shaped : before.Shaped) : after.Shaped where
  toSound := thins.sound
  nodes id node found := by
    obtain ⟨old, found', succeeds⟩ := thins.node id node found
    exact (shaped.nodes id old found').of_counts succeeds.kind succeeds.inputs succeeds.outputs

/-- A graph that is thinned out has as many instances of a group as before. -/
theorem Thins.instanceCount (thins : before.Thins after) (group : String) :
    Cleanup.instanceCount after group = Cleanup.instanceCount before group :=
  Cleanup.instanceCount_congr (thins.instances group)

/-- An instance of a group stays one when a graph is thinned out. -/
theorem Thins.exists_instance (thins : before.Thins after) {id : Nat} {old : Node} {group : String}
    (found : before.node? id = some old) (op : old.op = .group group) :
    ∃ new, after.node? id = some new ∧ new.op = .group group := by
  have same := thins.instances group id
  rw [found, Option.any_some, NodeOp.isInstanceOf_iff.2 op, Option.any_eq_true] at same
  obtain ⟨new, found', isInstance⟩ := same
  exact ⟨new, found', NodeOp.isInstanceOf_iff.1 isInstance⟩

/-- A port keeps its name when a graph is thinned out. -/
theorem Thins.portName? (thins : before.Thins after) {id : Nat} {name : String}
    (named : Cleanup.portName? after id = some name) : Cleanup.portName? before id = some name := by
  obtain ⟨new, found, named⟩ := Option.bind_eq_some_iff.1 named
  obtain ⟨old, found', succeeds⟩ := thins.node id new found
  exact Option.bind_eq_some_iff.2 ⟨old, found', succeeds.portName ▸ named⟩

/-- A port that is hidden stays so when a graph is thinned out. -/
theorem Thins.isExposed (thins : before.Thins after) {id : Nat}
    (hidden : before.isExposed id = false) : after.isExposed id = false := by
  rw [Bool.eq_false_iff] at hidden ⊢
  intro shown
  obtain ⟨new, found, shown⟩ := (Option.any_eq_true _ _).1 shown
  obtain ⟨old, found', succeeds⟩ := thins.node id new found
  exact hidden ((Option.any_eq_true _ _).2 ⟨old, found', succeeds.exposed shown⟩)

/-- A graph in which only nodes are replaced by what is left of them, and the inputs put into
another order, is pruned. -/
theorem Sound.prunes_of_nodes (sound : after.Sound)
    (node : ∀ id new, after.node? id = some new →
      ∃ old, before.node? id = some old ∧ new.Succeeds old)
    (there : ∀ id, (before.node? id).isSome = true → (after.node? id).isSome = true)
    (input : ∀ name, after.input? name = before.input? name)
    (outputs : after.outputs = before.outputs)
    (source? : ∀ target, after.source? target = before.source? target) :
    before.Prunes after where
  sound := sound
  node := node
  instances group id := by
    cases found : after.node? id with
    | some new =>
      obtain ⟨old, found', succeeds⟩ := node id new found
      simp only [found', Option.any_some, succeeds.instanceOf]
    | none =>
      cases found' : before.node? id with
      | none => rfl
      | some old =>
        have still := there id (by rw [found']; rfl)
        rw [found] at still
        cases still
  input name id listed := input name ▸ listed
  output id mem := outputs ▸ mem
  linked target source linked := ⟨target.place, source? target ▸ linked⟩
  read name id _ idle target source linked := idle target source (source? target ▸ linked)
  fed id _ place := source? _
  kept target source linked := source? target ▸ linked

/-- Sockets are linked as before once a node that no link leaves or enters is gone. -/
theorem Removes.source?_of_idle {id : Nat} (removes : Removes before after id)
    (idle : before.Idle id) (unfed : ∀ place, before.source? ⟨id, place⟩ = none)
    (target : Socket) : after.source? target = before.source? target := by
  rw [removes.source?]
  split
  · rename_i same
    have none := unfed target.place
    rw [← same] at none
    exact none.symm
  · cases linked : before.source? target with
    | none => rfl
    | some source => exact Option.filter_some_pos (by simpa using idle target source linked)

/-- Taking away a node that is no instance and that no link leaves or enters prunes a graph. -/
theorem Removes.prunes {id : Nat} (removes : Removes before after id) {node : Node}
    (found : before.node? id = some node) (plain : ∀ group, node.op.isInstanceOf group = false)
    (idle : before.Idle id) (unfed : ∀ place, before.source? ⟨id, place⟩ = none) :
    before.Prunes after := by
  have source? := removes.source?_of_idle idle unfed
  refine {
    sound := removes.sound
    node := fun other new here => ?_
    instances := fun group other => ?_
    input := fun name other listed => ?_
    output := fun other mem => ?_
    linked := fun target source linked => ⟨target.place, source? target ▸ linked⟩
    read := fun name other _ idle target source linked =>
      idle target source (source? target ▸ linked)
    fed := fun other _ place => source? _
    kept := fun target source linked => source? target ▸ linked }
  · rw [removes.node?] at here
    split at here
    · cases here
    · exact ⟨new, here, .refl new⟩
  · rw [removes.node?]
    split
    · rename_i same
      rw [← same, found]
      exact (plain group).symm
    · rfl
  · rw [input?, removes.inputs, Table.get?_filter, Option.filter_eq_some_iff] at listed
    exact listed.1
  · rw [removes.outputs] at mem
    exact (List.mem_filter.1 mem).1

/-- Hiding ports prunes a graph. -/
theorem prunes_of_hides {ids : List Nat} (hides : Cleanup.Hides before after ids) :
    before.Prunes after := by
  refine hides.sound.prunes_of_nodes (fun id new found => ?_) (fun id here => ?_)
    (fun name => by rw [input?, hides.inputs]; rfl) hides.outputs hides.source?
  · rw [hides.node?] at found
    obtain ⟨old, found', rfl⟩ := Option.map_eq_some_iff.1 found
    refine ⟨old, found', ?_⟩
    split
    · exact old.hidden_succeeds
    · exact .refl old
  · rw [hides.node?, Option.isSome_map]
    exact here

/-- Folding a constant prunes a graph. -/
theorem Folds.prunes (sound : before.Sound) {target : Socket} {value : Float}
    (folds : Folds before after target value) : before.Prunes after := by
  obtain ⟨receiver, here, inner, node?⟩ := folds.node?
  have kept (other source : Socket) (linked : after.source? other = some source) :
      before.source? other = some source := by
    rw [folds.source?] at linked
    split at linked
    · cases linked
    · exact linked
  have succeeds : (receiver.setInputDefault target.place (.scalar value)).Succeeds receiver :=
    Node.succeeds_of_op rfl (by simp [Node.setInputDefault]) rfl
  refine {
    sound := folds.sound
    node := fun id new found => ?_
    instances := fun group id => ?_
    input := fun name id listed => by rwa [input?, folds.inputs] at listed
    output := fun id mem => folds.outputs ▸ mem
    linked := fun other source linked => ⟨other.place, kept other source linked⟩
    read := fun name id listed idle other source linked => ?_
    fed := fun id mem place => ?_
    kept := kept }
  · rw [node?] at found
    split at found
    · rename_i same
      cases found
      exact ⟨receiver, same ▸ here, succeeds⟩
    · exact ⟨new, found, .refl new⟩
  · rw [node?]
    split
    · rename_i same
      rw [← same, here]
      exact succeeds.instanceOf group
    · rfl
  · -- What the constant fed did not read an input.
    by_cases same : target = other
    · obtain ⟨sender, node, linked', sent, constant⟩ := folds.fed
      rw [← same, linked', Option.some.injEq] at linked
      rw [input?, folds.inputs] at listed
      obtain ⟨node', port, found, input, -⟩ := sound.input?_spec listed
      rintro rfl
      rw [← linked, sent, Option.some.injEq] at found
      rw [← found, constant] at input
      cases input
    · exact idle other source (by rw [folds.source?, if_neg same]; exact linked)
  · rw [folds.source?, if_neg]
    rintro rfl
    rw [folds.outputs] at mem
    exact sound.not_mem_outputs here (fun port output => by rw [output] at inner; cases inner) mem

/-- Setting the default of an input prunes a graph. -/
theorem Sound.prunes_setPortDefault (sound : before.Sound) {id : Nat} {old new : Node}
    {value : Value} (found : before.node? id = some old)
    (changed : old.setPortDefault? value = some new) : before.Prunes (before.setNode id new) := by
  have node? := node?_setNode found new
  have fits := Node.replaces_setPortDefault (sound.inputShaped id old · found) changed
  refine (sound.setNode found fits).prunes_of_nodes (fun other node here => ?_) (fun other here => ?_)
    (fun _ => rfl) rfl (sound.source?_setNode id new)
  · rw [node?] at here
    split at here
    · rename_i same
      cases here
      exact ⟨old, same ▸ found, Node.setPortDefault_succeeds changed⟩
    · exact ⟨node, here, .refl node⟩
  · rw [node?]
    split
    · rfl
    · exact here

/-- Putting the inputs into another order prunes a graph. -/
theorem Sound.prunes_sortInputs (sound : before.Sound) (le : String → String → Bool) :
    before.Prunes (before.sortInputs le) :=
  (sound.sortInputs le).prunes_of_nodes (fun _ new found => ⟨new, found, .refl new⟩)
    (fun _ => id) (input?_sortInputs before le) rfl
    (source?_congr (before.sortInputs le) before sound.orderly sound.orderly rfl)

end

end Graph

end Shadeloom
