import Mathlib
import Shadeloom.Proofs.Build.MergedValues
import Shadeloom.Proofs.Build.Outputs
/-!
# Instances in a cleanup

An instance has a group, input sockets and output sockets, and it matches when these are the ones
that the definition of the group shows. No step of a cleanup changes an instance or a definition but
the merging of inputs, and this takes a socket from an instance and the input at the same place from
its definition. So a cleanup keeps instances matched, and it changes the definitions only of groups
that seem to be used once.
-/
namespace Shadeloom

open Relation Machine

/-- What an instance shows of itself: its group, the names and types of its input sockets, and its
output sockets. -/
structure Instance where
  group : String
  inputs : List (String × SocketType)
  outputs : List OutputSocket

namespace Node

/-- The instance that a node is. -/
def instance? (node : Node) : Option Instance :=
  match node.op with
  | .group group => some ⟨group, node.inputs.map InputSocket.layout, node.outputs⟩
  | _ => none

/-- An instance of a group shows its sockets. -/
theorem instance?_of_group {node : Node} {group : String} (op : node.op = .group group) :
    node.instance? = some ⟨group, node.inputs.map InputSocket.layout, node.outputs⟩ := by
  simp only [instance?, op]

/-- Other nodes are no instances. -/
theorem instance?_eq_none {node : Node} (other : ∀ group, node.op ≠ .group group) :
    node.instance? = none := by
  unfold instance?
  split
  · rename_i group op
    exact absurd op (other group)
  · rfl

/-- An instance has the operation of its group. -/
theorem op_of_instance? {node : Node} {shown : Instance} (same : node.instance? = some shown) :
    node.op = .group shown.group := by
  unfold instance? at same
  split at same
  · rename_i group op
    cases same
    exact op
  · cases same

/-- Hiding a port changes no instance. -/
theorem instance?_hidden (node : Node) : node.hidden.instance? = node.instance? := by
  obtain ⟨op, inputs, outputs, label⟩ := node
  unfold hidden setExposed?
  cases op <;> rfl

/-- Another default of an input changes no instance. -/
theorem instance?_setPortDefault {old new : Node} {value : Value}
    (changed : old.setPortDefault? value = some new) : new.instance? = old.instance? := by
  unfold setPortDefault? at changed
  split at changed
  · rename_i port op
    cases changed
    have other : ∀ group, old.op ≠ .group group := by
      intro group same
      rw [op] at same
      cases same
    rw [instance?_eq_none other]
    rfl
  · cases changed

/-- Another default of a socket changes nothing that an instance shows. -/
theorem instance?_setInputDefault (node : Node) (place : Nat) (value : Value) :
    (node.setInputDefault place value).instance? = node.instance? := by
  unfold instance?
  rw [layouts_setInputDefault]
  rfl

end Node

namespace Graph

/-- The instance with a number. -/
def instance? (graph : Graph) (id : Nat) : Option Instance :=
  (graph.node? id).bind Node.instance?

/-- Whether two graphs have the same instances under the same numbers. -/
def SameInstances (before after : Graph) : Prop :=
  ∀ id, after.instance? id = before.instance? id

section

variable {before after graph : Graph}

/-- A graph uses the groups that it has instances of. -/
theorem uses_iff_instance? {group : String} :
    graph.Uses group ↔ ∃ id shown, graph.instance? id = some shown ∧ shown.group = group := by
  constructor
  · rintro ⟨id, node, found, op⟩
    refine ⟨id, ⟨group, node.inputs.map InputSocket.layout, node.outputs⟩, ?_, rfl⟩
    rw [instance?, found, Option.bind_some, Node.instance?_of_group op]
  · rintro ⟨id, shown, here, rfl⟩
    obtain ⟨node, found, same⟩ := Option.bind_eq_some_iff.1 here
    exact ⟨id, node, found, Node.op_of_instance? same⟩

/-- Graphs with the same instances use the same groups. -/
theorem SameInstances.uses_iff (same : before.SameInstances after) {group : String} :
    after.Uses group ↔ before.Uses group := by
  simp only [uses_iff_instance?, same _]

/-- Graphs with the same instances have as many of each group. -/
theorem SameInstances.instanceCount (same : before.SameInstances after) (group : String) :
    Cleanup.instanceCount after group = Cleanup.instanceCount before group := by
  have counted (graph : Graph) (id : Nat) :
      ((graph.node? id).any fun node => node.op.isInstanceOf group) =
        (graph.instance? id).any fun shown => decide (shown.group = group) := by
    unfold instance?
    cases graph.node? id with
    | none => rfl
    | some node =>
      rw [Option.bind_some, Option.any_some]
      unfold Node.instance?
      cases node.op <;> simp [NodeOp.isInstanceOf]
  refine Cleanup.instanceCount_congr fun id => ?_
  rw [counted, counted, same]

/-- Graphs with the same nodes have the same instances. -/
theorem sameInstances_of_nodes (node? : ∀ id, after.node? id = before.node? id) :
    before.SameInstances after := fun id => by
  rw [instance?, instance?, node?]

/-- Taking away a node that is no instance changes no instances. -/
theorem Removes.sameInstances {id : Nat} {node : Node} (removes : Removes before after id)
    (found : before.node? id = some node) (other : ∀ group, node.op ≠ .group group) :
    before.SameInstances after := fun other_ => by
  rw [instance?, instance?, removes.node?]
  split
  · rename_i same
    rw [← same, found, Option.bind_some, Node.instance?_eq_none other]
    rfl
  · rfl

/-- Hiding ports changes no instances. -/
theorem sameInstances_of_hides {ids : List Nat} (hides : Cleanup.Hides before after ids) :
    before.SameInstances after := fun id => by
  rw [instance?, instance?, hides.node?]
  cases before.node? id with
  | none => rfl
  | some node =>
    rw [Option.map_some, Option.bind_some, Option.bind_some]
    split
    · exact node.instance?_hidden
    · rfl

/-- Another node with the same sockets and group changes no instances. -/
theorem sameInstances_setNode {id : Nat} {old new : Node} (found : before.node? id = some old)
    (same : new.instance? = old.instance?) : before.SameInstances (before.setNode id new) :=
  fun other => by
    rw [instance?, instance?, node?_setNode found]
    split
    · rename_i equal
      rw [← equal, found, Option.bind_some, Option.bind_some, same]
    · rfl

/-- Folding a constant changes no instances. -/
theorem Folds.sameInstances {target : Socket} {value : Float}
    (folds : Folds before after target value) : before.SameInstances after := fun id => by
  obtain ⟨receiver, found, -, node?⟩ := folds.node?
  rw [instance?, instance?, node?]
  split
  · rename_i same
    rw [← same, found, Option.bind_some, Option.bind_some, receiver.instance?_setInputDefault]
  · rfl

end

/-- Whether each instance of a graph shows what an instance of the definition of its group shows. -/
def InstancesMatch (library : Library) (graph : Graph) : Prop :=
  ∀ id shown, graph.instance? id = some shown → ∃ definition,
    library.get? shown.group = some definition ∧ definition.instanceNode.instance? = some shown

section

variable {library library' : Library} {before after graph : Graph}

/-- Instances match when there are fewer of them. -/
theorem InstancesMatch.of_fewer (matching : before.InstancesMatch library)
    (fewer : ∀ id shown, after.instance? id = some shown → before.instance? id = some shown) :
    after.InstancesMatch library :=
  fun id shown here => matching id shown (fewer id shown here)

/-- Instances match when there are the same. -/
theorem InstancesMatch.of_same (matching : before.InstancesMatch library)
    (same : before.SameInstances after) : after.InstancesMatch library :=
  matching.of_fewer fun id _ here => same id ▸ here

/-- Instances match when the definitions of their groups stay as they are. -/
theorem InstancesMatch.of_library (matching : graph.InstancesMatch library)
    (same : ∀ group, graph.Uses group → library'.get? group = library.get? group) :
    graph.InstancesMatch library' := by
  intro id shown here
  obtain ⟨definition, stored, made⟩ := matching id shown here
  exact ⟨definition, (same _ (uses_iff_instance?.2 ⟨id, shown, here, rfl⟩)).trans stored, made⟩

/-- A group that is not defined is used by no instance that matches. -/
theorem InstancesMatch.ne_of_uses (matching : graph.InstancesMatch library) {name used : String}
    (unknown : library.get? name = none) (uses : graph.Uses used) : name ≠ used := by
  obtain ⟨id, shown, here, rfl⟩ := uses_iff_instance?.1 uses
  obtain ⟨definition, stored, -⟩ := matching id shown here
  rintro rfl
  cases unknown.symm.trans stored

/-- A definition has fewer instances when one of its inputs is merged into another one. -/
theorem MergesInput.instance? {kept dropped : Nat} (merges : before.MergesInput after kept dropped)
    {id : Nat} {shown : Instance} (here : after.instance? id = some shown) :
    before.instance? id = some shown := by
  obtain ⟨node, found, same⟩ := Option.bind_eq_some_iff.1 here
  exact Option.bind_eq_some_iff.2 ⟨node, (merges.node?_eq_some_iff.1 found).1, same⟩

/-- A definition shows the outputs that it showed when one of its inputs is merged into another
one. -/
theorem MergesInput.outputs_instanceNode {kept dropped : Nat}
    (merges : before.MergesInput after kept dropped) :
    after.instanceNode.outputs = before.instanceNode.outputs := by
  have node? (id : Nat) (mem : id ∈ before.outputs) : after.node? id = before.node? id :=
    merges.node? fun same => merges.not_mem_outputs (same ▸ mem)
  have shown : after.exposedOutputs = before.exposedOutputs := by
    unfold exposedOutputs
    rw [merges.outputs_eq]
    refine List.filterMap_congr fun id mem => ?_
    rw [exposedName?, exposedName?, node? id mem]
  show after.exposedOutputs.filterMap after.outputSocket? =
    before.exposedOutputs.filterMap before.outputSocket?
  rw [shown]
  refine List.filterMap_congr fun output mem => ?_
  obtain ⟨id, there, named⟩ := List.mem_filterMap.1 mem
  obtain ⟨name, -, rfl⟩ := Option.map_eq_some_iff.1 named
  rw [outputSocket?, outputSocket?, node? id there]

end

end Graph

/-- Whether the instances of a site match their definitions, those of the graph and those of the
definitions. -/
structure Site.Matched (site : Site) : Prop where
  sound : site.graph.Sound
  definitions : ∀ name definition, site.library.get? name = some definition → definition.Sound
  graph : site.graph.InstancesMatch site.library
  inner : ∀ name definition, site.library.get? name = some definition →
    definition.InstancesMatch site.library

namespace Site.MergesSockets

variable {before after : Site} {id : Nat} {group : String} {places : Nat × Nat} {node : Node}
  {definition merged : Graph}
  (step : before.MergesSockets after id group places node definition merged)
include step

/-- A merge changes the definition of one group. -/
theorem get?_of_ne {other : String} (apart : other ≠ group) :
    after.library.get? other = before.library.get? other := by
  rw [step.library, Table.get?_insert, if_neg (Ne.symm apart)]

/-- Instances of other groups match after a merge as before. -/
theorem instancesMatch {graph : Graph} (matching : graph.InstancesMatch before.library)
    (unused : ¬ graph.Uses group) : graph.InstancesMatch after.library :=
  matching.of_library fun _ uses => step.get?_of_ne fun same => unused (same ▸ uses)

/-- After a merge all instances match that did before. -/
theorem matched (matched : before.Matched) : after.Matched where
  sound := step.removes.sound
  definitions name definition' stored := by
    obtain ⟨kept, dropped, -, -, merges⟩ := step.merges
    rw [step.library, Table.get?_insert] at stored
    split at stored
    · cases stored
      exact merges.sound
    · exact matched.definitions name definition' stored
  graph other shown here := by
    obtain ⟨kept, dropped, -, -, merges⟩ := step.merges
    have sound := matched.definitions group definition step.stored
    by_cases same : other = id
    · subst same
      -- The instance has lost the socket that stood at the place of the input that is gone.
      obtain ⟨definition', stored, made⟩ := matched.graph other _
        (Option.bind_eq_some_iff.2 ⟨node, step.found, Node.instance?_of_group step.op⟩)
      rw [step.stored, Option.some.injEq] at stored
      subst stored
      rw [Node.instance?_of_group rfl, Option.some.injEq, Instance.mk.injEq] at made
      obtain ⟨name, inputs, outputs⟩ := made
      have op : ({ node with inputs := node.inputs.eraseIdx places.2 } : Node).op =
          .group group := step.op
      rw [Graph.instance?, step.node?_id, Option.bind_some, Node.instance?_of_group op,
        Option.some.injEq] at here
      subst here
      refine ⟨merged, by rw [step.library, Table.get?_insert, if_pos rfl], ?_⟩
      obtain ⟨between, relinks, removes⟩ := merges.edits
      have named : merged.name = group := removes.name.trans (relinks.name.trans name)
      have op' : merged.instanceNode.op = .group group := congrArg NodeOp.group named
      rw [Node.instance?_of_group op', ← step.matchesInputs sound inputs.symm,
        merges.outputs_instanceNode, outputs]
    · have old : before.graph.instance? other = some shown := by
        rw [← here, Graph.instance?, Graph.instance?, step.node?_of_ne same]
      obtain ⟨definition', stored, made⟩ := matched.graph other shown old
      refine ⟨definition', (step.get?_of_ne fun equal => same ?_).trans stored, made⟩
      obtain ⟨node', found, shows⟩ := Option.bind_eq_some_iff.1 old
      exact Cleanup.eq_of_useCount step.once
        (Cleanup.mem_instances.2 ⟨node', found, equal ▸ Node.op_of_instance? shows⟩)
        (Cleanup.mem_instances.2 ⟨node, step.found, step.op⟩)
  inner name definition' stored := by
    have unused {name : String} {definition : Graph}
        (stored : before.library.get? name = some definition) : ¬ definition.Uses group :=
      Cleanup.not_uses_of_useCount step.once ⟨id, node, step.found, step.op⟩ stored
    obtain ⟨kept, dropped, -, -, merges⟩ := step.merges
    rw [step.library, Table.get?_insert] at stored
    split at stored
    · cases stored
      refine step.instancesMatch ((matched.inner group definition step.stored).of_fewer
        fun _ _ => merges.instance?) ?_
      rw [Graph.uses_iff_instance?]
      rintro ⟨other, shown, here, equal⟩
      exact unused step.stored
        (Graph.uses_iff_instance?.2 ⟨other, shown, merges.instance? here, equal⟩)
    · exact step.instancesMatch (matched.inner name definition' stored) (unused stored)

end Site.MergesSockets

namespace Cleanup

variable {site after : Site}

/-- Whether a group seems to be used once, by a graph that is cleaned up: the scopes around it are not
counted. -/
def SeemsUsedOnce (site : Site) (group : String) : Prop :=
  site.graph.Uses group ∧ useCount site group = 1

/-- Merging inputs keeps instances and definitions matched, and changes only definitions of groups
that seem to be used once. -/
theorem mergeDuplicateInputs_matched {total : Nat} (matched : site.Matched)
    (done : mergeDuplicateInputs site = .ok total after) : after.Matched ∧
      ∀ group, ¬ SeemsUsedOnce site group →
        after.library.get? group = site.library.get? group := by
  have held := mergeDuplicateInputs_carries
    (fun now => now.Matched ∧ (∀ group, useCount now group = useCount site group) ∧
      (∀ group, now.graph.Uses group → site.graph.Uses group) ∧
      ∀ group, ¬ SeemsUsedOnce site group →
        now.library.get? group = site.library.get? group)
    (fun now later held step => ?_) matched.sound matched.definitions done
    ⟨matched, fun _ => rfl, fun _ uses => uses, fun _ _ => rfl⟩
  · exact ⟨held.1, held.2.2.2⟩
  · obtain ⟨id, group, places, node, definition, merged, step⟩ := step
    obtain ⟨matched, counts, uses, stays⟩ := held
    refine ⟨step.matched matched, fun other => ?_, fun other used => ?_, fun other spared => ?_⟩
    · exact (step.useCount_eq matched.sound matched.definitions other).trans (counts other)
    · exact uses other (step.removes.narrows.uses used)
    · refine (step.get?_of_ne fun equal => spared ?_).trans (stays other spared)
      subst equal
      exact ⟨uses other ⟨id, node, step.found, step.op⟩, (counts other).symm.trans step.once⟩

end Cleanup

/-- What a step of a cleanup that merges no inputs keeps of a site: the definitions and the instances
of the graph. -/
structure Site.KeepsInstances (before after : Site) : Prop where
  library : after.library = before.library
  sound : after.graph.Sound
  same : before.graph.SameInstances after.graph

namespace Site.KeepsInstances

variable {first second third : Site}

/-- What is kept by two steps is kept by both together. -/
theorem trans (early : first.KeepsInstances second) (late : second.KeepsInstances third) :
    first.KeepsInstances third where
  library := late.library.trans early.library
  sound := late.sound
  same id := (late.same id).trans (early.same id)

/-- Instances stay matched when they are kept. -/
theorem matched (keeps : first.KeepsInstances second) (matched : first.Matched) :
    second.Matched where
  sound := keeps.sound
  definitions name definition stored := matched.definitions name definition (keeps.library ▸ stored)
  graph := keeps.library ▸ matched.graph.of_same keeps.same
  inner name definition stored := by
    rw [keeps.library] at stored ⊢
    exact matched.inner name definition stored

/-- The groups that seem to be used once are the same when instances are kept. -/
theorem seemsUsedOnce_iff (keeps : first.KeepsInstances second) {group : String} :
    Cleanup.SeemsUsedOnce second group ↔ Cleanup.SeemsUsedOnce first group := by
  have counts : Cleanup.useCount second group = Cleanup.useCount first group :=
    Cleanup.useCount_congr (keeps.same.instanceCount group) (by rw [keeps.library])
  rw [Cleanup.SeemsUsedOnce, Cleanup.SeemsUsedOnce, keeps.same.uses_iff, counts]

end Site.KeepsInstances

namespace Cleanup

variable {site after : Site} {total : Nat}

/-- Linking outputs on keeps instances. -/
theorem relinkOutputs_keepsInstances (sound : site.graph.Sound)
    (done : relinkOutputs site = .ok total after) : site.KeepsInstances after := by
  obtain ⟨⟨sound', same⟩, library⟩ := @relinkOutputs_keeps
    (fun graph => graph.Sound ∧ site.graph.SameInstances graph) (fun _ keeps => keeps.1)
    (fun _ _ _ _ keeps relinks _ => ⟨relinks.sound, fun id =>
      (Graph.sameInstances_of_nodes relinks.node? id).trans (keeps.2 id)⟩) _ _ _
    ⟨sound, fun _ => rfl⟩ done
  exact ⟨library, sound', same⟩

/-- Taking unused inputs away keeps instances. -/
theorem removeUnusedInputs_keepsInstances (sound : site.graph.Sound)
    (done : removeUnusedInputs site = .ok total after) : site.KeepsInstances after := by
  obtain ⟨_, graph, done', sound', same⟩ := @removeUnusedInputs_ok
    (fun graph => graph.Sound ∧ site.graph.SameInstances graph) (fun _ keeps => keeps.1)
    (fun _ _ _ _ _ keeps found op _ removes => ⟨removes.sound, fun id =>
      (removes.sameInstances found (fun group same => by rw [op] at same; cases same) id).trans
        (keeps.2 id)⟩) site ⟨sound, fun _ => rfl⟩
  cases done.symm.trans done'
  exact ⟨rfl, sound', same⟩

/-- Taking unused outputs away keeps instances. -/
theorem removeUnusedOutputs_keepsInstances (sound : site.graph.Sound)
    (done : removeUnusedOutputs site = .ok total after) : site.KeepsInstances after := by
  obtain ⟨_, graph, done', sound', same⟩ := @removeUnusedOutputs_ok
    (fun graph => graph.Sound ∧ site.graph.SameInstances graph) (fun _ keeps => keeps.1)
    (fun _ _ _ _ _ keeps found op _ removes => ⟨removes.sound, fun id =>
      (removes.sameInstances found (fun group same => by rw [op] at same; cases same) id).trans
        (keeps.2 id)⟩) site ⟨sound, fun _ => rfl⟩
  cases done.symm.trans done'
  exact ⟨rfl, sound', same⟩

/-- Hiding ports keeps instances. -/
theorem hidePorts_keepsInstances {declarations : Declarations} (sound : site.graph.Sound)
    (done : hidePorts declarations site = .ok total after) : site.KeepsInstances after := by
  obtain ⟨_, graph, done', hides⟩ := hidePorts_ok sound declarations
  cases done.symm.trans done'
  exact ⟨rfl, hides.sound, Graph.sameInstances_of_hides hides⟩

/-- Folding constants keeps instances. -/
theorem foldConstants_keepsInstances (sound : site.graph.Sound)
    (done : foldConstants site = .ok total after) : site.KeepsInstances after := by
  obtain ⟨_, graph, done', sound', same⟩ := @foldConstants_ok
    (fun graph => graph.Sound ∧ site.graph.SameInstances graph) (fun _ keeps => keeps.1)
    (fun _ _ _ _ keeps folds => ⟨folds.sound, fun id =>
      (folds.sameInstances id).trans (keeps.2 id)⟩)
    (fun _ _ _ _ _ keeps found op _ removes => ⟨removes.sound, fun id =>
      (removes.sameInstances found (fun group same => by rw [op] at same; cases same) id).trans
        (keeps.2 id)⟩) site ⟨sound, fun _ => rfl⟩
  cases done.symm.trans done'
  exact ⟨rfl, sound', same⟩

/-- Setting defaults keeps instances. -/
theorem applyDefaults_keepsInstances {defaults : Table String Float} (sound : site.graph.Sound)
    (done : applyDefaults defaults site = .ok () after) : site.KeepsInstances after := by
  obtain ⟨graph, done', sound', same⟩ := @applyDefaults_ok
    (fun graph => graph.Sound ∧ site.graph.SameInstances graph) (fun _ keeps => keeps.1)
    (fun _ id old _ _ keeps found changed => ⟨keeps.1.setNode found
      (Node.replaces_setPortDefault (keeps.1.inputShaped id old · found) changed), fun other =>
        (Graph.sameInstances_setNode found (Node.instance?_setPortDefault changed) other).trans
          (keeps.2 other)⟩) defaults site ⟨sound, fun _ => rfl⟩
  cases done.symm.trans done'
  exact ⟨rfl, sound', same⟩

/-- Putting inputs in order keeps instances. -/
theorem orderInputs_keepsInstances {chosen : Bool} (sound : site.graph.Sound)
    (done : orderInputs chosen site = .ok () after) : site.KeepsInstances after := by
  cases (orderInputs_eq chosen site).symm.trans done
  cases chosen with
  | false => exact ⟨rfl, sound, fun _ => rfl⟩
  | true => exact ⟨rfl, sound.sortInputs shortNamesFirst, fun _ => rfl⟩

/-- A step that may be left out keeps instances if it does when it is taken. -/
theorem ifChosen_keepsInstances {chosen : Bool} {step : Cleanup Nat} (sound : site.graph.Sound)
    (taken : step site = .ok total after → site.KeepsInstances after)
    (done : ifChosen chosen step site = .ok total after) : site.KeepsInstances after := by
  rcases ifChosen_eq_ok done with done | rfl
  · exact taken done
  · exact ⟨rfl, sound, fun _ => rfl⟩

/-- A cleanup keeps instances and definitions matched, and changes only definitions of groups that
seem to be used once. -/
theorem all_matched {declarations : Declarations} {options : BuildOptions} {report : CleanupReport}
    (matched : site.Matched) (done : all declarations options site = .ok report after) :
    after.Matched ∧ ∀ group, ¬ SeemsUsedOnce site group →
      after.library.get? group = site.library.get? group := by
  rw [all_eq] at done
  obtain ⟨_, relinked, relinks, done⟩ := bind_eq_ok_iff.1 done
  obtain ⟨_, read, inputs, done⟩ := bind_eq_ok_iff.1 done
  obtain ⟨_, fed, outputs, done⟩ := bind_eq_ok_iff.1 done
  obtain ⟨_, hidden, hides, done⟩ := bind_eq_ok_iff.1 done
  obtain ⟨_, merged, merges, done⟩ := bind_eq_ok_iff.1 done
  obtain ⟨_, folded, folds, done⟩ := bind_eq_ok_iff.1 done
  obtain ⟨_, set, sets, done⟩ := bind_eq_ok_iff.1 done
  obtain ⟨_, ordered, orders, done⟩ := bind_eq_ok_iff.1 done
  cases done
  have first := relinkOutputs_keepsInstances matched.sound relinks
  have second := first.trans
    (ifChosen_keepsInstances first.sound (removeUnusedInputs_keepsInstances first.sound) inputs)
  have third := second.trans
    (ifChosen_keepsInstances second.sound (removeUnusedOutputs_keepsInstances second.sound) outputs)
  have fourth := third.trans (hidePorts_keepsInstances third.sound hides)
  obtain ⟨matched', stays⟩ := mergeDuplicateInputs_matched (fourth.matched matched) merges
  have sixth :=
    ifChosen_keepsInstances matched'.sound (foldConstants_keepsInstances matched'.sound) folds
  have seventh := sixth.trans (applyDefaults_keepsInstances sixth.sound sets)
  have eighth := seventh.trans (orderInputs_keepsInstances seventh.sound orders)
  refine ⟨eighth.matched matched', fun group spared => ?_⟩
  rw [eighth.library, stays group fun once => spared (fourth.seemsUsedOnce_iff.1 once),
    fourth.library]

end Cleanup

end Shadeloom
