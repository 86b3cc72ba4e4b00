import Mathlib
import Shadeloom.Proofs.Build.Blocks
import Shadeloom.Proofs.Build.MergeSteps
import Shadeloom.Proofs.Build.Outcomes
/-!
# Outputs that are given stay

A statement gives its scope one more output, behind those that are there. From then on nothing takes
the output away, gives it another name or type or puts it in another place: a graph that grows keeps
its outputs, and so does every step of a cleanup. The one step that takes outputs away finds none,
as something feeds each output that has been given and what feeds it is at most replaced by
something else. Definitions keep their outputs too, as a cleanup only merges inputs of them.
-/
namespace Shadeloom

open Relation

/-- The named output that an operation is. -/
def NodeOp.namedOutput? : NodeOp → Option NamedOutput
  | .output port => some (port.name, port.type)
  | _ => none

namespace Node

/-- Only a port is hidden, and a hidden output is the same output. -/
theorem namedOutput?_hidden (node : Node) : node.hidden.op.namedOutput? = node.op.namedOutput? := by
  obtain ⟨op, inputs, outputs, label⟩ := node
  cases op <;> rfl

/-- Only an input is widened. -/
theorem namedOutput?_widened (node : Node) (type : SocketType) :
    (node.widened type).op.namedOutput? = node.op.namedOutput? := by
  by_cases input : ∃ port, node.op = .input port
  · obtain ⟨port, input⟩ := input
    cases type with
    | scalar => rfl
    | vector => rw [widened_of_input input, input]; rfl
  · rw [widened_of_not_input fun port op => input ⟨port, op⟩]

/-- Only an input gets another default. -/
theorem namedOutput?_of_setPortDefault? {old new : Node} {value : Value}
    (changed : old.setPortDefault? value = some new) :
    new.op.namedOutput? = old.op.namedOutput? := by
  unfold setPortDefault? at changed
  split at changed
  · rename_i port op
    cases changed
    rw [op]
    rfl
  · cases changed

end Node

namespace Graph

variable {before after graph : Graph} {outputs : List NamedOutput}

/-- The named outputs of a graph, shown or hidden, in order. -/
def namedOutputs (graph : Graph) : List NamedOutput :=
  graph.outputs.filterMap fun id => (graph.node? id).bind fun node => node.op.namedOutput?

/-- A graph with the same list of outputs has the same named outputs when each node that was there is
the named output that it was. -/
theorem Sound.namedOutputs_eq (sound : before.Sound) (listed : after.outputs = before.outputs)
    (nodes : ∀ id node, before.node? id = some node →
      ∃ node', after.node? id = some node' ∧ node'.op.namedOutput? = node.op.namedOutput?) :
    after.namedOutputs = before.namedOutputs := by
  unfold namedOutputs
  rw [listed]
  refine List.filterMap_congr fun id mem => ?_
  obtain ⟨node, port, found, -⟩ := sound.outputNamed id mem
  obtain ⟨node', found', same⟩ := nodes id node found
  rw [found, found', Option.bind_some, Option.bind_some, same]

/-- A graph keeps its outputs while it grows. -/
theorem Sound.namedOutputs_of_grows {fed : List Nat} (sound : before.Sound)
    (grows : before.Grows after fed) (listed : after.outputs = before.outputs) :
    after.namedOutputs = before.namedOutputs :=
  sound.namedOutputs_eq listed fun id node found => by
    obtain ⟨type, found'⟩ := grows.node? id node found
    exact ⟨_, found', node.namedOutput?_widened type⟩

/-- An output that is added comes last. -/
theorem AddsOutput.namedOutputs {name : String} {type : SocketType} {id : Nat}
    (adds : before.AddsOutput after name type id) (sound : before.Sound) :
    after.namedOutputs = before.namedOutputs ++ [(name, type)] := by
  unfold Graph.namedOutputs
  rw [adds.outputs, List.filterMap_append]
  congr 1
  · refine List.filterMap_congr fun other mem => ?_
    obtain ⟨node, port, found, -⟩ := sound.outputNamed other mem
    rw [adds.node?, if_neg]
    rintro rfl
    cases found.symm.trans adds.fresh
  · rw [List.filterMap_cons, adds.node?, if_pos rfl]
    rfl

/-- Relinking keeps outputs. -/
theorem Relinks.namedOutputs {input source : Socket}
    (relinks : before.Relinks after input source) : after.namedOutputs = before.namedOutputs := by
  unfold Graph.namedOutputs
  simp only [relinks.outputs, relinks.node?]

/-- Taking away a node that is no output keeps outputs. -/
theorem Removes.namedOutputs {id : Nat} (removes : before.Removes after id)
    (apart : id ∉ before.outputs) : after.namedOutputs = before.namedOutputs := by
  have listed : after.outputs = before.outputs := by
    rw [removes.outputs, List.filter_eq_self]
    rintro other mem
    exact decide_eq_true fun same => apart (same ▸ mem)
  unfold Graph.namedOutputs
  rw [listed]
  refine List.filterMap_congr fun other mem => ?_
  rw [removes.node?, if_neg fun same : id = other => apart (same ▸ mem)]

/-- Hiding ports keeps outputs. -/
theorem namedOutputs_of_hides {ids : List Nat} (sound : before.Sound)
    (hides : Cleanup.Hides before after ids) : after.namedOutputs = before.namedOutputs :=
  sound.namedOutputs_eq hides.outputs fun id node found => by
    rw [hides.node?, found, Option.map_some]
    refine ⟨_, rfl, ?_⟩
    split
    · exact node.namedOutput?_hidden
    · rfl

/-- Folding a constant keeps outputs. -/
theorem Folds.namedOutputs {target : Socket} {value : Float}
    (folds : before.Folds after target value) (sound : before.Sound) :
    after.namedOutputs = before.namedOutputs :=
  sound.namedOutputs_eq folds.outputs fun id node found => by
    obtain ⟨node', found', op⟩ := folds.op found
    exact ⟨node', found', by rw [op]⟩

/-- Taking an input socket away keeps outputs. -/
theorem RemovesSocket.namedOutputs {id place : Nat} (removes : before.RemovesSocket after id place)
    (sound : before.Sound) : after.namedOutputs = before.namedOutputs :=
  sound.namedOutputs_eq removes.outputs fun other node found => by
    obtain ⟨receiver, here, node?⟩ := removes.node?
    rw [node?]
    split
    · rename_i same
      rw [← same, here, Option.some.injEq] at found
      exact ⟨_, rfl, by rw [found]⟩
    · exact ⟨node, found, rfl⟩

/-- Replacing a node by one that is the same output keeps outputs. -/
theorem Sound.namedOutputs_setNode (sound : graph.Sound) {id : Nat} {old new : Node}
    (found : graph.node? id = some old) (same : new.op.namedOutput? = old.op.namedOutput?) :
    (graph.setNode id new).namedOutputs = graph.namedOutputs :=
  sound.namedOutputs_eq rfl fun other node here => by
    rw [node?_setNode found]
    split
    · rename_i equal
      rw [← equal, found, Option.some.injEq] at here
      exact ⟨new, rfl, same.trans (by rw [here])⟩
    · exact ⟨node, here, rfl⟩

/-- An input that is merged into another one is no output. -/
theorem MergesInput.not_mem_outputs {kept dropped : Nat}
    (merges : before.MergesInput after kept dropped) : dropped ∉ before.outputs := by
  obtain ⟨between, relinks, -⟩ := merges.edits
  obtain ⟨entry, mem, rfl⟩ := List.mem_map.1 merges.droppedShown
  obtain ⟨node, port, found, input, -⟩ :=
    relinks.sound.inputNamed entry (relinks.inputs ▸ (List.mem_filter.1 mem).1)
  rw [← relinks.outputs]
  exact relinks.sound.not_mem_outputs found fun port' output => by cases input.symm.trans output

/-- A definition has the same outputs when one of its inputs is merged into another one. -/
theorem MergesInput.outputs_eq {kept dropped : Nat}
    (merges : before.MergesInput after kept dropped) :
    after.outputs = before.outputs := by
  obtain ⟨between, relinks, removes⟩ := merges.edits
  rw [removes.outputs, relinks.outputs, List.filter_eq_self]
  intro id mem
  exact decide_eq_true fun same => merges.not_mem_outputs (same ▸ mem)

/-- Merging an input of a definition into another one keeps outputs. -/
theorem MergesInput.namedOutputs {kept dropped : Nat}
    (merges : before.MergesInput after kept dropped) :
    after.namedOutputs = before.namedOutputs := by
  have apart := merges.not_mem_outputs
  obtain ⟨between, relinks, removes⟩ := merges.edits
  rw [← relinks.outputs] at apart
  exact (removes.namedOutputs apart).trans relinks.namedOutputs

/-- Whether a graph has the outputs of a list, in order, and something feeds each of them. -/
structure Fulfils (graph : Graph) (outputs : List NamedOutput) : Prop where
  named : graph.namedOutputs = outputs
  fed : ∀ id ∈ graph.outputs, ∃ source, graph.source? ⟨id, 0⟩ = some source

/-- Outputs are still fed after relinking. -/
theorem Fulfils.relinks {input source : Socket} (fulfils : before.Fulfils outputs)
    (relinks : before.Relinks after input source) : after.Fulfils outputs where
  named := relinks.namedOutputs.trans fulfils.named
  fed id mem := by
    obtain ⟨feeder, linked⟩ := fulfils.fed id (relinks.outputs ▸ mem)
    rw [relinks.source?, linked]
    split
    · exact ⟨source, rfl⟩
    · exact ⟨feeder, rfl⟩

/-- Outputs are still fed when a node goes that feeds nothing. -/
theorem Fulfils.removes {id : Nat} (fulfils : before.Fulfils outputs)
    (removes : before.Removes after id) (apart : id ∉ before.outputs) (idle : before.Idle id) :
    after.Fulfils outputs where
  named := (removes.namedOutputs apart).trans fulfils.named
  fed other mem := by
    rw [removes.outputs, List.mem_filter] at mem
    obtain ⟨source, linked⟩ := fulfils.fed other mem.1
    refine ⟨source, ?_⟩
    rw [removes.source?, if_neg fun same : other = id => apart (same ▸ mem.1), linked,
      Option.filter_some_eq_some]
    exact decide_eq_true (idle _ source linked)

/-- Outputs are still fed when a graph grows. -/
theorem Fulfils.grows {fed : List Nat} (fulfils : before.Fulfils outputs) (sound : before.Sound)
    (grows : before.Grows after fed) (apart : ∀ id ∈ fed, id ∉ before.outputs)
    (listed : after.outputs = before.outputs) : after.Fulfils outputs where
  named := (sound.namedOutputs_of_grows grows listed).trans fulfils.named
  fed id mem := by
    rw [listed] at mem
    obtain ⟨node, port, found, -⟩ := sound.outputNamed id mem
    rw [grows.source? ⟨id, 0⟩ (Option.isSome_iff_exists.2 ⟨node, found⟩)
      fun here => apart id here mem]
    exact fulfils.fed id mem

end Graph

/-- Whether a definition has become another one by merging inputs of it, one after the other. -/
def Graph.MergesInputs : Graph → Graph → Prop :=
  ReflTransGen fun before after => ∃ kept dropped, before.MergesInput after kept dropped

namespace Library

variable {before after : Library}

/-- Whether an input of a definition has been merged into another one. -/
def MergesInput (before after : Library) : Prop :=
  ∃ group definition merged kept dropped, before.get? group = some definition ∧
    definition.MergesInput merged kept dropped ∧ after = before.insert group merged

/-- Whether inputs of definitions have been merged, one after the other. -/
def MergesInputs : Library → Library → Prop :=
  ReflTransGen MergesInput

/-- Definitions keep their outputs while inputs are merged. -/
theorem MergesInputs.namedOutputs (merges : before.MergesInputs after) :
    after.mapValues Graph.namedOutputs = before.mapValues Graph.namedOutputs := by
  induction merges with
  | refl => rfl
  | tail _ last ih =>
    obtain ⟨group, definition, merged, kept, dropped, found, merges, rfl⟩ := last
    rw [← Table.insert_mapValues, merges.namedOutputs, ih]
    rw [Table.insert_of_get? (by rw [← ih, Table.get?_mapValues, found]; rfl)]

/-- A definition has been there before some of its inputs were merged. -/
theorem MergesInputs.exists_of_get? (merges : before.MergesInputs after) {name : String}
    {definition : Graph} (found : after.get? name = some definition) :
    ∃ old, before.get? name = some old ∧ old.MergesInputs definition := by
  induction merges generalizing definition with
  | refl => exact ⟨definition, found, .refl⟩
  | tail _ last ih =>
    obtain ⟨group, definition', merged, kept, dropped, found', merges, rfl⟩ := last
    rw [Table.get?_insert] at found
    split at found
    · rename_i same
      cases found
      obtain ⟨old, here, early⟩ := ih (same ▸ found')
      exact ⟨old, here, early.tail ⟨kept, dropped, merges⟩⟩
    · exact ih found

end Library

/-- Whether a site has the outputs of a list, and definitions that are those of a library but for
inputs that have been merged. -/
structure Site.Retains (library : Library) (outputs : List NamedOutput) (site : Site) : Prop where
  sound : site.graph.Sound
  definitions : ∀ name definition, site.library.get? name = some definition → definition.Sound
  named : site.graph.namedOutputs = outputs
  merged : library.MergesInputs site.library

namespace Cleanup

variable {library : Library} {outputs : List NamedOutput} {site after : Site} {total : Nat}

/-- Outputs are relinked, and are still fed. -/
theorem fulfils_relinkOutputs (sound : site.graph.Sound) (fulfils : site.graph.Fulfils outputs)
    (done : relinkOutputs site = .ok total after) :
    (after.graph.Sound ∧ after.graph.Fulfils outputs) ∧ after.library = site.library :=
  @relinkOutputs_keeps (fun graph => graph.Sound ∧ graph.Fulfils outputs) (fun _ holds => holds.1)
    (fun _ _ _ _ holds relinks _ => ⟨relinks.sound, holds.2.relinks relinks⟩) _ _ _ ⟨sound, fulfils⟩
    done

/-- Unused inputs are taken away, and outputs are still fed. -/
theorem fulfils_removeUnusedInputs (sound : site.graph.Sound) (fulfils : site.graph.Fulfils outputs)
    (done : removeUnusedInputs site = .ok total after) :
    (after.graph.Sound ∧ after.graph.Fulfils outputs) ∧ after.library = site.library := by
  obtain ⟨_, graph, done', holds⟩ := @removeUnusedInputs_ok
    (fun graph => graph.Sound ∧ graph.Fulfils outputs) (fun _ holds => holds.1)
    (fun before _ _ _ _ holds found input idle removes => ⟨removes.sound,
      holds.2.removes removes (holds.1.not_mem_outputs found fun _ output => by
        cases input.symm.trans output) idle⟩) site ⟨sound, fulfils⟩
  cases done.symm.trans done'
  exact ⟨holds, rfl⟩

/-- No output is taken away when all are fed. -/
theorem removeUnusedOutputs_of_fulfils (sound : site.graph.Sound) (fulfils : site.graph.Fulfils outputs) :
    removeUnusedOutputs site = .ok 0 site := by
  rw [removeUnusedOutputs, graph_bind]
  refine count_idle fun id mem => ?_
  obtain ⟨source, linked⟩ := fulfils.fed id mem
  have fed : ¬ (site.graph.incoming id).isEmpty = true := fun none => by
    cases linked.symm.trans ((sound.isEmpty_incoming id).1 none 0)
  rw [graph_bind, if_neg fed]
  rfl

section

variable (retains : site.Retains library outputs)
include retains

/-- Ports are hidden, and outputs stay. -/
theorem retains_hidePorts {declarations : Declarations}
    (done : hidePorts declarations site = .ok total after) : after.Retains library outputs := by
  obtain ⟨_, graph, done', hides⟩ := hidePorts_ok retains.sound declarations
  cases done.symm.trans done'
  exact { retains with
    sound := hides.sound
    named := (Graph.namedOutputs_of_hides retains.sound hides).trans retains.named }

/-- Inputs of instances are merged, and outputs stay. -/
theorem retains_mergeDuplicateInputs (done : mergeDuplicateInputs site = .ok total after) :
    after.Retains library outputs := by
  refine mergeDuplicateInputs_carries (Site.Retains library outputs) (fun now later retains step => ?_)
    retains.sound retains.definitions done retains
  obtain ⟨id, group, places, node, definition, merged, step⟩ := step
  obtain ⟨kept, dropped, -, -, merges⟩ := step.merges
  refine ⟨step.removes.sound, fun name definition' found' => ?_,
    (step.removes.namedOutputs retains.sound).trans retains.named,
    retains.merged.tail ⟨group, definition, merged, kept, dropped, step.stored, merges, step.library⟩⟩
  rw [step.library, Table.get?_insert] at found'
  split at found'
  · cases found'
    exact merges.sound
  · exact retains.definitions name definition' found'

/-- Constants are folded, and outputs stay. -/
theorem retains_foldConstants (done : foldConstants site = .ok total after) :
    after.Retains library outputs := by
  obtain ⟨_, graph, done', sound, named⟩ := @foldConstants_ok
    (fun graph => graph.Sound ∧ graph.namedOutputs = outputs) (fun _ holds => holds.1)
    (fun _ _ _ _ holds folds => ⟨folds.sound, (folds.namedOutputs holds.1).trans holds.2⟩)
    (fun _ _ _ _ _ holds found constant _ removes => ⟨removes.sound,
      (removes.namedOutputs (holds.1.not_mem_outputs found fun _ output => by
        cases constant.symm.trans output)).trans holds.2⟩) site ⟨retains.sound, retains.named⟩
  cases done.symm.trans done'
  exact { retains with sound, named }

/-- Defaults are set, and outputs stay. -/
theorem retains_applyDefaults {defaults : Table String Float}
    (done : applyDefaults defaults site = .ok () after) : after.Retains library outputs := by
  obtain ⟨graph, done', sound, named⟩ := @applyDefaults_ok
    (fun graph => graph.Sound ∧ graph.namedOutputs = outputs) (fun _ holds => holds.1)
    (fun _ id old _ _ holds found changed =>
      ⟨holds.1.setNode found (Node.replaces_setPortDefault (holds.1.inputShaped id old · found)
        changed), (holds.1.namedOutputs_setNode found
        (Node.namedOutput?_of_setPortDefault? changed)).trans holds.2⟩) defaults site
    ⟨retains.sound, retains.named⟩
  cases done.symm.trans done'
  exact { retains with sound, named }

end

/-- A cleanup keeps the outputs of its graph if something feeds each of them, and only merges inputs
of definitions. -/
theorem all_keeps_outputs {declarations : Declarations} {options : BuildOptions}
    {report : CleanupReport} (runs : site.Runs) (fulfils : site.graph.Fulfils outputs)
    (done : all declarations options site = .ok report after) :
    after.graph.namedOutputs = outputs ∧ site.library.MergesInputs after.library := by
  rw [all_eq] at done
  obtain ⟨_, relinked, relinks, done⟩ := bind_eq_ok_iff.1 done
  obtain ⟨_, read, inputs, done⟩ := bind_eq_ok_iff.1 done
  obtain ⟨_, fed, unfed, done⟩ := bind_eq_ok_iff.1 done
  obtain ⟨_, hidden, hides, done⟩ := bind_eq_ok_iff.1 done
  obtain ⟨_, merged, merges, done⟩ := bind_eq_ok_iff.1 done
  obtain ⟨_, folded, folds, done⟩ := bind_eq_ok_iff.1 done
  obtain ⟨_, set, sets, done⟩ := bind_eq_ok_iff.1 done
  obtain ⟨_, ordered, orders, done⟩ := bind_eq_ok_iff.1 done
  cases done
  cases (orderInputs_eq options.resequenceInputs set).symm.trans orders
  -- Up to the removal of outputs that nothing feeds, something feeds each of them.
  have first := fulfils_relinkOutputs runs.graph.sound fulfils relinks
  have second : (read.graph.Sound ∧ read.graph.Fulfils outputs) ∧ read.library = site.library := by
    rcases ifChosen_eq_ok inputs with removed | rfl
    · obtain ⟨holds, same⟩ := fulfils_removeUnusedInputs first.1.1 first.1.2 removed
      exact ⟨holds, same.trans first.2⟩
    · exact first
  obtain rfl : fed = read := by
    rcases ifChosen_eq_ok unfed with removed | same
    · cases (removeUnusedOutputs_of_fulfils second.1.1 second.1.2).symm.trans removed
      rfl
    · exact same
  obtain ⟨⟨sound, fulfils⟩, library⟩ := second
  have ready : fed.Retains site.library outputs := by
    refine ⟨sound, fun name definition found => ?_, fulfils.named, library ▸ .refl⟩
    exact (runs.library name definition (library ▸ found)).2.sound
  have merged' := retains_mergeDuplicateInputs (retains_hidePorts ready hides) merges
  have folded' : folded.Retains site.library outputs := by
    rcases ifChosen_eq_ok folds with folds | rfl
    · exact retains_foldConstants merged' folds
    · exact merged'
  have retains := retains_applyDefaults folded' sets
  refine ⟨?_, retains.merged⟩
  dsimp only
  rw [← retains.named]
  split <;> rfl

end Cleanup

end Shadeloom
