import Mathlib
import Shadeloom.Proofs.Build.Feeding
import Shadeloom.Proofs.Build.MergeSteps
import Shadeloom.Proofs.Build.Redirecting
import Shadeloom.Proofs.Build.SelfContained
import Shadeloom.Proofs.Build.Settling
/-!
# No dead nodes

When ports that are not used are removed, and no instance is added by a statement of its own, every
node of what is built leads to an output. Statements leave no node but ports that feeds nothing, and
a cleanup removes the ports that do; after that each of its steps cuts a link only where what it came
from still feeds something, or takes it away. In a graph without cycles a path that goes on at every
node but outputs ends at one of these.
-/
namespace Shadeloom

open Relation

namespace Graph

/-- Whether every node of a graph leads to an output, every output is fed by one link, and every
input is read. -/
structure Live (graph : Graph) : Prop where
  leads : ∀ id node, graph.node? id = some node →
    ∃ output ∈ graph.outputs, ReflTransGen graph.Joins id output
  fed : ∀ id ∈ graph.outputs, (graph.links.filter fun link => link.target.node = id).length = 1
  read : ∀ name id, graph.input? name = some id → ∃ link ∈ graph.links, link.source.node = id

variable {graph : Graph}

/-- Every node of a sound graph without cycles leads to one that feeds nothing. -/
theorem Sound.exists_path_to_idle (sound : graph.Sound) (acyclic : graph.Acyclic) {id : Nat}
    (here : (graph.node? id).isSome = true) :
    ∃ last, (graph.node? last).isSome = true ∧ graph.Idle last ∧
      ReflTransGen graph.Leads id last := by
  -- Among the finitely many nodes, what a node leads to is well-founded.
  let ahead (a b : { id // id ∈ graph.nodes.numbers }) : Prop := TransGen graph.Leads b.1 a.1
  have : IsTrans _ ahead := ⟨fun a b c early late => late.trans early⟩
  have : Std.Irrefl ahead := ⟨fun a => acyclic a.1⟩
  have finite : Finite { id // id ∈ graph.nodes.numbers } := (List.finite_toSet _).to_subtype
  have wellFounded : WellFounded ahead := Finite.wellFounded_of_trans_of_irrefl ahead
  have reach (a : { id // id ∈ graph.nodes.numbers }) :
      ∃ last, (graph.node? last).isSome = true ∧ graph.Idle last ∧
        ReflTransGen graph.Leads a.1 last := by
    induction a using wellFounded.induction with
    | _ a ih =>
      by_cases idle : graph.Idle a.1
      · exact ⟨a.1, Slots.mem_numbers.1 a.2, idle, .refl⟩
      · unfold Idle at idle
        push Not at idle
        obtain ⟨target, source, linked, leaves⟩ := idle
        have leads : graph.Leads a.1 target.node := ⟨source, target, linked, leaves, rfl⟩
        obtain ⟨last, there, idle, path⟩ :=
          ih ⟨target.node, Slots.mem_numbers.2 (sound.isSome_of_leads leads).2⟩ (.single leads)
        exact ⟨last, there, idle, .head leads path⟩
  exact reach ⟨id, Slots.mem_numbers.2 here⟩

/-- Whether every node of a graph feeds something, but for those of some kinds, and every output is
fed. -/
structure Used (graph : Graph) (kinds : List NodeKind) : Prop extends graph.Busy kinds [] where
  fed : graph.OutputsFed

/-- An output that is fed is fed by one link. -/
theorem ListsPorts.single_link (lists : graph.ListsPorts) (sound : graph.Sound)
    (fed : graph.OutputsFed) {id : Nat} (mem : id ∈ graph.outputs) :
    (graph.links.filter fun link => link.target.node = id).length = 1 := by
  obtain ⟨node, port, found, output⟩ := sound.outputNamed id mem
  have few := (lists.output id node found (by rw [output]; rfl)).2
  have first {link : Link} (listed : link ∈ graph.links) (enters : link.target.node = id) :
      link.target = ⟨id, 0⟩ := by
    obtain ⟨receiver, received, below⟩ := (sound.joined link listed).2
    rw [enters, found, Option.some.injEq] at received
    rw [← received] at below
    exact Socket.eq_iff.2 ⟨enters, Nat.lt_one_iff.1 (below.trans_le few)⟩
  have same : (graph.links.filter fun link => link.target.node = id) =
      graph.links.filter fun link => link.target = ⟨id, 0⟩ := by
    refine List.filter_congr fun link listed => decide_eq_decide.2 ⟨first listed, ?_⟩
    exact fun same => by rw [same]
  obtain ⟨place, source, linked⟩ := fed id mem
  obtain ⟨link, listed, -, target⟩ := sound.source?_eq_some_iff.1 linked
  have there : link ∈ graph.links.filter fun link => link.target.node = id :=
    List.mem_filter.2 ⟨listed, by simp [target]⟩
  have atLeast := List.length_pos_of_mem there
  have atMost := sound.enteredOnce ⟨id, 0⟩
  rw [← same] at atMost
  omega

/-- A graph without cycles is live when only outputs feed nothing and each of them is fed. -/
theorem Used.live (used : graph.Used [.namedOutput]) (acyclic : graph.Acyclic) : graph.Live where
  leads id node found := by
    obtain ⟨last, there, idle, path⟩ :=
      used.exists_path_to_idle acyclic (Option.isSome_iff_exists.2 ⟨node, found⟩)
    obtain ⟨end_, found'⟩ := Option.isSome_iff_exists.1 there
    have kind : end_.op.kind = .namedOutput := by simpa using used.idle last end_ found' idle
    refine ⟨last, (used.output last end_ found' kind).1, ?_⟩
    exact ReflTransGen.mono (fun _ _ => used.toSound.joins_iff.2) id last path
  fed id mem := used.toListsPorts.single_link used.toSound used.fed mem
  read name id listed := by
    obtain ⟨node, port, found, input, -⟩ := used.input?_spec listed
    have busy : ¬ graph.Idle id := fun idle => by
      have kind := used.idle id node found idle
      rw [input] at kind
      simp [NodeOp.kind] at kind
    unfold Idle at busy
    push Not at busy
    obtain ⟨target, source, linked, leaves⟩ := busy
    obtain ⟨link, mem, rfl, -⟩ := used.source?_eq_some_iff.1 linked
    exact ⟨link, mem, leaves⟩

variable {before after : Graph} {kinds : List NodeKind}

/-- Relinking an output keeps nodes busy where inputs need not be. -/
theorem Busy.relinks {output : Nat} {input source : Socket}
    (busy : before.Busy NodeKind.ports []) (relinkable : before.Relinkable output input source)
    (relinks : before.Relinks after input source) : after.Busy NodeKind.ports [] := by
  obtain ⟨name, id, -, listed, rfl, -⟩ := relinkable
  obtain ⟨node, port, found, op, -⟩ := busy.input?_spec listed
  refine busy.of_nodes
    ⟨relinks.sound, fun other new here => busy.nodes other new (relinks.node? other ▸ here)⟩
    (busy.toListsPorts.of_same relinks.node? relinks.inputs relinks.outputs)
    (fun other new here => ⟨new, relinks.node? other ▸ here, rfl⟩) fun other new here idle => ?_
  by_cases same : other = id
  · rw [relinks.node?, same, found, Option.some.injEq] at here
    rw [← here, op]
    exact .inr (.head _)
  · refine .inl fun target from_ linked leaves => idle target from_ ?_ leaves
    rw [relinks.source?, if_neg]
    · exact linked
    · intro reads
      rw [linked, Option.some.injEq] at reads
      exact same (leaves.symm.trans (congrArg Socket.node reads))

/-- Relinking outputs keeps nodes busy where inputs need not be. -/
theorem Busy.relinksAll {outputs : List Nat} (busy : before.Busy NodeKind.ports [])
    (run : before.RelinksAll outputs after) : after.Busy NodeKind.ports [] := by
  induction run with
  | nil graph => exact busy
  | cons step run ih =>
    refine ih ?_
    cases step with
    | linked relinkable free relinks => exact busy.relinks relinkable relinks
    | left nothing => exact busy

/-- Ports stay listed when a node goes. -/
theorem Removes.listsPorts {id : Nat} (removes : before.Removes after id)
    (lists : before.ListsPorts) : after.ListsPorts := by
  have apart {other : Nat} (here : (after.node? other).isSome = true) : other ≠ id := by
    rintro rfl
    rw [removes.node?, if_pos rfl] at here
    cases here
  refine lists.of_nodes (fun other new found => ?_) (fun name other listed here => ?_)
    fun other mem here => ?_
  · rw [removes.node?] at found
    split at found
    · cases found
    · exact ⟨new, found, rfl, le_rfl⟩
  · rw [input?, removes.inputs, Table.get?_filter, Option.filter_eq_some_iff]
    exact ⟨listed, by simpa using apart here⟩
  · rw [removes.outputs, List.mem_filter]
    exact ⟨mem, by simpa using apart here⟩

/-- Nodes stay busy when one goes that no link leaves or enters. -/
theorem Busy.removes {id : Nat} (busy : before.Busy kinds []) (removes : before.Removes after id)
    (idle : before.Idle id) (unfed : ∀ place, before.source? ⟨id, place⟩ = none) :
    after.Busy kinds [] := by
  refine busy.of_nodes (busy.toShaped.removes removes) (removes.listsPorts busy.toListsPorts)
    (fun other new found => ?_) fun other new found idle' => .inl fun target source linked => ?_
  · rw [removes.node?] at found
    split at found
    · cases found
    · exact ⟨new, found, rfl⟩
  · exact idle' target source ((removes.source?_of_idle idle unfed target).trans linked)

/-- Nodes stay busy in a graph that is thinned out but keeps its lists of ports, if those that come
to feed nothing need not be busy. -/
theorem Busy.thins (busy : before.Busy kinds []) (thins : before.Thins after)
    (inputs : ∀ name, after.input? name = before.input? name)
    (outputs : after.outputs = before.outputs)
    (read : ∀ id new, after.node? id = some new → after.Idle id →
      before.Idle id ∨ new.op.kind ∈ kinds) : after.Busy kinds [] := by
  refine busy.of_nodes (thins.shaped busy.toShaped)
    (busy.toListsPorts.of_nodes (fun id new found => ?_)
      (fun name id listed _ => (inputs name).trans listed) fun id mem _ => outputs ▸ mem)
    (fun id new found => ?_) read
  · obtain ⟨old, found', succeeds⟩ := thins.node id new found
    exact ⟨old, found', succeeds.kind, succeeds.inputs⟩
  · obtain ⟨old, found', succeeds⟩ := thins.node id new found
    exact ⟨old, found', succeeds.kind⟩

/-- Nodes stay busy in a graph with the same links that is pruned but keeps its lists of ports. -/
theorem Used.prunes (used : before.Used kinds) (prunes : before.Prunes after)
    (inputs : ∀ name, after.input? name = before.input? name)
    (outputs : after.outputs = before.outputs)
    (source? : ∀ target, after.source? target = before.source? target) : after.Used kinds where
  toBusy := used.toBusy.thins prunes.toThins inputs outputs fun _ _ _ idle =>
    .inl fun target source linked => idle target source ((source? target).trans linked)
  fed := used.fed.thins prunes.toThins

/-- Hiding ports keeps nodes busy. -/
theorem Used.hides {ids : List Nat} (used : before.Used kinds)
    (hides : Cleanup.Hides before after ids) : after.Used kinds :=
  used.prunes (prunes_of_hides hides) (fun name => by rw [input?, hides.inputs]; rfl) hides.outputs
    hides.source?

/-- Folding a constant keeps nodes busy but for constants. -/
theorem Busy.folds {target : Socket} {value : Float}
    (busy : before.Busy [.constant, .namedOutput] []) (folds : before.Folds after target value) :
    after.Busy [.constant, .namedOutput] [] := by
  refine busy.thins (folds.prunes busy.toSound).toThins (fun name => by rw [input?, folds.inputs]; rfl)
    folds.outputs fun id new found idle => ?_
  obtain ⟨source, sender, linked, sent, constant⟩ := folds.fed
  by_cases same : id = source.node
  · obtain ⟨new', found', op⟩ := folds.op sent
    rw [← same, found, Option.some.injEq] at found'
    rw [found', op, constant]
    exact .inr (.head _)
  · refine .inl fun other from_ linked' leaves => idle other from_ ?_ leaves
    rw [folds.source?, if_neg]
    · exact linked'
    · rintro rfl
      rw [linked, Option.some.injEq] at linked'
      exact same (leaves.symm.trans (congrArg Socket.node linked'.symm))

/-- Taking away a socket of an instance that is fed like another one keeps nodes busy. -/
theorem Used.removesSocket {id place other : Nat} {group : String} {node : Node}
    (used : before.Used kinds) (removes : before.RemovesSocket after id place)
    (found : before.node? id = some node) (op : node.op = .group group) (earlier : other < place)
    (same : before.source? ⟨id, other⟩ = before.source? ⟨id, place⟩) : after.Used kinds := by
  have thins := removes.thins used.toSound found op earlier same
  refine ⟨used.toBusy.thins thins (fun name => by rw [input?, removes.inputs]; rfl) removes.outputs
    fun id' _ _ idle => .inl fun target source linked => ?_, used.fed.thins thins⟩
  obtain ⟨target', linked'⟩ := removes.exists_still_linked earlier same linked
  exact idle target' source linked'

/-- Merging an input of a definition into another one keeps nodes busy. -/
theorem Used.mergesInput {kept dropped : Nat} (used : before.Used kinds)
    (merges : before.MergesInput after kept dropped) : after.Used kinds := by
  have source? := merges.source? used.toSound
  obtain ⟨between, relinks, removes⟩ := id merges.edits
  have nodes (id : Nat) (new : Node) (found : after.node? id = some new) :
      id ≠ dropped ∧ before.node? id = some new := by
    rw [removes.node?, relinks.node?] at found
    split at found
    · cases found
    · rename_i apart
      exact ⟨Ne.symm apart, found⟩
  have shaped : between.Shaped :=
    ⟨relinks.sound, fun id node found => used.nodes id node (relinks.node? id ▸ found)⟩
  refine ⟨used.toBusy.of_nodes (shaped.removes removes)
    (removes.listsPorts (used.toListsPorts.of_same relinks.node? relinks.inputs relinks.outputs))
    (fun id new found => ⟨new, (nodes id new found).2, rfl⟩) fun id new found idle => ?_,
    fun id mem => ?_⟩
  · refine .inl fun target from_ linked leaves => idle target from_ ?_ leaves
    rw [source?, if_neg]
    · exact linked
    · rw [linked, Option.some.injEq]
      rintro rfl
      exact (nodes id new found).1 leaves.symm
  · rw [removes.outputs, relinks.outputs, List.mem_filter] at mem
    obtain ⟨place, from_, linked⟩ := used.fed id mem.1
    refine ⟨place, if from_ = ⟨dropped, 0⟩ then ⟨kept, 0⟩ else from_, ?_⟩
    rw [source?, linked]
    split <;> simp_all

end Graph

/-- Whether nodes of a graph and of all definitions feed something, but for those of some kinds in
the graph and outputs in the definitions, and all outputs are fed. -/
structure Site.Used (site : Site) (kinds : List NodeKind) : Prop where
  graph : site.graph.Used kinds
  definitions : ∀ name definition, site.library.get? name = some definition →
    definition.Used [.namedOutput]

namespace Cleanup

variable {site after : Site} {kinds : List NodeKind} {total : Nat}

/-- Once outputs are relinked and unused ports are removed, only outputs feed nothing, and each of
them is fed. -/
theorem used_of_removed {relinked read fed : Site} {relinks inputs outputs : Nat}
    (busy : site.graph.Busy NodeKind.ports [])
    (relinking : relinkOutputs site = .ok relinks relinked)
    (removing : removeUnusedInputs relinked = .ok inputs read)
    (removing' : removeUnusedOutputs read = .ok outputs fed) :
    fed.graph.Used [.namedOutput] ∧ fed.library = site.library := by
  obtain ⟨graph, rfl, run⟩ := relinksAll_of_ok busy.toSound relinking
  have first := busy.relinksAll run
  obtain ⟨library, prunes, isRead⟩ := removeUnusedInputs_spec first.toSound removing
  obtain ⟨_, graph', done, second⟩ := @removeUnusedInputs_ok
    (fun graph => graph.Busy NodeKind.ports []) (fun _ busy => busy.toSound)
    (fun _ _ _ _ _ busy found input idle removes =>
      busy.removes removes idle (busy.source?_input found input)) { site with graph } first
  cases removing.symm.trans done
  have read : graph'.Busy [.namedOutput] [] := by
    refine { second with idle := fun id node found idle => ?_ }
    rcases second.idle id node found idle with kind | mem
    · rcases List.mem_cons.1 kind with input | output
      · obtain ⟨name, listed⟩ := second.input id node found input
        exact absurd idle (isRead name id listed)
      · exact .inl output
    · cases mem
  obtain ⟨library', -, isFed⟩ := removeUnusedOutputs_spec read.toShaped removing'
  obtain ⟨_, graph'', done, third⟩ := @removeUnusedOutputs_ok
    (fun graph => graph.Busy [.namedOutput] []) (fun _ busy => busy.toSound)
    (fun _ _ _ _ _ busy found output unfed removes =>
      busy.removes removes (busy.toShaped.idle_output found (by rw [output]; rfl)) unfed)
    { site with graph := graph' } read
  cases removing'.symm.trans done
  exact ⟨⟨third, isFed⟩, rfl⟩

/-- Hiding ports keeps nodes busy. -/
theorem used_hidePorts {declarations : Declarations} (used : site.Used kinds)
    (done : hidePorts declarations site = .ok total after) : after.Used kinds := by
  obtain ⟨_, graph, done', hides⟩ := hidePorts_ok used.graph.toSound declarations
  cases done.symm.trans done'
  exact ⟨used.graph.hides hides, used.definitions⟩

/-- Merging the inputs of all instances keeps nodes busy. -/
theorem used_mergeDuplicateInputs (used : site.Used kinds)
    (done : mergeDuplicateInputs site = .ok total after) : after.Used kinds := by
  refine mergeDuplicateInputs_carries (fun now => now.Used kinds) (fun now later used step => ?_)
    used.graph.toSound (fun name other there => (used.definitions name other there).toSound) done used
  obtain ⟨id, group, places, node, definition, merged, step⟩ := step
  obtain ⟨source, first, second⟩ := step.fed
  obtain ⟨kept, dropped, -, -, merges⟩ := step.merges
  refine ⟨used.graph.removesSocket step.removes step.found step.op step.order
    (first.trans second.symm), fun name other there => ?_⟩
  rw [step.library, Table.get?_insert] at there
  split at there
  · cases there
    exact (used.definitions group definition step.stored).mergesInput merges
  · exact used.definitions name other there

/-- Folding constants takes those away that come to feed nothing. -/
theorem used_foldConstants (used : site.Used [.namedOutput])
    (done : foldConstants site = .ok total after) : after.Used [.namedOutput] := by
  obtain ⟨library, prunes, folded⟩ := foldConstants_spec used.graph.toShaped done
  have start : site.graph.Busy [.constant, .namedOutput] [] :=
    { used.graph.toBusy with idle := fun id node found idle =>
        (used.graph.idle id node found idle).imp_left (.tail _) }
  obtain ⟨_, graph, done', busy⟩ := @foldConstants_ok
    (fun graph => graph.Busy [.constant, .namedOutput] []) (fun _ busy => busy.toSound)
    (fun _ _ _ _ busy folds => busy.folds folds)
    (fun _ _ _ _ _ busy found constant idle removes => busy.removes removes idle
      (busy.toShaped.source?_constant found (by rw [constant]; rfl))) site start
  cases done.symm.trans done'
  refine ⟨⟨{ busy with idle := fun id node found idle => ?_ }, used.graph.fed.thins prunes.toThins⟩,
    used.definitions⟩
  rcases busy.idle id node found idle with kind | mem
  · rcases List.mem_cons.1 kind with constant | output
    · -- A constant that is left feeds something.
      obtain ⟨value, op⟩ : ∃ value, node.op = .constant value := by
        cases role : node.op with
        | constant value => exact ⟨value, rfl⟩
        | _ => rw [role] at constant; cases constant
      exact absurd idle (folded id node value found op).1
    · exact .inl output
  · cases mem

/-- Setting defaults keeps nodes busy. -/
theorem used_applyDefaults {defaults : Table String Float} (used : site.Used kinds)
    (done : applyDefaults defaults site = .ok () after) : after.Used kinds := by
  obtain ⟨graph, done', final⟩ := @applyDefaults_ok (fun graph => graph.Used kinds)
    (fun _ used => used.toSound)
    (fun graph id old new _ used found changed =>
      used.prunes (used.toSound.prunes_setPortDefault found changed) (fun _ => rfl) rfl
        (used.toSound.source?_setNode id new)) defaults site used.graph
  cases done.symm.trans done'
  exact ⟨final, used.definitions⟩

/-- Putting inputs in order keeps nodes busy. -/
theorem used_orderInputs {chosen : Bool} (used : site.Used kinds)
    (done : orderInputs chosen site = .ok () after) : after.Used kinds := by
  cases (orderInputs_eq chosen site).symm.trans done
  refine ⟨?_, used.definitions⟩
  cases chosen with
  | false => exact used.graph
  | true =>
    have sound := used.graph.toSound
    exact used.graph.prunes (sound.prunes_sortInputs shortNamesFirst)
      (Graph.input?_sortInputs site.graph shortNamesFirst) rfl
      (Graph.source?_congr (site.graph.sortInputs shortNamesFirst) site.graph sound.orderly
        sound.orderly rfl)

/-- A cleanup that removes unused ports leaves only outputs that feed nothing, if nothing but ports
fed nothing before, and each of them is fed. -/
theorem used_all {declarations : Declarations} {options : BuildOptions} {report : CleanupReport}
    (pruned : options.pruneUnused = true) (busy : site.graph.Busy NodeKind.ports [])
    (definitions : ∀ name definition, site.library.get? name = some definition →
      definition.Used [.namedOutput])
    (done : all declarations options site = .ok report after) : after.Used [.namedOutput] := by
  rw [all_eq, pruned] at done
  obtain ⟨_, relinked, relinks, done⟩ := bind_eq_ok_iff.1 done
  obtain ⟨_, read, inputs, done⟩ := bind_eq_ok_iff.1 done
  obtain ⟨_, fed, outputs, done⟩ := bind_eq_ok_iff.1 done
  obtain ⟨_, hidden, hides, done⟩ := bind_eq_ok_iff.1 done
  obtain ⟨_, merged, merges, done⟩ := bind_eq_ok_iff.1 done
  obtain ⟨_, folded, folds, done⟩ := bind_eq_ok_iff.1 done
  obtain ⟨_, set, sets, done⟩ := bind_eq_ok_iff.1 done
  obtain ⟨_, ordered, orders, done⟩ := bind_eq_ok_iff.1 done
  cases done
  obtain ⟨used, library⟩ := used_of_removed busy relinks inputs outputs
  have removed : fed.Used [.namedOutput] := ⟨used, library ▸ definitions⟩
  have merged' := used_mergeDuplicateInputs (used_hidePorts removed hides) merges
  have folded' : folded.Used [.namedOutput] := by
    rcases ifChosen_eq_ok folds with folds | rfl
    · exact used_foldConstants merged' folds
    · exact merged'
  exact used_orderInputs (used_applyDefaults folded' sets) orders

end Cleanup

namespace Builder

/-- Whether between two statements nothing but ports feeds nothing in the scopes of a build, and
nothing but outputs in its definitions. -/
structure Busy (builder : Builder) : Prop where
  pruned : builder.options.pruneUnused = true
  library : ∀ name definition, builder.library.get? name = some definition →
    definition.Used [.namedOutput]
  root : builder.root.Busy []
  opened : ∀ group ∈ builder.opened, group.scope.Busy []

/-- No node feeds nothing before the first statement. -/
theorem busy_start {options : BuildOptions} (pruned : options.pruneUnused = true) :
    (start options).Busy where
  pruned := pruned
  library name definition found := by simp [start] at found
  root := Scope.busy_empty rootName
  opened group mem := by cases mem

section

variable {builder after : Builder} {called : String} {arguments : List Expr}

/-- Nothing but ports feeds nothing in the innermost scope. -/
theorem Busy.scope (busy : builder.Busy) : builder.scope.Busy [] :=
  scope_of_forall (P := (Scope.Busy · [])) busy.root busy.opened

/-- Another innermost scope keeps a build busy. -/
theorem Busy.setScope (busy : builder.Busy) {scope : Scope} (busy' : scope.Busy []) :
    (builder.setScope scope).Busy := by
  obtain ⟨root, opened⟩ := forall_setScope (P := (Scope.Busy · [])) busy.root busy.opened busy'
  refine ⟨?_, ?_, root, opened⟩
  · rw [options_setScope]
    exact busy.pruned
  · rw [library_setScope]
    exact busy.library

/-- The start of a statement keeps a build busy. -/
theorem Busy.atStatement (busy : builder.Busy) : builder.atStatement.Busy := by
  unfold Builder.atStatement
  split
  · exact busy.setScope ⟨busy.scope.graph, busy.scope.instances⟩
  · exact busy

/-- An output is fed by the node of its expression, and keeps a build busy. -/
theorem Busy.output (busy : builder.Busy) (tidy : builder.Tidy) {name : String} {type : SocketType}
    {e : Expr} (done : builder.output name type e = .ok after) : after.Busy := by
  obtain ⟨scope, lowered, rfl⟩ := output_eq_ok done
  have sound := tidy.scope.runnable.sound
  have adds := sound.addOutput name type
  have ready := tidy.scope.addOutput adds
  have start : Scope.Busy { builder.scope with graph := (builder.scope.graph.addOutput name type).2 }
      [] := ⟨busy.scope.graph.addOutput name type, busy.scope.instances⟩
  obtain ⟨⟨source, built⟩, builds, links⟩ := bind_eq_ok_iff.1 lowered
  have busy' := (lower_busies tidy.library builder.options.optimize).1 e _ _ _ _ _ ready start builds
  obtain ⟨advances, offers⟩ :=
    (lower_keeps tidy.library builder.options.optimize).1 e _ _ _ _ ready builds
  obtain ⟨linking, connects, -⟩ := advances.tidy.connect offers.2 (by simp) links
  -- Nothing has entered the output before.
  have free : built.graph.source? ⟨(builder.scope.graph.addOutput name type).1, 0⟩ = none := by
    have here := (ready.idle _ (List.mem_singleton_self _)).1
    exact (advances.grows.source? _ here (by simp)).trans (adds.source?_eq_none sound 0)
  refine busy.setScope ⟨busy'.graph.connect connects free, fun other => ?_⟩
  rw [linking.instances]
  exact busy'.instances other

/-- The start of a group keeps a build busy. -/
theorem Busy.startGroup (busy : builder.Busy)
    (done : builder.startGroup called arguments = .ok after) : after.Busy := by
  obtain ⟨-, inputs, name, scope, -, -, declared, rfl⟩ := startGroup_eq_ok done
  have started : scope.Busy [] :=
    foldlM_keeps (Scope.Busy · []) (fun before argument after busy stepped => by
      obtain ⟨v, type, defaults, -, rfl⟩ := declareInput_eq_ok stepped
      exact ⟨busy.graph.addInput v.name type, busy.instances⟩) declared (Scope.busy_empty name)
  refine ⟨busy.pruned, busy.library, busy.root, fun group mem => ?_⟩
  rcases List.mem_cons.1 mem with rfl | mem
  · exact started
  · exact busy.opened group mem

/-- Nothing but outputs feeds nothing in what a scope becomes when it is closed. -/
theorem Busy.close (busy : builder.Busy) {scope : Scope} {site : Site} (busy' : scope.Busy [])
    (done : builder.close scope = .ok site) : site.Used [.namedOutput] := by
  obtain ⟨report, cleaned⟩ := close_eq_ok done
  exact Cleanup.used_all busy.pruned busy'.graph busy.library cleaned

/-- The end of a group keeps a build busy. -/
theorem Busy.endGroup (busy : builder.Busy)
    (done : builder.endGroup called arguments = .ok after) : after.Busy := by
  obtain ⟨-, group, rest, site, -, -, opened, closed, rfl⟩ := endGroup_eq_ok done
  have used := busy.close (busy.opened group (by simp [opened])) closed
  refine ⟨busy.pruned, fun name definition found => ?_, busy.root,
    fun other mem => busy.opened other (by simp [opened, mem])⟩
  rw [Table.get?_insert] at found
  split at found
  · cases found
    exact used.graph
  · exact used.definitions name definition found

/-- A directive that adds no instance keeps a build busy. -/
theorem Busy.directive (busy : builder.Busy) {role : Directive} (other : role ≠ .groupAdd)
    (done : builder.directive role called arguments = .ok after) : after.Busy := by
  cases role with
  | groupStart => exact busy.startGroup done
  | groupEnd => exact busy.endGroup done
  | groupAdd => exact absurd rfl other
  | inputs | outputs =>
    obtain ⟨names, -, same⟩ := bind_eq_ok_iff.1 done
    cases same
    exact busy.setScope ⟨busy.scope.graph, busy.scope.instances⟩

/-- A statement that adds no instance keeps a build busy. -/
theorem Busy.statement (busy : builder.Busy) (tidy : builder.Tidy) {e : Expr}
    (unadded : ∀ name args, e = .call name args → directive? name ≠ some .groupAdd)
    (done : builder.statement e = .ok after) : after.Busy := by
  have ready := busy.atStatement
  obtain rfl | ⟨name, args, role, rfl, called⟩ | ⟨target, tree, rfl⟩ | bare := e.statement_cases
  · cases done
    exact ready
  · rw [statement_of_directive called] at done
    refine ready.directive ?_ done
    rintro rfl
    exact unadded name args rfl called
  · obtain ⟨⟨name, type⟩, -, done⟩ := bind_eq_ok_iff.1 done
    exact ready.output tidy.atStatement done
  · rw [statement_of_bare bare] at done
    exact ready.output tidy.atStatement done

/-- Statements that add no instances keep a build busy. -/
theorem Busy.statements (busy : builder.Busy) (tidy : builder.Tidy) {statements : List Expr}
    (unadded : ∀ e ∈ statements, ∀ name args, e = .call name args →
      directive? name ≠ some .groupAdd)
    (done : statements.foldlM Builder.statement builder = .ok after) : after.Busy := by
  induction statements generalizing builder with
  | nil =>
    cases done
    exact busy
  | cons e rest ih =>
    rw [List.foldlM_cons] at done
    obtain ⟨between, first, later⟩ := bind_eq_ok_iff.1 done
    exact ih (busy.statement tidy (unadded e (by simp)) first) (tidy.statement first)
      (fun other mem => unadded other (by simp [mem])) later

end

end Builder

/-- Where no statement adds an instance and unused ports are removed, no node of what is built is
dead: in the root and in every definition each node leads to an output, each output is fed by one
link and each input is read. -/
theorem Expr.build_live {e : Expr} {options : BuildOptions} {site : Site}
    (pruned : options.pruneUnused = true)
    (unadded : ∀ statement ∈ e.arguments, ∀ name args, statement = .call name args →
      Builder.directive? name ≠ some .groupAdd)
    (built : e.build options = .ok site) (graph : Graph) (holds : site.Holds graph) :
    graph.Live := by
  obtain ⟨builder, stated, finished⟩ := bind_eq_ok_iff.1 built
  have busy := (Builder.busy_start pruned).statements (Builder.tidy_start options) unadded stated
  have used : site.Used [.namedOutput] := by
    unfold Builder.finish at finished
    split at finished
    · cases finished
    · exact busy.close busy.root finished
  have acyclic := ((Expr.runs_build built).runnable holds).acyclic
  cases holds with
  | root => exact used.graph.live acyclic
  | definition found => exact (used.definitions _ graph found).live acyclic

/-- A group that does not read one of its inputs, and an output of what the group computes. -/
def Expr.unreadInput : Expr :=
  let read (name : String) : Expr := .var (.plain name)
  .chain [.call "group:start" (.chain [read "b", read "x", read "w"]),
    .binary .assign (read "y") (.binary .mul (read "x") (.binary .add (read "x") (.value ⟨"2"⟩))),
    .call "group:end" (read "b"), .binary .assign (read "z") (.call "fn:b" (read "u"))]

/-- A group loses the input that it does not read: what is left of it, a product, a sum, an input and
an output, leads to the output, and so does what the root holds. -/
theorem Expr.unreadInput_live :
    BuildOptions.standard.pruneUnused = true ∧
      (∀ statement ∈ unreadInput.arguments, ∀ name args, statement = .call name args →
        Builder.directive? name ≠ some .groupAdd) ∧
      ∃ site, unreadInput.build .standard = .ok site ∧ site.graph.nodeCount = 3 ∧
        (site.library.get? "b").map Graph.nodeCount = some 4 ∧
        ∀ graph, site.Holds graph → graph.Live := by
  have unadded : ∀ statement ∈ unreadInput.arguments, ∀ name args, statement = .call name args →
      Builder.directive? name ≠ some .groupAdd := by
    intro statement mem name args same
    subst same
    simp only [unreadInput, Expr.chain, Expr.arguments, List.mem_cons, List.not_mem_nil, or_false,
      Expr.call.injEq, reduceCtorEq, false_or] at mem
    rcases mem with ⟨rfl, -⟩ | ⟨rfl, -⟩ <;> decide +kernel
  have parts : (unreadInput.build .standard).map (fun site => (site.graph.nodeCount,
      (site.library.get? "b").map Graph.nodeCount)) = .ok (3, some 4) := by decide +kernel
  obtain ⟨site, built, same⟩ := map_eq_ok_iff.1 parts
  obtain ⟨root, group⟩ := Prod.mk.inj same
  exact ⟨rfl, unadded, site, built, root, group, fun graph => build_live rfl unadded built graph⟩

end Shadeloom
