import Mathlib
import Shadeloom.Proofs.Build.Statements
import Shadeloom.Proofs.Evaluation.Nesting
/-!
# What a cleanup comes to

A cleanup of a site that can be evaluated is refused for one reason only: a name is defined in
terms of itself. No edit of its graph or of a definition is refused on the way. Where the cleanup is
carried out, neither the graph nor a definition has come to perform another operation, ports apart;
so neither has come to have an instance of another group.
-/
namespace Shadeloom

namespace Graph

/-- Whether a node of a graph performs an operation. -/
def Performs (graph : Graph) (op : NodeOp) : Prop :=
  ∃ id node, graph.node? id = some node ∧ node.op = op

/-- Whether a graph that has become another one performs no other operations, ports apart. -/
def Narrows (before after : Graph) : Prop :=
  ∀ op, op.isPort = false → after.Performs op → before.Performs op

/-- A graph performs no other operations when each of its nodes that is no port performed the same
one before. -/
theorem narrows_of_nodes {before after : Graph}
    (nodes : ∀ id node, after.node? id = some node → node.op.isPort = false →
      ∃ old, before.node? id = some old ∧ old.op = node.op) : before.Narrows after := by
  rintro op plain ⟨id, node, found, rfl⟩
  exact ⟨id, nodes id node found plain⟩

/-- Narrowing goes on. -/
theorem Narrows.trans {first second third : Graph} (early : first.Narrows second)
    (late : second.Narrows third) : first.Narrows third :=
  fun op plain performs => early op plain (late op plain performs)

/-- A graph has narrowed to itself. -/
theorem Narrows.refl (graph : Graph) : graph.Narrows graph :=
  fun _ _ performs => performs

/-- A graph that has narrowed has instances of no other groups. -/
theorem Narrows.uses {before after : Graph} (narrows : before.Narrows after) {group : String}
    (uses : after.Uses group) : before.Uses group :=
  narrows (.group group) rfl uses

section

variable {before after : Graph}

/-- Graphs with the same nodes perform the same operations. -/
theorem narrows_of_same (node? : ∀ id, after.node? id = before.node? id) : before.Narrows after :=
  narrows_of_nodes fun id node found _ => ⟨node, node? id ▸ found, rfl⟩

/-- A graph that loses a node performs no other operations. -/
theorem Removes.narrows {id : Nat} (removes : Removes before after id) : before.Narrows after :=
  narrows_of_nodes fun other node found _ => by
    rw [removes.node?] at found
    split at found
    · cases found
    · exact ⟨node, found, rfl⟩

/-- A graph performs no other operations once a constant is folded. -/
theorem Folds.narrows {target : Socket} {value : Float}
    (folds : Folds before after target value) : before.Narrows after :=
  narrows_of_nodes fun id node found _ => by
    obtain ⟨receiver, here, -, node?⟩ := folds.node?
    rw [node?] at found
    split at found
    · rename_i same
      cases found
      exact ⟨receiver, same ▸ here, rfl⟩
    · exact ⟨node, found, rfl⟩

/-- A graph performs no other operations once ports are hidden. -/
theorem narrows_of_hides {ids : List Nat} (hides : Cleanup.Hides before after ids) :
    before.Narrows after :=
  narrows_of_nodes fun id node found plain => by
    rw [hides.node?] at found
    obtain ⟨old, found', same⟩ := Option.map_eq_some_iff.1 found
    refine ⟨old, found', ?_⟩
    split at same
    · rw [← same] at plain ⊢
      exact (Node.op_hidden plain).symm
    · rw [same]

/-- A graph performs no other operations once the default of an input is set. -/
theorem narrows_setPortDefault {id : Nat} {old new : Node} {value : Value}
    (found : before.node? id = some old) (changed : old.setPortDefault? value = some new) :
    before.Narrows (before.setNode id new) :=
  narrows_of_nodes fun other node here plain => by
    rw [node?_setNode found] at here
    split at here
    · rename_i same
      cases here
      unfold Node.setPortDefault? at changed
      split at changed
      · cases changed
        cases plain
      · cases changed
    · exact ⟨node, here, rfl⟩

/-- A graph performs no other operations once an input socket is taken away. -/
theorem RemovesSocket.narrows {id place : Nat} (removes : RemovesSocket before after id place) :
    before.Narrows after :=
  narrows_of_nodes fun other node found _ => by
    obtain ⟨old, found', op⟩ := removes.op found
    exact ⟨old, found', op.symm⟩

end

end Graph

/-- What a cleanup keeps of a site, where no other operations are performed. -/
structure Site.Shrinks (before after : Site) : Prop extends before.Keeps after where
  graph : before.graph.Narrows after.graph
  definitions : ∀ name definition, after.library.get? name = some definition →
    ∃ old, before.library.get? name = some old ∧ old.Narrows definition

namespace Site

variable {first second third : Site}

/-- Shrinking goes on. -/
theorem Shrinks.trans (early : first.Shrinks second) (late : second.Shrinks third) :
    first.Shrinks third where
  toKeeps := early.toKeeps.trans late.toKeeps
  graph := early.graph.trans late.graph
  definitions name definition found := by
    obtain ⟨between, found', narrows'⟩ := late.definitions name definition found
    obtain ⟨old, found'', narrows⟩ := early.definitions name between found'
    exact ⟨old, found'', narrows.trans narrows'⟩

/-- A site whose graph alone has changed has shrunk if its graph has narrowed. -/
theorem Keeps.shrinks (keeps : first.Keeps second) (library : second.library = first.library)
    (narrows : first.graph.Narrows second.graph) : first.Shrinks second where
  toKeeps := keeps
  graph := narrows
  definitions _ definition found := ⟨definition, library ▸ found, .refl definition⟩

/-- A site has shrunk to itself. -/
theorem Runs.shrinks (runs : first.Runs) : first.Shrinks first :=
  runs.keeps.shrinks rfl (.refl _)

end Site

namespace Cleanup

variable {site : Site}

/-- Unused inputs of a site that can be evaluated are taken away. -/
theorem removeUnusedInputs_shrinks (runs : site.Runs) :
    ∃ total after, removeUnusedInputs site = .ok total after ∧ site.Shrinks after := by
  obtain ⟨total, graph, done, -, narrows⟩ := @removeUnusedInputs_ok
    (fun graph => graph.Sound ∧ site.graph.Narrows graph) (fun _ keeps => keeps.1)
    (fun _ _ _ _ _ keeps _ _ _ removes => ⟨removes.sound, keeps.2.trans removes.narrows⟩) site
    ⟨runs.graph.sound, .refl _⟩
  exact ⟨total, _, done, (removeUnusedInputs_runs runs done).shrinks rfl narrows⟩

/-- Unused outputs of a site that can be evaluated are taken away. -/
theorem removeUnusedOutputs_shrinks (runs : site.Runs) :
    ∃ total after, removeUnusedOutputs site = .ok total after ∧ site.Shrinks after := by
  obtain ⟨total, graph, done, -, narrows⟩ := @removeUnusedOutputs_ok
    (fun graph => graph.Sound ∧ site.graph.Narrows graph) (fun _ keeps => keeps.1)
    (fun _ _ _ _ _ keeps _ _ _ removes => ⟨removes.sound, keeps.2.trans removes.narrows⟩) site
    ⟨runs.graph.sound, .refl _⟩
  exact ⟨total, _, done, (removeUnusedOutputs_runs runs done).shrinks rfl narrows⟩

/-- Ports of a site that can be evaluated are hidden. -/
theorem hidePorts_shrinks (runs : site.Runs) (declarations : Declarations) :
    ∃ total after, hidePorts declarations site = .ok total after ∧ site.Shrinks after := by
  obtain ⟨total, graph, done, hides⟩ := hidePorts_ok runs.graph.sound declarations
  exact ⟨total, _, done, (hidePorts_runs runs done).shrinks rfl (Graph.narrows_of_hides hides)⟩

/-- Constants of a site that can be evaluated are folded. -/
theorem foldConstants_shrinks (runs : site.Runs) :
    ∃ total after, foldConstants site = .ok total after ∧ site.Shrinks after := by
  obtain ⟨total, graph, done, -, narrows⟩ := @foldConstants_ok
    (fun graph => graph.Sound ∧ site.graph.Narrows graph) (fun _ keeps => keeps.1)
    (fun _ _ _ _ keeps folds => ⟨folds.sound, keeps.2.trans folds.narrows⟩)
    (fun _ _ _ _ _ keeps _ _ _ removes => ⟨removes.sound, keeps.2.trans removes.narrows⟩) site
    ⟨runs.graph.sound, .refl _⟩
  exact ⟨total, _, done, (foldConstants_runs runs done).shrinks rfl narrows⟩

/-- Defaults of a site that can be evaluated are set. -/
theorem applyDefaults_shrinks (runs : site.Runs) (defaults : Table String Float) :
    ∃ after, applyDefaults defaults site = .ok () after ∧ site.Shrinks after := by
  obtain ⟨graph, done, -, narrows⟩ := @applyDefaults_ok
    (fun graph => graph.Sound ∧ site.graph.Narrows graph) (fun _ keeps => keeps.1)
    (fun _ id old _ _ keeps found changed =>
      ⟨keeps.1.setNode found
        (Node.replaces_setPortDefault (keeps.1.inputShaped id old · found) changed),
        keeps.2.trans (Graph.narrows_setPortDefault found changed)⟩) defaults site
    ⟨runs.graph.sound, .refl _⟩
  exact ⟨_, done, (applyDefaults_runs runs done).shrinks rfl narrows⟩

/-- Inputs of a site that can be evaluated are put in order. -/
theorem orderInputs_shrinks (runs : site.Runs) (chosen : Bool) :
    ∃ after, orderInputs chosen site = .ok () after ∧ site.Shrinks after := by
  refine ⟨_, orderInputs_eq chosen site, (orderInputs_runs runs (orderInputs_eq chosen site)).shrinks
    rfl (Graph.narrows_of_same fun id => ?_)⟩
  split <;> rfl

/-- A step that may be left out is carried out if it is when it is taken. -/
theorem ifChosen_shrinks (runs : site.Runs) (chosen : Bool) {step : Cleanup Nat}
    (taken : ∃ total after, step site = .ok total after ∧ site.Shrinks after) :
    ∃ total after, ifChosen chosen step site = .ok total after ∧ site.Shrinks after := by
  unfold ifChosen
  split
  · exact taken
  · exact ⟨0, site, rfl, runs.shrinks⟩

/-- An edit of a definition is carried out when the definition allows it. -/
theorem editDefinition_ok {group : String} {change : Graph → Except GraphError Graph}
    {definition changed : Graph} (found : site.library.get? group = some definition)
    (made : change definition = .ok changed) :
    editDefinition group change site =
      .ok () { site with library := site.library.insert group changed } := by
  rw [editDefinition, get_bind, found]
  dsimp only
  rw [made]
  rfl

/-- The readers of an input of a definition can be linked to another socket. -/
theorem relinkReaders_ok {group : String} {kept : Socket} (readers : List Socket)
    (definition : Graph) (site : Site) (found : site.library.get? group = some definition)
    (sound : definition.Sound) (leaves : definition.HasOutput kept)
    (enters : ∀ reader ∈ readers, definition.HasInput reader) :
    ∃ relinked, readers.forM (fun reader => editDefinition group fun definition =>
        definition.connect kept reader) site =
          .ok () { site with library := site.library.insert group relinked } ∧
      relinked.Sound ∧ ∀ id, relinked.node? id = definition.node? id := by
  induction readers generalizing definition site with
  | nil => exact ⟨definition, by rw [Table.insert_of_get? found]; rfl, sound, fun _ => rfl⟩
  | cons reader rest ih =>
    obtain ⟨linked, links⟩ := sound.exists_connect leaves (enters reader (by simp))
    have connects := sound.connect links
    have kept (id : Nat) (node : Node) (here : definition.node? id = some node) :
        linked.node? id = some node := (connects.node? id).trans here
    obtain ⟨relinked, done, sound', node?⟩ :=
      ih linked { site with library := site.library.insert group linked }
        (by rw [Table.get?_insert, if_pos rfl]) connects.sound
        (leaves.mono fun node here => ⟨node, kept _ node here, rfl⟩) fun other mem =>
          (enters other (by simp [mem])).mono fun node here => ⟨node, kept _ node here, rfl⟩
    refine ⟨relinked, bind_eq_ok_iff.2 ⟨(), _, editDefinition_ok found links, ?_⟩, sound',
      fun id => (node? id).trans (connects.node? id)⟩
    rw [done, Table.insert_insert]

/-- Merging one input of a definition into another one is carried out. -/
theorem mergeInputs_ok {group : String} {kept dropped : Nat} {definition : Graph}
    (found : site.library.get? group = some definition) (sound : definition.Sound)
    (leaves : definition.HasOutput ⟨kept, 0⟩)
    (here : (definition.node? dropped).isSome = true) :
    ∃ merged, mergeInputs group kept dropped site =
        .ok () { site with library := site.library.insert group merged } ∧
      definition.Narrows merged := by
  obtain ⟨relinked, linked, sound', node?⟩ := relinkReaders_ok
    (definition.consumers ⟨dropped, 0⟩) definition site found sound leaves
      fun reader mem => sound.hasInput (sound.mem_consumers.1 mem)
  rw [← node?] at here
  obtain ⟨node, there⟩ := Option.isSome_iff_exists.1 here
  obtain ⟨merged, taken⟩ := sound'.exists_removeNode there
  refine ⟨merged, ?_, (Graph.narrows_of_same node?).trans (sound'.removeNode taken).narrows⟩
  rw [mergeInputs, get_bind, found]
  refine bind_eq_ok_iff.2 ⟨(), _, linked, ?_⟩
  rw [editDefinition_ok (by rw [Table.get?_insert, if_pos rfl])
    (map_eq_ok_iff.2 ⟨_, taken, rfl⟩), Table.insert_insert]

/-- Pairs of sockets that exist can be linked one after the other. -/
theorem connectEach_ok {α : Type} (source target : α → Socket) (items : List α) (site : Site)
    (sound : site.graph.Sound) (leaves : ∀ item ∈ items, site.graph.HasOutput (source item))
    (enters : ∀ item ∈ items, site.graph.HasInput (target item)) :
    ∃ after, items.forM (fun item => edit fun graph => graph.connect (source item) (target item))
      site = .ok () after := by
  obtain ⟨after, done, -⟩ := forM_ok
    (fun item => edit fun graph => graph.connect (source item) (target item))
    (fun rest now => now.graph.Sound ∧ (∀ item ∈ rest, now.graph.HasOutput (source item)) ∧
      ∀ item ∈ rest, now.graph.HasInput (target item))
    (fun item rest now ⟨sound, leaves, enters⟩ => by
      obtain ⟨linked, links⟩ := sound.exists_connect (leaves item (by simp)) (enters item (by simp))
      have connects := sound.connect links
      exact ⟨{ now with graph := linked }, edit_eq_ok_iff.2 ⟨linked, links, rfl⟩, connects.sound,
        fun other mem => (leaves other (by simp [mem])).mono fun node here =>
          ⟨node, (connects.node? _).trans here, rfl⟩,
        fun other mem => (enters other (by simp [mem])).mono fun node here =>
          ⟨node, (connects.node? _).trans here, rfl⟩⟩)
    items site ⟨sound, leaves, enters⟩
  exact ⟨after, done⟩

/-- An input socket of a node that is there is taken away. -/
theorem removeInputSocket_ok (sound : site.graph.Sound) {id : Nat} (place : Nat)
    (here : (site.graph.node? id).isSome = true) :
    ∃ after, removeInputSocket id place site = .ok () after := by
  obtain ⟨node, found⟩ := Option.isSome_iff_exists.1 here
  obtain ⟨graph, cut, sound', node?, -, -, -, links⟩ := cutInputs_ok site sound id place
  have found' := (node? id).trans found
  have sound'' := sound_eraseInput sound' place found' fun link mem same =>
    Nat.lt_of_not_le fun late => ((links link).1 mem).2 ⟨same, late⟩
  obtain ⟨after, linked⟩ := connectEach_ok Link.source (fun link => ⟨id, link.target.place - 1⟩)
    (((site.graph.incoming id).filter fun link => place ≤ link.target.place).filter fun link =>
      place < link.target.place)
    { site with graph := graph.setNode id { node with inputs := node.inputs.eraseIdx place } } sound''
    (fun link mem => by
      obtain ⟨listed, -⟩ := (mem_moved sound).1 (List.mem_filter.1 mem).1
      refine (sound.joined link listed).1.mono fun sender sent => ?_
      rw [Graph.node?_setNode found']
      split
      · rename_i same
        rw [← same, found, Option.some.injEq] at sent
        exact ⟨_, rfl, sent ▸ rfl⟩
      · exact ⟨sender, (node? _).trans sent, rfl⟩)
    fun link mem => by
      obtain ⟨moved, late⟩ := List.mem_filter.1 mem
      obtain ⟨listed, same, -⟩ := (mem_moved sound).1 moved
      obtain ⟨receiver, received, below⟩ := (sound.joined link listed).2
      rw [same, found, Option.some.injEq] at received
      rw [decide_eq_true_eq] at late
      refine ⟨_, (Graph.node?_setNode found' _ id).trans (if_pos rfl), ?_⟩
      have behind : place < node.inputs.length := late.trans (received ▸ below)
      show link.target.place - 1 < (node.inputs.eraseIdx place).length
      rw [List.length_eraseIdx_of_lt behind]
      rw [← received] at below
      omega
  refine ⟨after, bind_eq_ok_iff.2 ⟨site.graph, site, rfl, bind_eq_ok_iff.2 ⟨(), _, cut,
    bind_eq_ok_iff.2 ⟨(), _, edit_eq_ok_iff.2 ⟨_, ?_, rfl⟩, linked⟩⟩⟩⟩
  exact Shadeloom.bind_eq_ok_iff.2 ⟨node, Graph.node_eq_ok_iff.2 found', rfl⟩

/-- Whether the nodes of a site are still there in another one. -/
def KeepsNodes (before after : Site) : Prop :=
  ∀ id, (before.graph.node? id).isSome = true → (after.graph.node? id).isSome = true

/-- The inputs at two places of an instance that is there are merged, and no other operations are
performed. -/
theorem mergePlaces_narrows (sound : site.graph.Sound)
    (definitions : ∀ name definition, site.library.get? name = some definition → definition.Sound)
    {id : Nat} (group : String) (places : Nat × Nat)
    (here : (site.graph.node? id).isSome = true) :
    ∃ changed after, mergePlaces id group places site = .ok changed after ∧
      site.graph.Narrows after.graph ∧
      (∀ name definition, after.library.get? name = some definition →
        ∃ old, site.library.get? name = some old ∧ old.Narrows definition) ∧
      KeepsNodes site after := by
  obtain ⟨inputs, listed⟩ : ∃ inputs, inputs = ((site.library.get? group).map fun definition =>
    definition.exposedInputs.map Prod.snd).getD [] := ⟨_, rfl⟩
  have unchanged (none : inputs[places.1]? = none ∨ inputs[places.2]? = none) :
      ∃ changed after, mergePlaces id group places site = .ok changed after ∧
        site.graph.Narrows after.graph ∧
        (∀ name definition, after.library.get? name = some definition →
          ∃ old, site.library.get? name = some old ∧ old.Narrows definition) ∧
        KeepsNodes site after := by
    refine ⟨false, site, ?_, .refl _, fun _ definition found => ⟨definition, found, .refl _⟩,
      fun _ there => there⟩
    rw [mergePlaces, get_bind, ← listed]
    rcases none with none | none
    · rw [none]
      rfl
    · rw [none]
      cases inputs[places.1]? <;> rfl
  cases keeps : inputs[places.1]? with
  | none => exact unchanged (.inl keeps)
  | some kept =>
    cases drops : inputs[places.2]? with
    | none => exact unchanged (.inr drops)
    | some dropped =>
      cases found : site.library.get? group with
      | none => rw [listed, found] at keeps; cases keeps
      | some definition =>
        have soundDefinition := definitions group definition found
        have isInput {input place : Nat} (entry : inputs[place]? = some input) :
            ∃ node port, definition.node? input = some node ∧ node.op = .input port := by
          rw [listed, found, Option.map_some, Option.getD_some] at entry
          obtain ⟨exposed, mem, rfl⟩ := List.mem_map.1 (List.mem_of_getElem? entry)
          obtain ⟨node, port, inside, input, -⟩ :=
            soundDefinition.inputNamed exposed (List.mem_filter.1 mem).1
          exact ⟨node, port, inside, input⟩
        obtain ⟨node, port, inside, input⟩ := isInput keeps
        obtain ⟨node', -, inside', -⟩ := isInput drops
        have leaves : definition.HasOutput ⟨kept, 0⟩ := by
          refine ⟨node, inside, ?_⟩
          rw [(soundDefinition.inputShaped kept node port inside input).outputs]
          exact Nat.zero_lt_one
        obtain ⟨merged, merges, narrows⟩ := mergeInputs_ok found soundDefinition leaves
          (Option.isSome_iff_exists.2 ⟨node', inside'⟩)
        obtain ⟨after, removed⟩ := @removeInputSocket_ok
          { site with library := site.library.insert group merged } sound id places.2 here
        obtain ⟨library, removes⟩ := @removeInputSocket_spec
          { site with library := site.library.insert group merged } after sound _ _ removed
        have done : mergePlaces id group places site = .ok true after := by
          rw [mergePlaces, get_bind, ← listed, keeps, drops]
          exact bind_eq_ok_iff.2 ⟨(), _, merges, bind_eq_ok_iff.2 ⟨(), _, removed, rfl⟩⟩
        refine ⟨true, after, done, removes.narrows, fun name other there => ?_,
          fun other there => ?_⟩
        · rw [library, Table.get?_insert] at there
          split at there
          · rename_i same
            cases there
            exact ⟨definition, same ▸ found, narrows⟩
          · exact ⟨other, there, .refl other⟩
        · obtain ⟨node, inside, node?⟩ := removes.node?
          rw [node?]
          split
          · rfl
          · exact there

/-- The inputs at two places of an instance of a site that can be evaluated are merged. -/
theorem mergePlaces_ok (runs : site.Runs) {id : Nat} (group : String) (places : Nat × Nat)
    (here : (site.graph.node? id).isSome = true) :
    ∃ changed after, mergePlaces id group places site = .ok changed after ∧
      site.Shrinks after ∧ KeepsNodes site after := by
  obtain ⟨changed, after, done, narrows, definitions, stays⟩ := mergePlaces_narrows
    runs.graph.sound (fun name definition found => (runs.library name definition found).2.sound)
    group places here
  exact ⟨changed, after, done, ⟨mergePlaces_keeps runs done, narrows, definitions⟩, stays⟩

/-- The inputs of an instance that is there are merged. -/
theorem mergeInstance_ok (runs : site.Runs) {id : Nat} (group : String)
    (here : (site.graph.node? id).isSome = true) :
    ∃ total after, mergeInstance id group site = .ok total after ∧
      site.Shrinks after ∧ KeepsNodes site after := by
  rw [mergeInstance, get_bind]
  split
  · exact ⟨0, site, rfl, runs.shrinks, fun _ there => there⟩
  · exact count_ok (mergePlaces id group) (fun _ now => site.Shrinks now ∧ KeepsNodes site now)
      (fun places rest now keeps => by
        obtain ⟨shrinks, stays⟩ := keeps
        obtain ⟨changed, after, done, shrinks', stays'⟩ :=
          mergePlaces_ok shrinks.runs group places (stays id here)
        exact ⟨changed, after, done, shrinks.trans shrinks',
          fun other there => stays' other (stays other there)⟩)
      _ site ⟨runs.shrinks, fun _ there => there⟩

/-- The inputs of all instances are merged. -/
theorem mergeDuplicateInputs_ok (runs : site.Runs) :
    ∃ total after, mergeDuplicateInputs site = .ok total after ∧ site.Shrinks after := by
  rw [mergeDuplicateInputs, graph_bind]
  obtain ⟨total, after, done, shrinks, -⟩ := sum_sums
    (fun entry : Nat × String => mergeInstance entry.1 entry.2)
    (fun _ rest now => site.Shrinks now ∧
      ∀ entry ∈ rest, (now.graph.node? entry.1).isSome = true)
    (fun sum entry rest now ⟨shrinks, here⟩ => by
      obtain ⟨merged, between, done, shrinks', stays⟩ :=
        mergeInstance_ok shrinks.runs entry.2 (here entry (by simp))
      exact ⟨merged, between, done, shrinks.trans shrinks',
        fun other mem => stays other.1 (here other (by simp [mem]))⟩)
    (instances site.graph) site 0 ⟨runs.shrinks, fun entry mem => by
      obtain ⟨node, found, -⟩ := mem_instances.1 mem
      exact Option.isSome_iff_exists.2 ⟨node, found⟩⟩
  exact ⟨total, after, done, shrinks⟩

/-- Outputs are linked on, unless a name is defined in terms of itself. -/
theorem relinkOutputs_outcome (runs : site.Runs) :
    (∃ total after, relinkOutputs site = .ok total after ∧ site.Shrinks after) ∨
      ∃ error after, relinkOutputs site = .error error after ∧
        ∃ name, error = .cyclicDefinition name := by
  rw [relinkOutputs, graph_bind]
  refine count_outcome relinkOutput site.Shrinks (fun error => ∃ name, error = .cyclicDefinition name)
    (fun output now shrinks => ?_) site.graph.outputs site runs.shrinks
  have runnable := shrinks.runs.graph
  by_cases relinkable : ∃ input source, now.graph.Relinkable output input source
  · obtain ⟨input, source, relinkable⟩ := relinkable
    rcases relinkOutput_of_relinkable runnable.sound relinkable with
      ⟨-, name, -, refused⟩ | ⟨free, graph, relinked, relinks⟩
    · exact .inr ⟨_, now, refused, name, rfl⟩
    · have keeps := shrinks.runs.withGraph (runnable.relinks relinks free) relinks.name
      exact .inl ⟨true, _, relinked, shrinks.trans
        (keeps.shrinks rfl (Graph.narrows_of_same relinks.node?))⟩
  · exact .inl ⟨false, now, relinkOutput_of_not_relinkable runnable.sound
      fun input source here => relinkable ⟨input, source, here⟩, shrinks⟩

/-- A site that can be evaluated is cleaned up, unless a name is defined in terms of itself. -/
theorem all_outcome (runs : site.Runs) (declarations : Declarations) (options : BuildOptions) :
    (∃ report after, all declarations options site = .ok report after ∧ site.Shrinks after) ∨
      ∃ name after, all declarations options site = .error (.cyclicDefinition name) after := by
  rw [all_eq]
  rcases relinkOutputs_outcome runs with ⟨_, relinked, relinks, first⟩ | ⟨_, after, refused, name, rfl⟩
  · obtain ⟨_, fewer, inputs, second⟩ :=
      ifChosen_shrinks first.runs options.pruneUnused (removeUnusedInputs_shrinks first.runs)
    obtain ⟨_, fed, outputs, third⟩ :=
      ifChosen_shrinks second.runs options.pruneUnused (removeUnusedOutputs_shrinks second.runs)
    obtain ⟨_, hidden, hides, fourth⟩ := hidePorts_shrinks third.runs declarations
    obtain ⟨_, merged, merges, fifth⟩ := mergeDuplicateInputs_ok fourth.runs
    obtain ⟨_, folded, folds, sixth⟩ :=
      ifChosen_shrinks fifth.runs options.foldConstants (foldConstants_shrinks fifth.runs)
    obtain ⟨set, sets, seventh⟩ := applyDefaults_shrinks sixth.runs declarations.defaults
    obtain ⟨ordered, orders, eighth⟩ := orderInputs_shrinks seventh.runs options.resequenceInputs
    rw [bind_of_ok relinks, bind_of_ok inputs, bind_of_ok outputs, bind_of_ok hides,
      bind_of_ok merges, bind_of_ok folds, bind_of_ok sets, bind_of_ok orders]
    exact .inl ⟨_, ordered, rfl, first.trans <| second.trans <| third.trans <| fourth.trans <|
      fifth.trans <| sixth.trans <| seventh.trans eighth⟩
  · exact .inr ⟨name, after, bind_of_error refused _⟩

end Cleanup

/-- A scope of a build in order is closed, unless a name is defined in terms of itself. -/
theorem Builder.Tidy.close_outcome {builder : Builder} (tidy : builder.Tidy) {scope : Scope}
    (tidy' : scope.Tidy builder.library []) :
    (∃ site, builder.close scope = .ok site ∧
      Site.Shrinks ⟨scope.graph, builder.library⟩ site) ∨
      ∃ name, builder.close scope = .error (.cyclicDefinition name) := by
  have runs : Site.Runs ⟨scope.graph, builder.library⟩ := ⟨tidy'.runnable, tidy.library⟩
  unfold Builder.close cleanUp EStateM.run
  rcases Cleanup.all_outcome runs scope.declarations builder.options with
    ⟨report, site, done, shrinks⟩ | ⟨name, site, refused⟩
  · exact .inl ⟨site, by rw [done]; rfl, shrinks⟩
  · exact .inr ⟨name, by rw [refused]; rfl⟩

end Shadeloom
