import Mathlib
import Shadeloom.Proofs.Build.Alignment
import Shadeloom.Proofs.Build.MergedInputs
import Shadeloom.Proofs.Build.MergeSteps
import Shadeloom.Proofs.Evaluation.Typing
import Shadeloom.Proofs.Evaluation.Unused
/-!
# Values when inputs are merged

Merging the inputs of an instance that are fed by the same output socket leaves all values as they
are, as long as the sockets have the same type: each of them reads the same then, so that what the
definition computes from both it computes from one. Sockets of different types read differently, and
it is the type of the first one that is kept.
-/
namespace Shadeloom

open Relation Machine

/-- The entries of a list of distinct keys without the one at a place. -/
theorem Table.get?_ofList_eraseIdx {κ β : Type} [DecidableEq κ] {entries : List (κ × β)}
    (distinct : (entries.map Prod.fst).Nodup) {place : Nat} {entry : κ × β}
    (here : entries[place]? = some entry) (key : κ) :
    (ofList (entries.eraseIdx place)).get? key =
      if key = entry.1 then none else (ofList entries).get? key := by
  have distinct' : ((entries.eraseIdx place).map Prod.fst).Nodup :=
    ((List.eraseIdx_sublist entries place).map Prod.fst).nodup distinct
  refine Option.ext fun value => ?_
  rw [get?_ofList distinct']
  split
  · rename_i same
    subst same
    simp only [List.mem_eraseIdx_iff_getElem?, reduceCtorEq, iff_false]
    rintro ⟨other, apart, there⟩
    have inside : other < (entries.map Prod.fst).length := by
      rw [List.length_map]
      exact (List.getElem?_eq_some_iff.1 there).1
    refine apart ((List.getElem?_inj inside distinct).1 ?_)
    rw [List.getElem?_map, List.getElem?_map, there, here]
    rfl
  · rename_i apart
    rw [get?_ofList distinct]
    refine ⟨fun mem => List.mem_of_mem_eraseIdx mem, fun mem => ?_⟩
    obtain ⟨other, there⟩ := List.mem_iff_getElem?.1 mem
    refine List.mem_eraseIdx_iff_getElem?.2 ⟨other, ?_, there⟩
    rintro rfl
    rw [here, Option.some.injEq] at there
    exact apart (congrArg Prod.fst there).symm

/-- Two lists side by side without what stands at a place. -/
theorem zip_eraseIdx {α β : Type} (left : List α) (right : List β) (place : Nat) :
    (left.eraseIdx place).zip (right.eraseIdx place) = (left.zip right).eraseIdx place := by
  refine List.ext_getElem? fun at_ => ?_
  rw [List.getElem?_eraseIdx]
  refine Option.ext fun pair => ?_
  rw [List.getElem?_zip_eq_some, List.getElem?_eraseIdx, List.getElem?_eraseIdx]
  split <;> rw [List.getElem?_zip_eq_some]

namespace Cleanup

/-- A group has as many instances as there are in the graph and in all definitions. -/
theorem useCount_eq (site : Site) (group : String) :
    useCount site group = instanceCount site.graph group +
      (site.library.values.map fun definition => instanceCount definition group).sum := by
  have sums (counts : List Nat) (start : Nat) :
      counts.foldl (fun count more => count + more) start = start + counts.sum := by
    induction counts generalizing start with
    | nil => rfl
    | cons count rest ih => rw [List.foldl_cons, ih, List.sum_cons, Nat.add_assoc]
  rw [← sums, List.foldl_map]
  rfl

/-- A graph that uses a group has an instance of it. -/
theorem instanceCount_pos_of_uses {graph : Graph} {group : String} (uses : graph.Uses group) :
    0 < instanceCount graph group := by
  obtain ⟨id, node, found, op⟩ := uses
  exact List.length_pos_of_mem (List.mem_filter.2
    ⟨Slots.mem_entries.2 found, NodeOp.isInstanceOf_iff.2 op⟩)

/-- No definition uses a group of which the graph has the only instance. -/
theorem not_uses_of_useCount {site : Site} {group : String} (once : useCount site group = 1)
    (uses : site.graph.Uses group) {other : String} {definition : Graph}
    (stored : site.library.get? other = some definition) : ¬ definition.Uses group := by
  intro inside
  have mem : definition ∈ site.library.values :=
    List.mem_map.2 ⟨(other, definition), Table.get?_eq_some_iff.1 stored, rfl⟩
  have counted := List.le_sum_of_mem (List.mem_map_of_mem
    (f := fun definition => instanceCount definition group) mem)
  have first := instanceCount_pos_of_uses uses
  have second := instanceCount_pos_of_uses inside
  rw [useCount_eq] at once
  omega

end Cleanup

/-- Under a valid valuation of a graph of standard layouts an output socket that is linked has a
value. -/
theorem Valued.exists_linked {setting : Setting} {supplied : Assignment}
    {valuation : Nat → List Value} (valued : Valued setting supplied valuation)
    (standard : setting.graph.Standard) {target source : Socket}
    (linked : setting.graph.source? target = some source) :
    ∃ value, (valuation source.node)[source.place]? = some value := by
  obtain ⟨sender, found, below⟩ := standard.hasOutput linked
  have types := types_evalNode (standard.layouts source.node sender found)
    (valued source.node sender found)
  have lengths := congrArg List.length types
  rw [List.length_map, List.length_map] at lengths
  rw [← lengths] at below
  exact ⟨_, List.getElem?_eq_getElem below⟩

namespace Graph

/-- What a node reads at a socket: what the socket is linked to, or else its default. -/
theorem getElem?_reads (graph : Graph) (valuation : Nat → List Value) (id : Nat) (node : Node)
    (place : Nat) : (graph.reads valuation id node)[place]? = node.inputs[place]?.map fun socket =>
      (((graph.source? ⟨id, place⟩).bind fun source =>
        (valuation source.node)[source.place]?).getD socket.default).convert socket.type := by
  unfold reads
  rw [List.getElem?_map, List.getElem?_zipIdx, Option.map_map, Nat.zero_add]
  rfl

/-- An instance reads what it read without the socket that is taken away. -/
theorem RemovesSocket.reads_instance {before after : Graph} {id place : Nat}
    (removes : RemovesSocket before after id place) (valuation : Nat → List Value) (node : Node) :
    after.reads valuation id { node with inputs := node.inputs.eraseIdx place } =
      (before.reads valuation id node).eraseIdx place := by
  refine List.ext_getElem? fun at_ => ?_
  rw [List.getElem?_eraseIdx, getElem?_reads, getElem?_reads, getElem?_reads, List.getElem?_eraseIdx]
  split
  · rename_i early
    rw [removes.source?_before early]
  · rename_i late
    rw [removes.source?_from (Nat.le_of_not_lt late)]

/-- Other nodes read what they read when a socket of an instance is taken away. -/
theorem RemovesSocket.reads_eq {before after : Graph} {id place : Nat}
    (removes : RemovesSocket before after id place) (valuation : Nat → List Value) {other : Nat}
    (apart : other ≠ id) (node : Node) :
    after.reads valuation other node = before.reads valuation other node := by
  unfold reads
  refine List.map_congr_left fun (socket, at_) _ => ?_
  dsimp only
  rw [removes.source?, if_neg fun both => apart both.1]

namespace Sound

variable {definition : Graph} {node : Node}

/-- A socket of an instance that matches its definition has the name and the type of the input at the
same place. -/
theorem exists_socket (sound : definition.Sound) (fits : node.MatchesInputs definition)
    {place input : Nat} (shown : (definition.exposedInputs.map Prod.snd)[place]? = some input) :
    ∃ socket inner port, node.inputs[place]? = some socket ∧ definition.node? input = some inner ∧
      inner.op = .input port ∧ socket.name = port.name ∧ socket.type = port.type := by
  rw [List.getElem?_map] at shown
  obtain ⟨entry, listed, rfl⟩ := Option.map_eq_some_iff.1 shown
  obtain ⟨inner, port, found, op, name⟩ :=
    sound.inputNamed entry (List.mem_filter.1 (List.mem_of_getElem? listed)).1
  have layouts := congrArg (fun layouts => layouts[place]?) fits
  rw [List.getElem?_map, List.getElem?_map, sound.getElem?_inputs_instanceNode, listed,
    Option.bind_some] at layouts
  simp only [inputSocket?, found, Option.map_some, op] at layouts
  obtain ⟨socket, here, layout⟩ := Option.map_eq_some_iff.1 layouts
  rw [InputSocket.layout, InputSocket.layout, Prod.mk.injEq] at layout
  exact ⟨socket, inner, port, here, found, op, layout.1.trans name.symm, layout.2⟩

/-- The sockets of an instance that matches its definition have the names of the inputs that are
shown. -/
theorem names_of_matchesInputs (sound : definition.Sound) (fits : node.MatchesInputs definition) :
    node.inputs.map InputSocket.name = definition.exposedInputs.map Prod.fst := by
  have names (sockets : List InputSocket) :
      sockets.map InputSocket.name = (sockets.map InputSocket.layout).map Prod.fst := by
    rw [List.map_map]
    rfl
  rw [names, fits, ← names, sound.inputs_instanceNode, List.map_map]
  refine List.map_congr_left fun entry mem => ?_
  obtain ⟨socket, here⟩ := Option.isSome_iff_exists.1 (sound.isSome_inputSocket? mem)
  rw [Function.comp_apply, here, Option.getD_some]
  unfold inputSocket? at here
  split at here <;> cases here
  rfl

/-- The sockets of an instance that matches its definition have different names. -/
theorem nodup_names (sound : definition.Sound) (fits : node.MatchesInputs definition) :
    (node.inputs.map InputSocket.name).Nodup := by
  rw [sound.names_of_matchesInputs fits]
  exact (List.filter_sublist.map Prod.fst).nodup definition.inputs.distinct

end Sound

end Graph

/-- Whether the sockets of a node that are fed by the same output socket have the same type. -/
def Graph.FeedsOneType (graph : Graph) (id : Nat) (node : Node) : Prop :=
  ∀ a b source left right, graph.source? ⟨id, a⟩ = some source →
    graph.source? ⟨id, b⟩ = some source → node.inputs[a]? = some left →
      node.inputs[b]? = some right → left.type = right.type

/-- Whether the graph and the definitions of a site are well made, and each instance that is the only
one of its group matches the definition and has sockets of one type where it is fed by one output
socket. -/
structure Site.Mergeable (site : Site) : Prop where
  graph : site.graph.WellMade
  definitions : ∀ group definition, site.library.get? group = some definition →
    definition.WellMade
  fits : ∀ id node group definition, site.graph.node? id = some node → node.op = .group group →
    Cleanup.useCount site group = 1 → site.library.get? group = some definition →
      node.MatchesInputs definition
  types : ∀ id node group, site.graph.node? id = some node → node.op = .group group →
    Cleanup.useCount site group = 1 → site.graph.FeedsOneType id node

/-- The definitions of a site where inputs can be merged are sound. -/
theorem Site.Mergeable.sound {site : Site} (mergeable : site.Mergeable) (name : String)
    (definition : Graph) (stored : site.library.get? name = some definition) : definition.Sound :=
  (mergeable.definitions name definition stored).toSound

namespace Site.MergesSockets

variable {before after : Site} {id : Nat} {group : String} {places : Nat × Nat} {node : Node}
  {definition merged : Graph}
  (step : before.MergesSockets after id group places node definition merged)
include step

/-- A merge changes the definition of a group that no definition uses. -/
theorem differUnused : before.library.DifferUnused after.library group where
  others other apart := by
    rw [step.library, Table.get?_insert, if_neg (Ne.symm apart)]
  unused _ _ _ stored :=
    Cleanup.not_uses_of_useCount step.once ⟨id, node, step.found, step.op⟩ stored

/-- The instance has lost its socket. -/
theorem node?_id :
    after.graph.node? id = some { node with inputs := node.inputs.eraseIdx places.2 } := by
  obtain ⟨node', found, node?⟩ := step.removes.node?
  rw [step.found, Option.some.injEq] at found
  rw [node?, if_pos rfl, found]

/-- All other nodes are as they were. -/
theorem node?_of_ne {other : Nat} (apart : other ≠ id) :
    after.graph.node? other = before.graph.node? other := by
  obtain ⟨_, -, node?⟩ := step.removes.node?
  rw [node?, if_neg (Ne.symm apart)]

section

variable (mergeable : before.Mergeable) {valuation : Nat → List Value}
  (linked : ∀ target source, before.graph.source? target = some source →
    ∃ value, (valuation source.node)[source.place]? = some value)
include mergeable linked

/-- Where all that is linked has a value, the instance gives both inputs the same value, and gives
the others what it gave when the one is gone. -/
theorem exists_alike : ∃ kept dropped keptPort droppedPort value,
    definition.MergesInput merged kept dropped ∧
    definition.GivesAlike (.ofList ((node.inputs.map InputSocket.name).zip
      (before.graph.reads valuation id node))) kept dropped keptPort droppedPort value ∧
    ∀ name, (Table.ofList (((node.inputs.eraseIdx places.2).map InputSocket.name).zip
        ((before.graph.reads valuation id node).eraseIdx places.2))).get? name =
      if name = droppedPort.name then none
      else (Table.ofList ((node.inputs.map InputSocket.name).zip
        (before.graph.reads valuation id node))).get? name := by
  obtain ⟨kept, dropped, keeps, drops, merges⟩ := step.merges
  obtain ⟨source, first, second⟩ := step.fed
  obtain ⟨fed, known⟩ := linked _ _ first
  have made := mergeable.definitions group definition step.stored
  have fits := mergeable.fits id node group definition step.found step.op step.once step.stored
  obtain ⟨left, keptNode, keptPort, here, keptFound, keptOp, keptName, keptType⟩ :=
    made.exists_socket fits keeps
  obtain ⟨right, droppedNode, droppedPort, there, droppedFound, droppedOp, droppedName, droppedType⟩ :=
    made.exists_socket fits drops
  have type := mergeable.types id node group step.found step.op step.once _ _ source left right first
    second here there
  -- Both sockets read what feeds them, converted to their type.
  have reads (place : Nat) (socket : InputSocket) (here : node.inputs[place]? = some socket)
      (links : before.graph.source? ⟨id, place⟩ = some source) :
      ((node.inputs.map InputSocket.name).zip (before.graph.reads valuation id node))[place]? =
        some (socket.name, fed.convert socket.type) := by
    rw [List.getElem?_zip_eq_some, List.getElem?_map, here, Graph.getElem?_reads, here, links,
      Option.bind_some, known]
    exact ⟨rfl, rfl⟩
  have distinct : (((node.inputs.map InputSocket.name).zip
      (before.graph.reads valuation id node)).map Prod.fst).Nodup := by
    rw [List.map_fst_zip (by simp [Graph.reads])]
    exact made.nodup_names fits
  refine ⟨kept, dropped, keptPort, droppedPort, fed.convert droppedPort.type, merges,
    ⟨⟨keptNode, keptFound, keptOp⟩, ⟨droppedNode, droppedFound, droppedOp⟩, ?_, ?_, ?_⟩,
    fun name => ?_⟩
  · rw [← keptType, ← droppedType, type]
  · rw [Table.get?_ofList distinct, ← keptName, ← droppedType, ← type]
    exact List.mem_of_getElem? (reads _ left here first)
  · rw [Table.get?_ofList distinct, ← droppedName, ← droppedType]
    exact List.mem_of_getElem? (reads _ right there second)
  · rw [← List.eraseIdx_map, zip_eraseIdx,
      Table.get?_ofList_eraseIdx distinct (reads _ right there second), droppedName]

/-- The instance computes what it computed, if its group is nested within the limit, and otherwise
nothing before and after. -/
theorem evalInstance_iff (config : EvalConfig) (depth : Nat) (produced : List Value) :
    evalInstance ⟨before.graph, before.library, config, nestedWithin before.library config depth⟩ id
        node group (before.graph.reads valuation id node) = .ok produced ↔
      evalInstance ⟨after.graph, after.library, config, nestedWithin after.library config depth⟩ id
        { node with inputs := node.inputs.eraseIdx places.2 } group
        ((before.graph.reads valuation id node).eraseIdx places.2) = .ok produced := by
  obtain ⟨kept, dropped, keptPort, droppedPort, value, merges, alike, left⟩ :=
    step.exists_alike mergeable linked
  have made := mergeable.definitions group definition step.stored
  have stored : after.library.get? group = some merged := by
    rw [step.library, Table.get?_insert, if_pos rfl]
  cases depth with
  | zero => simp only [evalInstance, nestedWithin, reduceCtorEq]
  | succ depth =>
    have unused : ¬ definition.Uses group := Cleanup.not_uses_of_useCount step.once
      ⟨id, node, step.found, step.op⟩ step.stored
    have concur := merges.concur
      ⟨after.graph, after.library, config, nestedWithin after.library config depth⟩ made alike left
    simp only [evalInstance, nestedWithin, step.stored, stored,
      step.differUnused.evaluate_eq config depth unused]
    generalize Setting.evaluate _ _ = outputs at concur ⊢
    generalize Setting.evaluate _ _ = outputs' at concur ⊢
    cases concur with
    | refused => simp only [Bind.bind, Except.bind, reduceCtorEq]
    | done same => simp only [Bind.bind, Except.bind, same _]

/-- A node computes after a merge what it computed before it. -/
theorem evalNode_iff (config : EvalConfig) (depth : Nat) (supplied : Assignment) {other : Nat}
    {old new : Node} (found : before.graph.node? other = some old)
    (found' : after.graph.node? other = some new) (produced : List Value) :
    evalNode ⟨before.graph, before.library, config, nestedWithin before.library config depth⟩
        supplied other old (before.graph.reads valuation other old) = .ok produced ↔
      evalNode ⟨after.graph, after.library, config, nestedWithin after.library config depth⟩
        supplied other new (after.graph.reads valuation other new) = .ok produced := by
  by_cases same : other = id
  · subst same
    rw [step.found, Option.some.injEq] at found
    rw [step.node?_id, Option.some.injEq] at found'
    subst found found'
    rw [step.removes.reads_instance]
    unfold evalNode
    simp only [step.op]
    exact step.evalInstance_iff mergeable linked config depth produced
  · rw [step.node?_of_ne same, found, Option.some.injEq] at found'
    subst found'
    rw [step.removes.reads_eq valuation same]
    cases depth with
    | zero =>
      unfold evalNode
      split <;> exact Iff.rfl
    | succ depth =>
      have apart : old.op ≠ .group group := fun op => same
        (Cleanup.eq_of_useCount step.once (Cleanup.mem_instances.2 ⟨old, found, op⟩)
          (Cleanup.mem_instances.2 ⟨node, step.found, step.op⟩))
      have equal : evalNode ⟨before.graph, before.library, config,
            nestedWithin before.library config (depth + 1)⟩ supplied other old
            (before.graph.reads valuation other old) =
          evalNode ⟨after.graph, after.library, config,
            nestedWithin after.library config (depth + 1)⟩ supplied other old
            (before.graph.reads valuation other old) :=
        step.differUnused.evalNode (fun _ definition' supplied' apart' stored =>
          step.differUnused.evaluate_eq config depth
            (step.differUnused.unused _ definition' apart' stored) supplied') apart _ _
      rw [equal]

end

/-- What is delivered does not depend on the socket of an instance. -/
theorem delivers_iff (valuation : Nat → List Value) (name : String) (value : Value) :
    before.graph.Delivers valuation name value ↔ after.graph.Delivers valuation name value := by
  refine exists_congr fun other => ?_
  by_cases same : other = id
  · subst same
    rw [Graph.delivery?_eq_none, Graph.delivery?_eq_none]
    · intro new found port op
      rw [step.node?_id, Option.some.injEq] at found
      rw [← found, step.op] at op
      cases op
    · intro old found port op
      rw [step.found, Option.some.injEq] at found
      rw [← found, step.op] at op
      cases op
  · simp only [Graph.delivery?, Graph.shownOutput?, step.node?_of_ne same,
      step.removes.reads_eq valuation same]

/-- The inputs of the graph are as they were. -/
theorem admits_iff {config : EvalConfig} {nested nested' : Option Evaluator}
    {supplied : Assignment} :
    Setting.Admits ⟨before.graph, before.library, config, nested⟩ supplied ↔
      Setting.Admits ⟨after.graph, after.library, config, nested'⟩ supplied := by
  have exposed (other : Nat) : after.graph.isExposed other = before.graph.isExposed other := by
    by_cases same : other = id
    · subst same
      rw [Graph.isExposed, Graph.isExposed, step.node?_id, step.found]
      rfl
    · rw [Graph.isExposed, Graph.isExposed, step.node?_of_ne same]
  have shown : after.graph.exposedInputs = before.graph.exposedInputs := by
    simp only [Graph.exposedInputs, step.removes.inputs, exposed]
  have listed (name : String) : after.graph.input? name = before.graph.input? name := by
    rw [Graph.input?, Graph.input?, step.removes.inputs]
  constructor
  · rintro ⟨known, given⟩
    exact ⟨fun name here => (listed name).symm ▸ known name here,
      fun strict name mem => given strict name (shown ▸ mem)⟩
  · rintro ⟨known, given⟩
    exact ⟨fun name here => listed name ▸ known name here,
      fun strict name mem => given strict name (shown.symm ▸ mem)⟩

/-- The graph stays well made. -/
theorem wellMade (made : before.graph.WellMade) : after.graph.WellMade where
  toSound := step.removes.sound
  layouts other new found := by
    by_cases same : other = id
    · subst same
      rw [step.node?_id, Option.some.injEq] at found
      rw [← found]
      exact Node.standard_of_group step.op
    · rw [step.node?_of_ne same] at found
      exact made.layouts other new found
  listed other new port found op := by
    rw [Graph.input?, step.removes.inputs]
    by_cases same : other = id
    · subst same
      rw [step.node?_id, Option.some.injEq] at found
      rw [← found, step.op] at op
      cases op
    · rw [step.node?_of_ne same] at found
      exact made.listed other new port found op
  acyclic := made.acyclic.mono fun a b => by
    rintro ⟨source, target, linked, rfl, rfl⟩
    obtain ⟨place, linked⟩ := step.removes.exists_linked linked
    exact ⟨source, _, linked, rfl, rfl⟩
  apart a b shown shown' here there := by
    have same (other : Nat) (shown : Node × OutputPort)
        (here : after.graph.shownOutput? other = some shown) :
        before.graph.shownOutput? other = some shown := by
      obtain ⟨found, op, exposed⟩ := Graph.shownOutput?_eq_some_iff.1 here
      refine Graph.shownOutput?_eq_some_iff.2 ⟨?_, op, exposed⟩
      rw [← step.node?_of_ne, found]
      rintro rfl
      rw [step.node?_id, Option.some.injEq] at found
      rw [← found, step.op] at op
      cases op
    exact made.apart a b shown shown' (same a shown here) (same b shown' there)

/-- The instance still matches its definition. -/
theorem matchesInputs (sound : definition.Sound) (fits : node.MatchesInputs definition) :
    ({ node with inputs := node.inputs.eraseIdx places.2 } : Node).MatchesInputs merged := by
  obtain ⟨kept, dropped, -, drops, merges⟩ := step.merges
  have shown := merges.exposedInputs sound drops
  have sockets : merged.instanceNode.inputs = definition.instanceNode.inputs.eraseIdx places.2 := by
    rw [merges.sound.inputs_instanceNode, sound.inputs_instanceNode, List.eraseIdx_map, ← shown]
    refine List.map_congr_left fun entry mem => ?_
    have apart : entry.2 ≠ dropped := by
      intro gone
      obtain ⟨inner, port, found, -⟩ := merges.sound.inputNamed entry (List.mem_filter.1 mem).1
      rw [gone, merges.node?_dropped] at found
      cases found
    unfold Graph.inputSocket?
    rw [merges.node? apart]
  unfold Node.MatchesInputs
  rw [sockets, ← List.eraseIdx_map, ← List.eraseIdx_map]
  exact congrArg (fun layouts => layouts.eraseIdx places.2) fits

/-- As many instances use each group as before. -/
theorem useCount_eq (sound : before.graph.Sound)
    (definitions : ∀ name definition, before.library.get? name = some definition →
      definition.Sound) (other : String) :
    Cleanup.useCount after other = Cleanup.useCount before other := by
  obtain ⟨kept, dropped, -, -, merges⟩ := step.merges
  obtain ⟨source, first, second⟩ := step.fed
  exact (Cleanup.Site.merges_of_removes definitions step.stored step.library
    (Cleanup.lacksInput_of_merges (definitions group definition step.stored) merges)
    (step.removes.thins sound step.found step.op step.order (first.trans second.symm))
    step.removes).useCount other

/-- After a merge the inputs of instances can still be merged. -/
theorem mergeable (mergeable : before.Mergeable) : after.Mergeable where
  graph := step.wellMade mergeable.graph
  definitions other definition' stored := by
    obtain ⟨kept, dropped, -, -, merges⟩ := step.merges
    rw [step.library, Table.get?_insert] at stored
    split at stored
    · cases stored
      exact merges.wellMade (mergeable.definitions group definition step.stored)
    · exact mergeable.definitions other definition' stored
  fits other new group' definition' found op once stored := by
    rw [step.useCount_eq mergeable.graph.toSound mergeable.sound] at once
    rw [step.library, Table.get?_insert] at stored
    by_cases same : other = id
    · subst same
      rw [step.node?_id, Option.some.injEq] at found
      subst found
      have equal : group = group' := NodeOp.group.inj (step.op.symm.trans op)
      rw [if_pos equal, Option.some.injEq] at stored
      subst stored
      exact step.matchesInputs (mergeable.definitions group definition step.stored).toSound
        (mergeable.fits other node group definition step.found step.op step.once step.stored)
    · rw [step.node?_of_ne same] at found
      have apart : group ≠ group' := by
        rintro rfl
        exact same (Cleanup.eq_of_useCount once (Cleanup.mem_instances.2 ⟨new, found, op⟩)
          (Cleanup.mem_instances.2 ⟨node, step.found, step.op⟩))
      rw [if_neg apart] at stored
      exact mergeable.fits other new group' definition' found op once stored
  types other new group' found op once := by
    rw [step.useCount_eq mergeable.graph.toSound mergeable.sound] at once
    by_cases same : other = id
    · subst same
      rw [step.node?_id, Option.some.injEq] at found
      subst found
      have old := mergeable.types other node group step.found step.op step.once
      -- Each socket that is left stood at the same place or one below.
      have stood (place : Nat) : ∃ place', after.graph.source? ⟨other, place⟩ =
          before.graph.source? ⟨other, place'⟩ ∧
            (node.inputs.eraseIdx places.2)[place]? = node.inputs[place']? := by
        rw [List.getElem?_eraseIdx]
        split
        · rename_i early
          exact ⟨place, step.removes.source?_before early, rfl⟩
        · rename_i late
          exact ⟨place + 1, step.removes.source?_from (Nat.le_of_not_lt late), rfl⟩
      intro a b source left right first second here there
      obtain ⟨a', source?, socket⟩ := stood a
      obtain ⟨b', source?', socket'⟩ := stood b
      exact old a' b' source left right (source? ▸ first) (source?' ▸ second)
        (socket ▸ here) (socket' ▸ there)
    · rw [step.node?_of_ne same] at found
      intro a b source left right first second
      rw [step.removes.source?, if_neg fun both => same both.1] at first second
      exact mergeable.types other new group' found op once a b source left right first second

/-- A graph evaluates to the same before and after a merge. -/
theorem concur (mergeable : before.Mergeable) (config : EvalConfig) (supplied : Assignment) :
    Concur Assignment.Equal (evaluate before.graph before.library config supplied)
      (evaluate after.graph after.library config supplied) := by
  have made := step.wellMade mergeable.graph
  have isSome (other : Nat) :
      (after.graph.node? other).isSome = (before.graph.node? other).isSome := by
    by_cases same : other = id
    · rw [same, step.node?_id, step.found]
      rfl
    · rw [step.node?_of_ne same]
  refine Setting.concur_of_valued mergeable.graph.orderable made.orderable step.admits_iff
    (fun valuation valued => ⟨valuation, fun other new found' => ?_, step.delivers_iff valuation⟩)
    fun valuation valued => ⟨valuation, fun other old found => ?_⟩
  · have linked (target source : Socket)
        (links : before.graph.source? target = some source) :=
      valued.exists_linked mergeable.graph.toStandard links
    obtain ⟨old, found⟩ := Option.isSome_iff_exists.1
      ((isSome other).symm.trans (Option.isSome_iff_exists.2 ⟨new, found'⟩))
    exact (step.evalNode_iff mergeable linked config _ supplied found found' _).1
      (valued other old found)
  · have linked (target source : Socket)
        (links : before.graph.source? target = some source) :
        ∃ value, (valuation source.node)[source.place]? = some value := by
      -- What fed the socket that is gone feeds the one that was fed alike.
      obtain ⟨fed, first, second⟩ := step.fed
      obtain ⟨target', links'⟩ :=
        step.removes.exists_still_linked step.order (first.trans second.symm) links
      exact valued.exists_linked made.toStandard links'
    obtain ⟨new, found'⟩ := Option.isSome_iff_exists.1
      ((isSome other).trans (Option.isSome_iff_exists.2 ⟨old, found⟩))
    exact (step.evalNode_iff mergeable linked config _ supplied found found' _).2
      (valued other new found')

end Site.MergesSockets

/-- Merging the inputs of all instances leaves all values as they are, where sockets of an instance
that are fed by the same output socket have the same type: a graph of standard layouts without cycles,
with such definitions and with instances that match them, evaluates to the same before and after. -/
theorem Cleanup.mergeDuplicateInputs_concurs {site : Site} (mergeable : site.Mergeable) :
    ∃ total after, mergeDuplicateInputs site = .ok total after ∧ after.Mergeable ∧
      ∀ config supplied, Concur Assignment.Equal
        (evaluate site.graph site.library config supplied)
        (evaluate after.graph after.library config supplied) := by
  obtain ⟨total, after, done, -⟩ :=
    mergeDuplicateInputs_aligns mergeable.graph.toSound mergeable.sound
  refine ⟨total, after, done, mergeDuplicateInputs_carries
    (fun now => now.Mergeable ∧ ∀ config supplied, Concur Assignment.Equal
      (evaluate site.graph site.library config supplied)
      (evaluate now.graph now.library config supplied))
    (fun now later both step => ?_) mergeable.graph.toSound mergeable.sound done
    ⟨mergeable, fun config supplied => ?_⟩⟩
  · obtain ⟨id, group, places, node, definition, merged, step⟩ := step
    refine ⟨step.mergeable both.1, fun config supplied => ?_⟩
    exact (both.2 config supplied).trans (step.concur both.1 config supplied)
      fun first middle last early late name => (early name).trans (late name)
  · exact .of_forth_back (fun outputs done => ⟨outputs, done, fun name => rfl⟩)
      fun outputs done => ⟨outputs, done⟩

/-- The inputs of the instance that squares its input can be merged. -/
theorem Site.mergeable_square : Site.square.Mergeable := by
  have only {group : String} {definition : Graph}
      (stored : Site.square.library.get? group = some definition) :
      group = "g" ∧ definition = .outerProduct := by
    unfold Site.square at stored
    rw [Table.get?_ofList (by simp)] at stored
    simpa using stored
  have scalars : ∀ entry ∈ Graph.square.nodes.entries, entry.2.op.kind = .groupInstance →
      entry.2.inputs.map InputSocket.layout =
        Graph.outerProduct.instanceNode.inputs.map InputSocket.layout ∧
      ∀ socket ∈ entry.2.inputs, socket.type = .scalar := by decide +kernel
  have standard : Graph.square.Standard := Edit.made_standard _ _
  have standard' : Graph.outerProduct.Standard := Edit.made_standard _ _
  refine ⟨⟨standard, standard.acyclic_of_ascending (by decide +kernel),
    Graph.nodup_shownNames_iff.1 (by decide +kernel)⟩, fun group definition stored => ?_,
    fun id node group definition found op once stored => ?_,
    fun id node group found op once a b source left right first second here there => ?_⟩
  · rw [(only stored).2]
    exact ⟨standard', standard'.acyclic_of_ascending (by decide +kernel),
      Graph.nodup_shownNames_iff.1 (by decide +kernel)⟩
  · rw [(only stored).2]
    exact (scalars (id, node) (Slots.mem_entries.2 found) (by rw [op]; rfl)).1
  · have all := (scalars (id, node) (Slots.mem_entries.2 found) (by rw [op]; rfl)).2
    rw [all left (List.mem_of_getElem? here), all right (List.mem_of_getElem? there)]

end Shadeloom
