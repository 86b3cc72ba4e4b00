import Mathlib
import Shadeloom.Proofs.Evaluation.Valuation
import Shadeloom.Proofs.Graph.Runnable
/-!
# Graphs that serve for others

A graph serves for another one when its valid valuations are those of the other graph, on the nodes
that it still has, and it delivers what the other one does through the outputs that it shows. Both
evaluate then, or neither does, and the shown outputs are the same.
-/
namespace Shadeloom

open Machine

/-- Whether a node can be taken for another one: it is a port, an input of the same name or a
constant only if the other node is, and it has as many output sockets. -/
structure Node.Resembles (new old : Node) : Prop where
  input : ∀ port, new.op = .input port → ∃ port', old.op = .input port' ∧ port'.name = port.name
  output : ∀ port, new.op = .output port → ∃ port', old.op = .output port'
  constant : ∀ value, new.op = .constant value → old.op = .constant value
  outputs : new.outputs.length = old.outputs.length

/-- A node of the same operation with the same output sockets can be taken for another one. -/
theorem Node.resembles_of_op {new old : Node} (op : new.op = old.op)
    (outputs : new.outputs = old.outputs) : new.Resembles old where
  input port same := ⟨port, op ▸ same, rfl⟩
  output port same := ⟨port, op ▸ same⟩
  constant _ same := op ▸ same
  outputs := congrArg List.length outputs

/-- Whether the names of an assignment are those of inputs, and all inputs that are shown are given
where they have to be. -/
structure Setting.Admits (setting : Setting) (supplied : Assignment) : Prop where
  known : ∀ name, supplied.contains name = true → (setting.graph.input? name).isSome = true
  given : setting.config.requireInputs = true →
    ∀ name ∈ setting.graph.exposedInputs.map Prod.fst, supplied.contains name = true

/-- An assignment is admitted if an order of evaluation is found for it. -/
theorem Machine.admits_of_prepare {setting : Setting} {supplied : Assignment} {ids : List Nat}
    (ready : prepare setting supplied = .ok ids) : setting.Admits supplied := by
  unfold prepare at ready
  have unknown : supplied.keys.find? (fun name => (setting.graph.input? name).isNone) = none := by
    cases found : supplied.keys.find? fun name => (setting.graph.input? name).isNone with
    | none => rfl
    | some name =>
      rw [found] at ready
      cases ready
  refine ⟨fun name here => ?_, fun strict name mem => ?_⟩
  · simpa [Option.isSome_iff_ne_none] using
      List.find?_eq_none.1 unknown name (Table.contains_iff_mem.1 here)
  · have missing : setting.graph.exposedInputs.find? (fun entry => !supplied.contains entry.1) =
        none := by
      cases found : setting.graph.exposedInputs.find? fun entry => !supplied.contains entry.1 with
      | none => rfl
      | some entry =>
        rw [unknown, if_pos strict, found] at ready
        cases ready
    obtain ⟨entry, listed, rfl⟩ := List.mem_map.1 mem
    simpa using List.find?_eq_none.1 missing entry listed

/-- An assignment is admitted if it is evaluated. -/
theorem Setting.admits_of_evaluate {setting : Setting} {supplied outputs : Assignment}
    (done : setting.evaluate supplied = .ok outputs) : setting.Admits supplied := by
  rw [Setting.evaluate_eq] at done
  obtain ⟨ids, ready, -⟩ := bind_eq_ok_iff.1 done
  exact admits_of_prepare ready

namespace Graph

/-- Whether all inputs of a graph are listed under their names, all its outputs are listed and fed,
and all its constants have one output socket. -/
structure IsWired (graph : Graph) : Prop where
  input : ∀ id node port, graph.node? id = some node → node.op = .input port →
    graph.input? port.name = some id
  output : ∀ id node port, graph.node? id = some node → node.op = .output port →
    id ∈ graph.outputs ∧ (graph.source? ⟨id, 0⟩).isSome = true
  constant : ∀ id node value, graph.node? id = some node → node.op = .constant value →
    node.outputs.length = 1

/-- A graph stays wired when its nodes can be taken for those before, its ports are listed as before
and its outputs are still fed. -/
theorem IsWired.of_nodes {before after : Graph} (wired : before.IsWired)
    (nodes : ∀ id new, after.node? id = some new →
      ∃ old, before.node? id = some old ∧ new.Resembles old)
    (input? : ∀ name, after.input? name = before.input? name)
    (outputs : after.outputs = before.outputs)
    (fed : ∀ id node port, before.node? id = some node → node.op = .output port →
      (after.source? ⟨id, 0⟩).isSome = (before.source? ⟨id, 0⟩).isSome) : after.IsWired where
  input id new port found op := by
    obtain ⟨old, found', same⟩ := nodes id new found
    obtain ⟨port', op', name⟩ := same.input port op
    rw [input?, ← name]
    exact wired.input id old port' found' op'
  output id new port found op := by
    obtain ⟨old, found', same⟩ := nodes id new found
    obtain ⟨port', op'⟩ := same.output port op
    rw [outputs, fed id old port' found' op']
    exact wired.output id old port' found' op'
  constant id new value found op := by
    obtain ⟨old, found', same⟩ := nodes id new found
    exact same.outputs.trans (wired.constant id old value found' (same.constant value op))

/-- The values of an assignment for the inputs that a graph has. -/
def accepted (graph : Graph) (supplied : Assignment) : Assignment :=
  supplied.filter fun name _ => (graph.input? name).isSome

/-- What is accepted of an assignment is for inputs. -/
theorem contains_accepted {graph : Graph} {supplied : Assignment} {name : String} :
    (graph.accepted supplied).contains name = true ↔
      supplied.contains name = true ∧ (graph.input? name).isSome = true := by
  unfold accepted
  rw [← Table.isSome_get?, ← Table.isSome_get?, Table.get?_filter]
  cases supplied.get? name <;> simp

/-- An input that is shown is listed under its name. -/
theorem isSome_input?_of_exposed {graph : Graph} {name : String}
    (exposed : name ∈ graph.exposedInputs.map Prod.fst) : (graph.input? name).isSome = true := by
  obtain ⟨entry, listed, rfl⟩ := List.mem_map.1 exposed
  exact Option.isSome_iff_exists.2
    ⟨entry.2, Table.get?_eq_some_iff.2 (List.mem_filter.1 listed).1⟩

/-- Whether a graph can stand for another one: what it computes for an assignment is what the other
one computes, and it shows some of the outputs. -/
structure Serves (setting : Setting) (supplied : Assignment) (shows : String → Bool)
    (before after : Graph) : Prop where
  nodes : ∀ id, (after.node? id).isSome = true → (before.node? id).isSome = true
  inputs : ∀ name, (after.input? name).isSome = true → (before.input? name).isSome = true
  forth : ∀ valuation, Valued { setting with graph := before } supplied valuation →
    Valued { setting with graph := after } supplied valuation
  back : ∀ valuation, Valued { setting with graph := after } supplied valuation →
    ∃ valuation', Valued { setting with graph := before } supplied valuation' ∧
      ∀ id, (after.node? id).isSome = true → valuation' id = valuation id
  delivery : ∀ valuation id, after.delivery? valuation id =
    (before.delivery? valuation id).filter fun entry => shows entry.1

section

variable {setting : Setting} {supplied : Assignment} {shows shows' : String → Bool}
  {before between after : Graph}

/-- A node that is no output delivers nothing. -/
theorem delivery?_eq_none {graph : Graph} {id : Nat}
    (plain : ∀ node, graph.node? id = some node → ∀ port, node.op ≠ .output port)
    (valuation : Nat → List Value) : graph.delivery? valuation id = none := by
  unfold delivery?
  rw [Option.map_eq_none_iff, Option.eq_none_iff_forall_not_mem]
  rintro ⟨node, port⟩ shown
  obtain ⟨found, op, -⟩ := shownOutput?_eq_some_iff.1 shown
  exact plain node found port op

/-- What passes any test stays. -/
theorem filter_true {α : Type} (o : Option α) : o.filter (fun _ => true) = o := by
  cases o <;> rfl

/-- A graph serves for itself. -/
theorem Serves.refl (graph : Graph) : graph.Serves setting supplied (fun _ => true) graph where
  nodes _ here := here
  inputs _ here := here
  forth _ valued := valued
  back valuation valued := ⟨valuation, valued, fun _ _ => rfl⟩
  delivery _ _ := (filter_true _).symm

/-- A graph serves for every graph that one serves for which it serves for. -/
theorem Serves.trans (early : before.Serves setting supplied shows between)
    (late : between.Serves setting supplied shows' after) :
    before.Serves setting supplied (fun name => shows name && shows' name) after where
  nodes id here := early.nodes id (late.nodes id here)
  inputs name here := early.inputs name (late.inputs name here)
  forth valuation valued := late.forth valuation (early.forth valuation valued)
  back valuation valued := by
    obtain ⟨valuation', valued', same'⟩ := late.back valuation valued
    obtain ⟨valuation'', valued'', same''⟩ := early.back valuation' valued'
    exact ⟨valuation'', valued'', fun id here =>
      (same'' id (late.nodes id here)).trans (same' id here)⟩
  delivery valuation id := by
    rw [late.delivery, early.delivery, Option.filter_filter]

/-- A graph of the same nodes serves for another one if each node computes the same, whatever
valuation is valid for one of them. -/
theorem serves_of_agree
    (nodes : ∀ id, (after.node? id).isSome = (before.node? id).isSome)
    (inputs : ∀ name, (after.input? name).isSome = true → (before.input? name).isSome = true)
    (agree : ∀ valuation, (Valued { setting with graph := before } supplied valuation ∨
        Valued { setting with graph := after } supplied valuation) →
      ∀ id node node', before.node? id = some node → after.node? id = some node' →
        evalNode setting supplied id node' (after.reads valuation id node') =
          evalNode setting supplied id node (before.reads valuation id node))
    (delivery : ∀ valuation id, after.delivery? valuation id =
      (before.delivery? valuation id).filter fun entry => shows entry.1) :
    before.Serves setting supplied shows after where
  nodes id here := nodes id ▸ here
  inputs := inputs
  forth valuation valued id node' found' := by
    obtain ⟨node, found⟩ :=
      Option.isSome_iff_exists.1 ((nodes id).symm.trans (Option.isSome_iff_exists.2 ⟨_, found'⟩))
    exact (agree valuation (.inl valued) id node node' found found').trans (valued id node found)
  back valuation valued := by
    refine ⟨valuation, fun id node found => ?_, fun _ _ => rfl⟩
    obtain ⟨node', found'⟩ :=
      Option.isSome_iff_exists.1 ((nodes id).trans (Option.isSome_iff_exists.2 ⟨_, found⟩))
    exact (agree valuation (.inr valued) id node node' found found').symm.trans
      (valued id node' found')
  delivery := delivery

/-- What takes a node away that leads nowhere leaves all other nodes with what they read. -/
theorem Removes.stays {id : Nat} (removes : Removes before after id) (idle : before.Idle id) :
    (∀ other node, after.node? other = some node ↔ id ≠ other ∧ before.node? other = some node) ∧
      (∀ other place, id ≠ other → after.source? ⟨other, place⟩ = before.source? ⟨other, place⟩) ∧
        ∀ name other, after.input? name = some other ↔ before.input? name = some other ∧ other ≠ id := by
  refine ⟨fun other node => ?_, fun other place apart => ?_, fun name other => ?_⟩
  · rw [removes.node?]
    split
    · rename_i same
      simp [same]
    · rename_i apart
      simp [apart]
  · rw [removes.source?, if_neg (Ne.symm apart)]
    cases linked : before.source? ⟨other, place⟩ with
    | none => rfl
    | some source => simp [idle _ _ linked]
  · unfold Graph.input?
    rw [removes.inputs, Table.get?_filter, Option.filter_eq_some_iff]
    simp

/-- A wired graph stays so when a node goes that leads nowhere. -/
theorem IsWired.removes (wired : before.IsWired) {id : Nat} (idle : before.Idle id)
    (removes : Removes before after id) : after.IsWired := by
  obtain ⟨node?, source?, input?⟩ := removes.stays idle
  refine ⟨fun other node port here op => ?_, fun other node port here op => ?_,
    fun other node value here op => ?_⟩
  · obtain ⟨apart, here⟩ := (node? other node).1 here
    exact (input? _ _).2 ⟨wired.input other node port here op, Ne.symm apart⟩
  · obtain ⟨apart, here⟩ := (node? other node).1 here
    obtain ⟨listed, fed⟩ := wired.output other node port here op
    rw [source? other 0 apart, removes.outputs]
    exact ⟨List.mem_filter.2 ⟨listed, by simpa using Ne.symm apart⟩, fed⟩
  · exact wired.constant other node value ((node? other node).1 here).2 op

/-- A graph shows all outputs but one of a graph that it serves for and that has a node more, if this
node leads nowhere, can be evaluated whatever it reads, and is this output or none that is shown. -/
theorem serves_of_removes_unshown {id : Nat} {node : Node} (found : before.node? id = some node)
    (idle : before.Idle id) (removes : Removes before after id)
    (unshown : ∀ port, node.op = .output port → port.exposed = true → shows port.name = false)
    (shown : ∀ other node' port, id ≠ other → before.shownOutput? other = some (node', port) →
      shows port.name = true)
    (steady : ∀ inputs, ∃ produced, evalNode setting supplied id node inputs = .ok produced) :
    before.Serves setting supplied shows after := by
  obtain ⟨node?, source?, input?⟩ := removes.stays idle
  have reads (valuation : Nat → List Value) {other : Nat} (apart : id ≠ other) (node' : Node) :
      after.reads valuation other node' = before.reads valuation other node' := by
    unfold Graph.reads
    exact List.map_congr_left fun (socket, place) _ => by simp only [source? _ _ apart]
  refine ⟨fun other here => ?_, fun name here => ?_, fun valuation valued other node' here => ?_,
    fun valuation valued => ?_, fun valuation other => ?_⟩
  · obtain ⟨node', here⟩ := Option.isSome_iff_exists.1 here
    exact Option.isSome_iff_exists.2 ⟨node', ((node? other node').1 here).2⟩
  · obtain ⟨other, here⟩ := Option.isSome_iff_exists.1 here
    exact Option.isSome_iff_exists.2 ⟨other, ((input? name other).1 here).1⟩
  · obtain ⟨apart, here⟩ := (node? other node').1 here
    have same := valued other node' here
    rw [← same]
    exact congrArg _ (reads valuation apart node')
  · obtain ⟨produced, computed⟩ := steady (before.reads valuation id node)
    have unread (other : Nat) (node' : Node) :
        before.reads (fun other => if other = id then produced else valuation other) other node' =
          before.reads valuation other node' := by
      refine reads_congr node' fun place source linked => if_neg ?_
      exact idle _ _ linked
    refine ⟨fun other => if other = id then produced else valuation other,
      fun other node' here => ?_, fun other here => if_neg ?_⟩
    · show evalNode _ supplied other node' (before.reads _ other node') = _
      rw [unread]
      dsimp only
      split
      · rename_i same
        subst same
        rw [found, Option.some.injEq] at here
        rw [← here]
        exact computed
      · rename_i apart
        rw [← reads valuation (Ne.symm apart)]
        exact valued other node' ((node? other node').2 ⟨Ne.symm apart, here⟩)
    · obtain ⟨node', here⟩ := Option.isSome_iff_exists.1 here
      exact Ne.symm ((node? other node').1 here).1
  · by_cases same : id = other
    · subst same
      rw [delivery?_eq_none fun node' here => absurd rfl ((node? id node').1 here).1, eq_comm,
        Option.filter_eq_none_iff]
      intro entry delivered
      obtain ⟨⟨node', port⟩, here, rfl⟩ := Option.map_eq_some_iff.1 delivered
      obtain ⟨here, op, exposed⟩ := shownOutput?_eq_some_iff.1 here
      rw [found, Option.some.injEq] at here
      simp [unshown port (here ▸ op) exposed]
    · have kept : after.delivery? valuation other = before.delivery? valuation other := by
        unfold delivery? shownOutput?
        rw [removes.node?, if_neg same]
        simp only [reads valuation same]
      rw [kept]
      refine Option.ext fun entry => ?_
      rw [Option.filter_eq_some_iff, iff_self_and]
      intro delivered
      obtain ⟨⟨node', port⟩, here, rfl⟩ := Option.map_eq_some_iff.1 delivered
      exact shown other node' port same here

/-- A graph serves for the one with a node more that leads nowhere, if this node can be evaluated
whatever it reads and is no output. -/
theorem serves_of_removes {id : Nat} {node : Node} (found : before.node? id = some node)
    (idle : before.Idle id) (removes : Removes before after id)
    (plain : ∀ port, node.op ≠ .output port)
    (steady : ∀ inputs, ∃ produced, evalNode setting supplied id node inputs = .ok produced) :
    before.Serves setting supplied (fun _ => true) after :=
  serves_of_removes_unshown found idle removes (fun port op _ => absurd op (plain port))
    (fun _ _ _ _ _ => rfl) steady

/-- What is accepted of an assignment is admitted if the inputs are given that have to be. -/
theorem admits_accepted {graph : Graph} (given : setting.config.requireInputs = true →
      ∀ name ∈ graph.exposedInputs.map Prod.fst, supplied.contains name = true) :
    Setting.Admits { setting with graph } (graph.accepted supplied) where
  known _ here := (contains_accepted.1 here).2
  given strict name mem := contains_accepted.2 ⟨given strict name mem, isSome_input?_of_exposed mem⟩

/-- What a graph accepts of an assignment has the valid valuations of the assignment, if all named
inputs are listed. -/
theorem valued_accepted {graph : Graph} (listed : ∀ id node port, graph.node? id = some node →
      node.op = .input port → graph.input? port.name = some id)
    {valuation : Nat → List Value} :
    Valued { setting with graph } (graph.accepted supplied) valuation ↔
      Valued { setting with graph } supplied valuation := by
  have same (id : Nat) (node : Node) (inputs : List Value) (found : graph.node? id = some node) :
      evalNode { setting with graph } (graph.accepted supplied) id node inputs =
        evalNode { setting with graph } supplied id node inputs := by
    unfold evalNode
    split
    · rename_i port op
      unfold accepted
      rw [Table.get?_filter, listed id node port found op, Option.isSome_some, filter_true]
    all_goals rfl
  exact forall_congr' fun id => forall_congr' fun node => forall_congr' fun found => by
    rw [same id node _ found]

/-- A graph that evaluates has a valid valuation, and its outputs are what this delivers. -/
theorem IsWired.exists_valued {graph : Graph} (wired : graph.IsWired)
    (runnable : graph.Runnable setting.library) (apart : graph.OutputsApart) {outputs : Assignment}
    (done : Setting.evaluate { setting with graph } (graph.accepted supplied) = .ok outputs) :
    ∃ valuation, Valued { setting with graph } supplied valuation ∧ ∀ name value,
      outputs.get? name = some value ↔ graph.Delivers valuation name value := by
  obtain ⟨valuation, valued, delivered⟩ :=
    @Setting.evaluate_ok { setting with graph } _ runnable.sound runnable.acyclic apart _ done
  exact ⟨valuation, (valued_accepted wired.input).1 valued, delivered⟩

/-- What a graph that serves delivers is what is shown of what the other one delivers. -/
theorem Serves.delivers (serves : before.Serves setting supplied shows after)
    (valuation : Nat → List Value) (name : String) (value : Value) :
    after.Delivers valuation name value ↔
      before.Delivers valuation name value ∧ shows name = true := by
  unfold Delivers
  simp only [serves.delivery, Option.filter_eq_some_iff, exists_and_right]

/-- Outputs that a graph shows with different names are shown by those that serve for it. -/
theorem Serves.outputsApart (serves : before.Serves setting supplied shows after)
    (apart : before.OutputsApart) : after.OutputsApart := by
  have shown {id : Nat} {found : Node × OutputPort} (here : after.shownOutput? id = some found) :
      ∃ found', before.shownOutput? id = some found' ∧ found'.2.name = found.2.name := by
    have delivered := serves.delivery (fun _ => []) id
    unfold delivery? at delivered
    rw [here, Option.map_some, eq_comm, Option.filter_eq_some_iff, Option.map_eq_some_iff] at delivered
    obtain ⟨⟨found', here', same⟩, -⟩ := delivered
    exact ⟨found', here', congrArg Prod.fst same⟩
  intro id id' found found' here there same
  obtain ⟨old, here, name⟩ := shown here
  obtain ⟨old', there, name'⟩ := shown there
  exact apart id id' old old' here there (name.trans (same.trans name'.symm))

/-- A graph and one that serves for it concur on the shown outputs, whatever assignments they are
given, if these are admitted together and have the valid valuations of the one it serves for. -/
theorem Serves.concur_of_admits (serves : before.Serves setting supplied shows after)
    (sound : before.Sound) (acyclic : before.Acyclic) (sound' : after.Sound)
    (acyclic' : after.Acyclic) (apart : before.OutputsApart) {early late : Assignment}
    (admits : Setting.Admits { setting with graph := before } early ↔
      Setting.Admits { setting with graph := after } late)
    (values : ∀ valuation, Valued { setting with graph := before } early valuation ↔
      Valued { setting with graph := before } supplied valuation)
    (values' : ∀ valuation, Valued { setting with graph := after } late valuation ↔
      Valued { setting with graph := after } supplied valuation) :
    Concur (fun outputs outputs' => ∀ name,
        outputs'.get? name = (outputs.get? name).filter fun _ => shows name)
      (Setting.evaluate { setting with graph := before } early)
      (Setting.evaluate { setting with graph := after } late) := by
  have apart' := serves.outputsApart apart
  apply Concur.of_forth_back
  · intro outputs done
    have admitted := admits.1 (Setting.admits_of_evaluate done)
    obtain ⟨valuation, valued, delivered⟩ :=
      @Setting.evaluate_ok { setting with graph := before } _ sound acyclic apart _ done
    have valued' := serves.forth valuation ((values valuation).1 valued)
    obtain ⟨outputs', done', delivered'⟩ := @Setting.evaluate_of_valued
      { setting with graph := after } _ sound' acyclic' apart' admitted.known admitted.given _
      ((values' valuation).2 valued')
    refine ⟨outputs', done', fun name => Option.ext fun value => ?_⟩
    rw [delivered', serves.delivers, Option.filter_eq_some_iff, delivered]
  · intro outputs' done'
    have admitted := admits.2 (Setting.admits_of_evaluate done')
    obtain ⟨valuation', valued', -⟩ :=
      @Setting.evaluate_ok { setting with graph := after } _ sound' acyclic' apart' _ done'
    obtain ⟨valuation, valued, -⟩ := serves.back valuation' ((values' valuation').1 valued')
    obtain ⟨outputs, done, -⟩ := @Setting.evaluate_of_valued
      { setting with graph := before } _ sound acyclic apart admitted.known admitted.given _
      ((values valuation).2 valued)
    exact ⟨outputs, done⟩

/-- A graph and one that serves for it concur on the shown outputs. -/
theorem Serves.concur (serves : before.Serves setting supplied shows after)
    (runnable : before.Runnable setting.library) (wired : before.IsWired)
    (runnable' : after.Runnable setting.library) (wired' : after.IsWired)
    (apart : before.OutputsApart)
    (given : ∀ name, (before.input? name).isSome = true → supplied.contains name = true) :
    Concur (fun outputs outputs' => ∀ name,
        outputs'.get? name = (outputs.get? name).filter fun _ => shows name)
      (Setting.evaluate { setting with graph := before } (before.accepted supplied))
      (Setting.evaluate { setting with graph := after } (after.accepted supplied)) := by
  have admits : Setting.Admits { setting with graph := before } (before.accepted supplied) :=
    admits_accepted fun _ name mem => given name (isSome_input?_of_exposed mem)
  have admits' : Setting.Admits { setting with graph := after } (after.accepted supplied) :=
    admits_accepted fun _ name mem => given name (serves.inputs name (isSome_input?_of_exposed mem))
  exact serves.concur_of_admits runnable.sound runnable.acyclic runnable'.sound runnable'.acyclic
    apart (iff_of_true admits admits') (fun _ => valued_accepted wired.input)
    fun _ => valued_accepted wired'.input

/-- An assignment can be made to give a value for one more name without giving anything else to the
inputs of a graph. -/
theorem IsWired.exists_given {graph : Graph} (wired : graph.IsWired) (supplied : Assignment)
    (name : String) : ∃ supplied' : Assignment, supplied'.contains name = true ∧
      (∀ other, other ≠ name → supplied'.get? other = supplied.get? other) ∧
        ∀ id node port, graph.node? id = some node → node.op = .input port →
          (supplied.get? port.name).getD port.default =
            (supplied'.get? port.name).getD port.default := by
  by_cases here : supplied.contains name = true
  · exact ⟨supplied, here, fun _ _ => rfl, fun _ _ _ _ _ => rfl⟩
  · -- The value is the default of the input of the name, if there is one.
    obtain ⟨value, chosen⟩ : ∃ value, ∀ id node port, graph.node? id = some node →
        node.op = .input port → port.name = name → port.default = value := by
      by_cases listed : ∃ id node port, graph.node? id = some node ∧ node.op = .input port ∧
          port.name = name
      · obtain ⟨id, node, port, found, op, rfl⟩ := listed
        refine ⟨port.default, fun id' node' port' found' op' same => ?_⟩
        have equal := wired.input id' node' port' found' op'
        rw [same, wired.input id node port found op, Option.some.injEq] at equal
        rw [← equal, found, Option.some.injEq] at found'
        rw [← found', op, NodeOp.input.injEq] at op'
        rw [op']
      · exact ⟨.scalar 0.0, fun id node port found op same =>
          absurd ⟨id, node, port, found, op, same⟩ listed⟩
    have unknown : supplied.get? name = none := by
      rw [← Table.isSome_get?] at here
      simpa using here
    refine ⟨supplied.insert name value, ?_, fun other apart => ?_, fun id node port found op => ?_⟩
    · rw [← Table.isSome_get?, Table.get?_insert, if_pos rfl, Option.isSome_some]
    · rw [Table.get?_insert, if_neg apart.symm]
    · rw [Table.get?_insert]
      split
      · rename_i same
        rw [← same, unknown, Option.getD_none, Option.getD_some]
        exact chosen id node port found op same.symm
      · rfl

/-- A graph evaluates alike for assignments that give the same to its inputs, whether by a value or
by the default, and both give what has to be given. -/
theorem IsWired.concur_accepted {graph : Graph} (wired : graph.IsWired)
    (runnable : graph.Runnable setting.library) (apart : graph.OutputsApart)
    {supplied' : Assignment}
    (same : ∀ id node port, graph.node? id = some node → node.op = .input port →
      (supplied.get? port.name).getD port.default = (supplied'.get? port.name).getD port.default)
    (given : setting.config.requireInputs = true → ∀ name ∈ graph.exposedInputs.map Prod.fst,
      supplied.contains name = true ∧ supplied'.contains name = true) :
    Concur Assignment.Equal
      (Setting.evaluate { setting with graph } (graph.accepted supplied))
      (Setting.evaluate { setting with graph } (graph.accepted supplied')) := by
  have values (valuation : Nat → List Value) :
      Valued { setting with graph } supplied' valuation ↔
        Valued { setting with graph } supplied valuation := by
    refine forall_congr' fun id => forall_congr' fun node => forall_congr' fun found => ?_
    have computed (inputs : List Value) : evalNode { setting with graph } supplied' id node inputs =
        evalNode { setting with graph } supplied id node inputs := by
      unfold evalNode
      split
      · rename_i port op
        rw [same id node port found op]
      all_goals rfl
    rw [computed]
  have admits : Setting.Admits { setting with graph } (graph.accepted supplied) :=
    admits_accepted fun strict name mem => (given strict name mem).1
  have admits' : Setting.Admits { setting with graph } (graph.accepted supplied') :=
    admits_accepted fun strict name mem => (given strict name mem).2
  have concur := (Serves.refl graph).concur_of_admits runnable.sound runnable.acyclic runnable.sound
    runnable.acyclic apart (iff_of_true admits admits') (fun _ => valued_accepted wired.input)
    fun valuation => (valued_accepted wired.input).trans (values valuation)
  exact concur.mono fun _ _ same name => by rw [same, filter_true]

end

end Graph

end Shadeloom
