import Mathlib
import Shadeloom.Proofs.Build.GraphErrors
import Shadeloom.Proofs.Build.SelfContained
import Shadeloom.Proofs.Evaluation.Valuation
/-!
# What an evaluation reports

An evaluation reports the values of outputs by name, and outputs may share a name. Of those that do,
the last one that is evaluated is reported and the others are not, so there is an entry for every
output exactly when no two have the same name. An instance takes the values of its sockets from such
a report of its definition, and carries those of the outputs in their order if their names differ.
-/
namespace Shadeloom

open Machine

namespace Graph

variable {graph : Graph} {valuation : Nat → List Value} {ids : List Nat} {name : String}
  {value : Value}

/-- The name of an output that is shown. -/
def shownName? (graph : Graph) (id : Nat) : Option String :=
  (graph.shownOutput? id).map fun shown => shown.2.name

/-- The names of the outputs that are shown, once for every output. -/
def shownNames (graph : Graph) : List String :=
  graph.nodes.numbers.filterMap graph.shownName?

/-- An output that is shown is a node. -/
theorem mem_numbers_of_shownName? {id : Nat} (named : graph.shownName? id = some name) :
    id ∈ graph.nodes.numbers := by
  obtain ⟨shown, found, -⟩ := Option.map_eq_some_iff.1 named
  exact Slots.mem_numbers.2
    (Option.isSome_iff_exists.2 ⟨shown.1, (shownOutput?_eq_some_iff.1 found).1⟩)

/-- A name is one of an output that is shown. -/
theorem mem_shownNames : name ∈ graph.shownNames ↔ ∃ id, graph.shownName? id = some name := by
  unfold shownNames
  rw [List.mem_filterMap]
  exact ⟨fun ⟨id, _, named⟩ => ⟨id, named⟩,
    fun ⟨id, named⟩ => ⟨id, mem_numbers_of_shownName? named, named⟩⟩

/-- The names of the outputs differ exactly when no two outputs have the same name. -/
theorem nodup_shownNames_iff : graph.shownNames.Nodup ↔ graph.OutputsApart := by
  unfold shownNames
  rw [List.Nodup, List.pairwise_filterMap]
  constructor
  · intro apart id id' shown shown' found found' same
    have symmetric : Std.Symm fun a b => ∀ name, graph.shownName? a = some name →
        ∀ name', graph.shownName? b = some name' → name ≠ name' :=
      ⟨fun a b apart name here name' there => (apart name' there name here).symm⟩
    have named : graph.shownName? id = some shown.2.name := by simp [shownName?, found]
    have named' : graph.shownName? id' = some shown'.2.name := by simp [shownName?, found']
    by_contra different
    exact apart.forall (mem_numbers_of_shownName? named) (mem_numbers_of_shownName? named')
      different _ named _ named' same
  · intro apart
    have distinct : graph.nodes.numbers.Nodup := List.nodup_range.filter _
    refine distinct.imp fun {a b} different name here name' there same => ?_
    obtain ⟨shown, found, rfl⟩ := Option.map_eq_some_iff.1 here
    obtain ⟨shown', found', rfl⟩ := Option.map_eq_some_iff.1 there
    exact different (apart a b shown shown' found found' same)

/-- An output that the graph lists as shown is one. -/
theorem Sound.shownOutput?_of_exposed (sound : graph.Sound) {entry : String × Nat}
    (mem : entry ∈ graph.exposedOutputs) :
    ∃ node port, graph.shownOutput? entry.2 = some (node, port) ∧ port.name = entry.1 := by
  obtain ⟨id, listed, named⟩ := List.mem_filterMap.1 mem
  obtain ⟨name, here, rfl⟩ := Option.map_eq_some_iff.1 named
  obtain ⟨node, port, found, op⟩ := sound.outputNamed id listed
  simp only [exposedName?, found, op, Option.bind_eq_bind, Option.bind_some, NodeOp.portName?,
    NodeOp.isExposed, Option.ite_none_right_eq_some] at here
  exact ⟨node, port, shownOutput?_eq_some_iff.2 ⟨found, op, here.1⟩, Option.some.inj here.2⟩

/-- What nodes report is delivered by an output of the name. -/
theorem delivers_of_reportAll
    (reported : (reportAll graph valuation .empty ids).get? name = some value) :
    graph.Delivers valuation name value := by
  unfold reportAll at reported
  rw [Table.get?_foldl_insert_last, Table.get?_empty, Option.or_none,
    Option.map_eq_some_iff] at reported
  obtain ⟨entry, last, rfl⟩ := reported
  have same : entry.1 = name := by simpa using List.find?_some last
  obtain ⟨id, -, delivered⟩ :=
    List.mem_filterMap.1 (List.mem_reverse.1 (List.mem_of_find?_eq_some last))
  exact ⟨id, same ▸ delivered⟩

/-- All nodes together report the names of the outputs that are shown. -/
theorem mem_keys_reportAll (order : graph.IsOrder ids) :
    name ∈ (reportAll graph valuation .empty ids).keys ↔ name ∈ graph.shownNames := by
  rw [← Table.contains_iff_mem, ← Table.isSome_get?, mem_shownNames]
  constructor
  · intro reported
    obtain ⟨value, reported⟩ := Option.isSome_iff_exists.1 reported
    obtain ⟨id, delivered⟩ := delivers_of_reportAll reported
    obtain ⟨shown, found, same⟩ := Option.map_eq_some_iff.1 delivered
    exact ⟨id, Option.map_eq_some_iff.2 ⟨shown, found, congrArg Prod.fst same⟩⟩
  · rintro ⟨id, named⟩
    obtain ⟨shown, found, rfl⟩ := Option.map_eq_some_iff.1 named
    have listed : id ∈ ids :=
      (order.mem id).2 (Option.isSome_iff_exists.2 ⟨_, (shownOutput?_eq_some_iff.1 found).1⟩)
    have delivered : (shown.2.name, _) ∈ ids.filterMap (graph.delivery? valuation) :=
      List.mem_filterMap.2 ⟨id, listed, Option.map_eq_some_iff.2 ⟨shown, found, rfl⟩⟩
    unfold reportAll
    rw [Table.get?_foldl_insert_last, Table.get?_empty, Option.or_none, Option.isSome_map,
      List.find?_isSome]
    exact ⟨_, List.mem_reverse.2 delivered, by simp⟩

/-- All nodes together report one value for every name of an output that is shown. -/
theorem size_reportAll (order : graph.IsOrder ids) :
    (reportAll graph valuation .empty ids).size = graph.shownNames.dedup.length := by
  have same : (reportAll graph valuation .empty ids).keys.toFinset = graph.shownNames.toFinset := by
    ext name
    rw [List.mem_toFinset, List.mem_toFinset, mem_keys_reportAll order]
  have keys := List.toFinset_card_of_nodup (reportAll graph valuation .empty ids).distinct
  rw [List.length_map] at keys
  exact keys.symm.trans ((congrArg Finset.card same).trans (List.card_toFinset _))

/-- A value is reported for every output exactly when no two have the same name. -/
theorem size_reportAll_eq_iff (order : graph.IsOrder ids) :
    (reportAll graph valuation .empty ids).size = graph.shownNames.length ↔ graph.OutputsApart := by
  rw [size_reportAll order, ← nodup_shownNames_iff, ← List.dedup_eq_self]
  exact ⟨(List.dedup_sublist _).eq_of_length, congrArg List.length⟩

/-- Whether values are those that a valuation of a definition delivers through its outputs, in the
order of the outputs. -/
def Carries (definition : Graph) (valuation : Nat → List Value) (values : List Value) : Prop :=
  ∀ (place : Nat) (entry : String × Nat), definition.exposedOutputs[place]? = some entry →
    ∃ value, definition.delivery? valuation entry.2 = some (entry.1, value) ∧
      values[place]? = some value

/-- An instance has a socket for every output of its definition, in the order of the outputs. -/
theorem Sound.getElem?_instanceNode (sound : graph.Sound) {place : Nat} {entry : String × Nat}
    (listed : graph.exposedOutputs[place]? = some entry) :
    ∃ node port, graph.shownOutput? entry.2 = some (node, port) ∧ port.name = entry.1 ∧
      graph.instanceNode.outputs[place]? = some ⟨entry.1, port.type⟩ := by
  have socket {entry : String × Nat} (mem : entry ∈ graph.exposedOutputs) :
      ∃ node port, graph.shownOutput? entry.2 = some (node, port) ∧ port.name = entry.1 ∧
        graph.outputSocket? entry = some ⟨entry.1, port.type⟩ := by
    obtain ⟨node, port, shown, named⟩ := sound.shownOutput?_of_exposed mem
    obtain ⟨found, op, -⟩ := shownOutput?_eq_some_iff.1 shown
    exact ⟨node, port, shown, named, by simp [outputSocket?, found, op]⟩
  obtain ⟨node, port, shown, named, here⟩ := socket (List.mem_of_getElem? listed)
  have all : graph.exposedOutputs.filterMap graph.outputSocket? =
      graph.exposedOutputs.map fun entry => (graph.outputSocket? entry).getD ⟨"", .scalar⟩ := by
    rw [← List.filterMap_eq_map]
    refine List.filterMap_congr fun entry mem => ?_
    obtain ⟨_, _, -, -, made⟩ := socket mem
    simp [made]
  refine ⟨node, port, shown, named, ?_⟩
  show (graph.exposedOutputs.filterMap graph.outputSocket?)[place]? = _
  rw [all, List.getElem?_map, listed, Option.map_some, here, Option.getD_some]

end Graph

variable {library : Library} {config : EvalConfig}

/-- What the sockets of an instance take from a report of its definition is what the definition
delivers, in the order of its outputs, if their names differ. -/
theorem Setting.carries_of_evaluate {setting : Setting} {supplied reported : Assignment}
    (sound : setting.graph.Sound) (acyclic : setting.graph.Acyclic)
    (apart : setting.graph.OutputsApart) (done : setting.evaluate supplied = .ok reported) :
    ∃ valuation, Valued setting supplied valuation ∧ setting.graph.Carries valuation
      (setting.graph.instanceNode.outputs.map fun socket =>
        ((reported.get? socket.name).getD (.scalar 0.0)).convert socket.type) := by
  obtain ⟨valuation, valued, delivered⟩ := Setting.evaluate_ok sound acyclic apart done
  refine ⟨valuation, valued, fun place entry listed => ?_⟩
  obtain ⟨node, port, shown, named, socket⟩ := sound.getElem?_instanceNode listed
  have delivery : setting.graph.delivery? valuation entry.2 =
      some (entry.1, ((setting.graph.reads valuation entry.2 node).head?.getD (.scalar 0.0)).convert
        port.type) := by
    rw [← named]
    exact Option.map_eq_some_iff.2 ⟨(node, port), shown, rfl⟩
  have found := (delivered entry.1 _).2 ⟨entry.2, delivery⟩
  refine ⟨_, delivery, ?_⟩
  rw [List.getElem?_map, socket, Option.map_some, found, Option.getD_some, Value.convert_convert]

/-- An instance that is evaluated is one level deeper, and takes the values of its sockets from what
its definition reports. -/
theorem Machine.exists_of_evalNode_group {graph : Graph} {depth id : Nat} {supplied : Assignment}
    {node : Node} {group : String} {inputs values : List Value} (op : node.op = .group group)
    {definition : Graph} (known : library.get? group = some definition)
    (computed : evalNode ⟨graph, library, config, nestedWithin library config depth⟩ supplied id
      node inputs = .ok values) :
    ∃ below reported, depth = below + 1 ∧
      Setting.evaluate ⟨definition, library, config, nestedWithin library config below⟩
        (.ofList ((node.inputs.map InputSocket.name).zip inputs)) = .ok reported ∧
      values = node.outputs.map fun socket =>
        ((reported.get? socket.name).getD (.scalar 0.0)).convert socket.type := by
  simp only [evalNode, op, evalInstance] at computed
  cases depth with
  | zero => cases computed
  | succ below =>
    simp only [nestedWithin, known] at computed
    obtain ⟨reported, done, same⟩ := bind_eq_ok_iff.1 computed
    cases same
    exact ⟨below, reported, rfl, done, rfl⟩

/-- The setting of a graph of a site whose instances may be nested to a depth. -/
def Site.setting (site : Site) (config : EvalConfig) (depth : Nat) (graph : Graph) : Setting :=
  ⟨graph, site.library, config, nestedWithin site.library config depth⟩

/-- Whatever is built, an evaluation that completes has an entry for the name of every output that
is shown, and for no other name. So there are as many entries as outputs exactly when no two outputs
have the same name. The values are delivered by outputs under a valid valuation, and all that is
delivered is reported if the names differ. An instance with the sockets of its definition carries
the values of all outputs of the definition, in their order, if the names of these differ. -/
theorem Expr.build_reports {e : Expr} {options : BuildOptions} {site : Site}
    (built : e.build options = .ok site) {graph : Graph} (holds : site.Holds graph)
    {depth : Nat} {supplied outputs : Assignment}
    (done : (site.setting config depth graph).evaluate supplied = .ok outputs) :
    (∀ name, name ∈ outputs.keys ↔ name ∈ graph.shownNames) ∧
      (outputs.size = graph.shownNames.length ↔ graph.OutputsApart) ∧
      ∃ valuation, Valued (site.setting config depth graph) supplied valuation ∧
        (∀ name value, outputs.get? name = some value → graph.Delivers valuation name value) ∧
        (graph.OutputsApart → ∀ name value, graph.Delivers valuation name value →
          outputs.get? name = some value) ∧
        ∀ id node group definition, graph.node? id = some node → node.op = .group group →
          site.library.get? group = some definition → definition.OutputsApart →
          node.outputs = definition.instanceNode.outputs →
            ∃ below inner, depth = below + 1 ∧ Valued (site.setting config below definition)
                (.ofList ((node.inputs.map InputSocket.name).zip (graph.reads valuation id node)))
                inner ∧ definition.Carries inner (valuation id) := by
  have runs := Expr.runs_build built
  have runnable := runs.runnable holds
  obtain ⟨ids, valuation, -, order, valued, rfl⟩ :=
    Setting.evaluate_reports runnable.sound runnable.acyclic done
  refine ⟨fun name => Graph.mem_keys_reportAll order, Graph.size_reportAll_eq_iff order, valuation,
    valued, fun name value => Graph.delivers_of_reportAll,
    fun apart name value => (get?_reportAll apart order valuation name value).2,
    fun id node group definition found op known apart fits => ?_⟩
  obtain ⟨below, reported, rfl, evaluated, same⟩ :=
    Machine.exists_of_evalNode_group op known (valued id node found)
  have runnable' := runs.runnable (.definition known)
  obtain ⟨inner, valued', carries⟩ := @Setting.carries_of_evaluate
    (site.setting config below definition) _ _ runnable'.sound runnable'.acyclic apart evaluated
  exact ⟨below, inner, rfl, valued', by rw [same, fits]; exact carries⟩

/-- A statement that is a variable links an output to what it reads, if no socket is used again. -/
theorem Builder.statement_variable {builder : Builder} (afresh : builder.options.optimize = false)
    (v : Variable) : builder.statement (.var v) = (do
      let (source, scope) ← (builder.atStatement.withOutput bareOutput .scalar).readVariable v
      let scope ← scope.connect source ⟨builder.atStatement.scope.graph.nextNode, 0⟩
      .ok (builder.atStatement.setScope scope)) := by
  have bare : (Expr.var v).IsBare := ⟨nofun, nofun, nofun⟩
  have planned (library : Library) : Plan.of library (.var v) = .ok (.read v) := rfl
  rw [statement_of_bare bare, output_eq bare.isEmpty, feed_single, lowerInto, options_atStatement,
    afresh, lower_of_read rfl (planned _)]
  cases (builder.atStatement.withOutput bareOutput .scalar).readVariable v with
  | error error => rfl
  | ok read =>
    show (read.2.connect read.1 _).map _ = read.2.connect read.1 _ >>= _
    cases read.2.connect read.1 ⟨builder.atStatement.scope.graph.nextNode, 0⟩ <;> rfl

/-- Two variables without names. -/
def Expr.twoVariables : Expr :=
  .chain [.var (.plain "x"), .var (.plain "y")]

/-- Of two expressions without names only one has its value reported, although two outputs are
shown. -/
theorem Expr.build_reports_one_of_two : ∃ site outputs,
    twoVariables.build .literal = .ok site ∧
      (site.setting .standard 64 site.graph).evaluate
        (.ofList [("x", .scalar 1.0), ("y", .scalar 2.0)]) = .ok outputs ∧
      outputs.size = 1 ∧ site.graph.shownNames = ["Value", "Value"] ∧
        ¬ site.graph.OutputsApart := by
  let one : Graph :=
    ⟨"root", ⟨[some (.newOutput "Value" .scalar), some (.newInput "x" .scalar)], []⟩,
      [⟨0, ⟨1, 0⟩, ⟨0, 0⟩⟩], ⟨1, []⟩, none, .ofList [("x", 1)], [0]⟩
  let two : Graph :=
    ⟨"root", ⟨[some (.newOutput "Value" .scalar), some (.newInput "x" .scalar),
      some (.newOutput "Value" .scalar), some (.newInput "y" .scalar)], []⟩,
      [⟨1, ⟨3, 0⟩, ⟨2, 0⟩⟩, ⟨0, ⟨1, 0⟩, ⟨0, 0⟩⟩], ⟨2, []⟩, none,
      .ofList [("x", 1), ("y", 3)], [0, 2]⟩
  let builder (graph : Graph) : Builder := ⟨.literal, { Scope.empty "root" with graph }, [], .empty⟩
  have first : (builder (.empty "root")).statement (.var (.plain "x")) = .ok (builder one) :=
    (Builder.statement_variable rfl _).trans rfl
  have second : (builder one).statement (.var (.plain "y")) = .ok (builder two) :=
    (Builder.statement_variable rfl _).trans rfl
  have built : twoVariables.build .literal = .ok ⟨two, .empty⟩ := by
    show ([Expr.var (.plain "x"), .var (.plain "y")].foldlM Builder.statement
      (builder (.empty "root")) >>= _) = _
    rw [List.foldlM_cons, first, ok_bind, List.foldlM_cons, second]
    rfl
  have done : Setting.evaluate (Site.setting ⟨two, .empty⟩ .standard 64 two)
      (.ofList [("x", .scalar 1.0), ("y", .scalar 2.0)]) =
        .ok (.ofList [("Value", .scalar 1.0)]) := by
    decide +kernel
  obtain ⟨-, apart, -⟩ := build_reports built .root done
  exact ⟨_, _, built, done, rfl, rfl, fun here => absurd (apart.2 here) (by decide +kernel)⟩

end Shadeloom
