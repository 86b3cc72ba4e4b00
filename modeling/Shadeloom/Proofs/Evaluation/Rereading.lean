import Mathlib
import Shadeloom.Proofs.Evaluation.Orders
import Shadeloom.Proofs.Graph.Rereading
/-!
# Evaluation of what is read back

A graph that is read from its stored form has its links in the order of their numbers, so that a
search finds another order of evaluation in it than in the graph that was stored. Nothing else is
lost: it evaluates as the stored graph does by the order that is found in the read one. Where no
two shown outputs have one name, the order does not matter either.
-/
namespace Shadeloom

open Machine

namespace Graph

variable {restored graph : Graph}

/-- A graph that is read back has the same linked sockets. -/
theorem Restores.source? (restores : restored.Restores graph) (sound' : restored.Sound)
    (sound : graph.Sound) (target : Socket) : restored.source? target = graph.source? target := by
  refine Option.ext fun source => ?_
  simp only [sound'.source?_eq_some_iff, sound.source?_eq_some_iff, restores.links.mem_iff]

/-- Nodes of a graph that is read back lead to the same nodes. -/
theorem Restores.leads_iff (restores : restored.Restores graph) (sound' : restored.Sound)
    (sound : graph.Sound) {a b : Nat} : restored.Leads a b ↔ graph.Leads a b := by
  simp only [Leads, restores.source? sound' sound]

/-- A graph that is read back is as acyclic as the stored one. -/
theorem Restores.acyclic (restores : restored.Restores graph) (sound' : restored.Sound)
    (sound : graph.Sound) (acyclic : graph.Acyclic) : restored.Acyclic :=
  acyclic.congr (restores.source? sound' sound)

/-- An order of a graph that is read back is one of the stored graph. -/
theorem Restores.isOrder (restores : restored.Restores graph) (sound' : restored.Sound)
    (sound : graph.Sound) {ids : List Nat} (order : restored.IsOrder ids) : graph.IsOrder ids where
  distinct := order.distinct
  mem id := by rw [order.mem, restores.node?]
  sorted := order.sorted.imp fun apart leads => apart ((restores.leads_iff sound' sound).2 leads)

/-- A graph that is read back shows the same inputs. -/
theorem Restores.exposedInputs (restores : restored.Restores graph) :
    restored.exposedInputs = graph.exposedInputs := by
  simp only [Graph.exposedInputs, isExposed, restores.inputs, restores.node?]

end Graph

/-- The order that a search finds in a graph when it is read back. -/
def Schedule.reread : Schedule := fun graph => Schedule.found graph.reread

/-- What a search finds in an acyclic sound graph is an order of it. -/
theorem Graph.Sound.isOrder_found {graph : Graph} (sound : graph.Sound)
    (acyclic : graph.Acyclic) : graph.IsOrder (Schedule.found graph) := by
  obtain ⟨ids, ordered, order⟩ := sound.order_spec acyclic
  rw [Schedule.found, ordered]
  exact order

/-- What a search finds in an acyclic sound graph that is read back is an order of the stored
graph. -/
theorem Graph.Sound.isOrder_reread {graph : Graph} (sound : graph.Sound)
    (acyclic : graph.Acyclic) : graph.IsOrder (Schedule.reread graph) :=
  sound.restores.isOrder sound.reread sound
    (sound.reread.isOrder_found (sound.restores.acyclic sound.reread sound acyclic))

/-- Whether instances have the same outputs in two settings. -/
def Setting.InstancesAgree (first second : Setting) : Prop :=
  ∀ id node group inputs,
    evalInstance first id node group inputs = evalInstance second id node group inputs

section

variable {restored graph : Graph} {library library' : Library} {config : EvalConfig}
  {nested nested' : Option Evaluator}

/-- A node has the same outputs in settings in which instances have. -/
theorem Setting.InstancesAgree.evalNode {first second : Setting}
    (agree : first.InstancesAgree second) (supplied : Assignment) (id : Nat) (node : Node)
    (inputs : List Value) :
    evalNode first supplied id node inputs = evalNode second supplied id node inputs := by
  unfold Machine.evalNode
  split
  · rfl
  · rfl
  · exact agree _ _ _ _
  · rfl

/-- A sweep over a graph that is read back comes to what one over the stored graph comes to. -/
theorem Graph.Restores.sweep (restores : restored.Restores graph) (sound' : restored.Sound)
    (sound : graph.Sound)
    (agree : Setting.InstancesAgree ⟨restored, library', config, nested'⟩
      ⟨graph, library, config, nested⟩) (supplied : Assignment) (ids : List Nat)
    (values : Table Nat (List Value)) (outputs : Assignment) :
    sweep ⟨restored, library', config, nested'⟩ supplied ids values outputs =
      sweep ⟨graph, library, config, nested⟩ supplied ids values outputs := by
  induction ids generalizing values outputs with
  | nil => rfl
  | cons id rest ih =>
    have inputs (node : Node) : readAll restored values id node = readAll graph values id node := by
      simp only [readAll, Machine.read, restores.source? sound' sound]
    simp only [Machine.sweep, restores.node?, inputs, agree.evalNode, ih]

/-- The evaluation of a graph that is read back is refused before the first node for the same
reason as that of the stored graph. -/
theorem Graph.Restores.prepare_bind (restores : restored.Restores graph) (sound' : restored.Sound)
    (sound : graph.Sound) (acyclic : graph.Acyclic) (supplied : Assignment)
    (rest : Except EvalError Assignment) :
    ((prepare ⟨restored, library', config, nested'⟩ supplied).bind fun _ => rest) =
      (prepare ⟨graph, library, config, nested⟩ supplied).bind fun _ => rest := by
  -- The orders may differ, but a search finds one in both graphs, so that none is refused for it.
  obtain ⟨ids', ordered', -⟩ := sound'.order_spec (restores.acyclic sound' sound acyclic)
  obtain ⟨ids, ordered, -⟩ := sound.order_spec acyclic
  unfold prepare
  simp only [ordered', ordered, input?, restores.inputs, restores.exposedInputs]
  cases supplied.keys.find? fun name => (graph.inputs.get? name).isNone with
  | some name => rfl
  | none =>
    cases config.requireInputs with
    | false => rfl
    | true =>
      cases graph.exposedInputs.find? fun entry => !supplied.contains entry.1 with
      | some entry => rfl
      | none => rfl

/-- A graph that is read back evaluates as the stored graph does by the order that is found in the
read one, where instances have the same outputs. -/
theorem Setting.evaluate_reread (sound : graph.Sound) (acyclic : graph.Acyclic)
    (agree : Setting.InstancesAgree ⟨graph.reread, library', config, nested'⟩
      ⟨graph, library, config, nested⟩) (supplied : Assignment) :
    Setting.evaluate ⟨graph.reread, library', config, nested'⟩ supplied =
      Setting.evaluateBy .reread ⟨graph, library, config, nested⟩ supplied := by
  rw [← Setting.evaluateBy_found, Setting.evaluateBy_eq, Setting.evaluateBy_eq,
    sound.restores.prepare_bind sound.reread sound acyclic,
    sound.restores.sweep sound.reread sound agree]
  rfl

/-- Instances of definitions that are read back have the outputs that those of the stored ones have
by the orders that are found in the read ones. -/
theorem instancesAgree_reread
    (definitions : ∀ group definition, library.get? group = some definition →
      definition.Sound ∧ definition.Acyclic) (config : EvalConfig) (depth : Nat) :
    Setting.InstancesAgree
      ⟨restored, library.mapValues Graph.reread, config,
        nestedWithin (library.mapValues Graph.reread) config depth⟩
      ⟨graph, library, config, nestedBy .reread library config depth⟩ := by
  -- For all graphs at once, since the next level is evaluated inside of a definition.
  induction depth generalizing restored graph with
  | zero => exact fun id node group inputs => rfl
  | succ depth ih =>
    intro id node group inputs
    simp only [evalInstance, nestedWithin, nestedBy, Table.get?_mapValues]
    cases found : library.get? group with
    | none => rfl
    | some definition =>
      obtain ⟨sound, acyclic⟩ := definitions group definition found
      simp only [Option.map_some, Setting.evaluate_reread sound acyclic ih]

/-- An acyclic sound graph that is read back with its definitions evaluates as the stored one does
by the orders that are found in what is read. -/
theorem evaluate_reread (sound : graph.Sound) (acyclic : graph.Acyclic)
    (definitions : ∀ group definition, library.get? group = some definition →
      definition.Sound ∧ definition.Acyclic) (config : EvalConfig) (supplied : Assignment) :
    evaluate graph.reread (library.mapValues Graph.reread) config supplied =
      evaluateBy .reread graph library config supplied :=
  Setting.evaluate_reread sound acyclic (instancesAgree_reread definitions config config.maxDepth)
    supplied

/-- An acyclic sound graph that is read back with its definitions evaluates like the stored one
where no two shown outputs have one name: to the same values by the same names, or both are
refused. -/
theorem evaluate_reread_concurs (orderable : graph.Orderable)
    (definitions : ∀ group definition, library.get? group = some definition →
      definition.Orderable) (config : EvalConfig) (supplied : Assignment) :
    Concur Assignment.Equal (evaluate graph library config supplied)
      (evaluate graph.reread (library.mapValues Graph.reread) config supplied) := by
  rw [evaluate_reread orderable.sound orderable.acyclic fun group definition found =>
    ⟨(definitions group definition found).sound, (definitions group definition found).acyclic⟩,
    ← evaluateBy_found]
  have found : Schedule.Orders .found graph library := {
    outermost := orderable.sound.isOrder_found orderable.acyclic
    definitions := fun group definition known =>
      (definitions group definition known).sound.isOrder_found
        (definitions group definition known).acyclic }
  have reread : Schedule.Orders .reread graph library := {
    outermost := orderable.sound.isOrder_reread orderable.acyclic
    definitions := fun group definition known =>
      (definitions group definition known).sound.isOrder_reread
        (definitions group definition known).acyclic }
  exact evaluateBy_concurs orderable definitions found reread config supplied

end

/-- A graph that shows an input and a sum under one name, with its links in the order of their
numbers. -/
def Graph.forked : Graph :=
  ⟨"root", ⟨[some (.newInput "x" .scalar), some (.newOutput "o" .scalar),
    some (.ofOp (.math .add)), some (.newOutput "o" .scalar)], []⟩,
    [⟨0, ⟨0, 0⟩, ⟨1, 0⟩⟩, ⟨1, ⟨0, 0⟩, ⟨2, 0⟩⟩, ⟨2, ⟨2, 0⟩, ⟨3, 0⟩⟩], ⟨3, []⟩, none,
    .ofList [("x", 0)], [1, 3]⟩

/-- Where two shown outputs have one name, what is read back may show the other one. -/
theorem evaluate_reread_forked :
    evaluate .forked .empty .standard (.ofList [("x", .scalar 1.0)]) =
        .ok (.ofList [("o", .scalar 1.5)]) ∧
      evaluate Graph.forked.reread .empty .standard (.ofList [("x", .scalar 1.0)]) =
        .ok (.ofList [("o", .scalar 1.0)]) := by
  decide +kernel

end Shadeloom
