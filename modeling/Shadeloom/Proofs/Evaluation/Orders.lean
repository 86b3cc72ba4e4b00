import Mathlib
import Shadeloom.Proofs.Evaluation.Valuation
import Shadeloom.Proofs.Graph.Runnable
/-!
# Evaluation in any order

A graph may have many orders in which every node comes after those that it is linked from. A
schedule chooses one of them for each graph that is evaluated, those of nested instances included.
Any two schedules come to the same outputs, or both to none: a sweep that comes to its end under
one of them gives a valid valuation, and from this every other order sweeps to the same.
-/
namespace Shadeloom

/-- A choice of the order in which the nodes of each graph are evaluated. -/
abbrev Schedule := Graph → List Nat

/-- The order that a search along the links finds, as evaluation uses it. -/
def Schedule.found : Schedule := fun graph =>
  match graph.order with
  | .ok ids => ids
  | .error _ => []

/-- Starts with an assignment like `start`, but in the order of a schedule. -/
def Machine.startBy (schedule : Schedule) (setting : Setting) (supplied : Assignment)
    (machine : Machine) : Machine :=
  match prepare setting supplied with
  | .ok _ => { machine with phase := .running, order := schedule setting.graph, supplied }
  | .error error => machine.fail error

/-- The outputs of a graph in a setting, by a schedule. -/
def Setting.evaluateBy (schedule : Schedule) (setting : Setting) (supplied : Assignment) :
    Except EvalError Assignment :=
  ((Machine.fresh.startBy schedule setting supplied).run setting).result

/-- How instances are evaluated by a schedule that may be nested to a depth. -/
def nestedBy (schedule : Schedule) (library : Library) (config : EvalConfig) :
    Nat → Option Evaluator
  | 0 => none
  | depth + 1 => some fun graph supplied =>
    Setting.evaluateBy schedule ⟨graph, library, config, nestedBy schedule library config depth⟩
      supplied

/-- The outputs of a graph for an assignment, by a schedule. -/
def evaluateBy (schedule : Schedule) (graph : Graph) (library : Library) (config : EvalConfig)
    (supplied : Assignment) : Except EvalError Assignment :=
  Setting.evaluateBy schedule
    ⟨graph, library, config, nestedBy schedule library config config.maxDepth⟩ supplied

open Machine

/-- A graph that is ready to be evaluated has an order, which evaluation then follows. -/
theorem Machine.found_of_prepare {setting : Setting} {supplied : Assignment} {ids : List Nat}
    (ready : prepare setting supplied = .ok ids) : Schedule.found setting.graph = ids := by
  unfold Schedule.found
  rw [order_of_prepare ready]

/-- Evaluation follows the order that a search finds. -/
theorem Setting.evaluateBy_found (setting : Setting) (supplied : Assignment) :
    setting.evaluateBy .found supplied = setting.evaluate supplied := by
  unfold Setting.evaluateBy Setting.evaluate startBy start
  cases ready : prepare setting supplied with
  | error error => rfl
  | ok ids =>
    dsimp only
    rw [found_of_prepare ready]

/-- Nested evaluation follows the order that a search finds. -/
theorem nestedBy_found (library : Library) (config : EvalConfig) (depth : Nat) :
    nestedBy .found library config depth = nestedWithin library config depth := by
  induction depth with
  | zero => rfl
  | succ depth ih =>
    unfold nestedBy nestedWithin
    simp only [Setting.evaluateBy_found, ih]

/-- Evaluation follows the order that a search finds, at every depth. -/
theorem evaluateBy_found (graph : Graph) (library : Library) (config : EvalConfig)
    (supplied : Assignment) :
    evaluateBy .found graph library config supplied = evaluate graph library config supplied := by
  unfold evaluateBy evaluate
  rw [Setting.evaluateBy_found, nestedBy_found]
  rfl

/-- An evaluation by a schedule is a sweep over the order that this chooses. -/
theorem Setting.evaluateBy_eq (schedule : Schedule) (setting : Setting) (supplied : Assignment) :
    setting.evaluateBy schedule supplied = (prepare setting supplied).bind fun _ =>
      (sweep setting supplied (schedule setting.graph) .empty .empty).map Prod.snd := by
  unfold Setting.evaluateBy startBy
  cases prepare setting supplied with
  | error error =>
    dsimp only
    unfold Machine.run
    rw [stepMany_stopped _ (by simp [fail])]
    rfl
  | ok order => exact result_stepMany setting _ _ rfl rfl

/-- Whether a graph can be evaluated in some order and has no two shown outputs of one name. -/
structure Graph.Orderable (graph : Graph) : Prop where
  sound : graph.Sound
  acyclic : graph.Acyclic
  apart : graph.OutputsApart

/-- Whether a schedule chooses orders of a graph and of all definitions of a library. -/
structure Schedule.Orders (schedule : Schedule) (graph : Graph) (library : Library) : Prop where
  outermost : graph.IsOrder (schedule graph)
  definitions : ∀ group definition, library.get? group = some definition →
    definition.IsOrder (schedule definition)

/-- Two ways to evaluate instances that come to the same for all definitions of a library. -/
inductive Library.NestAlike (library : Library) : Option Evaluator → Option Evaluator → Prop
  | none : NestAlike library none none
  | some {first second : Evaluator}
    (same : ∀ group definition supplied, library.get? group = some definition →
      Concur Assignment.Equal (first definition supplied) (second definition supplied)) :
    NestAlike library (some first) (some second)

section

variable {graph : Graph} {library : Library} {config : EvalConfig}
  {nested nested' : Option Evaluator} {supplied : Assignment}

/-- Ways to evaluate instances are alike the other way around. -/
theorem Library.NestAlike.symm (alike : library.NestAlike nested nested') :
    library.NestAlike nested' nested := by
  cases alike with
  | none => exact .none
  | some same => exact .some fun group definition supplied found =>
      (same group definition supplied found).symm.mono fun _ _ equal name => (equal name).symm

/-- A node that has values has the same ones when instances are evaluated in another way that comes
to the same. -/
theorem Library.NestAlike.evalNode (alike : library.NestAlike nested nested') {id : Nat}
    {node : Node} {inputs produced : List Value}
    (computed : evalNode ⟨graph, library, config, nested⟩ supplied id node inputs =
      .ok produced) :
    evalNode ⟨graph, library, config, nested'⟩ supplied id node inputs = .ok produced := by
  cases op : node.op with
  | group group =>
    simp only [Machine.evalNode, op, evalInstance] at computed ⊢
    cases alike with
    | none => cases computed
    | some same =>
      dsimp only at computed ⊢
      cases found : library.get? group with
      | none => rw [found] at computed; cases computed
      | some definition =>
        rw [found] at computed
        dsimp only at computed ⊢
        obtain ⟨outputs, evaluated, values⟩ := bind_eq_ok_iff.1 computed
        have concurs := same group definition
          (.ofList ((node.inputs.map InputSocket.name).zip inputs)) found
        rw [evaluated] at concurs
        obtain ⟨outputs', evaluated', equal⟩ := concurs.exists_of_ok
        rw [evaluated', ← values]
        show Except.ok _ = Except.ok _
        simp only [equal _]
  | _ =>
    simp only [Machine.evalNode, op] at computed ⊢
    exact computed

/-- A valuation stays valid when instances are evaluated in another way that comes to the same. -/
theorem Library.NestAlike.valued (alike : library.NestAlike nested nested')
    {valuation : Nat → List Value}
    (valued : Valued ⟨graph, library, config, nested⟩ supplied valuation) :
    Valued ⟨graph, library, config, nested'⟩ supplied valuation :=
  fun id node found => alike.evalNode (valued id node found)

/-- What a graph evaluates to by a schedule it evaluates to by any other one, where instances come
to the same. -/
theorem Library.NestAlike.evaluateBy_ok (alike : library.NestAlike nested nested')
    (orderable : graph.Orderable) {schedule schedule' : Schedule}
    (order : graph.IsOrder (schedule graph)) (order' : graph.IsOrder (schedule' graph))
    {outputs : Assignment}
    (done : Setting.evaluateBy schedule ⟨graph, library, config, nested⟩ supplied = .ok outputs) :
    ∃ outputs', Setting.evaluateBy schedule' ⟨graph, library, config, nested'⟩ supplied =
      .ok outputs' ∧ Assignment.Equal outputs outputs' := by
  rw [Setting.evaluateBy_eq] at done
  obtain ⟨ids, ready, done⟩ := bind_eq_ok_iff.1 done
  obtain ⟨⟨values, reported⟩, swept, rfl⟩ := map_eq_ok_iff.1 done
  obtain ⟨valued, delivered⟩ := sweep_valued orderable.sound orderable.acyclic orderable.apart
    order swept
  have valued' : Valued ⟨graph, library, config, nested'⟩ supplied (valuation values) :=
    alike.valued valued
  obtain ⟨values', outputs', swept', delivered'⟩ :=
    sweep_of_valued orderable.sound orderable.acyclic orderable.apart order' valued'
  refine ⟨outputs', ?_, fun name => Option.ext fun value => ?_⟩
  · have ready' : prepare ⟨graph, library, config, nested'⟩ supplied = .ok ids := ready
    rw [Setting.evaluateBy_eq, ready']
    show (sweep _ supplied (schedule' graph) .empty .empty).map Prod.snd = _
    rw [swept']
    rfl
  · exact (delivered name value).trans (delivered' name value).symm

/-- Evaluations by two schedules concur where instances come to the same. -/
theorem Library.NestAlike.concurs (alike : library.NestAlike nested nested')
    (orderable : graph.Orderable) {schedule schedule' : Schedule}
    (order : graph.IsOrder (schedule graph)) (order' : graph.IsOrder (schedule' graph)) :
    Concur Assignment.Equal
      (Setting.evaluateBy schedule ⟨graph, library, config, nested⟩ supplied)
      (Setting.evaluateBy schedule' ⟨graph, library, config, nested'⟩ supplied) :=
  .of_forth_back (fun _ done => alike.evaluateBy_ok orderable order order' done) fun _ done =>
    (alike.symm.evaluateBy_ok orderable order' order done).imp fun _ both => both.1

/-- Instances come to the same by two schedules, to any depth of nesting. -/
theorem nestAlike_nestedBy
    (orderable : ∀ group definition, library.get? group = some definition → definition.Orderable)
    {schedule schedule' : Schedule}
    (orders : ∀ group definition, library.get? group = some definition →
      definition.IsOrder (schedule definition))
    (orders' : ∀ group definition, library.get? group = some definition →
      definition.IsOrder (schedule' definition)) (config : EvalConfig) (depth : Nat) :
    library.NestAlike (nestedBy schedule library config depth)
      (nestedBy schedule' library config depth) := by
  induction depth with
  | zero => exact .none
  | succ depth ih =>
    exact .some fun group definition supplied found => ih.concurs
      (orderable group definition found) (orders group definition found)
      (orders' group definition found)

end

/-- Evaluations of an acyclic sound graph with acyclic sound definitions, none of which shows two
outputs of one name, concur by any two schedules of orders: they give the same values to the same
names, or are both refused. -/
theorem evaluateBy_concurs {graph : Graph} {library : Library} (orderable : graph.Orderable)
    (definitions : ∀ group definition, library.get? group = some definition →
      definition.Orderable)
    {schedule schedule' : Schedule} (orders : schedule.Orders graph library)
    (orders' : schedule'.Orders graph library) (config : EvalConfig) (supplied : Assignment) :
    Concur Assignment.Equal (evaluateBy schedule graph library config supplied)
      (evaluateBy schedule' graph library config supplied) :=
  (nestAlike_nestedBy definitions orders.definitions orders'.definitions config
    config.maxDepth).concurs orderable orders.outermost orders'.outermost

/-- A graph of two inputs and an output. -/
def Graph.twoInputs : Graph :=
  ((((Graph.empty "root").addInput "a" .scalar).2.addInput "b" .scalar).2.addOutput "o" .scalar).2

/-- When the first of two inputs feeds the output, there are orders that begin with either input. -/
theorem Graph.isOrder_of_first_linked {graph : Graph}
    (linked : twoInputs.connect ⟨0, 0⟩ ⟨2, 0⟩ = .ok graph) :
    graph.Orderable ∧ graph.IsOrder [0, 1, 2] ∧ graph.IsOrder [1, 0, 2] := by
  have first := (sound_empty "root").addInput "a" .scalar
  have second := first.sound.addInput "b" .scalar
  have third : AddsOutput _ twoInputs "o" .scalar 2 := second.sound.addOutput "o" .scalar
  have connects := third.sound.connect linked
  have unlinked (target : Socket) : twoInputs.source? target = none := by
    rw [third.source?, second.source?, first.source?, (sound_empty _).source?_eq_none_iff]
    simp [empty]
  have leads {a b : Nat} (leads : graph.Leads a b) : a = 0 ∧ b = 2 := by
    rcases connects.leads leads with ⟨source, target, old, -⟩ | new
    · rw [unlinked] at old
      cases old
    · exact new
  have acyclic : graph.Acyclic := by
    intro id path
    obtain ⟨next, first, -⟩ := Relation.TransGen.head'_iff.1 path
    obtain ⟨last, -, second⟩ := Relation.TransGen.tail'_iff.1 path
    exact absurd ((leads first).1.symm.trans (leads second).2) (by decide)
  have here (id : Nat) : (graph.node? id).isSome = true ↔ id < 3 := by
    rw [connects.node?]
    rcases id with _ | _ | _ | id
    · simp; rfl
    · simp; rfl
    · simp; rfl
    · show _ ↔ id + 3 < 3
      simp; rfl
  have output {id : Nat} {shown : Node × OutputPort} (found : graph.shownOutput? id = some shown) :
      id = 2 := by
    obtain ⟨node, port⟩ := shown
    obtain ⟨found, op, -⟩ := shownOutput?_eq_some_iff.1 found
    have below := (here id).1 (Option.isSome_iff_exists.2 ⟨_, found⟩)
    rw [connects.node?] at found
    obtain rfl | rfl | rfl : id = 0 ∨ id = 1 ∨ id = 2 := by omega
    · cases found; cases op
    · cases found; cases op
    · rfl
  have sorted (ids : List Nat) (apart : ids.Pairwise fun a b => ¬ (b = 0 ∧ a = 2)) :
      ids.Pairwise fun a b => ¬ graph.Leads b a :=
    apart.imp fun apart path => apart (leads path)
  refine ⟨⟨connects.sound, acyclic, fun id id' _ _ first second _ => ?_⟩,
    ⟨by decide, fun id => ?_, sorted _ (by decide)⟩, ⟨by decide, fun id => ?_, sorted _ (by decide)⟩⟩
  · rw [output first, output second]
  · rw [here]; simp; omega
  · rw [here]; simp; omega

/-- When the first of two inputs feeds the output, the graph evaluates alike by orders that begin
with either input, and the definition of its group is evaluated so as well. -/
theorem evaluateBy_either_input_first :
    ∃ graph, Graph.twoInputs.connect ⟨0, 0⟩ ⟨2, 0⟩ = .ok graph ∧
      graph.IsOrder [0, 1, 2] ∧ graph.IsOrder [1, 0, 2] ∧
      Concur Assignment.Equal
        (evaluateBy (fun _ => [0, 1, 2]) graph (.ofList [("g", graph)]) .standard
          (.ofList [("a", .scalar 1.0)]))
        (evaluateBy (fun _ => [1, 0, 2]) graph (.ofList [("g", graph)]) .standard
          (.ofList [("a", .scalar 1.0)])) := by
  obtain ⟨graph, linked⟩ : ∃ graph, Graph.twoInputs.connect ⟨0, 0⟩ ⟨2, 0⟩ = .ok graph := ⟨_, rfl⟩
  obtain ⟨orderable, early, late⟩ := Graph.isOrder_of_first_linked linked
  have only (group : String) (definition : Graph)
      (found : (Table.ofList [("g", graph)]).get? group = some definition) : definition = graph := by
    rw [Table.get?_ofList (by simp)] at found
    simp only [List.mem_singleton, Prod.mk.injEq] at found
    exact found.2
  exact ⟨graph, linked, early, late, evaluateBy_concurs orderable
    (fun group other found => only group other found ▸ orderable)
    ⟨early, fun group other found => only group other found ▸ early⟩
    ⟨late, fun group other found => only group other found ▸ late⟩ .standard _⟩

end Shadeloom
