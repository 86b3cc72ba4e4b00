import Mathlib
import Shadeloom.Proofs.Evaluation.Stepping
/-!
# The limit of nesting

An instance is evaluated by a machine of its own, and this may meet instances again, of the same
group even. The limit of nesting cuts that off, so every evaluation comes to its end, whatever the
definitions are instances of. A greater limit changes nothing else: an evaluation that was not cut
off has the same outputs, or is refused for the same reason, under every greater limit.
-/
namespace Shadeloom

open Machine

/-- The evaluation of a definition that the next step of a machine asks for. -/
inductive Machine.Calls (library : Library) (graph : Graph) (machine : Machine) :
    Graph → Assignment → Prop
  | atInstance {id : Nat} {node : Node} {group : String} {definition : Graph}
    (next : machine.order[machine.cursor]? = some id) (found : graph.node? id = some node)
    (op : node.op = .group group) (known : library.get? group = some definition) :
    Calls library graph machine definition (.ofList
      ((node.inputs.map InputSocket.name).zip (readAll graph machine.values id node)))

/-- The setting of a graph at a level of nesting, where deeper definitions are evaluated in a given
way up to the limit. -/
def Setting.atLevel (library : Library) (config : EvalConfig) (evaluate : Evaluator) (level : Nat)
    (graph : Graph) : Setting :=
  ⟨graph, library, config, if level < config.maxDepth then some evaluate else none⟩

/-- What the loop over the nodes of a machine ends in, as a loop without a bound would: step after
step while the machine runs. A step to an instance below the limit waits for the loop of a machine
for its definition, one level deeper. -/
inductive Ends (library : Library) (config : EvalConfig) : Nat → Graph → Machine → Machine → Prop
  | stopped {level : Nat} {graph : Graph} {machine : Machine}
    (stopped : machine.phase ≠ .running) : Ends library config level graph machine machine
  | step {level : Nat} {graph : Graph} {machine final : Machine}
    (ends : Graph → Assignment → Machine)
    (deeper : level < config.maxDepth → ∀ definition supplied,
      machine.Calls library graph definition supplied →
        Ends library config (level + 1) definition
          (fresh.start ⟨definition, library, config, none⟩ supplied) (ends definition supplied))
    (running : machine.phase = .running)
    (rest : Ends library config level graph
      (machine.step (.atLevel library config (fun definition supplied =>
        (ends definition supplied).result) level graph)) final) :
    Ends library config level graph machine final

section

variable {library : Library} {config : EvalConfig} {level : Nat} {graph : Graph} {machine : Machine}

/-- A node depends on how definitions are evaluated only if it is an instance. -/
theorem Machine.evalNode_atLevel_congr {evaluate evaluate' : Evaluator} {supplied : Assignment}
    {id : Nat} {node : Node} {inputs : List Value}
    (alike : level < config.maxDepth → ∀ group definition, node.op = .group group →
      library.get? group = some definition →
        evaluate definition (.ofList ((node.inputs.map InputSocket.name).zip inputs)) =
          evaluate' definition (.ofList ((node.inputs.map InputSocket.name).zip inputs))) :
    evalNode (.atLevel library config evaluate level graph) supplied id node inputs =
      evalNode (.atLevel library config evaluate' level graph) supplied id node inputs := by
  cases op : node.op with
  | group group =>
    simp only [evalNode, op, evalInstance, Setting.atLevel]
    by_cases below : level < config.maxDepth
    · simp only [if_pos below]
      cases known : library.get? group with
      | none => rfl
      | some definition => simp only [alike below group definition op known]
    · simp only [if_neg below]
  | _ => simp only [evalNode, op]

/-- A step depends on how definitions are evaluated only where it asks for that. -/
theorem Machine.step_atLevel_congr {evaluate evaluate' : Evaluator}
    (alike : level < config.maxDepth → ∀ definition supplied,
      machine.Calls library graph definition supplied →
        evaluate definition supplied = evaluate' definition supplied) :
    step (.atLevel library config evaluate level graph) machine =
      step (.atLevel library config evaluate' level graph) machine := by
  unfold step
  cases machine.phase with
  | running =>
    dsimp only
    cases next : machine.order[machine.cursor]? with
    | none => rfl
    | some id =>
      dsimp only
      unfold visit
      cases found : graph.node? id with
      | none => simp only [Setting.atLevel, found]
      | some node =>
        have same := @evalNode_atLevel_congr library config level graph evaluate evaluate'
          machine.supplied id node (readAll graph machine.values id node)
          fun below group definition op known => alike below _ _ (.atInstance next found op known)
        simp only [Setting.atLevel] at same
        simp only [Setting.atLevel, found, same]
        rfl
  | _ => rfl

/-- The setting in which evaluation comes to a graph at a level. -/
def Setting.reached (library : Library) (config : EvalConfig) (level : Nat) (graph : Graph) :
    Setting :=
  ⟨graph, library, config, nestedWithin library config (config.maxDepth - level)⟩

/-- What a run of a machine for a definition ends in. -/
def Machine.endOf (library : Library) (config : EvalConfig) (level : Nat) (definition : Graph)
    (supplied : Assignment) : Machine :=
  run (.reached library config level definition)
    (fresh.start ⟨definition, library, config, none⟩ supplied)

/-- Evaluation at a level evaluates definitions by runs of machines one level deeper. -/
theorem Setting.atLevel_endOf :
    Setting.atLevel library config (fun definition supplied =>
        (endOf library config (level + 1) definition supplied).result) level graph =
      .reached library config level graph := by
  unfold Setting.atLevel Setting.reached
  by_cases below : level < config.maxDepth
  · have one : config.maxDepth - level = config.maxDepth - (level + 1) + 1 := by omega
    rw [if_pos below, one]
    rfl
  · have none : config.maxDepth - level = 0 := by omega
    rw [if_neg below, none]
    rfl

/-- A loop ends in what a run ends in. -/
theorem Ends.eq_run {final : Machine} (ends : Ends library config level graph machine final) :
    final = run (.reached library config level graph) machine := by
  induction ends with
  | stopped stopped => exact (stepMany_stopped _ stopped).symm
  | @step level graph machine final ends deeper running rest inner ih =>
    have same : Machine.step (.atLevel library config (fun definition supplied =>
        (ends definition supplied).result) level graph) machine =
          Machine.step (.reached library config level graph) machine := by
      rw [← Setting.atLevel_endOf]
      exact step_atLevel_congr fun below definition supplied calls =>
        congrArg result (inner below definition supplied calls)
    rw [ih, same, run_step]

/-- A run is a loop: the levels that are left bound how deep loops are nested, and the nodes that
are left bound how often each goes around. -/
theorem ends_run (library : Library) (config : EvalConfig) (level : Nat) (graph : Graph)
    (machine : Machine) :
    Ends library config level graph machine
      (run (.reached library config level graph) machine) := by
  generalize depth : config.maxDepth - level = levels
  induction levels using Nat.strong_induction_on generalizing level graph machine with
  | h levels deeper =>
    generalize left : machine.order.length - machine.cursor = nodes
    induction nodes using Nat.strong_induction_on generalizing machine with
    | h nodes later =>
      by_cases running : machine.phase = .running
      · refine .step (endOf library config (level + 1)) (fun below definition supplied _ => ?_)
          running ?_
        · exact deeper _ (by omega) (level + 1) definition _ rfl
        · rw [Setting.atLevel_endOf, ← run_step]
          rcases step_advances running with stopped | ⟨below, ordered, cursor⟩
          · rw [run, stepMany_stopped _ stopped]
            exact .stopped stopped
          · refine later _ ?_ _ rfl
            rw [ordered, cursor]
            omega
      · rw [run, stepMany_stopped _ running]
        exact .stopped running

/-- A step does not take a machine back to before its start. -/
theorem Machine.step_ne_ready {setting : Setting} (started : machine.phase ≠ .ready) :
    (step setting machine).phase ≠ .ready := by
  by_cases running : machine.phase = .running
  · have steps := steps_step setting running
    generalize step setting machine = after at steps ⊢
    cases steps with
    | completes _ => exact nofun
    | refused _ _ => exact nofun
    | evaluates _ _ _ => exact started
  · rwa [show step setting machine = machine from stepMany_stopped 1 running]

/-- Steps in number do not take a machine back to before its start. -/
theorem Machine.stepMany_ne_ready {setting : Setting} (count : Nat)
    (started : machine.phase ≠ .ready) : (stepMany setting count machine).phase ≠ .ready := by
  induction count generalizing machine with
  | zero => exact started
  | succ count ih => exact ih (step_ne_ready started)

/-- The machine for an evaluation completes with its outputs or fails with its error. -/
theorem Machine.phase_endOf (library : Library) (config : EvalConfig) (level : Nat) (graph : Graph)
    (supplied : Assignment) :
    (∃ outputs, (endOf library config level graph supplied).phase = .completed outputs ∧
        (endOf library config level graph supplied).result = .ok outputs) ∨
      ∃ error values, (endOf library config level graph supplied).phase = .failed error values ∧
        (endOf library config level graph supplied).result = .error error := by
  have stopped : (endOf library config level graph supplied).phase ≠ .running := run_stops _ _
  have started : (fresh.start ⟨graph, library, config, none⟩ supplied).phase ≠ .ready := by
    unfold start
    split <;> exact nofun
  have gone : (endOf library config level graph supplied).phase ≠ .ready :=
    stepMany_ne_ready _ started
  unfold result
  cases phase : (endOf library config level graph supplied).phase with
  | ready => exact absurd phase gone
  | running => exact absurd phase stopped
  | completed outputs => exact .inl ⟨outputs, rfl, rfl⟩
  | failed error values => exact .inr ⟨error, values, rfl, rfl⟩

end

/-- Whether the second of two results is what the first one is, unless that was cut off at the
limit of nesting. -/
inductive CutOff {α : Type} : Except EvalError α → Except EvalError α → Prop
  | cut (node limit : Nat) (result : Except EvalError α) :
    CutOff (.error (.recursionLimitExceeded node limit)) result
  | same (result : Except EvalError α) : CutOff result result

/-- Steps after results that may be cut off may be cut off. -/
theorem CutOff.bind {α β : Type} {first second : Except EvalError α}
    {next next' : α → Except EvalError β} (early : CutOff first second)
    (late : ∀ a, CutOff (next a) (next' a)) : CutOff (first >>= next) (second >>= next') := by
  cases early with
  | cut node limit result => exact .cut node limit _
  | same =>
    cases first with
    | error error => exact .same (.error error)
    | ok a => exact late a

/-- A result that may be cut off may be so when it is changed. -/
theorem CutOff.map {α β : Type} {first second : Except EvalError α} (early : CutOff first second)
    (change : α → β) : CutOff (first.map change) (second.map change) := by
  cases early with
  | cut node limit result => exact .cut node limit _
  | same => exact .same _

/-- Whether instances that are evaluated in one way are evaluated the same in a second one, unless
they are cut off. -/
inductive NestsDeeper : Option Evaluator → Option Evaluator → Prop
  | none (nested : Option Evaluator) : NestsDeeper none nested
  | some {evaluate evaluate' : Evaluator}
    (cut : ∀ graph supplied, CutOff (evaluate graph supplied) (evaluate' graph supplied)) :
    NestsDeeper (some evaluate) (some evaluate')

section

variable {graph : Graph} {library : Library} {config : EvalConfig} {limit : Nat}
  {nested nested' : Option Evaluator} {supplied : Assignment}

/-- A node has the same values under a greater limit, unless it is cut off. -/
theorem NestsDeeper.evalNode (deeper : NestsDeeper nested nested') (id : Nat) (node : Node)
    (inputs : List Value) :
    CutOff (evalNode ⟨graph, library, config, nested⟩ supplied id node inputs)
      (evalNode ⟨graph, library, { config with maxDepth := limit }, nested'⟩ supplied id node
        inputs) := by
  cases op : node.op with
  | group group =>
    simp only [Machine.evalNode, op, evalInstance]
    cases deeper with
    | none => exact .cut _ _ _
    | some cut =>
      dsimp only
      cases library.get? group with
      | none => exact .same _
      | some definition => exact (cut definition _).bind fun outputs => .same _
  | _ =>
    simp only [Machine.evalNode, op]
    exact .same _

/-- A sweep comes to the same under a greater limit, unless it is cut off. -/
theorem NestsDeeper.sweep (deeper : NestsDeeper nested nested') (ids : List Nat)
    (values : Table Nat (List Value)) (outputs : Assignment) :
    CutOff (sweep ⟨graph, library, config, nested⟩ supplied ids values outputs)
      (sweep ⟨graph, library, { config with maxDepth := limit }, nested'⟩ supplied ids values
        outputs) := by
  induction ids generalizing values outputs with
  | nil => exact .same _
  | cons id rest ih =>
    cases found : graph.node? id with
    | none =>
      rw [Machine.sweep, Machine.sweep]
      simp only [found]
      exact .same _
    | some node =>
      rw [sweep_node found, sweep_node found]
      exact (deeper.evalNode id node _).bind fun produced => ih _ _

/-- A graph has the same outputs under a greater limit, unless it is cut off. -/
theorem NestsDeeper.evaluate (deeper : NestsDeeper nested nested') (graph : Graph)
    (supplied : Assignment) :
    CutOff (Setting.evaluate ⟨graph, library, config, nested⟩ supplied)
      (Setting.evaluate ⟨graph, library, { config with maxDepth := limit }, nested'⟩ supplied) := by
  rw [Setting.evaluate_eq, Setting.evaluate_eq]
  show CutOff (prepare ⟨graph, library, config, nested⟩ supplied >>= _)
    (prepare ⟨graph, library, config, nested⟩ supplied >>= _)
  exact CutOff.bind (.same _) fun order => (deeper.sweep order .empty .empty).map Prod.snd

/-- Instances that may be nested deeper are evaluated the same, unless they are cut off. -/
theorem nestsDeeper_nestedWithin (library : Library) (config : EvalConfig) (limit : Nat)
    {depth depth' : Nat} (within : depth ≤ depth') :
    NestsDeeper (nestedWithin library config depth)
      (nestedWithin library { config with maxDepth := limit } depth') := by
  induction depth generalizing depth' with
  | zero => exact .none _
  | succ depth ih =>
    obtain ⟨more, rfl⟩ : ∃ more, depth' = more + 1 := ⟨depth' - 1, by omega⟩
    exact .some (ih (by omega)).evaluate

/-- Every evaluation comes to one end, whatever the definitions are instances of, and it keeps its
outputs under every greater limit of nesting, or its error unless that is the limit's. -/
theorem evaluate_ends_and_outlasts (graph : Graph) (library : Library) (config : EvalConfig)
    (supplied : Assignment) :
    (∃ final,
      (∀ other, Ends library config 0 graph
          (fresh.start (.outermost graph library config) supplied) other ↔ other = final) ∧
        ((∃ outputs, final.phase = .completed outputs ∧
            evaluate graph library config supplied = .ok outputs) ∨
          ∃ error values, final.phase = .failed error values ∧
            evaluate graph library config supplied = .error error)) ∧
    ∀ limit, config.maxDepth ≤ limit →
      (∀ outputs, evaluate graph library config supplied = .ok outputs →
        evaluate graph library { config with maxDepth := limit } supplied = .ok outputs) ∧
      ∀ error, evaluate graph library config supplied = .error error →
        (∀ node depth, error ≠ .recursionLimitExceeded node depth) →
          evaluate graph library { config with maxDepth := limit } supplied =
            .error error := by
  have loops (other : Machine) :
      Ends library config 0 graph (fresh.start (.outermost graph library config) supplied) other ↔
        other = endOf library config 0 graph supplied :=
    ⟨fun ends => ends.eq_run, fun same => same ▸ ends_run library config 0 graph _⟩
  have evaluated :
      (endOf library config 0 graph supplied).result = evaluate graph library config supplied := rfl
  refine ⟨⟨_, loops, evaluated ▸ phase_endOf library config 0 graph supplied⟩,
    fun limit within => ?_⟩
  have cutOff : CutOff (evaluate graph library config supplied)
      (evaluate graph library { config with maxDepth := limit } supplied) :=
    (nestsDeeper_nestedWithin library config limit within).evaluate graph supplied
  generalize evaluate graph library config supplied = result at cutOff ⊢
  cases cutOff with
  | cut node depth =>
    exact ⟨nofun, fun error refused other =>
      absurd (Except.error.inj refused).symm (other node depth)⟩
  | same => exact ⟨fun _ same => same, fun _ same _ => same⟩

end

/-- A library with a definition that has one output, and with one that is an instance of itself. -/
def Library.knotted : Library :=
  .ofList [("plain", ((Graph.empty "plain").addOutput "out" .scalar).2),
    ("knot", (Graph.empty "knot").addNode ⟨.group "knot", [], [], none⟩)]

/-- A graph with an instance of a group and with an output. -/
def Graph.instanceOf (group : String) : Graph :=
  (((Graph.empty "root").addNode ⟨.group group, [], [], none⟩).addOutput "r" .scalar).2

/-- Under the standard limit an instance has the outputs that it has under a limit of one, and one
of an unknown group is refused as it is there; one of a group that contains itself is cut off. -/
theorem evaluate_instances_outlast_one_level :
    1 ≤ 64 ∧
      evaluate (.instanceOf "plain") .knotted ⟨false, false, 64⟩ .empty =
        .ok (.ofList [("r", .scalar 0.0)]) ∧
      evaluate (.instanceOf "other") .knotted ⟨false, false, 64⟩ .empty =
        .error (.unknownGroup 0 "other") ∧
      evaluate (.instanceOf "knot") .knotted ⟨false, false, 1⟩ .empty =
        .error (.recursionLimitExceeded 0 1) := by
  have plain : evaluate (.instanceOf "plain") .knotted ⟨false, false, 1⟩ .empty =
      .ok (.ofList [("r", .scalar 0.0)]) := by decide +kernel
  have other : evaluate (.instanceOf "other") .knotted ⟨false, false, 1⟩ .empty =
      .error (.unknownGroup 0 "other") := by decide +kernel
  exact ⟨by decide,
    ((evaluate_ends_and_outlasts _ _ ⟨false, false, 1⟩ _).2 64 (by decide)).1 _ plain,
    ((evaluate_ends_and_outlasts _ _ ⟨false, false, 1⟩ _).2 64 (by decide)).2 _ other nofun,
    by decide +kernel⟩

end Shadeloom
