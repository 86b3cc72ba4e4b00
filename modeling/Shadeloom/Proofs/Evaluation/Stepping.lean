import Mathlib
import Shadeloom.Proofs.Evaluation.Orders
/-!
# Evaluation step by step

A machine that has started may be driven by steps, by runs, and by any mixture of both. Every step
evaluates the next node of the order, so that the machine knows the values of exactly the nodes
before it; the step after the last node completes, and a step at a node that is refused stops with
the values known so far. A run is nothing but the steps that are left: whatever calls bring a
machine to its end, they bring it to the same one.
-/
namespace Shadeloom

/-- A call that drives a machine. -/
inductive Call where
  | step
  | run
  deriving Repr, DecidableEq

namespace Machine

/-- Makes a call. -/
def call (setting : Setting) (machine : Machine) : Call → Machine
  | .step => step setting machine
  | .run => run setting machine

/-- Makes calls in turn. -/
def callAll (setting : Setting) (machine : Machine) (calls : List Call) : Machine :=
  calls.foldl (call setting) machine

variable {setting : Setting} {supplied : Assignment} {order : List Nat} {machine : Machine}

/-- A call leaves a machine alone that does not run. -/
theorem call_stopped (stopped : machine.phase ≠ .running) (how : Call) :
    call setting machine how = machine := by
  cases how with
  | step => exact stepMany_stopped 1 stopped
  | run => exact stepMany_stopped _ stopped

/-- Calls leave a machine alone that does not run. -/
theorem callAll_stopped (stopped : machine.phase ≠ .running) (calls : List Call) :
    callAll setting machine calls = machine := by
  induction calls with
  | nil => rfl
  | cons how rest ih =>
    rw [callAll, List.foldl_cons, call_stopped stopped how]
    exact ih

/-- Calls in two parts are made one part after the other. -/
theorem callAll_append (early late : List Call) :
    callAll setting machine (early ++ late) =
      callAll setting (callAll setting machine early) late :=
  List.foldl_append

/-- A step stops a running machine or takes it to the next node of its order. -/
theorem step_advances (running : machine.phase = .running) :
    (step setting machine).phase ≠ .running ∨
      machine.cursor < machine.order.length ∧ (step setting machine).order = machine.order ∧
        (step setting machine).cursor = machine.cursor + 1 := by
  have steps := steps_step setting running
  generalize step setting machine = after at steps ⊢
  cases steps with
  | completes _ => exact .inl nofun
  | refused _ _ => exact .inl nofun
  | evaluates next _ _ => exact .inr ⟨(List.getElem?_eq_some_iff.1 next).1, rfl, rfl⟩

/-- A run is a step that a run follows. -/
theorem run_step (setting : Setting) (machine : Machine) :
    run setting (step setting machine) = run setting machine := by
  by_cases running : machine.phase = .running
  · show _ = stepMany setting (machine.order.length - machine.cursor) (step setting machine)
    rcases step_advances running with stopped | ⟨below, ordered, cursor⟩
    · rw [run, stepMany_stopped _ stopped, stepMany_stopped _ stopped]
    · have left : (step setting machine).order.length - (step setting machine).cursor + 1 =
          machine.order.length - machine.cursor := by
        rw [ordered, cursor]
        omega
      rw [run, left]
  · rw [show step setting machine = machine from stepMany_stopped 1 running]

/-- A run comes to an end. -/
theorem run_stops (setting : Setting) (machine : Machine) :
    (run setting machine).phase ≠ .running := by
  generalize left : machine.order.length - machine.cursor = rest
  induction rest using Nat.strong_induction_on generalizing machine with
  | h rest ih =>
    by_cases running : machine.phase = .running
    · rw [← run_step]
      rcases step_advances running with stopped | ⟨below, ordered, cursor⟩
      · rwa [run, stepMany_stopped _ stopped]
      · refine ih _ ?_ _ rfl
        rw [ordered, cursor]
        omega
    · rwa [run, stepMany_stopped _ running]

/-- What holds of a running machine that has evaluated a number of nodes of its order. -/
structure HasEvaluated (setting : Setting) (supplied : Assignment) (order : List Nat)
    (count : Nat) (machine : Machine) : Prop where
  running : machine.phase = .running
  ordered : machine.order = order
  cursor : machine.cursor = count
  given : machine.supplied = supplied
  swept : sweep setting supplied (order.take count) .empty .empty =
    .ok (machine.values, machine.outputs)
  keys : machine.values.keys = order.take count
  traced : machine.trace.map TraceEntry.node = if setting.config.trace then order.take count else []

/-- A machine that was started has evaluated nothing. -/
theorem hasEvaluated_start (ready : prepare setting supplied = .ok order) :
    HasEvaluated setting supplied order 0 (fresh.start setting supplied) := by
  unfold start
  rw [ready]
  exact ⟨rfl, rfl, rfl, rfl, rfl, rfl, by simp [fresh]⟩

/-- What a machine knows that has evaluated nodes is what a sweep over them comes to. -/
theorem HasEvaluated.eq_of_sweep {count : Nat} {values : Table Nat (List Value)}
    {outputs : Assignment} (has : HasEvaluated setting supplied order count machine)
    (swept : sweep setting supplied (order.take count) .empty .empty = .ok (values, outputs)) :
    machine.values = values ∧ machine.outputs = outputs :=
  Prod.mk.inj (Except.ok.inj (has.swept.symm.trans swept))

/-- A machine that has evaluated all nodes completes. -/
theorem HasEvaluated.step_last {count : Nat}
    (has : HasEvaluated setting supplied order count machine) (last : order[count]? = none) :
    (step setting machine).phase = .completed machine.outputs := by
  have last : machine.order[machine.cursor]? = none := by rw [has.ordered, has.cursor, last]
  simp only [step, has.running, last]

/-- A step at a node evaluates it, or stops with the values of the nodes before it. -/
theorem HasEvaluated.step_next {count id : Nat} (distinct : order.Nodup)
    (has : HasEvaluated setting supplied order count machine) (next : order[count]? = some id) :
    HasEvaluated setting supplied order (count + 1) (step setting machine) ∨
      ∃ error, sweep setting supplied (order.take (count + 1)) .empty .empty = .error error ∧
        (step setting machine).phase = .failed error machine.values := by
  obtain rfl := has.given
  have taken : order.take (count + 1) = order.take count ++ [id] := by
    rw [List.take_add_one, next]
    rfl
  have swept : sweep setting machine.supplied (order.take (count + 1)) .empty .empty =
      sweep setting machine.supplied [id] machine.values machine.outputs := by
    rw [taken, sweep_append, has.swept]
    rfl
  have new : machine.values.contains id = false := by
    rw [← Bool.not_eq_true, Table.contains_iff_mem, has.keys]
    intro mem
    have apart := (List.take_sublist (count + 1) order).nodup distinct
    rw [taken, List.nodup_append] at apart
    exact apart.2.2 id mem id (List.mem_singleton_self id) rfl
  have there : machine.order[machine.cursor]? = some id := by rw [has.ordered, has.cursor, next]
  have steps := steps_step setting has.running
  generalize step setting machine = after at steps ⊢
  cases steps with
  | completes last => cases there.symm.trans last
  | refused here refused =>
    cases there.symm.trans here
    exact .inr ⟨_, swept.trans refused, rfl⟩
  | @evaluates _ node produced here found computed =>
    cases there.symm.trans here
    refine .inl ⟨has.running, has.ordered, congrArg (· + 1) has.cursor, rfl,
      swept.trans (sweep_singleton found computed), ?_, ?_⟩
    · show (machine.values.insert id produced).keys = _
      rw [Table.keys_insert, new, taken, has.keys]
      rfl
    · have traced := has.traced
      dsimp only
      rw [taken]
      split at traced
      · rename_i recorded
        simp [recorded, traced]
      · rename_i unrecorded
        simpa [unrecorded] using traced

/-- As many steps as nodes that are not refused evaluate exactly these. -/
theorem hasEvaluated_of_sweep (ready : prepare setting supplied = .ok order)
    (distinct : order.Nodup) {count : Nat} {known : Table Nat (List Value) × Assignment}
    (within : count ≤ order.length)
    (swept : sweep setting supplied (order.take count) .empty .empty = .ok known) :
    HasEvaluated setting supplied order count
      (callAll setting (fresh.start setting supplied) (List.replicate count .step)) := by
  induction count generalizing known with
  | zero => exact hasEvaluated_start ready
  | succ count ih =>
    obtain ⟨id, next⟩ : ∃ id, order[count]? = some id :=
      ⟨order[count], List.getElem?_eq_getElem within⟩
    have taken : order.take (count + 1) = order.take count ++ [id] := by
      rw [List.take_add_one, next]
      rfl
    obtain ⟨early, first, -⟩ : ∃ early, sweep setting supplied (order.take count) .empty .empty =
        .ok early ∧ sweep setting supplied [id] early.1 early.2 = .ok known := by
      rw [taken, sweep_append] at swept
      exact bind_eq_ok_iff.1 swept
    rw [List.replicate_succ', callAll_append]
    rcases (ih (by omega) first).step_next distinct next with has | ⟨error, refused, -⟩
    · exact has
    · rw [swept] at refused
      cases refused

/-- Calls that leave a started machine running are steps, one for each node that it has
evaluated. -/
theorem hasEvaluated_of_running (ready : prepare setting supplied = .ok order)
    (distinct : order.Nodup) {calls : List Call}
    (running : (callAll setting (fresh.start setting supplied) calls).phase = .running) :
    calls = List.replicate calls.length .step ∧ calls.length ≤ order.length ∧
      HasEvaluated setting supplied order calls.length
        (callAll setting (fresh.start setting supplied) calls) := by
  induction calls using List.reverseRecOn with
  | nil => exact ⟨rfl, Nat.zero_le _, hasEvaluated_start ready⟩
  | append_singleton calls how ih =>
    rw [callAll_append] at running ⊢
    have before : (callAll setting (fresh.start setting supplied) calls).phase = .running := by
      by_contra stopped
      rw [callAll_stopped stopped] at running
      exact stopped running
    obtain ⟨steps, within, has⟩ := ih before
    cases how with
    | run => exact absurd running (run_stops setting _)
    | step =>
      have below : calls.length < order.length := by
        by_contra out
        have last : order[calls.length]? = none := List.getElem?_eq_none (by omega)
        have completed := has.step_last last
        change (step setting _).phase = .running at running
        rw [completed] at running
        cases running
      rcases has.step_next distinct (List.getElem?_eq_getElem below) with has' | ⟨error, -, failed⟩
      · rw [List.length_append, List.length_singleton, List.replicate_succ', ← steps]
        exact ⟨rfl, below, has'⟩
      · change (step setting _).phase = .running at running
        rw [failed] at running
        cases running

/-- A run after calls comes to what a run comes to at once. -/
theorem run_callAll (setting : Setting) (machine : Machine) (calls : List Call) :
    run setting (callAll setting machine calls) = run setting machine := by
  induction calls using List.reverseRecOn with
  | nil => rfl
  | append_singleton calls how ih =>
    rw [callAll_append, ← ih]
    cases how with
    | step => exact run_step setting _
    | run => exact stepMany_stopped _ (run_stops setting _)

/-- All nodes of the beginning of an order are evaluated, or there is a first one that is
refused. -/
theorem sweep_take (setting : Setting) (supplied : Assignment) (order : List Nat) (count : Nat) :
    (∃ known, sweep setting supplied (order.take count) .empty .empty = .ok known) ∨
      ∃ before < count, ∃ known error,
        sweep setting supplied (order.take before) .empty .empty = .ok known ∧
          sweep setting supplied (order.take (before + 1)) .empty .empty = .error error := by
  induction count with
  | zero => exact .inl ⟨_, rfl⟩
  | succ count ih =>
    rcases ih with ⟨known, swept⟩ | ⟨before, below, first⟩
    · cases next : sweep setting supplied (order.take (count + 1)) .empty .empty with
      | ok later => exact .inl ⟨later, rfl⟩
      | error error => exact .inr ⟨count, count.lt_succ_self, known, error, swept, next⟩
    · exact .inr ⟨before, below.trans count.lt_succ_self, first⟩

/-- A started machine completes with one step more than there are nodes if none is refused. -/
theorem completed_of_sweep (ready : prepare setting supplied = .ok order) (distinct : order.Nodup)
    {values : Table Nat (List Value)} {outputs : Assignment}
    (swept : sweep setting supplied order .empty .empty = .ok (values, outputs)) :
    (callAll setting (fresh.start setting supplied)
      (List.replicate (order.length + 1) .step)).phase = .completed outputs := by
  have all : sweep setting supplied (order.take order.length) .empty .empty =
      .ok (values, outputs) := by rw [List.take_length, swept]
  have has := hasEvaluated_of_sweep ready distinct le_rfl all
  have completed := has.step_last (List.getElem?_eq_none le_rfl)
  rw [(has.eq_of_sweep all).2] at completed
  rw [List.replicate_succ', callAll_append]
  exact completed

/-- A started machine fails at the first node that is refused, with the values of those before. -/
theorem failed_of_sweep (ready : prepare setting supplied = .ok order) (distinct : order.Nodup)
    {count : Nat} (below : count < order.length) {values : Table Nat (List Value)}
    {outputs : Assignment} {error : EvalError}
    (swept : sweep setting supplied (order.take count) .empty .empty = .ok (values, outputs))
    (refused : sweep setting supplied (order.take (count + 1)) .empty .empty = .error error) :
    values.keys = order.take count ∧
      (callAll setting (fresh.start setting supplied)
        (List.replicate (count + 1) .step)).phase = .failed error values := by
  have has := hasEvaluated_of_sweep ready distinct below.le swept
  rw [← (has.eq_of_sweep swept).1, List.replicate_succ', callAll_append]
  rcases has.step_next distinct (List.getElem?_eq_getElem below) with has' | ⟨error', here, failed⟩
  · rw [has'.swept] at refused
    cases refused
  · rw [refused] at here
    cases here
    exact ⟨has.keys, failed⟩

/-- What it means that the steps of a started machine go through an order node by node, and that
its runs are the steps that are left. -/
structure StepsAsItRuns (setting : Setting) (supplied : Assignment) (order : List Nat)
    (started : Machine) : Prop where
  /-- The machine runs after a step for each of the first nodes if none of these is refused. -/
  evaluates : ∀ count known, count ≤ order.length →
    sweep setting supplied (order.take count) .empty .empty = .ok known →
      HasEvaluated setting supplied order count
        (callAll setting started (List.replicate count .step))
  /-- One more step after all nodes completes. -/
  completes : ∀ values outputs,
    sweep setting supplied order .empty .empty = .ok (values, outputs) →
      (callAll setting started (List.replicate (order.length + 1) .step)).phase =
        .completed outputs
  /-- The step at the first node that is refused fails with the values of the nodes before it. -/
  fails : ∀ count values outputs error, count < order.length →
    sweep setting supplied (order.take count) .empty .empty = .ok (values, outputs) →
      sweep setting supplied (order.take (count + 1)) .empty .empty = .error error →
        values.keys = order.take count ∧
          (callAll setting started (List.replicate (count + 1) .step)).phase = .failed error values
  /-- After calls of any kind the machine runs only if they were steps, one for each of the first
  nodes. -/
  underway : ∀ calls, (callAll setting started calls).phase = .running →
    calls = List.replicate calls.length .step ∧ calls.length ≤ order.length ∧
      HasEvaluated setting supplied order calls.length (callAll setting started calls)
  /-- No calls change a machine that came to its end. -/
  final : ∀ calls more, (callAll setting started calls).phase ≠ .running →
    callAll setting (callAll setting started calls) more = callAll setting started calls
  /-- All calls that bring the machine to an end bring it to that of a single run. -/
  once : ∀ calls, (callAll setting started calls).phase ≠ .running →
    callAll setting started calls = run setting started
  /-- A single run brings the machine to its end. -/
  ends : (∃ values outputs, sweep setting supplied order .empty .empty = .ok (values, outputs) ∧
      (run setting started).phase = .completed outputs) ∨
    ∃ count < order.length, ∃ values outputs error,
      sweep setting supplied (order.take count) .empty .empty = .ok (values, outputs) ∧
        sweep setting supplied (order.take (count + 1)) .empty .empty = .error error ∧
          (run setting started).phase = .failed error values

/-- Calls change nothing before a start. After one that is not refused, the steps go through the
order of the graph node by node, and any mixture of steps and runs that comes to an end comes to that
of one run. -/
theorem stepsAsItRuns_start (setting : Setting) (supplied : Assignment) :
    (∀ calls, callAll setting fresh calls = fresh) ∧
      ((fresh.start setting supplied).phase = .running → ∃ order, setting.graph.order = .ok order ∧
        StepsAsItRuns setting supplied order (fresh.start setting supplied)) := by
  refine ⟨callAll_stopped nofun, fun running => ?_⟩
  obtain ⟨order, ready⟩ : ∃ order, prepare setting supplied = .ok order := by
    unfold start at running
    split at running
    · rename_i order ready; exact ⟨order, ready⟩
    · cases running
  have distinct := Graph.nodup_order (order_of_prepare ready)
  have once (calls : List Call)
      (stopped : (callAll setting (fresh.start setting supplied) calls).phase ≠ .running) :
      callAll setting (fresh.start setting supplied) calls =
        run setting (fresh.start setting supplied) :=
    (stepMany_stopped _ stopped).symm.trans (run_callAll setting _ calls)
  refine ⟨order, order_of_prepare ready, {
    evaluates := fun count known => hasEvaluated_of_sweep ready distinct
    completes := fun values outputs => completed_of_sweep ready distinct
    fails := fun count values outputs error below => failed_of_sweep ready distinct below
    underway := fun calls => hasEvaluated_of_running ready distinct
    final := fun calls more stopped => callAll_stopped stopped more
    once := once
    ends := ?_ }⟩
  rcases sweep_take setting supplied order order.length with
    ⟨⟨values, outputs⟩, swept⟩ | ⟨count, below, ⟨values, outputs⟩, error, swept, refused⟩
  · rw [List.take_length] at swept
    have completed := completed_of_sweep ready distinct swept
    rw [once _ (by simp [completed])] at completed
    exact .inl ⟨values, outputs, swept, completed⟩
  · have failed := (failed_of_sweep ready distinct below swept refused).2
    rw [once _ (by simp [failed])] at failed
    exact .inr ⟨count, below, values, outputs, error, swept, refused, failed⟩

/-- A machine for a graph with two inputs, the first of which feeds the output, steps as it
runs. -/
theorem stepsAsItRuns_start_two_inputs :
    ∃ graph, Graph.twoInputs.connect ⟨0, 0⟩ ⟨2, 0⟩ = .ok graph ∧
      (fresh.start (.outermost graph .empty .standard) (.ofList [("a", .scalar 1.0)])).phase =
        .running ∧
      (∀ calls, callAll (.outermost graph .empty .standard) fresh calls = fresh) ∧
        ∃ order, graph.order = .ok order ∧ order.length = 3 ∧
          StepsAsItRuns (.outermost graph .empty .standard) (.ofList [("a", .scalar 1.0)]) order
            (fresh.start (.outermost graph .empty .standard) (.ofList [("a", .scalar 1.0)])) := by
  obtain ⟨graph, linked⟩ : ∃ graph, Graph.twoInputs.connect ⟨0, 0⟩ ⟨2, 0⟩ = .ok graph := ⟨_, rfl⟩
  obtain ⟨⟨sound, acyclic, -⟩, early, -⟩ := Graph.isOrder_of_first_linked linked
  have given (name : String) (mem : name ∈ (Table.ofList [("a", Value.scalar 1.0)]).keys) :
      (graph.input? name).isSome = true := by
    obtain rfl : name = "a" := List.mem_singleton.1 mem
    cases linked
    rfl
  obtain ⟨order, ready, isOrder⟩ | ⟨name, mem, unknown, -⟩ | ⟨name, strict, -⟩ :=
    @prepare_spec (.outermost graph .empty .standard) sound acyclic (.ofList [("a", .scalar 1.0)])
  · have running : (fresh.start (.outermost graph .empty .standard)
        (.ofList [("a", .scalar 1.0)])).phase = .running := by
      unfold start
      rw [ready]
    obtain ⟨idle, later⟩ := stepsAsItRuns_start (.outermost graph .empty .standard)
      (.ofList [("a", .scalar 1.0)])
    obtain ⟨order', ordered, steps⟩ := later running
    have same : order' = order := Except.ok.inj (ordered.symm.trans (order_of_prepare ready))
    have length : order.length = 3 :=
      ((List.perm_ext_iff_of_nodup isOrder.distinct early.distinct).2 fun id =>
        (isOrder.mem id).trans (early.mem id).symm).length_eq
    exact ⟨graph, linked, running, idle, order', ordered, same ▸ length, steps⟩
  · have known := given name (Table.contains_iff_mem.1 mem)
    change graph.input? name = none at unknown
    rw [unknown] at known
    cases known
  · cases strict

end Machine

end Shadeloom
