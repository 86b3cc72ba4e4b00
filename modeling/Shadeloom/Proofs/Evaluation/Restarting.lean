import Mathlib
import Shadeloom.Proofs.Evaluation.Stepping
/-!
# Starting again

A machine can be started at any point: before it ran, while it runs, or after it came to its end.
A start finds the order and takes the new assignment, but how far the machine is and what it knows
stay as they are. So the run after it goes on behind the nodes that have been tried, from the values
and outputs that are still known. It evaluates the graph afresh where no node has been tried; a
machine that has completed completes again at once, without any outputs.
-/
namespace Shadeloom

namespace Machine

/-- The machines that starts and calls of any number and in any order lead to. -/
inductive Reached (setting : Setting) : Machine → Prop
  | fresh : Reached setting fresh
  | start {machine : Machine} (reached : Reached setting machine) (supplied : Assignment) :
    Reached setting (machine.start setting supplied)
  | call {machine : Machine} (reached : Reached setting machine) (how : Call) :
    Reached setting (call setting machine how)

/-- What evaluating nodes in turn comes to, from values and outputs that are known. -/
inductive Arrives (setting : Setting) (supplied : Assignment) (ids : List Nat)
    (values : Table Nat (List Value)) (outputs : Assignment) : Phase → Prop
  | completed {known : Table Nat (List Value) × Assignment}
    (swept : sweep setting supplied ids values outputs = .ok known) :
    Arrives setting supplied ids values outputs (.completed known.2)
  | failed {early late : List Nat} {id : Nat} {known : Table Nat (List Value) × Assignment}
    {error : EvalError} (split : ids = early ++ id :: late)
    (swept : sweep setting supplied early values outputs = .ok known)
    (refused : sweep setting supplied [id] known.1 known.2 = .error error) :
    Arrives setting supplied ids values outputs (.failed error known.1)

variable {setting : Setting} {supplied : Assignment} {machine : Machine}

/-- What starts and calls keep of a machine, whatever has become of it. -/
structure Underway (setting : Setting) (machine : Machine) : Prop where
  /-- Nothing is known where no node has been tried. -/
  untried : machine.cursor = 0 →
    machine.values = .empty ∧ machine.outputs = .empty ∧ machine.trace = []
  within : machine.cursor ≤ machine.order.length
  /-- Nodes are tried in the order of the graph. -/
  ordered : 0 < machine.cursor ∨ machine.phase = .running →
    setting.graph.order = .ok machine.order
  /-- A machine that has completed has tried all nodes, and its outputs are gone. -/
  completed : ∀ outputs, machine.phase = .completed outputs →
    setting.graph.order = .ok machine.order ∧ machine.cursor = machine.order.length ∧
      machine.outputs = .empty

/-- A machine that has not been started knows nothing. -/
theorem underway_fresh (setting : Setting) : Underway setting fresh where
  untried _ := ⟨rfl, rfl, rfl⟩
  within := le_rfl
  ordered started := by rcases started with tried | running <;> contradiction
  completed _ done := by cases done

/-- A machine that stops with an error is still underway. -/
theorem Underway.fail (underway : Underway setting machine) (error : EvalError) :
    Underway setting (machine.fail error) where
  untried none := ⟨rfl, (underway.untried none).2⟩
  within := underway.within
  ordered started := by
    rcases started with tried | running
    · exact underway.ordered (.inl tried)
    · cases running
  completed _ done := by cases done

/-- A start keeps a machine underway. -/
theorem Underway.start (underway : Underway setting machine) (supplied : Assignment) :
    Underway setting (machine.start setting supplied) := by
  unfold Machine.start
  cases ready : prepare setting supplied with
  | error error => exact underway.fail error
  | ok order =>
    have found := order_of_prepare ready
    refine ⟨underway.untried, ?_, fun _ => found, fun _ done => by cases done⟩
    -- The order of a start before this one, if there was any, is that of the same graph.
    rcases Nat.eq_zero_or_pos machine.cursor with none | tried
    · exact none ▸ Nat.zero_le _
    · obtain rfl : machine.order = order :=
        Except.ok.inj ((underway.ordered (.inl tried)).symm.trans found)
      exact underway.within

/-- A step keeps a machine underway. -/
theorem Underway.step (underway : Underway setting machine) :
    Underway setting (step setting machine) := by
  by_cases running : machine.phase = .running
  · have found := underway.ordered (.inr running)
    have steps := steps_step setting running
    generalize Machine.step setting machine = after at steps ⊢
    cases steps with
    | completes last =>
      have all : machine.cursor = machine.order.length :=
        le_antisymm underway.within (List.getElem?_eq_none_iff.1 last)
      refine ⟨fun none => ?_, underway.within, fun _ => found, fun _ _ => ⟨found, all, rfl⟩⟩
      obtain ⟨values, -, trace⟩ := underway.untried none
      exact ⟨values, rfl, trace⟩
    | refused next _ =>
      exact ⟨fun none => absurd none (Nat.succ_ne_zero _), (List.getElem?_eq_some_iff.1 next).1,
        fun _ => found, fun _ done => by cases done⟩
    | evaluates next _ _ =>
      exact ⟨fun none => absurd none (Nat.succ_ne_zero _), (List.getElem?_eq_some_iff.1 next).1,
        fun _ => found, fun _ done => by cases running.symm.trans done⟩
  · rwa [show Machine.step setting machine = machine from stepMany_stopped 1 running]

/-- Steps in number keep a machine underway. -/
theorem Underway.stepMany (underway : Underway setting machine) (count : Nat) :
    Underway setting (stepMany setting count machine) := by
  induction count generalizing machine with
  | zero => exact underway
  | succ count ih => exact ih underway.step

/-- A machine that is reached is underway. -/
theorem Reached.underway (reached : Reached setting machine) : Underway setting machine := by
  induction reached with
  | fresh => exact underway_fresh setting
  | start _ supplied ih => exact ih.start supplied
  | call _ how ih =>
    cases how with
    | step => exact ih.step
    | run => exact ih.stepMany _

/-- Where there is nothing to evaluate, what is known already is complete. -/
theorem Arrives.of_nil {values : Table Nat (List Value)} {outputs : Assignment} {phase : Phase}
    (arrives : Arrives setting supplied [] values outputs phase) : phase = .completed outputs := by
  cases arrives with
  | completed swept => cases swept; rfl
  | failed split _ _ => simp at split

/-- Evaluating a node goes before evaluating the nodes after it. -/
theorem Arrives.cons {id : Nat} {ids : List Nat} {values : Table Nat (List Value)}
    {outputs : Assignment} {known : Table Nat (List Value) × Assignment} {phase : Phase}
    (first : sweep setting supplied [id] values outputs = .ok known)
    (rest : Arrives setting supplied ids known.1 known.2 phase) :
    Arrives setting supplied (id :: ids) values outputs phase := by
  have before (early : List Nat) : sweep setting supplied (id :: early) values outputs =
      sweep setting supplied early known.1 known.2 := by
    rw [sweep_cons, first]
    rfl
  cases rest with
  | completed swept => exact .completed ((before ids).trans swept)
  | @failed early late id' last error split swept refused =>
    exact .failed (split ▸ (List.cons_append).symm) ((before early).trans swept) refused

/-- A run evaluates the nodes that are left, from what the machine knows. -/
theorem arrives_run (running : machine.phase = .running) :
    Arrives setting machine.supplied (machine.order.drop machine.cursor) machine.values
      machine.outputs (run setting machine).phase := by
  generalize left : machine.order.drop machine.cursor = rest
  induction rest generalizing machine with
  | nil =>
    have steps := steps_step setting running
    rw [← run_step]
    generalize step setting machine = after at steps
    have none : machine.order[machine.cursor]? = none :=
      List.getElem?_eq_none_iff.2 (List.drop_eq_nil_iff.1 left)
    cases steps with
    | completes _ =>
      rw [run, stepMany_stopped _ (by simp)]
      exact @Arrives.completed _ _ _ _ _ (machine.values, machine.outputs) rfl
    | refused next _ => cases none.symm.trans next
    | evaluates next _ _ => cases none.symm.trans next
  | cons id rest ih =>
    have steps := steps_step setting running
    rw [← run_step]
    generalize step setting machine = after at steps
    have here : machine.order[machine.cursor]? = some id := by
      rw [← List.head?_drop, left, List.head?_cons]
    have later : machine.order.drop (machine.cursor + 1) = rest := by
      rw [← List.tail_drop, left, List.tail_cons]
    cases steps with
    | completes last => cases here.symm.trans last
    | refused next refused =>
      cases here.symm.trans next
      rw [run, stepMany_stopped _ (by simp [fail])]
      exact @Arrives.failed _ _ _ _ _ [] rest _ (machine.values, machine.outputs) _ rfl rfl refused
    | evaluates next found computed =>
      cases here.symm.trans next
      exact .cons (sweep_singleton found computed) (@ih { machine with
        cursor := machine.cursor + 1, values := _, outputs := _, trace := _ } running later)

/-- A machine that is started again goes on behind the nodes that have been tried, with what it
still knows; if it is refused, it stops with that. So it comes to what a machine that was never
started comes to if no node has been tried, and to no outputs at all if it has completed. -/
theorem run_start_again (reached : Reached setting machine) (supplied : Assignment) :
    (∀ error, prepare setting supplied = .error error →
      (run setting (machine.start setting supplied)).phase = .failed error machine.values) ∧
    (∀ order, prepare setting supplied = .ok order → machine.cursor ≤ order.length ∧
      Arrives setting supplied (order.drop machine.cursor) machine.values machine.outputs
        (run setting (machine.start setting supplied)).phase) ∧
    (machine.cursor = 0 →
      (run setting (machine.start setting supplied)).phase =
          (run setting (fresh.start setting supplied)).phase ∧
        (run setting (machine.start setting supplied)).trace =
          (run setting (fresh.start setting supplied)).trace) ∧
    ∀ outputs, machine.phase = .completed outputs → ∀ order,
      prepare setting supplied = .ok order →
        (run setting (machine.start setting supplied)).phase = .completed .empty := by
  have underway := reached.underway
  refine ⟨fun error refused => ?_, fun order ready => ?_, fun none => ?_,
    fun outputs done order ready => ?_⟩
  · unfold start
    rw [refused, run, stepMany_stopped _ (by simp [fail])]
    rfl
  · have within := (underway.start supplied).within
    have arrives := @arrives_run setting (machine.start setting supplied)
    unfold start at within arrives ⊢
    rw [ready] at within arrives ⊢
    exact ⟨within, arrives rfl⟩
  · obtain ⟨values, outputs, trace⟩ := underway.untried none
    unfold start
    cases prepare setting supplied with
    | ok order =>
      have same : { machine with phase := .running, order, supplied } =
          { fresh with phase := .running, order, supplied } := by
        simp only [none, values, outputs, trace, fresh]
      simp only [same, and_self]
    | error error =>
      dsimp only
      rw [run, run, stepMany_stopped _ (by simp [fail]), stepMany_stopped _ (by simp [fail])]
      exact ⟨congrArg (Phase.failed error) values, trace⟩
  · obtain ⟨found, last, empty⟩ := underway.completed outputs done
    obtain rfl : machine.order = order :=
      Except.ok.inj (found.symm.trans (order_of_prepare ready))
    have arrives := @arrives_run setting (machine.start setting supplied)
    unfold start at arrives ⊢
    rw [ready] at arrives ⊢
    have arrives := arrives rfl
    dsimp only at arrives ⊢
    rw [last, List.drop_length, empty] at arrives
    rw [last, empty]
    exact arrives.of_nil

/-- A machine for a graph with an input that feeds the output has an output when it completes; when
it is started again then, it completes without any. -/
theorem run_start_again_two_inputs :
    ∃ graph, Graph.twoInputs.connect ⟨0, 0⟩ ⟨2, 0⟩ = .ok graph ∧
      (run (.outermost graph .empty .standard) (fresh.start (.outermost graph .empty .standard)
        (.ofList [("a", .scalar 1.0)]))).phase = .completed (.ofList [("o", .scalar 1.0)]) ∧
      (run (.outermost graph .empty .standard) ((run (.outermost graph .empty .standard)
        (fresh.start (.outermost graph .empty .standard) (.ofList [("a", .scalar 1.0)]))).start
          (.outermost graph .empty .standard) (.ofList [("a", .scalar 1.0)]))).phase =
        .completed .empty := by
  obtain ⟨graph, linked⟩ : ∃ graph, Graph.twoInputs.connect ⟨0, 0⟩ ⟨2, 0⟩ = .ok graph := ⟨_, rfl⟩
  refine ⟨graph, linked, ?_, ?_⟩
  · cases linked
    decide +kernel
  · cases linked
    exact (run_start_again (.call (.start .fresh _) .run) _).2.2.2 (.ofList [("o", .scalar 1.0)])
      (by decide +kernel) [1, 0, 2] (by decide +kernel)

end Machine

end Shadeloom
