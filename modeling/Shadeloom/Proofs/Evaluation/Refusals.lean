import Mathlib
import Shadeloom.Proofs.Evaluation.Sweep
import Shadeloom.Proofs.Graph.Runnable
/-!
# Refusals of evaluations

Why the evaluation of a runnable graph may be refused: for the names of the assignment, for a node
that has no value outside of a renderer, or for instances that are nested too deep. It is never
refused for the shape of the graph or of a definition, at any depth of nesting.
-/
namespace Shadeloom

/-- The refusals that tell of a graph or of a library that is out of order. -/
inductive EvalError.IsStructural : EvalError → Prop
  | cycleDetected (node : Nat) : IsStructural (.cycleDetected node)
  | unknownGroup (node : Nat) (group : String) : IsStructural (.unknownGroup node group)
  | notComputable (node : Nat) (op : String) : IsStructural (.notComputable node op)
  | vanished (node : Nat) : IsStructural (.vanished node)
  | strayLink (number : Nat) : IsStructural (.strayLink number)

open Machine

/-- The nodes that compute their values from their inputs alone are refused for the renderer or for
a factor between no stops. -/
theorem NodeOp.eval_error {op : NodeOp} {inputs : List Value} {node : Nat} {error : EvalError}
    (refused : op.eval inputs node = .error error) (port : op.isPort = false)
    (group : ∀ name, op ≠ .group name) : ¬ error.IsStructural := by
  intro structural
  unfold NodeOp.eval at refused
  split at refused
  all_goals try (cases refused; done)
  all_goals try (cases refused; cases structural; done)
  · split at refused
    · cases refused
    · cases refused; cases structural
    · cases refused; cases structural
  · cases port
  · cases port
  · rename_i name; exact group name rfl

/-- Evaluators whose refusals are never structural for definitions of a runnable library. -/
def IsFaultless (library : Library) (nested : Option Evaluator) : Prop :=
  ∀ evaluate, nested = some evaluate → ∀ graph supplied error, graph.Runnable library →
    evaluate graph supplied = .error error → ¬ error.IsStructural

/-- A node of a runnable graph is never refused for the shape of the graph. -/
theorem Machine.evalNode_error {setting : Setting}
    (runnable : Library.Runnable setting.library) (faultless : IsFaultless setting.library setting.nested)
    {supplied : Assignment} {id : Nat} {node : Node} {inputs : List Value}
    (refers : node.Refers setting.library) {error : EvalError}
    (refused : evalNode setting supplied id node inputs = .error error) :
    ¬ error.IsStructural := by
  unfold evalNode at refused
  split at refused
  · cases refused
  · cases refused
  · rename_i group op
    unfold evalInstance at refused
    split at refused
    · cases refused
      intro structural
      cases structural
    · rename_i evaluate nested
      split at refused
      · rename_i unknown
        have known := refers group op
        rw [← Table.isSome_get?, unknown] at known
        cases known
      · rename_i definition found
        cases inner : evaluate definition
            (.ofList ((node.inputs.map InputSocket.name).zip inputs)) with
        | error error' =>
          rw [inner] at refused
          cases refused
          exact faultless evaluate nested _ _ _ (runnable group definition found).2 inner
        | ok outputs =>
          rw [inner] at refused
          cases refused
  · rename_i other notInput notOutput notGroup
    refine NodeOp.eval_error refused ?_ notGroup
    cases op : node.op <;> first | rfl | exact absurd op (notInput _) | exact absurd op (notOutput _)

/-- A runnable graph is never refused for its shape where its instances are not. -/
theorem Setting.evaluate_error (setting : Setting) (graph : setting.graph.Runnable setting.library)
    (library : Library.Runnable setting.library)
    (faultless : IsFaultless setting.library setting.nested) {supplied : Assignment}
    {error : EvalError} (refused : setting.evaluate supplied = .error error) :
    ¬ error.IsStructural := by
  rw [Setting.evaluate_eq] at refused
  obtain ⟨order, ready, isOrder⟩ | ⟨name, -, -, ready⟩ | ⟨name, -, -, -, ready⟩ :=
    prepare_spec graph.sound graph.acyclic supplied
  · rw [ready] at refused
    change (sweep setting supplied order .empty .empty).map Prod.snd = .error error at refused
    cases swept : sweep setting supplied order .empty .empty with
    | ok result => rw [swept] at refused; cases refused
    | error error' =>
      rw [swept] at refused
      cases refused
      obtain ⟨id, mem, ⟨absent, -⟩ | ⟨node, inputs, found, stopped⟩⟩ := sweep_error swept
      · have here := (isOrder.mem id).1 mem
        rw [absent] at here
        cases here
      · exact evalNode_error library faultless (graph.refers id node found) stopped
  · rw [ready] at refused
    cases refused
    intro structural
    cases structural
  · rw [ready] at refused
    cases refused
    intro structural
    cases structural

/-- Nested evaluations are never refused for the shape of a graph, to any depth. -/
theorem isFaultless_nestedWithin {library : Library} (runnable : Library.Runnable library)
    (config : EvalConfig) (depth : Nat) :
    IsFaultless library (nestedWithin library config depth) := by
  induction depth with
  | zero => intro evaluate none; cases none
  | succ depth ih =>
    intro evaluate same graph supplied error runs refused
    cases same
    exact Setting.evaluate_error ⟨graph, library, config, _⟩ runs runnable ih refused

/-- The evaluation of a runnable graph with a runnable library is never refused for the shape of a
graph. -/
theorem Graph.Runnable.evaluate_error {graph : Graph} {library : Library}
    (runs : graph.Runnable library) (runnable : Library.Runnable library) {config : EvalConfig}
    {supplied : Assignment} {error : EvalError}
    (refused : evaluate graph library config supplied = .error error) : ¬ error.IsStructural :=
  Setting.evaluate_error (.outermost graph library config) runs runnable
    (isFaultless_nestedWithin runnable config config.maxDepth) refused

end Shadeloom
