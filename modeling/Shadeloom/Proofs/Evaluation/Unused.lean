import Mathlib
import Shadeloom.Proofs.Evaluation.Nesting
/-!
# Definitions that are not used

A graph evaluates the definitions of the groups that it has instances of, and those that these have
instances of. What any other group is defined as makes no difference to it, neither to the values
nor to the errors.
-/
namespace Shadeloom

open Machine

/-- Whether two libraries differ at most in the definition of a group that none of the other
definitions uses. -/
structure Library.DifferUnused (library library' : Library) (group : String) : Prop where
  others : ∀ other, other ≠ group → library'.get? other = library.get? other
  unused : ∀ other definition, other ≠ group → library.get? other = some definition →
    ¬ definition.Uses group

section

variable {first second : Setting} {supplied : Assignment}

/-- Sweeps over graphs with the same nodes and links come to the same if each node does. -/
theorem Machine.sweep_congr (node? : ∀ id, first.graph.node? id = second.graph.node? id)
    (source? : ∀ target, first.graph.source? target = second.graph.source? target)
    (computes : ∀ id node inputs, second.graph.node? id = some node →
      evalNode first supplied id node inputs = evalNode second supplied id node inputs)
    (ids : List Nat) (values : Table Nat (List Value)) (outputs : Assignment) :
    sweep first supplied ids values outputs = sweep second supplied ids values outputs := by
  induction ids generalizing values outputs with
  | nil => rfl
  | cons id rest ih =>
    have inputs (node : Node) :
        readAll first.graph values id node = readAll second.graph values id node := by
      simp only [readAll, Machine.read, source?]
    simp only [Machine.sweep, node?, inputs]
    cases found : second.graph.node? id with
    | none => rfl
    | some node => simp only [computes id node _ found, ih]

end

section

variable {library library' : Library} {group : String} {graph : Graph} {config : EvalConfig}

/-- A graph evaluates to the same in two settings if each of its nodes does. -/
theorem Setting.evaluate_congr {nested nested' : Option Evaluator} {supplied : Assignment}
    (computes : ∀ id node inputs, graph.node? id = some node →
      evalNode ⟨graph, library, config, nested⟩ supplied id node inputs =
        evalNode ⟨graph, library', config, nested'⟩ supplied id node inputs) :
    Setting.evaluate ⟨graph, library, config, nested⟩ supplied =
      Setting.evaluate ⟨graph, library', config, nested'⟩ supplied := by
  have ready : prepare ⟨graph, library, config, nested⟩ supplied =
      prepare ⟨graph, library', config, nested'⟩ supplied := rfl
  rw [Setting.evaluate_eq, Setting.evaluate_eq, ready]
  refine congrArg _ (funext fun order => congrArg (Except.map Prod.snd) ?_)
  refine sweep_congr (fun id => ?_) (fun target => ?_) computes order _ _ <;> rfl

namespace Library.DifferUnused

variable (differ : library.DifferUnused library' group)
include differ

/-- A node that is no instance of the group computes the same, where all definitions but that of the
group are evaluated to the same. -/
theorem evalNode {graph' : Graph} {nested nested' : Evaluator}
    (same : ∀ other definition supplied, other ≠ group → library.get? other = some definition →
      nested definition supplied = nested' definition supplied)
    {id : Nat} {node : Node} (apart : node.op ≠ .group group) (supplied : Assignment)
    (inputs : List Value) :
    Machine.evalNode ⟨graph, library, config, some nested⟩ supplied id node inputs =
      Machine.evalNode ⟨graph', library', config, some nested'⟩ supplied id node inputs := by
  unfold Machine.evalNode
  split
  · rfl
  · rfl
  · rename_i other op
    have apart : other ≠ group := fun same => apart (same ▸ op)
    unfold evalInstance
    dsimp only
    rw [differ.others other apart]
    cases stored : library.get? other with
    | none => rfl
    | some definition =>
      dsimp only
      rw [same other definition _ apart stored]
  · rfl

/-- A graph evaluates to the same in two libraries that differ at most in the definition of a group
that neither it nor any other definition uses. -/
theorem evaluate_eq (config : EvalConfig) (depth : Nat) {graph : Graph}
    (unused : ¬ graph.Uses group) (supplied : Assignment) :
    Setting.evaluate ⟨graph, library, config, nestedWithin library config depth⟩ supplied =
      Setting.evaluate ⟨graph, library', config, nestedWithin library' config depth⟩ supplied := by
  -- For all graphs at once, since the next level is evaluated inside of a definition.
  induction depth generalizing graph supplied with
  | zero =>
    refine Setting.evaluate_congr fun id node inputs found => ?_
    unfold Machine.evalNode
    split <;> rfl
  | succ depth ih =>
    exact Setting.evaluate_congr fun id node inputs found => differ.evalNode
      (fun other definition supplied apart stored =>
        ih (differ.unused other definition apart stored) supplied)
      (fun op => unused ⟨id, node, found, op⟩) supplied inputs

end Library.DifferUnused

end

end Shadeloom
