import Mathlib
import Shadeloom.Proofs.Evaluation.Refusals
import Shadeloom.Proofs.Evaluation.Sampling
import Shadeloom.Proofs.Results
/-!
# Factors that are no numbers

An evaluation is refused where it stops: by what is checked first, or by the first node that it
comes to and that is refused. Where the stops of all color ramps are in order, no stops are found
around a factor exactly if the evaluation comes to a ramp that is sampled, in the graph or in a
definition that is evaluated inside, at a factor that is no number.
-/
namespace Shadeloom

namespace Machine

/-- A sweep is refused at the first node that is refused. -/
theorem sweep_eq_error_iff {setting : Setting} {supplied : Assignment} {ids : List Nat}
    {values : Table Nat (List Value)} {outputs : Assignment} {error : EvalError} :
    sweep setting supplied ids values outputs = .error error ↔
      ∃ early id late known, ids = early ++ id :: late ∧
        sweep setting supplied early values outputs = .ok known ∧
          sweep setting supplied [id] known.1 known.2 = .error error := by
  constructor
  · intro refused
    induction ids generalizing values outputs with
    | nil => cases refused
    | cons id rest ih =>
      rw [sweep_cons] at refused
      rcases bind_eq_error_iff.1 refused with here | ⟨between, first, later⟩
      · exact ⟨[], id, rest, (values, outputs), rfl, rfl, here⟩
      · obtain ⟨early, other, late, known, rfl, before, there⟩ := ih later
        refine ⟨id :: early, other, late, known, rfl, ?_, there⟩
        rw [sweep_cons]
        exact bind_eq_ok_iff.2 ⟨between, first, before⟩
  · rintro ⟨early, id, late, known, rfl, before, here⟩
    rw [sweep_append, before]
    show sweep setting supplied (id :: late) known.1 known.2 = _
    rw [sweep_cons, here]
    rfl

end Machine

open Machine NodeOp

/-- Whether an evaluation comes to a node, and what the input sockets of the node read then. -/
inductive Setting.ComesTo (setting : Setting) (supplied : Assignment) :
    Nat → Node → List Value → Prop
  | intro {early late : List Nat} {id : Nat} {node : Node} {values : Table Nat (List Value)}
    {outputs : Assignment} (ready : prepare setting supplied = .ok (early ++ id :: late))
    (before : sweep setting supplied early .empty .empty = .ok (values, outputs))
    (found : setting.graph.node? id = some node) :
    ComesTo setting supplied id node (readAll setting.graph values id node)

/-- An evaluation comes to nodes of its graph. -/
theorem Setting.ComesTo.found {setting : Setting} {supplied : Assignment} {id : Nat} {node : Node}
    {inputs : List Value} (comes : setting.ComesTo supplied id node inputs) :
    setting.graph.node? id = some node := by
  cases comes with
  | intro ready before found => exact found

/-- What is checked before an evaluation meets no factor. -/
theorem Machine.prepare_ne_unbracketed {setting : Setting} {supplied : Assignment} {at_ : Nat} :
    prepare setting supplied ≠ .error (.unbracketedFactor at_) := by
  intro refused
  unfold prepare at refused
  simp only [bind, Except.bind, throw, throwThe, MonadExceptOf.throw, pure, Except.pure] at refused
  grind

/-- An evaluation finds no stops around a factor exactly if it comes to a node that finds none. -/
theorem Setting.evaluate_eq_unbracketed_iff {setting : Setting} {supplied : Assignment}
    {at_ : Nat} :
    setting.evaluate supplied = .error (.unbracketedFactor at_) ↔
      ∃ id node inputs, setting.ComesTo supplied id node inputs ∧
        evalNode setting supplied id node inputs = .error (.unbracketedFactor at_) := by
  rw [Setting.evaluate_eq]
  constructor
  · intro refused
    rcases bind_eq_error_iff.1 refused with unready | ⟨order, ready, refused⟩
    · exact absurd unready prepare_ne_unbracketed
    · obtain ⟨early, id, late, known, rfl, before, here⟩ :=
        sweep_eq_error_iff.1 (map_eq_error_iff.1 refused)
      cases found : setting.graph.node? id with
      | none =>
        rw [sweep, found] at here
        cases here
      | some node =>
        rw [sweep_node found] at here
        rcases bind_eq_error_iff.1 here with refused | ⟨_, -, done⟩
        · exact ⟨id, node, _, ⟨ready, before, found⟩, refused⟩
        · cases done
  · rintro ⟨id, node, _, ⟨ready, before, found⟩, refused⟩
    refine bind_eq_error_iff.2 (.inr ⟨_, ready, map_eq_error_iff.2 ?_⟩)
    refine sweep_eq_error_iff.2 ⟨_, id, _, _, rfl, before, ?_⟩
    rw [sweep_node found]
    exact bind_eq_error_iff.2 (.inl refused)

/-- A node that computes its values from its inputs alone finds no stops around a factor exactly if
it is a color ramp that finds none. -/
theorem NodeOp.eval_eq_unbracketed_iff {op : NodeOp} {inputs : List Value} {id at_ : Nat} :
    op.eval inputs id = .error (.unbracketedFactor at_) ↔
      ∃ ramp, op = .colorRamp ramp ∧ id = at_ ∧
        ramp.eval (scalarAt inputs 0) = .error .unbracketed := by
  cases op with
  | colorRamp ramp =>
    unfold eval
    cases sampled : ramp.eval (scalarAt inputs 0) with
    | ok color => simp [sampled]
    | error fault => cases fault <;> simp [sampled]
  | _ => simp [eval]

/-- An instance finds no stops around a factor exactly if its definition does. -/
theorem Machine.evalInstance_eq_unbracketed_iff {setting : Setting} {id : Nat} {node : Node}
    {group : String} {inputs : List Value} {at_ : Nat} :
    evalInstance setting id node group inputs = .error (.unbracketedFactor at_) ↔
      ∃ evaluate definition, setting.nested = some evaluate ∧
        setting.library.get? group = some definition ∧
        evaluate definition (.ofList ((node.inputs.map InputSocket.name).zip inputs)) =
          .error (.unbracketedFactor at_) := by
  unfold evalInstance
  cases nested : setting.nested with
  | none => simp
  | some evaluate =>
    cases known : setting.library.get? group with
    | none => simp
    | some definition =>
      dsimp only
      rw [bind_eq_error_iff]
      simp

/-- A node finds no stops around a factor exactly if it is a color ramp that finds none, or an
instance whose definition does not. -/
theorem Machine.evalNode_eq_unbracketed_iff {setting : Setting} {supplied : Assignment} {id : Nat}
    {node : Node} {inputs : List Value} {at_ : Nat} :
    evalNode setting supplied id node inputs = .error (.unbracketedFactor at_) ↔
      (∃ ramp, node.op = .colorRamp ramp ∧ id = at_ ∧
        ramp.eval (scalarAt inputs 0) = .error .unbracketed) ∨
      ∃ group, node.op = .group group ∧
        evalInstance setting id node group inputs = .error (.unbracketedFactor at_) := by
  unfold evalNode
  split
  · rename_i op
    simp [op]
  · rename_i op
    simp [op]
  · rename_i group op
    simp [op]
  · rename_i notGroup
    rw [NodeOp.eval_eq_unbracketed_iff]
    refine ⟨.inl, fun reason => reason.resolve_right ?_⟩
    rintro ⟨name, op, -⟩
    exact notGroup name op

/-- Whether an evaluation, with instances nested to a depth, comes to a color ramp that is sampled
at what is no number, in the graph itself or in the definition of an instance. -/
inductive Strays (library : Library) (config : EvalConfig) : Nat → Graph → Assignment → Nat → Prop
  | ramp {depth : Nat} {graph : Graph} {supplied : Assignment} {id : Nat} {node : Node}
    {inputs : List Value} {ramp : ColorRamp}
    (comes : Setting.ComesTo ⟨graph, library, config, nestedWithin library config depth⟩ supplied id
      node inputs) (op : node.op = .colorRamp ramp) (sampled : ramp.IsSampled)
    (isNaN : (scalarAt inputs 0).isNaN = true) : Strays library config depth graph supplied id
  | inside {depth : Nat} {graph definition : Graph} {supplied : Assignment} {id at_ : Nat}
    {node : Node} {inputs : List Value} {group : String}
    (comes : Setting.ComesTo ⟨graph, library, config, nestedWithin library config (depth + 1)⟩
      supplied id node inputs) (op : node.op = .group group)
    (known : library.get? group = some definition)
    (inner : Strays library config depth definition
      (.ofList ((node.inputs.map InputSocket.name).zip inputs)) at_) :
    Strays library config (depth + 1) graph supplied at_

/-- Whether the stops of all color ramps of a graph are in order. -/
def Graph.RampsInOrder (graph : Graph) : Prop :=
  ∀ id node ramp, graph.node? id = some node → node.op = .colorRamp ramp →
    RampStop.InOrder ramp.stops

section

variable {library : Library} {config : EvalConfig} {depth : Nat} {graph : Graph}
  {supplied : Assignment}

/-- Where an evaluation comes to a ramp that finds no stops around its factor, the factor is no
number. -/
theorem Setting.ComesTo.strays {id : Nat} {node : Node} {inputs : List Value} {ramp : ColorRamp}
    (inOrder : graph.RampsInOrder)
    (comes : Setting.ComesTo ⟨graph, library, config, nestedWithin library config depth⟩ supplied id
      node inputs) (op : node.op = .colorRamp ramp)
    (unbracketed : ramp.eval (scalarAt inputs 0) = .error .unbracketed) :
    Strays library config depth graph supplied id := by
  obtain ⟨sampled, isNaN⟩ :=
    (ColorRamp.eval_eq_unbracketed_iff (inOrder id node ramp comes.found op)).1 unbracketed
  exact .ramp comes op sampled isNaN

/-- An evaluation that finds no stops around a factor comes to a factor that is no number. -/
theorem strays_of_unbracketed
    (definitions : ∀ name definition, library.get? name = some definition →
      definition.RampsInOrder) (inOrder : graph.RampsInOrder) {at_ : Nat}
    (refused : Setting.evaluate ⟨graph, library, config, nestedWithin library config depth⟩
      supplied = .error (.unbracketedFactor at_)) :
    Strays library config depth graph supplied at_ := by
  induction depth generalizing graph supplied with
  | zero =>
    obtain ⟨id, node, inputs, comes, refused⟩ := Setting.evaluate_eq_unbracketed_iff.1 refused
    obtain ⟨ramp, op, rfl, unbracketed⟩ | ⟨name, -, refused⟩ :=
      evalNode_eq_unbracketed_iff.1 refused
    · exact comes.strays inOrder op unbracketed
    · obtain ⟨_, _, nested, -⟩ := evalInstance_eq_unbracketed_iff.1 refused
      cases nested
  | succ depth ih =>
    obtain ⟨id, node, inputs, comes, refused⟩ := Setting.evaluate_eq_unbracketed_iff.1 refused
    obtain ⟨ramp, op, rfl, unbracketed⟩ | ⟨name, op, refused⟩ :=
      evalNode_eq_unbracketed_iff.1 refused
    · exact comes.strays inOrder op unbracketed
    · obtain ⟨_, definition, nested, known, inner⟩ := evalInstance_eq_unbracketed_iff.1 refused
      cases nested
      exact .inside comes op known (ih (definitions name definition known) inner)

/-- An evaluation that comes to a factor that is no number finds no stops around it. -/
theorem Strays.unbracketed {at_ : Nat} (strays : Strays library config depth graph supplied at_) :
    Setting.evaluate ⟨graph, library, config, nestedWithin library config depth⟩ supplied =
      .error (.unbracketedFactor at_) := by
  rw [Setting.evaluate_eq_unbracketed_iff]
  induction strays with
  | @ramp _ _ _ id node inputs ramp comes op sampled isNaN =>
    exact ⟨id, node, inputs, comes, evalNode_eq_unbracketed_iff.2
      (.inl ⟨ramp, op, rfl, sampled.eval_of_isNaN isNaN⟩)⟩
  | @inside _ _ definition _ id _ node inputs name comes op known _ ih =>
    refine ⟨id, node, inputs, comes, evalNode_eq_unbracketed_iff.2 (.inr ⟨name, op, ?_⟩)⟩
    exact evalInstance_eq_unbracketed_iff.2
      ⟨_, definition, rfl, known, Setting.evaluate_eq_unbracketed_iff.2 ih⟩

end

end Shadeloom
