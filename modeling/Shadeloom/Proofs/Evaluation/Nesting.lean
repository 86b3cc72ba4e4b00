import Mathlib
import Shadeloom.Proofs.Evaluation.Sweep
import Shadeloom.Proofs.Graph.Runnable
import Shadeloom.Proofs.Results
/-!
# Nesting of instances

A graph uses the groups that it has instances of, and evaluating it evaluates their definitions one
level deeper. Where no definition comes to use its own group, evaluations are nested no deeper than
there are definitions, so a limit of so many levels cuts none of them off.
-/
namespace Shadeloom

open Relation Machine

/-- Whether a graph has an instance of a group. -/
def Graph.Uses (graph : Graph) (group : String) : Prop :=
  ∃ id node, graph.node? id = some node ∧ node.op = .group group

/-- A runnable graph uses only groups that are defined. -/
theorem Graph.Runnable.contains_of_uses {library : Library} {graph : Graph} {group : String}
    (runnable : graph.Runnable library) (uses : graph.Uses group) :
    library.contains group = true := by
  obtain ⟨id, node, found, op⟩ := uses
  exact runnable.refers id node found group op

namespace Library

/-- Whether the definition of a group has an instance of another group. -/
def Uses (library : Library) (group other : String) : Prop :=
  ∃ definition, library.get? group = some definition ∧ definition.Uses other

/-- Whether all groups of a list are defined and each of them uses the next one. -/
structure Nests (library : Library) (groups : List String) : Prop where
  chain : groups.IsChain library.Uses
  defined : ∀ group ∈ groups, library.contains group = true

/-- No more groups are nested than there are definitions, where no group comes to use itself. -/
theorem Nests.length_le {library : Library} {groups : List String} (nests : library.Nests groups)
    (acyclic : ∀ group, ¬ TransGen library.Uses group group) : groups.length ≤ library.size := by
  have distinct : groups.Nodup := by
    have reaches : groups.Pairwise (TransGen library.Uses) :=
      (nests.chain.imp fun _ _ => .single).pairwise
    refine reaches.imp fun {a b} path same => ?_
    subst same
    exact acyclic a path
  have listed : groups ⊆ library.keys := fun group mem =>
    Table.contains_iff_mem.1 (nests.defined group mem)
  have keys : library.keys.length = library.size := List.length_map _
  exact keys ▸ (distinct.subperm listed).length_le

end Library

/-- Whether groups are nested in the instances of a graph to so many levels at most. -/
def Graph.NestsWithin (library : Library) (levels : Nat) (graph : Graph) : Prop :=
  ∀ groups, library.Nests groups → (∀ group ∈ groups.head?, graph.Uses group) →
    groups.length ≤ levels

namespace Graph.NestsWithin

variable {library : Library} {levels : Nat} {graph : Graph}

/-- No instances of defined groups are nested to no levels. -/
theorem not_uses (within : graph.NestsWithin library 0) {group : String}
    (known : library.contains group = true) : ¬ graph.Uses group := fun uses =>
  Nat.not_succ_le_zero 0 (within [group] ⟨.singleton group, by simpa using known⟩ (by simpa using uses))

/-- What a graph uses is nested to one level less. -/
theorem definition {group : String} {definition : Graph}
    (within : graph.NestsWithin library (levels + 1)) (uses : graph.Uses group)
    (known : library.get? group = some definition) : definition.NestsWithin library levels := by
  intro groups nests head
  have longer : library.Nests (group :: groups) := by
    refine ⟨?_, fun other mem => ?_⟩
    · refine List.isChain_cons.2 ⟨fun next first => ?_, nests.chain⟩
      exact ⟨definition, known, head next first⟩
    · rcases List.mem_cons.1 mem with rfl | mem
      · rw [← Table.isSome_get?, known]
        rfl
      · exact nests.defined other mem
  exact Nat.le_of_succ_le_succ (within _ longer (by simpa using uses))

end Graph.NestsWithin

/-- The nodes that compute their values from their inputs alone meet no limit of nesting. -/
theorem NodeOp.eval_uncut {op : NodeOp} {inputs : List Value} {id node limit : Nat} :
    op.eval inputs id ≠ .error (.recursionLimitExceeded node limit) := by
  intro cut
  unfold NodeOp.eval at cut
  split at cut
  all_goals first
    | cases cut
    | (split at cut <;> cases cut)

/-- What is checked before an evaluation meets no limit of nesting. -/
theorem Machine.prepare_uncut {setting : Setting} {supplied : Assignment} {node limit : Nat} :
    prepare setting supplied ≠ .error (.recursionLimitExceeded node limit) := by
  intro cut
  unfold prepare at cut
  simp only [bind, Except.bind, throw, throwThe, MonadExceptOf.throw, pure, Except.pure] at cut
  grind

/-- An evaluation is cut off by a limit of nesting only where one of its instances is. -/
theorem Setting.evaluate_uncut {setting : Setting} {at_ limit : Nat}
    (instances : ∀ id node group inputs, setting.graph.node? id = some node →
      node.op = .group group → evalInstance setting id node group inputs ≠
        .error (.recursionLimitExceeded at_ limit)) (supplied : Assignment) :
    setting.evaluate supplied ≠ .error (.recursionLimitExceeded at_ limit) := by
  intro cut
  obtain unready | ⟨-, -, id, -, ⟨-, same⟩ | ⟨node, _, found, stopped⟩⟩ := evaluate_refused cut
  · exact prepare_uncut unready
  · cases same
  · unfold evalNode at stopped
    split at stopped
    · cases stopped
    · cases stopped
    · rename_i group op
      exact instances id node group _ found op stopped
    · exact NodeOp.eval_uncut stopped

/-- No evaluation of a graph is cut off that may be nested as deep as the groups in it are. -/
theorem Graph.NestsWithin.evaluate_uncut {library : Library} (runnable : Library.Runnable library)
    (config : EvalConfig) {levels : Nat} {graph : Graph} (runs : graph.Runnable library)
    (within : graph.NestsWithin library levels) (supplied : Assignment) (node limit : Nat) :
    Setting.evaluate ⟨graph, library, config, nestedWithin library config levels⟩ supplied ≠
      .error (.recursionLimitExceeded node limit) := by
  induction levels generalizing graph supplied with
  | zero =>
    refine Setting.evaluate_uncut (fun id node group inputs found op => ?_) supplied
    have uses : graph.Uses group := ⟨id, node, found, op⟩
    exact absurd uses (within.not_uses (runs.contains_of_uses uses))
  | succ levels ih =>
    refine Setting.evaluate_uncut (fun id node group inputs found op cut => ?_) supplied
    have uses : graph.Uses group := ⟨id, node, found, op⟩
    unfold evalInstance at cut
    simp only [nestedWithin] at cut
    split at cut
    · cases cut
    · rename_i definition known
      rcases bind_eq_error_iff.1 cut with inner | ⟨outputs, -, done⟩
      · exact ih (runnable group definition known).2 (within.definition uses known) _ inner
      · cases done

end Shadeloom
