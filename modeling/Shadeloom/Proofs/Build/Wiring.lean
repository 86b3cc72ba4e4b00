import Mathlib
import Shadeloom.Proofs.Build.Requests
import Shadeloom.Proofs.Build.Trimming
/-!
# Graphs that realize requests are wired

The ports of a graph that realizes requests are listed, its outputs are fed and have the names of
the requests, and its inputs have the names of variables of the trees.
-/
namespace Shadeloom

open Shadeloom.Expr

namespace Expr

/-- Whether a tree is no variable but one of some. -/
def IsAmong (used : List Variable) (e : Expr) : Prop :=
  ∀ v, e = .var v → v ∈ used

/-- Commas and calls are no variables. -/
theorem isRootwise_isAmong (used : List Variable) : IsRootwise (IsAmong used) where
  comma _ _ := nofun
  call _ _ _ _ _ := nofun

/-- Every variable in a tree is used by it. -/
theorem every_isAmong (e : Expr) : e.Every (IsAmong e.usedVariables) := by
  intro part mem v same
  subst same
  exact List.mem_filterMap.2 ⟨.var v, mem, rfl⟩

end Expr

namespace Graph

namespace Realizes

variable {requests : Requests} {graph : Graph}

/-- A node that is no listed output and no listed input is made by a recipe or splits a vector. -/
theorem node_cases (realizes : graph.Realizes requests) {id : Nat} {node : Node}
    (found : graph.node? id = some node) :
    id ∈ graph.outputs ∨
      (∃ name type, graph.input? name = some id ∧ node = .newInput name type) ∨
      ∃ op : NodeOp, node = .ofOp op ∧ op.IsPlain := by
  have input {name : String} (listed : graph.input? name = some id) :
      ∃ name type, graph.input? name = some id ∧ node = .newInput name type := by
    obtain ⟨⟨type, here, -⟩, -⟩ := realizes.inputs name id listed
    exact ⟨name, type, listed, Option.some.inj (found.symm.trans here)⟩
  cases realizes.accounted id (Option.isSome_iff_exists.2 ⟨node, found⟩) with
  | held mem => cases mem
  | output mem => exact .inl mem
  | input listed => exact .inr (.inl (input listed))
  | computes needs computes =>
    refine .inr ?_
    cases computes with
    | input _ listed => exact .inl (input listed)
    | component _ _ _ _ _ splits =>
      refine .inr ⟨.separateXyz, Option.some.inj (found.symm.trans splits), rfl, nofun⟩
    | made _ planned here =>
      obtain ⟨op, same, plain⟩ := (Recipe.isPlain_of_empty planned).node
      rw [found, Option.some.injEq] at here
      exact .inr ⟨op, here.trans same, plain⟩

/-- A listed output yields one of the requests. -/
theorem exists_yields (realizes : graph.Realizes requests) {id : Nat} (mem : id ∈ graph.outputs) :
    ∃ (place : Nat) (below : place < requests.outputs.length),
      graph.outputs[place]? = some id ∧ graph.Yields requests.outputs[place] id := by
  obtain ⟨place, below, rfl⟩ := List.mem_iff_getElem.1 mem
  obtain ⟨length, yields⟩ := List.forall₂_iff_get.1 realizes.outputs
  exact ⟨place, length ▸ below, List.getElem?_eq_getElem below, yields place (length ▸ below) below⟩

/-- The ports of a graph that realizes requests are listed, and its outputs are fed. -/
theorem isWired (realizes : graph.Realizes requests) : graph.IsWired where
  input id node port found op := by
    rcases realizes.node_cases found with output | ⟨name, type, listed, rfl⟩ | ⟨kind, rfl, plain⟩
    · exact absurd output (realizes.runnable.sound.not_mem_outputs found (by simp [op]))
    · cases op
      exact listed
    · have op : kind = .input port := op
      have impossible := plain.1
      rw [op] at impossible
      cases impossible
  output id node port found op := by
    rcases realizes.node_cases found with output | ⟨name, type, listed, rfl⟩ | ⟨kind, rfl, plain⟩
    · obtain ⟨place, below, -, -, socket, linked, -⟩ := realizes.exists_yields output
      exact ⟨output, Option.isSome_iff_exists.2 ⟨socket, linked⟩⟩
    · cases op
    · have op : kind = .output port := op
      have impossible := plain.1
      rw [op] at impossible
      cases impossible
  constant id node value found op := by
    rcases realizes.node_cases found with output | ⟨name, type, listed, rfl⟩ | ⟨kind, rfl, plain⟩
    · exact absurd output (realizes.runnable.sound.not_mem_outputs found (by simp [op]))
    · cases op
    · have op : kind = .constant value := op
      rw [op]
      rfl

/-- Outputs of requests with different names have different names. -/
theorem outputsApart (realizes : graph.Realizes requests)
    (distinct : (requests.outputs.map Request.name).Nodup) : graph.OutputsApart := by
  have placed {id : Nat} {node : Node} {port : OutputPort}
      (shown : graph.shownOutput? id = some (node, port)) :
      ∃ place : Nat, graph.outputs[place]? = some id ∧
        (requests.outputs.map Request.name)[place]? = some port.name := by
    obtain ⟨found, op, -⟩ := shownOutput?_eq_some_iff.1 shown
    obtain ⟨place, below, listed, here, -⟩ :=
      realizes.exists_yields (realizes.isWired.output id node port found op).1
    rw [found, Option.some.injEq] at here
    rw [here] at op
    cases op
    exact ⟨place, listed, by rw [List.getElem?_map, List.getElem?_eq_getElem below]; rfl⟩
  intro id id' ⟨node, port⟩ ⟨node', port'⟩ shown shown' same
  obtain ⟨place, listed, named⟩ := placed shown
  obtain ⟨place', listed', named'⟩ := placed shown'
  have same : port.name = port'.name := same
  rw [same, ← named'] at named
  have below : place < (requests.outputs.map Request.name).length := by
    rw [named'] at named
    exact (List.getElem?_eq_some_iff.1 named).1
  have places : place = place' := (List.getElem?_inj below distinct).1 named
  rw [places, listed', Option.some.injEq] at listed
  exact listed.symm

/-- Every input that a graph has is asked for by a variable. -/
theorem exists_used (realizes : graph.Realizes requests) {used : List Variable}
    (among : ∀ request ∈ requests.outputs, request.tree.Every (IsAmong used)) {name : String}
    (listed : (graph.input? name).isSome = true) : ∃ v ∈ used, v.name = name := by
  obtain ⟨id, listed⟩ := Option.isSome_iff_exists.1 listed
  obtain ⟨-, v, ⟨request, mem, needs⟩, named⟩ := realizes.inputs name id listed
  have every := (among request mem).needs (isRootwise_isAmong used) needs
  exact ⟨v, every.self v rfl, named⟩

end Realizes

end Graph

end Shadeloom
