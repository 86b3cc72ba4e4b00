import Shadeloom.Graph.Basic
/-!
# Orders of evaluation

A walk along the links discovers nodes in depth, oldest link first, and finishes a node after all
that it leads to. The nodes in reverse order of their finish are an order of evaluation, unless a
node is linked to itself or comes before one that it is linked from. Vacant numbers that links lead
to are met like nodes without links, but a search goes astray at a number above all nodes and at a
list with a link that is gone.
-/
namespace Shadeloom

namespace Graph

/-- The nodes with links in the lists at a side, each with the nodes at the other ends, newest link
first. -/
def arcs (graph : Graph) (side : Side) : List (Nat × Nat) :=
  (graph.listedLinks side).map fun entry => (entry.1, entry.2.nodeAt side.opposite)

/-- Where arcs lead to from a node, newest first. -/
def arcEnds (arcs : List (Nat × Nat)) (id : Nat) : List Nat :=
  (arcs.filter fun arc => arc.1 = id).map Prod.snd

/-- What a walk has still to do for a node. -/
inductive Task where
  | enter (id : Nat)
  | leave (id : Nat)
  deriving Repr, DecidableEq

/-- Why a search along links comes to no answer. -/
inductive SearchFault where
  /-- The node is linked to itself or comes before one that it is linked from. -/
  | cycle (node : Nat)
  /-- The number is above all nodes, or a list of the node has a link that is gone. -/
  | stray (number : Nat)
  deriving Repr, DecidableEq

/-- A bound on the steps that a task takes besides those for the links of its node. -/
def Task.cost : Task → Nat
  | enter _ => 2
  | leave _ => 1

/-- The bounds of tasks together. -/
def Task.totalCost : List Task → Nat
  | [] => 0
  | task :: rest => task.cost + Task.totalCost rest

/-- Entering nodes before other tasks adds two for each node. -/
theorem Task.totalCost_enter (ids : List Nat) (rest : List Task) :
    Task.totalCost (ids.map .enter ++ rest) = 2 * ids.length + Task.totalCost rest := by
  induction ids with
  | nil => simp
  | cons id others ih => simp only [List.map_cons, List.cons_append, totalCost, cost, ih,
      List.length_cons]; omega

/-- The nodes that a walk has met, last first. -/
structure Walk where
  discovered : List Nat
  finished : List Nat
  deriving Repr, DecidableEq, Inhabited

/-- How many arcs begin at nodes which are not discovered yet. -/
def unfollowed (arcs : List (Nat × Nat)) (discovered : List Nat) : Nat :=
  arcs.countP fun arc => arc.1 ∉ discovered

/-- Discovering a node takes its arcs away from those that are not followed yet. -/
theorem unfollowed_cons {id : Nat} {discovered : List Nat} (fresh : id ∉ discovered)
    (arcs : List (Nat × Nat)) :
    unfollowed arcs (id :: discovered) + (arcEnds arcs id).length =
      unfollowed arcs discovered := by
  induction arcs with
  | nil => rfl
  | cons arc rest ih =>
    simp only [unfollowed, arcEnds, List.length_map, List.countP_cons, List.filter_cons,
      List.mem_cons, not_or] at ih ⊢
    by_cases here : arc.1 = id
    all_goals simp [here, fresh] at ih ⊢; omega

/-- Walks along arcs until nothing is left to do. -/
def walk (arcs : List (Nat × Nat)) (tasks : List Task) (state : Walk) : Walk :=
  match tasks with
  | [] => state
  | .leave id :: rest => walk arcs rest { state with finished := id :: state.finished }
  | .enter id :: rest =>
    if id ∈ state.discovered then walk arcs rest state
    else
      walk arcs ((arcEnds arcs id).reverse.map .enter ++ .leave id :: rest)
        { state with discovered := id :: state.discovered }
termination_by 3 * unfollowed arcs state.discovered + Task.totalCost tasks
decreasing_by
  · simp [Task.totalCost, Task.cost]
  · simp [Task.totalCost, Task.cost]
  · rename_i fresh
    have := unfollowed_cons fresh arcs
    simp only [Task.totalCost_enter, Task.totalCost, Task.cost, List.length_reverse]
    omega

/-- What is in the way of an order: a node that comes after one that it is linked to, or one at
which the search for such nodes goes astray. -/
def obstacle? (arcs : List (Nat × Nat)) (isAstray : Nat → Bool) :
    List Nat → List Nat → Option SearchFault
  | _, [] => none
  | before, id :: rest =>
    if isAstray id then some (.stray id)
    else
      match ((arcEnds arcs id).filter fun other => other ∉ id :: before).getLast? with
      | some other => some (if isAstray other then .stray other else .cycle other)
      | none => obstacle? arcs isAstray (id :: before) rest

/-- The nodes of a graph, each after all those that it is linked from, with the vacant numbers that
links lead to. -/
def order (graph : Graph) : Except SearchFault (List Nat) :=
  let limit := graph.nodes.bound
  let isAstray (side : Side) (id : Nat) := limit ≤ id || graph.isFrayed side id
  let arcs := graph.arcs .output
  let isLoop (id : Nat) := (arcEnds arcs id).contains id
  let met := walk arcs (graph.nodes.numbers.map .enter) ⟨[], []⟩
  match met.discovered.reverse.find? fun id => isLoop id || isAstray .output id with
  | some id => .error (if isLoop id then .cycle id else .stray id)
  | none =>
    match obstacle? (graph.arcs .input) (isAstray .input) [] met.finished with
    | some fault => .error fault
    | none => .ok met.finished

/-- Whether links lead from one node to another one, no link included. -/
def reaches (graph : Graph) (source target : Nat) : Except SearchFault Bool :=
  if (graph.node? source).isSome && (graph.node? target).isSome then
    let limit := graph.nodes.bound
    let isAstray (id : Nat) := limit ≤ id || graph.isFrayed .output id
    let met := walk (graph.arcs .output) [.enter source] ⟨[], []⟩
    match met.discovered.reverse.find? fun id => id = target || isAstray id with
    | some id => if isAstray id then .error (.stray id) else .ok true
    | none => .ok false
  else .ok false

/-- The graph error of a search. -/
def SearchFault.toGraphError : SearchFault → GraphError
  | cycle node => .cycleDetected node
  | stray number => .strayLink number

end Graph

end Shadeloom
