import Mathlib
import Shadeloom.Proofs.Graph.Numbers
import Shadeloom.Proofs.Graph.Shapes
/-!
# Counting nodes

How many nodes pass a test depends only on which nodes there are. A node that is added counts once,
an input that is asked for counts once when it is first asked for, and a link does not count.
-/
namespace Shadeloom

namespace Graph

/-- The numbers of the nodes whose operation passes a test. -/
def numbersOf (graph : Graph) (test : NodeOp → Bool) : List Nat :=
  (graph.nodes.entries.filter fun entry => test entry.2.op).map Prod.fst

variable {graph before after : Graph} {test : NodeOp → Bool}

/-- The nodes that are counted are those that pass the test. -/
theorem mem_numbersOf {id : Nat} : id ∈ graph.numbersOf test ↔
    ∃ node, graph.node? id = some node ∧ test node.op = true := by
  simp only [numbersOf, List.mem_map, List.mem_filter, Prod.exists, exists_and_right,
    exists_eq_right, Slots.mem_entries]
  rfl

/-- No node is counted twice. -/
theorem nodup_numbersOf : (graph.numbersOf test).Nodup :=
  (List.filter_sublist.map Prod.fst).nodup graph.nodes.nodup_entries

/-- The nodes are as many as their numbers. -/
theorem length_numbersOf : (graph.numbersOf test).length = graph.countNodes test :=
  List.length_map _

/-- Graphs in which the same nodes pass a test have as many of them. -/
theorem countNodes_congr (same : ∀ id, (∃ node, after.node? id = some node ∧ test node.op = true) ↔
    ∃ node, before.node? id = some node ∧ test node.op = true) :
    after.countNodes test = before.countNodes test := by
  have perm : (after.numbersOf test).Perm (before.numbersOf test) :=
    (List.perm_ext_iff_of_nodup nodup_numbersOf nodup_numbersOf).2 fun id => by
      rw [mem_numbersOf, mem_numbersOf, same]
  have equal := perm.length_eq
  rwa [length_numbersOf, length_numbersOf] at equal

/-- A graph has no fewer nodes that pass a test when those stay that do. -/
theorem countNodes_le (stays : ∀ id node, before.node? id = some node → test node.op = true →
    ∃ node', after.node? id = some node' ∧ test node'.op = true) :
    before.countNodes test ≤ after.countNodes test := by
  have sub : before.numbersOf test ⊆ after.numbersOf test := by
    intro id mem
    obtain ⟨node, found, passes⟩ := mem_numbersOf.1 mem
    exact mem_numbersOf.2 (stays id node found passes)
  have fewer := (nodup_numbersOf.subperm sub).length_le
  rwa [length_numbersOf, length_numbersOf] at fewer

/-- A graph with one node more has one more that passes a test, if this one does. -/
theorem countNodes_of_added {id : Nat} {node : Node} (fresh : before.node? id = none)
    (node? : ∀ other, after.node? other = if other = id then some node else before.node? other) :
    after.countNodes test = before.countNodes test + if test node.op then 1 else 0 := by
  have old {other : Nat} {found : Node} (here : before.node? other = some found) : other ≠ id := by
    rintro rfl
    cases fresh.symm.trans here
  split
  · rename_i passes
    have absent : id ∉ before.numbersOf test := by
      intro mem
      obtain ⟨found, here, -⟩ := mem_numbersOf.1 mem
      exact old here rfl
    have perm : (after.numbersOf test).Perm (id :: before.numbersOf test) := by
      refine (List.perm_ext_iff_of_nodup nodup_numbersOf
        (List.nodup_cons.2 ⟨absent, nodup_numbersOf⟩)).2 fun other => ?_
      rw [List.mem_cons, mem_numbersOf, mem_numbersOf, node?]
      by_cases same : other = id
      · simp [same, passes]
      · simp [same]
    have equal := perm.length_eq
    rwa [List.length_cons, length_numbersOf, length_numbersOf] at equal
  · rename_i fails
    refine countNodes_congr fun other => ?_
    rw [node?]
    by_cases same : other = id
    · simp [same, fails, fresh]
    · simp [same]

/-- Every node passes a test or fails it. -/
theorem nodeCount_eq (graph : Graph) (test : NodeOp → Bool) :
    graph.nodeCount = graph.countNodes test + graph.countNodes fun op => !test op := by
  have entries : graph.nodeCount = graph.nodes.entries.length := by
    have distinct : graph.nodes.numbers.Nodup := List.nodup_range.filter _
    have perm : graph.nodes.numbers.Perm (graph.nodes.entries.map Prod.fst) := by
      refine (List.perm_ext_iff_of_nodup distinct graph.nodes.nodup_entries).2 fun id => ?_
      rw [Slots.mem_numbers, Option.isSome_iff_exists]
      simp only [List.mem_map, Prod.exists, exists_and_right, exists_eq_right, Slots.mem_entries]
    exact perm.length_eq.trans (List.length_map _)
  rw [entries]
  exact List.length_eq_length_filter_add _

/-- A node that is added counts once. -/
theorem Sound.countNodes_addNode (sound : graph.Sound) (node : Node) :
    (graph.addNode node).countNodes test = graph.countNodes test + if test node.op then 1 else 0 := by
  refine countNodes_of_added sound.node?_nextNode fun other => ?_
  rw [sound.node?_addNode]
  simp only [eq_comm]

/-- An output that is added counts once. -/
theorem AddsOutput.countNodes {name : String} {type : SocketType} {id : Nat}
    (adds : before.AddsOutput after name type id) : after.countNodes test =
      before.countNodes test + if test (Node.newOutput name type).op then 1 else 0 := by
  refine countNodes_of_added adds.fresh fun other => ?_
  rw [adds.node?]
  simp only [eq_comm]

/-- A node that is replaced counts as the one before if it passes the same tests. -/
theorem countNodes_setNode {id : Nat} {old node : Node} (found : graph.node? id = some old)
    (same : node.op = old.op) : (graph.setNode id node).countNodes test = graph.countNodes test := by
  refine countNodes_congr fun other => ?_
  rw [node?_setNode found]
  by_cases here : id = other
  · subst here
    simp [found, same]
  · simp [here]

/-- A link adds no node. -/
theorem Connects.countNodes {source target : Socket} (connects : before.Connects after source target) :
    after.countNodes test = before.countNodes test :=
  countNodes_congr fun id => by rw [connects.node?]

/-- An input that is asked for counts once, when it is first asked for. -/
theorem AddsInput.countNodes {name : String} {type : SocketType} {id : Nat}
    (adds : before.AddsInput after name type id)
    (byKind : ∀ op op', op.kind = op'.kind → test op = test op') : after.countNodes test =
      before.countNodes test + if (before.input? name).isNone && test (Node.newInput name type).op
        then 1 else 0 := by
  cases known : before.node? id with
  | none =>
    obtain ⟨unlisted, new⟩ := adds.fresh known
    rw [countNodes_of_added known fun other => ?_, unlisted]
    · rfl
    · split
      · rename_i same
        rw [same, new]
      · rename_i apart
        exact adds.node? other apart
  | some old =>
    obtain ⟨listed, widened⟩ := adds.known old known
    rw [countNodes_congr fun other => ?_, listed]
    · rfl
    · by_cases same : other = id
      · have kind : test (old.widened type).op = test old.op := byKind _ _ (old.kind_widened type)
        simp [same, widened, known, kind]
      · rw [adds.node? other same]

end Graph

end Shadeloom
