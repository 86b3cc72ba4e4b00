import Mathlib
import Shadeloom.Proofs.Graph.Acyclic
import Shadeloom.Proofs.Graph.Walk
/-!
# Orders of sound graphs

In a sound graph the search for paths answers, and it answers the truth; and an acyclic sound graph
has an order of evaluation, which lists every node once and after all those that lead to it.
-/
namespace Shadeloom

namespace Graph

open Relation

/-- The nodes of a graph, each listed once and after all those that lead to it. -/
structure IsOrder (graph : Graph) (ids : List Nat) : Prop where
  distinct : ids.Nodup
  mem : ∀ id, id ∈ ids ↔ (graph.node? id).isSome = true
  sorted : ids.Pairwise fun a b => ¬ graph.Leads b a

/-- What leads to a node comes before it in an order. -/
theorem IsOrder.mem_before {graph : Graph} {before after : List Nat} {id other : Nat}
    (order : graph.IsOrder (before ++ id :: after)) (sound : graph.Sound)
    (acyclic : graph.Acyclic) (leads : graph.Leads other id) : other ∈ before := by
  have mem := (order.mem other).2 (sound.isSome_of_leads leads).1
  rcases List.mem_append.1 mem with here | there
  · exact here
  · rcases List.mem_cons.1 there with rfl | later
    · exact absurd (.single leads) (acyclic other)
    · have tail := (List.pairwise_append.1 order.sorted).2.1
      exact absurd leads ((List.pairwise_cons.1 tail).1 other later)

/-- A node does not come before itself in an order. -/
theorem IsOrder.not_mem_before {graph : Graph} {before after : List Nat} {id : Nat}
    (order : graph.IsOrder (before ++ id :: after)) : id ∉ before := by
  have distinct := order.distinct
  rw [List.nodup_append] at distinct
  exact fun mem => distinct.2.2 id mem id (by simp) rfl

/-- The arcs of a sound graph out of nodes are where these lead. -/
theorem Sound.follows_output {graph : Graph} (sound : graph.Sound) {a b : Nat} :
    Follows (graph.arcs .output) a b ↔ graph.Leads a b := by
  rw [follows_iff]
  unfold arcs listedLinks
  rw [sound.orderly]
  simp only [List.map_map, List.mem_map, Function.comp_apply, Link.nodeAt, Side.opposite,
    Prod.mk.injEq]
  exact sound.leads_iff.symm

/-- The arcs of a sound graph into nodes are what leads to these. -/
theorem Sound.follows_input {graph : Graph} (sound : graph.Sound) {a b : Nat} :
    Follows (graph.arcs .input) a b ↔ graph.Leads b a := by
  rw [← sound.follows_output, follows_iff, follows_iff]
  unfold arcs listedLinks
  rw [sound.orderly]
  simp [Link.nodeAt, Side.opposite, and_comm]

/-- Where the arcs of a sound graph lead along are its paths. -/
theorem Sound.path_iff {graph : Graph} (sound : graph.Sound) {a b : Nat} :
    ReflTransGen (Follows (graph.arcs .output)) a b ↔ ReflTransGen graph.Leads a b := by
  have same : Follows (graph.arcs .output) = graph.Leads := by
    funext a b
    exact propext sound.follows_output
  rw [same]

/-- What a node of a sound graph leads along to is in the graph. -/
theorem Sound.isSome_of_path {graph : Graph} (sound : graph.Sound) {a b : Nat}
    (here : (graph.node? a).isSome = true) (path : ReflTransGen graph.Leads a b) :
    (graph.node? b).isSome = true := by
  rcases path.cases_tail with same | ⟨last, -, leads⟩
  · exact same ▸ here
  · exact (sound.isSome_of_leads leads).2

/-- A node of a sound graph does not lead a search astray. -/
theorem Sound.not_astray {graph : Graph} (sound : graph.Sound) {id : Nat} (side : Side)
    (here : (graph.node? id).isSome = true) :
    (graph.nodes.bound ≤ id || graph.isFrayed side id) = false := by
  have below : id < graph.nodes.bound := Slots.lt_bound here
  simp [isFrayed_eq_false sound.orderly, below]

/-- In a sound graph the search for a path tells whether there is one. -/
theorem Sound.reaches_spec {graph : Graph} (sound : graph.Sound) {source target : Nat}
    (here : (graph.node? source).isSome = true) (there : (graph.node? target).isSome = true) :
    ∃ answer, graph.reaches source target = .ok answer ∧
      (answer = true ↔ ReflTransGen graph.Leads source target) := by
  have discovered (id : Nat) :
      id ∈ (walk (graph.arcs .output) [.enter source] ⟨[], []⟩).discovered ↔
        ReflTransGen graph.Leads source id := by
    have found : id ∈ (walk (graph.arcs .output) ([source].map .enter) ⟨[], []⟩).discovered ↔ _ :=
      mem_discovered_iff
    simpa [sound.path_iff] using found
  unfold reaches
  simp only [here, there, Bool.and_self, if_true]
  cases found : List.find? (fun id => decide (id = target) ||
      (decide (graph.nodes.bound ≤ id) || graph.isFrayed .output id))
      (walk (graph.arcs .output) [.enter source] ⟨[], []⟩).discovered.reverse with
  | none =>
    refine ⟨false, rfl, iff_of_false Bool.false_ne_true fun path => ?_⟩
    have miss := List.find?_eq_none.1 found target
      (List.mem_reverse.2 ((discovered target).2 path))
    simp at miss
  | some id =>
    have path := (discovered id).1 (List.mem_reverse.1 (List.mem_of_find?_eq_some found))
    have sane := sound.not_astray .output (sound.isSome_of_path here path)
    have hit := List.find?_some found
    rw [sane, Bool.or_false, decide_eq_true_eq] at hit
    refine ⟨true, ?_, iff_of_true rfl (hit ▸ path)⟩
    simp only [sane]
    rfl

/-- Nothing is in the way of a list in which all that leads to a node comes before it. -/
theorem obstacle?_eq_none {arcs : List (Nat × Nat)} {isAstray : Nat → Bool}
    (before rest : List Nat) (sane : ∀ id ∈ rest, isAstray id = false)
    (known : ∀ id ∈ rest, ∀ other, Follows arcs id other → other ∈ before ∨ other ∈ rest)
    (sorted : rest.Pairwise fun a b => ¬ Follows arcs a b) :
    obstacle? arcs isAstray before rest = none := by
  induction rest generalizing before with
  | nil => rfl
  | cons id rest ih =>
    obtain ⟨first, later⟩ := List.pairwise_cons.1 sorted
    unfold obstacle?
    have none : ((arcEnds arcs id).filter fun other => other ∉ id :: before) = [] := by
      rw [List.filter_eq_nil_iff]
      intro other follows
      rw [decide_eq_true_eq, not_not]
      rcases known id (by simp) other follows with here | there
      · exact List.mem_cons_of_mem _ here
      · rcases List.mem_cons.1 there with rfl | below
        · simp
        · exact absurd follows (first other below)
    simp only [sane id (by simp), none, List.getLast?_nil]
    refine ih (id :: before) (fun other mem => sane other (by simp [mem])) (fun a mem b follows => ?_)
      later
    rcases known a (by simp [mem]) b follows with here | there
    · exact .inl (List.mem_cons_of_mem _ here)
    · rcases List.mem_cons.1 there with rfl | below
      · exact .inl (by simp)
      · exact .inr below

/-- The order of a graph lists no node twice, even if the graph is not sound. -/
theorem nodup_order {graph : Graph} {ids : List Nat} (ordered : graph.order = .ok ids) :
    ids.Nodup := by
  have none : leaving (graph.nodes.numbers.map .enter) = [] := by
    have enters := leaving_enter graph.nodes.numbers []
    rwa [List.append_nil] at enters
  have once : (walk (graph.arcs .output) (graph.nodes.numbers.map .enter) ⟨[], []⟩).finished.Nodup :=
    nodup_finished_walk _ _ (by simp [none]) (by simp [none])
  unfold order at ordered
  dsimp only at ordered
  split at ordered
  · cases ordered
  · split at ordered
    · cases ordered
    · cases ordered
      exact once

/-- An acyclic sound graph has an order of evaluation. -/
theorem Sound.order_spec {graph : Graph} (sound : graph.Sound) (acyclic : graph.Acyclic) :
    ∃ ids, graph.order = .ok ids ∧ graph.IsOrder ids := by
  have same : Follows (graph.arcs .output) = graph.Leads := by
    funext a b
    exact propext sound.follows_output
  have loops : ∀ id, ¬ TransGen (Follows (graph.arcs .output)) id id := by rw [same]; exact acyclic
  let met := walk (graph.arcs .output) (graph.nodes.numbers.map .enter) ⟨[], []⟩
  have done : Underway (graph.arcs .output) [] met := (underway_start _ _).walk loops
  have discovered (id : Nat) : id ∈ met.discovered ↔ (graph.node? id).isSome = true := by
    rw [mem_discovered_iff]
    constructor
    · rintro ⟨start, mem, path⟩
      exact sound.isSome_of_path (Slots.mem_numbers.1 mem) (sound.path_iff.1 path)
    · exact fun here => ⟨id, Slots.mem_numbers.2 here, .refl⟩
  have finished (id : Nat) : id ∈ met.finished ↔ (graph.node? id).isSome = true := by
    rw [← discovered, done.pending]
    simp [leaving]
  have order : graph.IsOrder met.finished := {
    distinct := by simpa [leaving] using done.once
    mem := finished
    sorted := by rw [← same]; exact done.sorted }
  refine ⟨met.finished, ?_, order⟩
  have passes : (met.discovered.reverse.find? fun id =>
      (arcEnds (graph.arcs .output) id).contains id ||
        (graph.nodes.bound ≤ id || graph.isFrayed .output id)) = none := by
    rw [List.find?_eq_none]
    intro id mem
    rw [sound.not_astray .output ((discovered id).1 (List.mem_reverse.1 mem)), Bool.or_false]
    intro loop
    exact loops id (.single (List.contains_iff_mem.1 loop))
  have clear : obstacle? (graph.arcs .input)
      (fun id => graph.nodes.bound ≤ id || graph.isFrayed .input id) [] met.finished = none := by
    refine obstacle?_eq_none [] met.finished
      (fun id mem => sound.not_astray .input ((finished id).1 mem)) (fun id mem other follows => ?_)
      (order.sorted.imp fun apart follows => apart (sound.follows_input.1 follows))
    exact .inr ((finished other).2 (sound.isSome_of_leads (sound.follows_input.1 follows)).1)
  unfold Graph.order
  simp only [met] at passes clear
  simp only [passes, clear, met]

end Graph

end Shadeloom
