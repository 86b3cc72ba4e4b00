import Mathlib
import Shadeloom.Proofs.Graph.Ports
/-!
# Acyclic graphs

A node leads to another one when a link goes from the one to the other. No path leads from a node
of an acyclic graph back to itself. Whatever takes links away keeps a graph acyclic, and so does a
set of new links that all leave one node to which none of their targets leads.
-/
namespace Shadeloom

open Relation

/-- A path of a relation that also relates one element to some others is a path without these
pairs, or it leads to the element first and from one of the others last. -/
theorem path_of_new_edges {α : Type} {before after : α → α → Prop} (hub : α) (ends : α → Prop)
    (edges : ∀ a b, after a b → before a b ∨ a = hub ∧ ends b) {a b : α}
    (path : ReflTransGen after a b) :
    ReflTransGen before a b ∨
      ReflTransGen before a hub ∧ ∃ c, ends c ∧ ReflTransGen before c b := by
  induction path with
  | refl => exact .inl .refl
  | tail _ edge ih =>
    rcases edges _ _ edge with old | ⟨rfl, new⟩
    · rcases ih with path | ⟨first, c, new, last⟩
      · exact .inl (path.tail old)
      · exact .inr ⟨first, c, new, last.tail old⟩
    · rcases ih with path | ⟨first, -⟩
      · exact .inr ⟨path, _, new, .refl⟩
      · exact .inr ⟨first, _, new, .refl⟩

/-- A relation without cycles stays so when it also relates one element to some others, none of
which leads to it. -/
theorem acyclic_of_new_edges {α : Type} {before after : α → α → Prop} (hub : α) (ends : α → Prop)
    (acyclic : ∀ a, ¬ TransGen before a a)
    (edges : ∀ a b, after a b → before a b ∨ a = hub ∧ ends b)
    (apart : ∀ b, ends b → ¬ ReflTransGen before b hub) (a : α) : ¬ TransGen after a a := by
  intro cycle
  obtain ⟨last, path, edge⟩ := TransGen.tail'_iff.1 cycle
  -- A new pair on the cycle leads from one of the others around to the element.
  rcases edges _ _ edge with old | ⟨rfl, new⟩
  · rcases path_of_new_edges hub ends edges path with path | ⟨first, c, new, rest⟩
    · exact acyclic a (TransGen.tail' path old)
    · exact apart c new ((rest.tail old).trans first)
  · rcases path_of_new_edges last ends edges path with path | ⟨first, -⟩
    · exact apart a new path
    · exact apart a new first

namespace Graph

/-- Whether a link goes from one node to another one. -/
def Leads (graph : Graph) (a b : Nat) : Prop :=
  ∃ source target, graph.source? target = some source ∧ source.node = a ∧ target.node = b

/-- Whether no path leads from a node back to itself. -/
def Acyclic (graph : Graph) : Prop :=
  ∀ id, ¬ TransGen graph.Leads id id

/-- A linked socket says that its node is led to. -/
theorem leads_of_source? {graph : Graph} {source target : Socket}
    (linked : graph.source? target = some source) : graph.Leads source.node target.node :=
  ⟨source, target, linked, rfl, rfl⟩

/-- In a sound graph a node leads to another one exactly when a link goes from it to the other. -/
theorem Sound.leads_iff {graph : Graph} (sound : graph.Sound) {a b : Nat} :
    graph.Leads a b ↔ ∃ link ∈ graph.links, link.source.node = a ∧ link.target.node = b := by
  constructor
  · rintro ⟨source, target, linked, rfl, rfl⟩
    obtain ⟨link, mem, rfl, rfl⟩ := sound.source?_eq_some_iff.1 linked
    exact ⟨link, mem, rfl, rfl⟩
  · rintro ⟨link, mem, rfl, rfl⟩
    exact leads_of_source? (sound.source?_eq_some_iff.2 ⟨link, mem, rfl, rfl⟩)

/-- A sound graph is acyclic if all its links go to nodes of greater numbers. -/
theorem Sound.acyclic_of_ascending {graph : Graph} (sound : graph.Sound)
    (ascending : ∀ link ∈ graph.links, link.source.node < link.target.node) : graph.Acyclic := by
  have step {a b : Nat} (leads : graph.Leads a b) : a < b := by
    obtain ⟨link, mem, rfl, rfl⟩ := sound.leads_iff.1 leads
    exact ascending link mem
  have climbs {a b : Nat} (path : TransGen graph.Leads a b) : a < b := by
    induction path with
    | single leads => exact step leads
    | tail _ leads ih => exact ih.trans (step leads)
  exact fun id cycle => Nat.lt_irrefl id (climbs cycle)

/-- An empty graph is acyclic. -/
theorem acyclic_empty (name : String) : (empty name).Acyclic := by
  intro id path
  obtain ⟨next, ⟨source, target, linked, -⟩, -⟩ := TransGen.head'_iff.1 path
  rw [(sound_empty name).source?_eq_some_iff] at linked
  obtain ⟨link, mem, -⟩ := linked
  simp [empty] at mem

/-- A graph with no more links than an acyclic one is acyclic. -/
theorem Acyclic.mono {before after : Graph} (acyclic : before.Acyclic)
    (sub : ∀ a b, after.Leads a b → before.Leads a b) : after.Acyclic :=
  fun id path => acyclic id (TransGen.mono sub id id path)

/-- A graph with the same linked sockets as an acyclic one is acyclic. -/
theorem Acyclic.congr {before after : Graph} (acyclic : before.Acyclic)
    (same : ∀ target, after.source? target = before.source? target) : after.Acyclic := by
  refine acyclic.mono fun a b => ?_
  rintro ⟨source, target, linked, rfl, rfl⟩
  rw [same] at linked
  exact leads_of_source? linked

/-- What leads where after two sockets are linked. -/
theorem Connects.leads {before after : Graph} {source target : Socket}
    (connects : Connects before after source target) {a b : Nat} (leads : after.Leads a b) :
    before.Leads a b ∨ a = source.node ∧ b = target.node := by
  obtain ⟨sender, receiver, linked, rfl, rfl⟩ := leads
  rw [connects.source?] at linked
  split at linked
  · rename_i same
    cases linked
    exact .inr ⟨rfl, same ▸ rfl⟩
  · exact .inl (leads_of_source? linked)

/-- A link to a node that does not lead back keeps a graph acyclic. -/
theorem Acyclic.connect {before after : Graph} {source target : Socket}
    (acyclic : before.Acyclic) (connects : Connects before after source target)
    (apart : ¬ ReflTransGen before.Leads target.node source.node) : after.Acyclic :=
  acyclic_of_new_edges source.node (· = target.node) acyclic (fun _ _ => connects.leads)
    fun _ same => same ▸ apart

/-- Whether no link leaves a node. -/
def Idle (graph : Graph) (id : Nat) : Prop :=
  ∀ target source, graph.source? target = some source → source.node ≠ id

/-- A node that no link leaves leads to nothing but itself. -/
theorem Idle.eq_of_path {graph : Graph} {id other : Nat} (idle : graph.Idle id)
    (path : ReflTransGen graph.Leads id other) : id = other := by
  rcases path.cases_head with same | ⟨next, ⟨source, target, linked, left, -⟩, -⟩
  · exact same
  · exact absurd left (idle target source linked)

/-- A link to another node that no link leaves keeps a graph acyclic. -/
theorem Acyclic.connect_idle {before after : Graph} {source target : Socket}
    (acyclic : before.Acyclic) (connects : Connects before after source target)
    (idle : before.Idle target.node) (apart : source.node ≠ target.node) : after.Acyclic :=
  acyclic.connect connects fun path => apart (idle.eq_of_path path).symm

/-- A link from a node that nothing enters to another one keeps a graph acyclic. -/
theorem Acyclic.connect_root {before after : Graph} {source target : Socket}
    (acyclic : before.Acyclic) (connects : Connects before after source target)
    (root : ∀ place, before.source? ⟨source.node, place⟩ = none)
    (apart : source.node ≠ target.node) : after.Acyclic := by
  refine acyclic.connect connects fun path => ?_
  rcases path.cases_tail with same | ⟨last, -, sender, receiver, linked, -, entered⟩
  · exact apart same
  · have none := root receiver.place
    rw [← entered] at none
    exact absurd linked (by simp [none])

/-- Removing a node keeps a graph acyclic. -/
theorem Acyclic.removeNode {before after : Graph} {id : Nat} (acyclic : before.Acyclic)
    (removes : Removes before after id) : after.Acyclic := by
  refine acyclic.mono fun a b => ?_
  rintro ⟨source, target, linked, rfl, rfl⟩
  rw [removes.source?] at linked
  split at linked
  · cases linked
  · exact leads_of_source? (Option.filter_eq_some_iff.1 linked).1

/-- A node that leads somewhere is in a sound graph. -/
theorem Sound.isSome_of_leads {graph : Graph} (sound : graph.Sound) {a b : Nat}
    (leads : graph.Leads a b) :
    (graph.node? a).isSome = true ∧ (graph.node? b).isSome = true := by
  obtain ⟨source, target, linked, rfl, rfl⟩ := leads
  obtain ⟨sender, sent, -⟩ := sound.hasOutput linked
  obtain ⟨receiver, received, -⟩ := sound.hasInput linked
  exact ⟨Option.isSome_iff_exists.2 ⟨sender, sent⟩, Option.isSome_iff_exists.2 ⟨receiver, received⟩⟩

end Graph

end Shadeloom
