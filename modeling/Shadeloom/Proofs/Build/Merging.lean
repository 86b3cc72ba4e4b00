import Mathlib
import Shadeloom.Proofs.Build.Sockets
import Shadeloom.Proofs.Graph.Runnable
/-!
# Merging inputs of groups

When inputs of an instance always get the same value, its definition reads one of them for all and
the others are taken away on both sides. The readers of an input come to read another input, which
nothing enters, and at the instance links only move to other sockets; so the graph and the library
stay runnable.
-/
namespace Shadeloom

open Relation

/-- Whether a site can be evaluated: its graph and its library are runnable. -/
structure Site.Runs (site : Site) : Prop where
  graph : site.graph.Runnable site.library
  library : Library.Runnable site.library

/-- What a cleanup keeps of a site: it can be evaluated, its graph has the same name, and its
library has no fewer names. -/
structure Site.Keeps (before after : Site) : Prop where
  runs : after.Runs
  name : after.graph.name = before.graph.name
  names : ∀ name, before.library.contains name = true → after.library.contains name = true

/-- A site keeps what it is. -/
theorem Site.Runs.keeps {site : Site} (runs : site.Runs) : site.Keeps site :=
  ⟨runs, rfl, fun _ here => here⟩

/-- What is kept twice is kept. -/
theorem Site.Keeps.trans {first second third : Site} (early : first.Keeps second)
    (late : second.Keeps third) : first.Keeps third :=
  ⟨late.runs, late.name.trans early.name, fun name here => late.names name (early.names name here)⟩

/-- Another runnable graph of the same name keeps a site. -/
theorem Site.Runs.withGraph {site : Site} (runs : site.Runs) {graph : Graph}
    (runnable : graph.Runnable site.library) (name : graph.name = site.graph.name) :
    site.Keeps { site with graph } :=
  ⟨⟨runnable, runs.library⟩, name, fun _ here => here⟩

/-- A runnable definition of the same name keeps a site. -/
theorem Site.Runs.withDefinition {site : Site} (runs : site.Runs) {group : String}
    {definition : Graph} (runnable : definition.Runnable site.library)
    (name : definition.name = group) :
    site.Keeps { site with library := site.library.insert group definition } := by
  have more (other : String) (here : site.library.contains other = true) :
      (site.library.insert group definition).contains other = true := by
    rw [Table.contains_iff_mem] at here ⊢
    exact Table.mem_keys_insert.2 (.inr here)
  exact ⟨⟨runs.graph.mono more, runs.library.insert name runnable⟩, rfl, more⟩

namespace Graph

/-- Whether a graph has become another one in which no node leads to more nodes. -/
structure Trims (before after : Graph) : Prop where
  sound : after.Sound
  leads : ∀ a b, after.Leads a b → before.Leads a b
  ops : ∀ id node, after.node? id = some node →
    ∃ old, before.node? id = some old ∧ node.op = old.op
  name : after.name = before.name

/-- A runnable graph stays so when no node comes to lead to more nodes. -/
theorem Trims.runnable {before after : Graph} (trims : Trims before after) {library : Library}
    (runnable : before.Runnable library) : after.Runnable library where
  sound := trims.sound
  acyclic := runnable.acyclic.mono trims.leads
  refers := runnable.refers.of_nodes fun id node found => by
    obtain ⟨old, found', op⟩ := trims.ops id node found
    exact .inr ⟨old, found', fun group same => by rw [← op, same]⟩

/-- A link from a named input keeps a graph runnable. -/
theorem Runnable.connect_input {library : Library} {before after : Graph} {id : Nat} {node : Node}
    {port : InputPort} {target : Socket} (runnable : before.Runnable library)
    (found : before.node? id = some node) (input : node.op = .input port)
    (connects : Connects before after ⟨id, 0⟩ target) : after.Runnable library := by
  refine runnable.connect connects (runnable.acyclic.connect_root connects
    (runnable.sound.source?_input found input) ?_)
  intro same
  obtain ⟨receiver, received, below⟩ := connects.enters
  rw [← same, found, Option.some.injEq] at received
  rw [← received, (runnable.sound.inputShaped id node port found input).inputs] at below
  exact Nat.not_lt_zero _ below

end Graph

namespace Cleanup

/-- Merging one input of a definition into another one keeps a site. -/
theorem mergeInputs_keeps {site after : Site} (runs : site.Runs) {group : String}
    {kept dropped : Nat}
    (isInput : ∀ definition, site.library.get? group = some definition →
      ∃ node port, definition.node? kept = some node ∧ node.op = .input port)
    (done : mergeInputs group kept dropped site = .ok () after) : site.Keeps after := by
  rw [mergeInputs, get_bind] at done
  cases found : site.library.get? group with
  | none => rw [found] at done; cases done; exact runs.keeps
  | some definition =>
    rw [found] at done
    obtain ⟨_, between, linked, removed⟩ := bind_eq_ok_iff.1 done
    have relinked : site.Keeps between ∧ ∀ definition, between.library.get? group = some definition →
        ∃ node port, definition.node? kept = some node ∧ node.op = .input port := by
      refine forM_keeps _ (fun now => site.Keeps now ∧
        ∀ definition, now.library.get? group = some definition →
          ∃ node port, definition.node? kept = some node ∧ node.op = .input port)
        (fun reader _ now later ⟨keeps, isInput⟩ edited => ?_) linked ⟨runs.keeps, isInput⟩
      rcases editDefinition_eq_ok edited with rfl | ⟨definition, changed, here, links, rfl⟩
      · exact ⟨keeps, isInput⟩
      · obtain ⟨node, port, inside, input⟩ := isInput definition here
        obtain ⟨named, runnable⟩ := keeps.runs.library group definition here
        have connects := runnable.sound.connect links
        refine ⟨keeps.trans (keeps.runs.withDefinition
          (runnable.connect_input inside input connects) (connects.name.trans named)),
          fun other there => ?_⟩
        rw [Table.get?_insert, if_pos rfl, Option.some.injEq] at there
        exact ⟨node, port, by rw [← there, connects.node?]; exact inside, input⟩
    rcases editDefinition_eq_ok removed with rfl | ⟨definition, changed, here, removes, rfl⟩
    · exact relinked.1
    · obtain ⟨named, runnable⟩ := relinked.1.runs.library group definition here
      obtain ⟨⟨node, graph⟩, taken, rfl⟩ := map_eq_ok_iff.1 removes
      have removes := runnable.sound.removeNode taken
      exact relinked.1.trans (relinked.1.runs.withDefinition (runnable.removeNode removes)
        (removes.name.trans named))

/-- Taking an input socket of a node away moves links only to other sockets of the node. -/
theorem removeInputSocket_keeps {site after : Site} (runs : site.Runs) {id place : Nat}
    (done : removeInputSocket id place site = .ok () after) : site.Keeps after := by
  obtain ⟨library, removes⟩ := removeInputSocket_spec runs.graph.sound done
  obtain ⟨graph, _⟩ := after
  cases library
  have trims : site.graph.Trims graph := by
    refine ⟨removes.sound, fun a b => ?_, fun _ _ => removes.op, removes.name⟩
    rintro ⟨source, target, linked, rfl, rfl⟩
    obtain ⟨place, linked'⟩ := removes.exists_linked linked
    exact ⟨source, ⟨target.node, place⟩, linked', rfl, rfl⟩
  exact runs.withGraph (trims.runnable runs.graph) removes.name

/-- Merging the inputs at two places of an instance keeps a site. -/
theorem mergePlaces_keeps {site after : Site} (runs : site.Runs) {id : Nat} {group : String}
    {places : Nat × Nat} {changed : Bool}
    (done : mergePlaces id group places site = .ok changed after) : site.Keeps after := by
  obtain ⟨now, between, got, done⟩ := bind_eq_ok_iff.1 done
  cases got
  obtain ⟨inputs, listed⟩ : ∃ inputs, inputs = ((site.library.get? group).map fun definition =>
    definition.exposedInputs.map Prod.snd).getD [] := ⟨_, rfl⟩
  rw [← listed] at done
  cases keeps : inputs[places.1]? with
  | none => rw [keeps] at done; cases done; exact runs.keeps
  | some kept =>
    cases drops : inputs[places.2]? with
    | none => rw [keeps, drops] at done; cases done; exact runs.keeps
    | some dropped =>
      rw [keeps, drops] at done
      obtain ⟨_, merged, merges, done⟩ := bind_eq_ok_iff.1 done
      obtain ⟨_, last, removed, same⟩ := bind_eq_ok_iff.1 done
      cases same
      have early := mergeInputs_keeps runs (fun definition found => by
        rw [listed, found, Option.map_some, Option.getD_some] at keeps
        obtain ⟨entry, mem, rfl⟩ := List.mem_map.1 (List.mem_of_getElem? keeps)
        obtain ⟨node, port, here, input, -⟩ :=
          (runs.library group definition found).2.sound.inputNamed entry (List.mem_filter.1 mem).1
        exact ⟨node, port, here, input⟩) merges
      exact early.trans (removeInputSocket_keeps early.runs removed)

/-- Merging the inputs of an instance keeps a site. -/
theorem mergeInstance_keeps {site after : Site} (runs : site.Runs) {id : Nat} {group : String}
    {total : Nat} (done : mergeInstance id group site = .ok total after) : site.Keeps after := by
  obtain ⟨now, between, got, done⟩ := bind_eq_ok_iff.1 done
  cases got
  split at done
  · cases done
    exact runs.keeps
  · exact count_keeps _ site.Keeps
      (fun places _ now changed later keeps merged =>
        keeps.trans (mergePlaces_keeps keeps.runs merged)) done runs.keeps

/-- The instances of a graph with their groups. -/
theorem mem_instances {graph : Graph} {id : Nat} {group : String} :
    (id, group) ∈ instances graph ↔ ∃ node, graph.node? id = some node ∧ node.op = .group group := by
  unfold instances
  rw [List.mem_filterMap]
  constructor
  · rintro ⟨entry, mem, same⟩
    split at same
    · rename_i name op
      cases same
      exact ⟨entry.2, Slots.mem_entries.1 mem, op⟩
    · cases same
  · rintro ⟨node, found, op⟩
    exact ⟨(id, node), Slots.mem_entries.2 found, by simp only [op]⟩

/-- Merging the inputs of all instances keeps a site. -/
theorem mergeDuplicateInputs_keeps {site after : Site} (runs : site.Runs) {total : Nat}
    (done : mergeDuplicateInputs site = .ok total after) : site.Keeps after := by
  obtain ⟨graph, between, got, done⟩ := bind_eq_ok_iff.1 done
  cases got
  generalize 0 = sum at done
  have each (entries : List (Nat × String)) (now : Site) (keeps : site.Keeps now) (sum : Nat)
      (folded : (entries.foldlM (fun total entry => do
        return total + (← mergeInstance entry.1 entry.2)) sum : Cleanup Nat) now =
          .ok total after) :
      site.Keeps after := by
    induction entries generalizing now sum with
    | nil => cases folded; exact keeps
    | cons entry rest ih =>
      rw [List.foldlM_cons] at folded
      obtain ⟨_, between, first, later⟩ := bind_eq_ok_iff.1 folded
      obtain ⟨merged, _, merges, same⟩ := bind_eq_ok_iff.1 first
      cases same
      exact ih between (keeps.trans (mergeInstance_keeps keeps.runs merges)) _ later
  exact each (instances site.graph) site runs.keeps sum done

end Cleanup

end Shadeloom
