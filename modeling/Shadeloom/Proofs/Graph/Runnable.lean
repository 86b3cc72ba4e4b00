import Mathlib
import Shadeloom.Graph.Assembly
import Shadeloom.Proofs.Graph.Growth
/-!
# Runnable graphs

A graph is runnable with a library when its bookkeeping is in order, no path leads back to where
it started and every instance of a group names a definition of the library. A library is runnable
when its definitions are, each under its own name.
-/
namespace Shadeloom

/-- Whether a node is no instance or one of a definition of a library. -/
def Node.Refers (library : Library) (node : Node) : Prop :=
  ∀ group, node.op = .group group → library.contains group = true

namespace Graph

/-- Whether every instance of a graph names a definition of a library. -/
def Refers (library : Library) (graph : Graph) : Prop :=
  ∀ id node, graph.node? id = some node → node.Refers library

/-- Whether a graph can be evaluated with a library. -/
structure Runnable (library : Library) (graph : Graph) : Prop where
  sound : graph.Sound
  acyclic : graph.Acyclic
  refers : graph.Refers library

/-- An empty graph is runnable. -/
theorem runnable_empty (library : Library) (name : String) : (empty name).Runnable library :=
  ⟨sound_empty name, acyclic_empty name, fun id node found => by
    simp [empty, node?, Slots.empty, Slots.get?] at found⟩

/-- A graph stays runnable with a library of more names. -/
theorem Runnable.mono {library library' : Library} {graph : Graph} (runnable : graph.Runnable library)
    (more : ∀ name, library.contains name = true → library'.contains name = true) :
    graph.Runnable library' :=
  ⟨runnable.sound, runnable.acyclic, fun id node found group same =>
    more group (runnable.refers id node found group same)⟩

section Edits

variable {library : Library} {before after : Graph}

/-- A graph in which every node is one of before, or refers to the library, stays so. -/
theorem Refers.of_nodes (refers : before.Refers library)
    (nodes : ∀ id node, after.node? id = some node →
      node.Refers library ∨ ∃ old, before.node? id = some old ∧
        ∀ group, node.op = .group group → old.op = .group group) : after.Refers library := by
  intro id node found group same
  rcases nodes id node found with new | ⟨old, found', kept⟩
  · exact new group same
  · exact refers id old found' group (kept group same)

/-- Adding a node that refers to the library keeps a graph runnable. -/
theorem Runnable.addNode (runnable : before.Runnable library) {node : Node}
    (shaped : ∀ port, node.op = .input port → node.IsInput port) (refers : node.Refers library) :
    (before.addNode node).Runnable library where
  sound := runnable.sound.addNode node shaped
  acyclic := runnable.acyclic.congr runnable.sound.source?_addNode
  refers := runnable.refers.of_nodes fun id other found => by
    rw [runnable.sound.node?_addNode] at found
    split at found
    · cases found; exact .inl refers
    · exact .inr ⟨other, found, fun _ same => same⟩

/-- Linking sockets keeps a graph runnable if it stays acyclic. -/
theorem Runnable.connect (runnable : before.Runnable library) {source target : Socket}
    (connects : Connects before after source target) (acyclic : after.Acyclic) :
    after.Runnable library where
  sound := connects.sound
  acyclic := acyclic
  refers := runnable.refers.of_nodes fun id node found => by
    rw [connects.node?] at found
    exact .inr ⟨node, found, fun _ same => same⟩

/-- Removing a node keeps a graph runnable. -/
theorem Runnable.removeNode (runnable : before.Runnable library) {id : Nat}
    (removes : Removes before after id) : after.Runnable library where
  sound := removes.sound
  acyclic := runnable.acyclic.removeNode removes
  refers := runnable.refers.of_nodes fun other node found => by
    rw [removes.node?] at found
    split at found
    · cases found
    · exact .inr ⟨node, found, fun _ same => same⟩

/-- Replacing a node keeps a graph runnable if the new node is no other instance. -/
theorem Runnable.setNode (runnable : before.Runnable library) {id : Nat} {old new : Node}
    (found : before.node? id = some old) (fits : new.Replaces old)
    (same : ∀ group, new.op = .group group → old.op = .group group) :
    (before.setNode id new).Runnable library where
  sound := runnable.sound.setNode found fits
  acyclic := runnable.acyclic.congr (runnable.sound.source?_setNode id new)
  refers := runnable.refers.of_nodes fun other node here => by
    rw [node?_setNode found] at here
    split at here
    · rename_i equal
      cases here
      exact .inr ⟨old, equal ▸ found, same⟩
    · exact .inr ⟨node, here, fun _ same => same⟩

/-- Asking for an input keeps a graph runnable. -/
theorem Runnable.addInput (runnable : before.Runnable library) {name : String}
    {type : SocketType} {id : Nat} (adds : AddsInput before after name type id) :
    after.Runnable library where
  sound := adds.sound
  acyclic := runnable.acyclic.congr adds.source?
  refers := runnable.refers.of_nodes fun other node found => by
    by_cases same : other = id
    · subst same
      cases old : before.node? other with
      | none =>
        rw [(adds.fresh old).2] at found
        cases found
        exact .inl fun group same => by cases same
      | some node' =>
        rw [(adds.known node' old).2] at found
        cases found
        exact .inr ⟨node', rfl, fun group => Node.op_of_widened⟩
    · rw [adds.node? other same] at found
      exact .inr ⟨node, found, fun _ same => same⟩

/-- Adding an output keeps a graph runnable. -/
theorem Runnable.addOutput (runnable : before.Runnable library) {name : String}
    {type : SocketType} {id : Nat} (adds : AddsOutput before after name type id) :
    after.Runnable library where
  sound := adds.sound
  acyclic := runnable.acyclic.congr adds.source?
  refers := runnable.refers.of_nodes fun other node found => by
    rw [adds.node?] at found
    split at found
    · cases found
      exact .inl fun group same => by cases same
    · exact .inr ⟨node, found, fun _ same => same⟩

end Edits

/-- Putting the inputs into another order keeps a graph runnable. -/
theorem Runnable.sortInputs {library : Library} {graph : Graph}
    (runnable : graph.Runnable library) (le : String → String → Bool) :
    (graph.sortInputs le).Runnable library where
  sound := runnable.sound.sortInputs le
  acyclic := runnable.acyclic.congr fun target =>
    source?_congr (graph.sortInputs le) graph runnable.sound.orderly runnable.sound.orderly rfl target
  refers := runnable.refers

end Graph

namespace Library

/-- Whether the definitions of a library can be evaluated with it, each under its own name. -/
def Runnable (library : Library) : Prop :=
  ∀ name definition, library.get? name = some definition →
    definition.name = name ∧ definition.Runnable library

/-- The library without definitions is runnable. -/
theorem runnable_empty : Runnable .empty := by
  intro name definition found
  simp at found

/-- A library stays runnable with one more or another definition that is. -/
theorem Runnable.insert {library : Library} (runnable : Runnable library) {name : String}
    {definition : Graph} (named : definition.name = name)
    (runs : definition.Runnable library) : Runnable (library.insert name definition) := by
  have more (other : String) (here : library.contains other = true) :
      (library.insert name definition).contains other = true := by
    rw [Table.contains_iff_mem] at here ⊢
    exact Table.mem_keys_insert.2 (.inr here)
  intro other found here
  rw [Table.get?_insert] at here
  split at here
  · rename_i same
    cases here
    exact ⟨named.trans same, runs.mono more⟩
  · obtain ⟨named', runs'⟩ := runnable other found here
    exact ⟨named', runs'.mono more⟩

/-- An instance of a definition of a runnable library refers to the library. -/
theorem Runnable.refers_instanceNode {library : Library} (runnable : Runnable library)
    {name : String} {definition : Graph} (found : library.get? name = some definition) :
    definition.instanceNode.Refers library := by
  intro group same
  obtain ⟨named, -⟩ := runnable name definition found
  have same : definition.name = group := by injection same
  rw [← same, named, ← Table.isSome_get?, found]
  rfl

end Library

end Shadeloom
