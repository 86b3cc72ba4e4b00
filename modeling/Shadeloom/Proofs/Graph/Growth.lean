import Mathlib
import Shadeloom.Proofs.Graph.Acyclic
/-!
# Growing graphs

A build only adds to a graph: nodes stay, an input may become a vector, and new links enter only
nodes that are being fed. What has been said of finished nodes stays true while the graph grows.
-/
namespace Shadeloom

namespace Node

/-- Only a named input can be given another type. -/
theorem retypeInput?_of_not_input {node : Node} (other : ∀ port, node.op ≠ .input port)
    (type : SocketType) : node.retypeInput? type = none := by
  unfold retypeInput?
  split
  · rename_i port op; exact absurd op (other port)
  · rfl

/-- Only a named input changes when it is widened. -/
theorem widened_of_not_input {node : Node} (other : ∀ port, node.op ≠ .input port)
    (type : SocketType) : node.widened type = node := by
  cases type with
  | scalar => rfl
  | vector => simp only [widened, retypeInput?_of_not_input other, Option.getD_none]

/-- What a named input becomes when it is widened to a vector. -/
theorem widened_of_input {node : Node} {port : InputPort} (input : node.op = .input port) :
    node.widened .vector = { node with
      op := .input { port with type := .vector, default := port.default.convert .vector }
      outputs := node.outputs.modify 0 fun socket => { socket with type := .vector } } := by
  simp only [widened, retypeInput?, input, Option.getD_some]

/-- Making a vector of a vector changes nothing. -/
theorem widened_widened (node : Node) (type : SocketType) :
    (node.widened .vector).widened type = node.widened .vector := by
  cases type with
  | scalar => rfl
  | vector =>
    by_cases input : ∃ port, node.op = .input port
    · obtain ⟨port, input⟩ := input
      rw [widened_of_input input, widened_of_input rfl]
      simp [List.modify_modify_eq, Function.comp_def]
    · have other : ∀ port, node.op ≠ .input port := fun port op => input ⟨port, op⟩
      rw [widened_of_not_input other, widened_of_not_input other]

/-- Widening a node makes no instance of it. -/
theorem op_of_widened {node : Node} {type : SocketType} {group : String}
    (same : (node.widened type).op = .group group) : node.op = .group group := by
  by_cases input : ∃ port, node.op = .input port
  · obtain ⟨port, input⟩ := input
    cases type with
    | scalar => exact same
    | vector => rw [widened_of_input input] at same; cases same
  · rwa [widened_of_not_input fun port op => input ⟨port, op⟩] at same

/-- A node that is asked for again as an input has as many input sockets. -/
@[simp] theorem inputs_widened (node : Node) (type : SocketType) :
    (node.widened type).inputs = node.inputs := by
  by_cases input : ∃ port, node.op = .input port
  · obtain ⟨port, input⟩ := input
    cases type with
    | scalar => rfl
    | vector => rw [widened_of_input input]
  · rw [widened_of_not_input fun port op => input ⟨port, op⟩]

/-- A node that is asked for again as an input has as many output sockets. -/
@[simp] theorem length_outputs_widened (node : Node) (type : SocketType) :
    (node.widened type).outputs.length = node.outputs.length := by
  by_cases input : ∃ port, node.op = .input port
  · obtain ⟨port, input⟩ := input
    cases type with
    | scalar => rfl
    | vector => rw [widened_of_input input]; simp
  · rw [widened_of_not_input fun port op => input ⟨port, op⟩]

end Node

namespace Graph

/-- Whether a graph has become another one by growing, where links may have entered some nodes. -/
structure Grows (before after : Graph) (fed : List Nat) : Prop where
  node? : ∀ id node, before.node? id = some node →
    ∃ type, after.node? id = some (node.widened type)
  source? : ∀ target, (before.node? target.node).isSome = true → target.node ∉ fed →
    after.source? target = before.source? target
  input? : ∀ name id, before.input? name = some id → after.input? name = some id

/-- A graph has grown into itself. -/
theorem Grows.refl (graph : Graph) (fed : List Nat) : Grows graph graph fed :=
  ⟨fun _ _ found => ⟨.scalar, found⟩, fun _ _ _ => rfl, fun _ _ listed => listed⟩

/-- Nodes stay while a graph grows. -/
theorem Grows.isSome {before after : Graph} {fed : List Nat} (grows : Grows before after fed)
    {id : Nat} (here : (before.node? id).isSome = true) : (after.node? id).isSome = true := by
  obtain ⟨node, found⟩ := Option.isSome_iff_exists.1 here
  obtain ⟨type, found'⟩ := grows.node? id node found
  exact Option.isSome_iff_exists.2 ⟨_, found'⟩

/-- A graph that grows twice has grown. -/
theorem Grows.trans {first second third : Graph} {fed fed' : List Nat}
    (early : Grows first second fed) (late : Grows second third fed')
    (sub : ∀ id ∈ fed', id ∈ fed ∨ first.node? id = none) : Grows first third fed where
  node? id node found := by
    obtain ⟨type, found'⟩ := early.node? id node found
    obtain ⟨type', found''⟩ := late.node? id _ found'
    cases type with
    | scalar => exact ⟨type', found''⟩
    | vector => exact ⟨.vector, by rw [found'', Node.widened_widened]⟩
  source? target here apart := by
    rw [late.source? target (early.isSome here) fun mem => ?_, early.source? target here apart]
    rcases sub target.node mem with fed | fresh
    · exact apart fed
    · rw [fresh] at here; cases here
  input? name id listed := late.input? name id (early.input? name id listed)

/-- A graph that has grown has grown if links may have entered more nodes. -/
theorem Grows.weaken {before after : Graph} {fed fed' : List Nat} (grows : Grows before after fed)
    (sub : ∀ id ∈ fed, id ∈ fed') : Grows before after fed' :=
  ⟨grows.node?, fun target here apart => grows.source? target here fun mem => apart (sub _ mem),
    grows.input?⟩

/-- Nodes other than inputs stay as they are while a graph grows. -/
theorem Grows.node?_of_not_input {before after : Graph} {fed : List Nat}
    (grows : Grows before after fed) {id : Nat} {node : Node}
    (found : before.node? id = some node) (other : ∀ port, node.op ≠ .input port) :
    after.node? id = some node := by
  obtain ⟨type, found'⟩ := grows.node? id node found
  rw [found', Node.widened_of_not_input other]

/-- Input sockets stay while a graph grows. -/
theorem Grows.hasInput {before after : Graph} {fed : List Nat}
    (grows : Grows before after fed) {socket : Socket}
    (has : before.HasInput socket) : after.HasInput socket :=
  has.mono fun node found => by
    obtain ⟨type, found'⟩ := grows.node? _ node found
    exact ⟨_, found', by simp⟩

/-- Output sockets stay while a graph grows. -/
theorem Grows.hasOutput {before after : Graph} {fed : List Nat}
    (grows : Grows before after fed) {socket : Socket}
    (has : before.HasOutput socket) : after.HasOutput socket :=
  has.mono fun node found => by
    obtain ⟨type, found'⟩ := grows.node? _ node found
    exact ⟨_, found', by simp⟩

/-- Adding a node makes a graph grow. -/
theorem Sound.grows_addNode {graph : Graph} (sound : graph.Sound) (node : Node) :
    Grows graph (graph.addNode node) [] where
  node? id old found := ⟨.scalar, sound.node?_addNode_of_some node found⟩
  source? target _ _ := sound.source?_addNode target
  input? name id listed := by unfold Graph.input? at listed ⊢; rwa [inputs_addNode]

/-- Linking sockets makes a graph grow. -/
theorem Connects.grows {before after : Graph} {source target : Socket}
    (connects : Connects before after source target) : Grows before after [target.node] where
  node? id node found := ⟨.scalar, (connects.node? id).trans found⟩
  source? other _ apart := by
    rw [connects.source?, if_neg]
    rintro rfl
    exact apart (by simp)
  input? name id listed := by unfold Graph.input? at listed ⊢; rwa [connects.inputs]

/-- Asking for an input makes a graph grow. -/
theorem AddsInput.grows {before after : Graph} {name : String} {type : SocketType} {id : Nat}
    (adds : AddsInput before after name type id) : Grows before after [] where
  node? other node found := by
    by_cases same : other = id
    · subst same
      exact ⟨type, (adds.known node found).2⟩
    · exact ⟨.scalar, (adds.node? other same).trans found⟩
  source? target _ _ := adds.source? target
  input? other listed here := by
    rw [adds.input?]
    split
    · rename_i same
      subst same
      cases found : before.node? id with
      | none => rw [(adds.fresh found).1] at here; cases here
      | some node => rw [(adds.known node found).1] at here; exact here
    · exact here

/-- Adding an output makes a graph grow. -/
theorem AddsOutput.grows {before after : Graph} {name : String} {type : SocketType} {id : Nat}
    (adds : AddsOutput before after name type id) : Grows before after [] where
  node? other node found := by
    refine ⟨.scalar, (adds.node? other).trans ?_⟩
    rw [if_neg]
    · exact found
    · rintro rfl
      rw [adds.fresh] at found
      cases found
  source? target _ _ := adds.source? target
  input? other listed here := by unfold Graph.input? at here ⊢; rwa [adds.inputs]

/-- A node that no link leaves stays so if no new link leaves it. -/
theorem Idle.of_links {before after : Graph} {id : Nat} (idle : before.Idle id)
    (links : ∀ target source, after.source? target = some source →
      before.source? target = some source ∨ source.node ≠ id) : after.Idle id := by
  intro target source linked
  rcases links target source linked with old | other
  · exact idle target source old
  · exact other

end Graph

end Shadeloom
