import Mathlib
import Shadeloom.Proofs.Build.Computing
import Shadeloom.Proofs.Build.Lowering
/-!
# Scopes that realize a demand

While the trees of a demand are built, a scope holds nothing but what they ask for: remembered
sockets compute their trees, inputs have the names and the types that variables give them, and every
node is a port, computes a tree of the demand or is being fed. So building a tree gives a socket that
computes it, and is refused only if the tree can not be built anywhere.
-/
namespace Shadeloom

open Shadeloom.Expr

namespace Graph

/-- Whether a node is the input of a name that a demand asks for, and a vector only if the demand
asks for one. -/
structure IsDemanded (needed : Expr → Prop) (graph : Graph) (name : String) (id : Nat) : Prop where
  node : ∃ type, graph.node? id = some (.newInput name type) ∧
    (type = .vector → ∃ v, needed (.var v) ∧ v.name = name ∧ v.subscript.isSome = true)
  asked : ∃ v, needed (.var v) ∧ v.name = name

/-- Whether a node is there for a reason: it is being fed, it is a port, or it computes a tree of a
demand. -/
inductive Accounts (needed : Expr → Prop) (held : List Nat) (graph : Graph) (id : Nat) : Prop
  | held (mem : id ∈ held)
  | output (mem : id ∈ graph.outputs)
  | input {name : String} (listed : graph.input? name = some id)
  | computes {e : Expr} {place : Nat} (needs : needed e) (computes : graph.Computes e ⟨id, place⟩)

end Graph

namespace Scope

/-- Whether a scope holds nothing but what a demand asks for. -/
structure Realizes (needed : Expr → Prop) (held : List Nat) (scope : Scope) : Prop where
  built : ∀ entry ∈ scope.built, needed entry.1 ∧ scope.graph.Computes entry.1 entry.2
  splits : ∀ name id, scope.splits.get? name = some id →
    scope.graph.node? id = some (.ofOp .separateXyz) ∧ ∃ input,
      scope.graph.input? name = some input ∧ scope.graph.source? ⟨id, 0⟩ = some ⟨input, 0⟩
  inputs : ∀ name id, scope.graph.input? name = some id →
    scope.graph.IsDemanded needed name id
  accounted : ∀ id, (scope.graph.node? id).isSome = true → scope.graph.Accounts needed held id
  instances : scope.instances = .empty

section

variable {needed : Expr → Prop} {library : Library} {held fed : List Nat} {before after : Scope}

/-- A node is accounted for when the graph has grown. -/
theorem Realizes.accounts_grow (realizes : before.Realizes needed held)
    (tidy : before.Tidy library held) {graph : Graph} (grows : before.graph.Grows graph fed)
    (sub : ∀ id ∈ fed, id ∈ held) (outputs : ∀ id ∈ before.graph.outputs, id ∈ graph.outputs)
    {id : Nat} (here : (before.graph.node? id).isSome = true) : graph.Accounts needed held id := by
  by_cases mem : id ∈ held
  · exact .held mem
  · cases realizes.accounted id here with
    | held mem => exact .held mem
    | output mem => exact .output (outputs id mem)
    | input listed => exact .input (grows.input? _ _ listed)
    | computes needs computes =>
      exact .computes needs (computes.grow grows (fun id mem => (tidy.idle id (sub id mem)).2)
        fun mem' => mem (sub _ mem'))

/-- A scope holds nothing but what a demand asks for when its graph has grown, if the inputs are
demanded and the new nodes are accounted for. -/
theorem Realizes.grow (realizes : before.Realizes needed held) (tidy : before.Tidy library held)
    {graph : Graph} (grows : before.graph.Grows graph fed) (sub : ∀ id ∈ fed, id ∈ held)
    (outputs : ∀ id ∈ before.graph.outputs, id ∈ graph.outputs) {held' : List Nat}
    (stays : ∀ id ∈ held, id ∈ held')
    (inputs : ∀ name id, graph.input? name = some id → graph.IsDemanded needed name id)
    (fresh : ∀ id, (graph.node? id).isSome = true → before.graph.node? id = none →
      graph.Accounts needed held' id) : Realizes needed held' { before with graph } where
  built entry mem := by
    obtain ⟨needs, computes⟩ := realizes.built entry mem
    exact ⟨needs, computes.grow grows (fun id mem => (tidy.idle id (sub id mem)).2)
      fun mem' => (tidy.built entry mem).2 (sub _ mem')⟩
  splits name id found := by
    obtain ⟨node, input, listed, linked⟩ := realizes.splits name id found
    have offers := tidy.splits name id found
    refine ⟨grows.node?_of_not_input node fun port same => (by cases same), input,
      grows.input? _ _ listed, (grows.source? _ offers.1 fun mem => ?_).trans linked⟩
    exact offers.2 (sub _ mem)
  inputs := inputs
  accounted id here := by
    cases old : before.graph.node? id with
    | none => exact fresh id here old
    | some node =>
      cases realizes.accounts_grow tidy grows sub outputs
          (Option.isSome_iff_exists.2 ⟨node, old⟩) with
      | held mem => exact .held (stays id mem)
      | output mem => exact .output mem
      | input listed => exact .input listed
      | computes needs computes => exact .computes needs computes
  instances := realizes.instances

/-- Inputs stay demanded when their nodes stay as they are. -/
theorem Realizes.inputs_of_same (realizes : before.Realizes needed held) {graph : Graph}
    (inputs : graph.inputs = before.graph.inputs)
    (node? : ∀ id node, before.graph.node? id = some node → graph.node? id = some node) :
    ∀ name id, graph.input? name = some id → graph.IsDemanded needed name id := by
  intro name id listed
  have listed : before.graph.input? name = some id := by
    unfold Graph.input? at listed ⊢
    rwa [← inputs]
  obtain ⟨⟨type, found, vector⟩, asked⟩ := realizes.inputs name id listed
  exact ⟨⟨type, node? id _ found, vector⟩, asked⟩

/-- A node that is added is being fed. -/
theorem Realizes.addNode (realizes : before.Realizes needed held)
    (tidy : before.Tidy library held) (node : Node) :
    (before.addNode node).Realizes needed (before.graph.nextNode :: held) := by
  have sound := tidy.runnable.sound
  refine realizes.grow tidy (sound.grows_addNode node) (by simp)
    (fun id mem => (Graph.outputs_addNode _ _).symm ▸ mem) (fun id mem => by simp [mem])
    (realizes.inputs_of_same (Graph.inputs_addNode _ _) fun id old found =>
      sound.node?_addNode_of_some node found) fun id here fresh => ?_
  rw [sound.node?_addNode] at here
  split at here
  · rename_i same
    exact .held (by simp [same])
  · rw [fresh] at here
    cases here

/-- A link into a node that is being fed changes nothing that a demand asks for. -/
theorem Realizes.connect (realizes : before.Realizes needed held)
    (tidy : before.Tidy library held) {source target : Socket} (into : target.node ∈ held)
    {graph : Graph} (connects : before.graph.Connects graph source target) :
    Realizes needed held { before with graph } := by
  refine realizes.grow tidy connects.grows (by simpa using into)
    (fun id mem => connects.outputs.symm ▸ mem) (fun id mem => mem)
    (realizes.inputs_of_same connects.inputs fun id node found => (connects.node? id).trans found)
    fun id here fresh => ?_
  rw [connects.node?, fresh] at here
  cases here

/-- Asking for the input of a variable of a demand adds what the demand asks for. -/
theorem Realizes.addInput (realizes : before.Realizes needed held)
    (tidy : before.Tidy library held) {v : Variable} (needs : needed (.var v)) (type : SocketType)
    (vector : type = .vector → v.subscript.isSome = true) :
    (before.addInput v.name type).2.Realizes needed held ∧
      (before.addInput v.name type).2.graph.input? v.name = some (before.addInput v.name type).1 ∧
      ∃ type', (before.addInput v.name type).2.graph.node? (before.addInput v.name type).1 =
        some (.newInput v.name type') ∧ (type = .vector → type' = .vector) := by
  obtain ⟨-, adds, same, -⟩ := tidy.addInput v.name type
  rw [same]
  generalize (before.addInput v.name type).1 = id at adds ⊢
  generalize (before.addInput v.name type).2.graph = graph at adds ⊢
  have listed : graph.input? v.name = some id := by rw [adds.input?, if_pos rfl]
  have demanded : ∃ type', graph.node? id = some (.newInput v.name type') ∧
      (type = .vector → type' = .vector) ∧ (type' = .vector →
        ∃ w, needed (.var w) ∧ w.name = v.name ∧ w.subscript.isSome = true) := by
    cases found : before.graph.node? id with
    | none =>
      exact ⟨type, (adds.fresh found).2, fun same => same, fun same => ⟨v, needs, rfl, vector same⟩⟩
    | some old =>
      obtain ⟨known, widened⟩ := adds.known old found
      obtain ⟨⟨type', found', reason⟩, -⟩ := realizes.inputs _ _ known
      rw [found, Option.some.injEq] at found'
      rw [found', Node.widened_newInput] at widened
      refine ⟨_, widened, fun same => by rw [if_pos same], fun same => ?_⟩
      split at same
      · rename_i asked
        exact ⟨v, needs, rfl, vector asked⟩
      · exact reason same
  obtain ⟨type', found, widened, reason⟩ := demanded
  refine ⟨realizes.grow tidy adds.grows (by simp) (fun id mem => adds.outputs.symm ▸ mem)
    (fun id mem => mem) (fun name other listed' => ?_) fun other here fresh => ?_, listed, type',
    found, widened⟩
  · rw [adds.input?] at listed'
    split at listed'
    · rename_i same
      cases listed'
      exact same ▸ ⟨⟨type', found, reason⟩, v, needs, rfl⟩
    · rename_i apart
      obtain ⟨⟨type'', found', reason'⟩, asked⟩ := realizes.inputs name other listed'
      refine ⟨⟨type'', (adds.node? other ?_).trans found', reason'⟩, asked⟩
      rintro rfl
      rw [(adds.known _ found').2, Node.widened_newInput] at found
      exact apart (Node.newInput_inj (Option.some.inj found)).1.symm
  · by_cases same : other = id
    · exact .input (same ▸ listed)
    · rw [adds.node? other same, fresh] at here
      cases here

/-- A node that has been fed has to be accounted for in another way. -/
theorem Realizes.release {id : Nat} (realizes : before.Realizes needed (id :: held))
    (accounts : before.graph.Accounts needed held id) : before.Realizes needed held where
  built := realizes.built
  splits := realizes.splits
  inputs := realizes.inputs
  accounted other here := by
    cases realizes.accounted other here with
    | held mem =>
      rcases List.mem_cons.1 mem with rfl | mem
      · exact accounts
      · exact .held mem
    | output mem => exact .output mem
    | input listed => exact .input listed
    | computes needs computes => exact .computes needs computes
  instances := realizes.instances

/-- The socket of a tree that is computed may be remembered. -/
theorem Realizes.remember (realizes : before.Realizes needed held) (reuse : Bool) {e : Expr}
    {socket : Socket} (needs : needed e) (computes : before.graph.Computes e socket) :
    (before.remember reuse e socket).Realizes needed held ∧
      (before.remember reuse e socket).graph = before.graph := by
  unfold Scope.remember
  split
  · refine ⟨⟨fun entry mem => ?_, realizes.splits, realizes.inputs, realizes.accounted,
      realizes.instances⟩, rfl⟩
    rcases List.mem_cons.1 mem with rfl | mem
    · exact ⟨needs, computes⟩
    · exact realizes.built entry mem
  · exact ⟨realizes, rfl⟩

/-- A remembered socket computes every tree of the demand that it is remembered for. -/
theorem Realizes.remembered (realizes : before.Realizes needed held) (demand : IsDemand needed)
    {reuse : Bool} {e : Expr} {socket : Socket} (needs : needed e)
    (found : before.remembered? reuse e = some socket) : before.graph.Computes e socket := by
  unfold Scope.remembered? at found
  split at found
  · obtain ⟨entry, first, rfl⟩ := Option.map_eq_some_iff.1 found
    obtain ⟨needs', computes⟩ := realizes.built entry (List.mem_of_find?_eq_some first)
    have same := List.find?_some first
    obtain ⟨zero, regular⟩ := demand.regular
    exact computes.of_same (regular _ needs') (regular _ needs) same
  · cases found

end

end Scope

end Shadeloom
