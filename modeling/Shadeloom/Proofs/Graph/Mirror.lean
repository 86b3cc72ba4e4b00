import Mathlib
import Shadeloom.Proofs.Evaluation.Valuation
/-!
# Graphs that mirror each other

A relation between the nodes of two graphs makes them mirror each other when related nodes are the
same, their sockets are linked to related ones, and every node is related to one of the other graph.
The relation may be of many to many, so a graph mirrors one in which nodes are shared. Graphs that
mirror each other have the same outputs.
-/
namespace Shadeloom

open Relation

namespace Graph

/-- Whether output sockets have the same place at related nodes. -/
def SocketsRelated (related : Nat → Nat → Prop) (a b : Socket) : Prop :=
  a.place = b.place ∧ related a.node b.node

/-- Whether graphs mirror each other under a relation between their nodes. -/
structure Mirrors (related : Nat → Nat → Prop) (graph graph' : Graph) : Prop where
  node? : ∀ a b, related a b → ∃ node, graph.node? a = some node ∧ graph'.node? b = some node
  source? : ∀ a b, related a b → ∀ place,
    Option.Rel (SocketsRelated related) (graph.source? ⟨a, place⟩) (graph'.source? ⟨b, place⟩)
  left : ∀ a, (graph.node? a).isSome = true → ∃ b, related a b
  right : ∀ b, (graph'.node? b).isSome = true → ∃ a, related a b
  inputs : ∀ a b name, related a b → (graph.input? name = some a ↔ graph'.input? name = some b)
  outputs : List.Forall₂ related graph.outputs graph'.outputs

section

variable {related : Nat → Nat → Prop} {graph graph' : Graph}

/-- Mirroring does not depend on the order. -/
theorem Mirrors.symm (mirrors : Mirrors related graph graph') :
    Mirrors (fun b a => related a b) graph' graph where
  node? b a rel := by
    obtain ⟨node, found, found'⟩ := mirrors.node? a b rel
    exact ⟨node, found', found⟩
  source? b a rel place := by
    have linked := mirrors.source? a b rel place
    generalize graph.source? ⟨a, place⟩ = source at linked ⊢
    generalize graph'.source? ⟨b, place⟩ = source' at linked ⊢
    cases linked with
    | some same => exact .some ⟨same.1.symm, same.2⟩
    | none => exact .none
  left := mirrors.right
  right := mirrors.left
  inputs b a name rel := (mirrors.inputs a b name rel).symm
  outputs := mirrors.outputs.flip

/-- A socket that is linked is related to one that is linked from a related socket. -/
theorem Mirrors.exists_source (mirrors : Mirrors related graph graph') {a b place : Nat}
    {source : Socket} (rel : related a b) (linked : graph.source? ⟨a, place⟩ = some source) :
    ∃ source', graph'.source? ⟨b, place⟩ = some source' ∧ SocketsRelated related source source' := by
  have linked' := mirrors.source? a b rel place
  rw [linked] at linked'
  generalize graph'.source? ⟨b, place⟩ = other at linked' ⊢
  cases linked' with
  | some same => exact ⟨_, rfl, same⟩

/-- A path to a node has a path to each related node beside it, from a node that is related to where
it starts. -/
theorem Mirrors.exists_path (mirrors : Mirrors related graph graph') {a b b' : Nat}
    (rel : related b b') (path : ReflTransGen graph.Leads a b) :
    ∃ a', related a a' ∧ ReflTransGen graph'.Leads a' b' := by
  induction path generalizing b' with
  | refl => exact ⟨b', rel, .refl⟩
  | tail _ leads ih =>
    obtain ⟨source, target, linked, rfl, rfl⟩ := leads
    obtain ⟨source', linked', -, rel'⟩ := mirrors.exists_source rel linked
    obtain ⟨a', start, path'⟩ := ih rel'
    exact ⟨a', start, path'.tail (leads_of_source? linked')⟩

/-- Related nodes read the same under valuations that agree on related sources. -/
theorem Mirrors.reads_eq (mirrors : Mirrors related graph graph') {a b : Nat} (rel : related a b)
    {valuation valuation' : Nat → List Value}
    (agree : ∀ place source', graph'.source? ⟨b, place⟩ = some source' →
      ∀ other, related other source'.node → valuation' source'.node = valuation other)
    (node : Node) : graph.reads valuation a node = graph'.reads valuation' b node := by
  unfold reads
  refine List.map_congr_left fun (socket, place) _ => ?_
  dsimp only
  have linked := mirrors.source? a b rel place
  cases found : graph'.source? ⟨b, place⟩ with
  | none =>
    rw [found] at linked
    generalize graph.source? ⟨a, place⟩ = other at linked ⊢
    cases linked
    rfl
  | some source' =>
    have same := agree place source' found
    rw [found] at linked
    generalize graph.source? ⟨a, place⟩ = other at linked ⊢
    cases linked with
    | some rel' => simp [rel'.1, same _ rel'.2]

end

end Graph

namespace Machine

/-- Which number a node has makes no difference to whether and to what it is evaluated. -/
theorem evalNode_renumber {graph graph' : Graph} {library : Library} {config : EvalConfig}
    {nested : Option Evaluator} {supplied : Assignment} {id id' : Nat} {node : Node}
    {inputs outputs : List Value}
    (done : evalNode ⟨graph, library, config, nested⟩ supplied id node inputs = .ok outputs) :
    evalNode ⟨graph', library, config, nested⟩ supplied id' node inputs = .ok outputs := by
  have eval (op : NodeOp) (done : op.eval inputs id = .ok outputs) :
      op.eval inputs id' = .ok outputs := by
    unfold NodeOp.eval at done ⊢
    split at done
    all_goals try exact done
    · rename_i ramp
      cases colored : ramp.eval (NodeOp.scalarAt inputs 0) with
      | ok color => rw [colored] at done; exact done
      | error fault => rw [colored] at done; cases fault <;> cases done
    all_goals cases done
  unfold evalNode at done ⊢
  split at done
  · exact done
  · exact done
  · rename_i group op
    unfold evalInstance at done ⊢
    dsimp only at done ⊢
    split at done
    · cases done
    · split at done
      · cases done
      · rename_i found
        exact done
  · exact eval _ done

end Machine

open Machine

/-- What a graph evaluates to is what every graph that mirrors it evaluates to. -/
theorem Graph.Mirrors.evaluate {related : Nat → Nat → Prop} {graph graph' : Graph}
    (mirrors : Mirrors related graph graph') {library : Library} {config : EvalConfig}
    {nested : Option Evaluator} {supplied : Assignment} (sound : graph.Sound) (sound' : graph'.Sound)
    (acyclic : graph.Acyclic) (acyclic' : graph'.Acyclic) (apart : graph.OutputsApart)
    (apart' : graph'.OutputsApart)
    (known : ∀ name, supplied.contains name = true → (graph'.input? name).isSome = true)
    (given : ∀ name ∈ graph'.exposedInputs.map Prod.fst, supplied.contains name = true)
    {outputs : Assignment}
    (done : Setting.evaluate ⟨graph, library, config, nested⟩ supplied = .ok outputs) :
    ∃ outputs', Setting.evaluate ⟨graph', library, config, nested⟩ supplied = .ok outputs' ∧
      ∀ name, outputs'.get? name = outputs.get? name := by
  obtain ⟨valuation, valued, delivered⟩ := Setting.evaluate_ok sound acyclic apart done
  have computed (a b : Nat) (node : Node) (valuation' : Nat → List Value) (rel : related a b)
      (found' : graph'.node? b = some node)
      (agree : ∀ place source', graph'.source? ⟨b, place⟩ = some source' →
        ∀ other, related other source'.node → valuation' source'.node = valuation other) :
      evalNode ⟨graph', library, config, nested⟩ supplied b node (graph'.reads valuation' b node) =
        .ok (valuation a) := by
    obtain ⟨node', found, here⟩ := mirrors.node? a b rel
    rw [found', Option.some.injEq] at here
    subst here
    rw [← mirrors.reads_eq rel agree]
    exact evalNode_renumber (valued a node found)
  obtain ⟨valuation', outputs', done', -, agree, delivered'⟩ :=
    @Setting.evaluate_of_predicted ⟨graph', library, config, nested⟩ supplied sound' acyclic'
      apart' known (fun _ => given) (fun b produced => ∀ a, related a b → produced = valuation a)
      fun b node valuation' found' holds => by
        obtain ⟨a, rel⟩ := mirrors.right b (Option.isSome_iff_exists.2 ⟨node, found'⟩)
        have produced := computed a b node valuation' rel found' holds
        refine ⟨valuation a, produced, fun other rel' => ?_⟩
        have same := computed other b node valuation' rel' found' holds
        rw [produced] at same
        exact Except.ok.inj same
  have agree (place b : Nat) (source' : Socket)
      (linked : graph'.source? ⟨b, place⟩ = some source') (other : Nat)
      (rel : related other source'.node) : valuation' source'.node = valuation other :=
    agree source'.node (sound'.isSome_of_leads (Graph.leads_of_source? linked)).1 other rel
  have deliveries (a b : Nat) (rel : related a b) :
      graph'.delivery? valuation' b = graph.delivery? valuation a := by
    obtain ⟨node, found, found'⟩ := mirrors.node? a b rel
    unfold Graph.delivery? Graph.shownOutput?
    rw [found, found']
    refine Option.map_congr fun (node, port) _ => ?_
    dsimp only
    rw [mirrors.reads_eq rel fun place => agree place b]
  refine ⟨outputs', done', fun name => Option.ext fun value => ?_⟩
  rw [delivered', delivered]
  constructor
  · rintro ⟨b, delivers⟩
    obtain ⟨shown, found, -⟩ := Option.map_eq_some_iff.1 delivers
    obtain ⟨a, rel⟩ := mirrors.right b
      (Option.isSome_iff_exists.2 ⟨_, (shownOutput?_eq_some_iff.1 found).1⟩)
    exact ⟨a, (deliveries a b rel) ▸ delivers⟩
  · rintro ⟨a, delivers⟩
    obtain ⟨shown, found, -⟩ := Option.map_eq_some_iff.1 delivers
    obtain ⟨b, rel⟩ := mirrors.left a
      (Option.isSome_iff_exists.2 ⟨_, (shownOutput?_eq_some_iff.1 found).1⟩)
    exact ⟨b, (deliveries a b rel) ▸ delivers⟩

end Shadeloom
