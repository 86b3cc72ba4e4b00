import Mathlib
import Shadeloom.Proofs.Build.Needs
import Shadeloom.Proofs.Build.Planning
import Shadeloom.Proofs.Build.Scopes
import Shadeloom.Proofs.Graph.Growth
/-!
# Sockets that compute trees

A socket of a graph computes a tree when it is what building the tree would have made of it: an
input of the name of a variable, a component of one, or a node that is made by the recipe of the
tree and fed by sockets which compute the operands. Trees that are the same are computed by the same
sockets, and a socket computes its tree for good while the graph grows.
-/
namespace Shadeloom

open Shadeloom.Expr

namespace Graph

/-- Whether a socket computes a tree. -/
inductive Computes (graph : Graph) : Expr → Socket → Prop
  | input {v : Variable} {id : Nat} {type : SocketType} (readable : v.IsReadable)
    (listed : graph.input? v.name = some id) (found : graph.node? id = some (.newInput v.name type))
    (whole : ∀ subscript, v.subscript = some subscript → subscript = "" ∧ type = .vector) :
    Computes graph (.var v) ⟨id, 0⟩
  | component {v : Variable} {subscript : String} {place id split : Nat} (readable : v.IsReadable)
    (selects : v.subscript = some subscript) (known : Variable.component? subscript = some place)
    (listed : graph.input? v.name = some id)
    (found : graph.node? id = some (.newInput v.name .vector))
    (splits : graph.node? split = some (.ofOp .separateXyz))
    (linked : graph.source? ⟨split, 0⟩ = some ⟨id, 0⟩) : Computes graph (.var v) ⟨split, place⟩
  | made {e : Expr} {recipe : Recipe} {id : Nat} (sources : Nat → Socket)
    (planned : Plan.of .empty e = .ok (.make recipe)) (found : graph.node? id = some recipe.node)
    (linked : ∀ operand ∈ recipe.operands, graph.source? ⟨id, operand.1⟩ = some (sources operand.1))
    (computed : ∀ operand ∈ recipe.operands, Computes graph operand.2 (sources operand.1))
    (free : ∀ place, place ∉ recipe.operands.map Prod.fst → graph.source? ⟨id, place⟩ = none) :
    Computes graph e ⟨id, recipe.output⟩

end Graph

/-- Without a library only plain nodes are made. -/
theorem Recipe.isPlain_of_empty {e : Expr} {recipe : Recipe}
    (planned : Plan.of .empty e = .ok (.make recipe)) : recipe.IsPlain := by
  rcases Recipe.isPlain_or_isInstance planned with plain | ⟨group, definition, found, -⟩
  · exact plain
  · simp at found

namespace Graph

variable {graph after : Graph} {e e' : Expr} {socket : Socket}

/-- A tree that is computed can be built. -/
theorem Computes.lowerable (computes : graph.Computes e socket) : e.Lowerable := by
  induction computes with
  | input readable => exact .read readable
  | component readable => exact .read readable
  | made sources planned _ _ _ _ ih => exact .make planned ih

/-- The node of a socket that computes a tree has the socket. -/
theorem Computes.hasOutput (computes : graph.Computes e socket) : graph.HasOutput socket := by
  cases computes with
  | input _ _ found _ => exact ⟨_, found, Nat.zero_lt_one⟩
  | component _ _ known _ _ splits _ => exact ⟨_, splits, Variable.component?_lt known⟩
  | made sources planned found _ _ _ => exact ⟨_, found, (Recipe.isPlain_of_empty planned).output⟩

/-- An operand at a place of alike operands is alike to the one at the place of the other. -/
theorem exists_of_operandsAlike {alike : Expr → Expr → Prop} {operands operands' : List (Nat × Expr)}
    (here : Recipe.OperandsAlike alike operands operands') {operand : Nat × Expr}
    (mem : operand ∈ operands') :
    ∃ other ∈ operands, other.1 = operand.1 ∧ alike other.2 operand.2 := by
  induction here with
  | nil => cases mem
  | @cons a b rest rest' head tail ih =>
    rcases List.mem_cons.1 mem with rfl | mem
    · exact ⟨a, by simp, head⟩
    · obtain ⟨other, there, both⟩ := ih mem
      exact ⟨other, by simp [there], both⟩

/-- Alike operands go to the same places. -/
theorem places_of_operandsAlike {alike : Expr → Expr → Prop} {operands operands' : List (Nat × Expr)}
    (here : Recipe.OperandsAlike alike operands operands') :
    operands.map Prod.fst = operands'.map Prod.fst := by
  induction here with
  | nil => rfl
  | cons head tail ih => rw [List.map_cons, List.map_cons, head.1, ih]

/-- What computes a regular tree computes every regular tree that is the same. -/
theorem Computes.of_same {zero : Float} (computes : graph.Computes e socket)
    (left : e.Every (IsRegular zero)) (right : e'.Every (IsRegular zero)) (same : e.same e' = true) : graph.Computes e' socket := by
  induction computes generalizing e' with
  | input readable listed found whole =>
    cases e' with
    | var v' =>
      simp only [Expr.same, decide_eq_true_eq] at same
      exact same ▸ .input readable listed found whole
    | _ => cases same
  | component readable selects known listed found splits linked =>
    cases e' with
    | var v' =>
      simp only [Expr.same, decide_eq_true_eq] at same
      exact same ▸ .component readable selects known listed found splits linked
    | _ => cases same
  | @made e recipe id sources planned found linked computed free ih =>
    obtain ⟨plan', planned', alike⟩ := Plan.of_same ⟨same, left, right⟩ planned
    cases alike with
    | @make _ recipe' alike =>
      have node : recipe.node = recipe'.node := by simpa using alike.node
      rw [alike.output]
      refine .made sources planned' (node ▸ found) (fun operand mem => ?_)
        (fun operand mem => ?_) fun place apart => ?_
      · obtain ⟨other, there, place, -⟩ := exists_of_operandsAlike alike.operands mem
        exact place ▸ linked other there
      · obtain ⟨other, there, place, both⟩ := exists_of_operandsAlike alike.operands mem
        exact place ▸ ih other there both.left both.right both.same
      · rw [← places_of_operandsAlike alike.operands] at apart
        exact free place apart

/-- A socket still computes its tree when the graph has grown, if links have entered only other
nodes that no link left. -/
theorem Computes.grow {fed : List Nat} (computes : graph.Computes e socket)
    (grows : graph.Grows after fed) (idle : ∀ id ∈ fed, graph.Idle id) (apart : socket.node ∉ fed) :
    after.Computes e socket := by
  have widens {name : String} {id : Nat} {type : SocketType}
      (found : graph.node? id = some (.newInput name type)) :
      ∃ type', after.node? id = some (.newInput name type') ∧ (type = .vector → type' = .vector) := by
    obtain ⟨asked, found'⟩ := grows.node? id _ found
    rw [Node.widened_newInput] at found'
    exact ⟨_, found', fun same => by rw [same, ite_self]⟩
  have stays {id : Nat} {node : Node} (found : graph.node? id = some node) (here : id ∉ fed)
      (place : Nat) : after.source? ⟨id, place⟩ = graph.source? ⟨id, place⟩ :=
    grows.source? ⟨id, place⟩ (Option.isSome_iff_exists.2 ⟨node, found⟩) here
  induction computes with
  | input readable listed found whole =>
    obtain ⟨type', found', widened⟩ := widens found
    exact .input readable (grows.input? _ _ listed) found' fun subscript selects =>
      ⟨(whole subscript selects).1, widened (whole subscript selects).2⟩
  | component readable selects known listed found splits linked =>
    obtain ⟨type', found', widened⟩ := widens found
    rw [widened rfl] at found'
    exact .component readable selects known (grows.input? _ _ listed) found'
      (grows.node?_of_not_input splits fun port same => by cases same)
      ((stays splits apart 0).trans linked)
  | made sources planned found linked computed free ih =>
    refine .made sources planned
      (grows.node?_of_not_input found (Recipe.not_input planned)) (fun operand mem => ?_)
      (fun operand mem => ih operand mem fun here => ?_) fun place none => ?_
    · exact (stays found apart operand.1).trans (linked operand mem)
    · exact idle _ here _ _ (linked operand mem) rfl
    · exact (stays found apart place).trans (free place none)

end Graph

end Shadeloom
