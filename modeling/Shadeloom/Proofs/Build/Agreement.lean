import Mathlib
import Shadeloom.Proofs.Build.Requests
import Shadeloom.Proofs.Graph.Mirror
/-!
# Graphs that realize the same requests

However much of a graph is shared, what it holds for the same requests is the same: nodes agree when
they are the same output, inputs of one name, or compute a tree that both are asked for. Under this
relation graphs that realize the same requests mirror each other.
-/
namespace Shadeloom

open Shadeloom.Expr

namespace Graph

/-- Whether nodes of graphs that realize the same requests stand for the same. -/
inductive Agree (requests : Requests) (graph graph' : Graph) (id id' : Nat) : Prop
  | output (place : Nat) (left : graph.outputs[place]? = some id)
    (right : graph'.outputs[place]? = some id')
  | input {name : String} (left : graph.input? name = some id) (right : graph'.input? name = some id')
  | computes {e : Expr} {place place' : Nat} (needs : requests.Needs e)
    (left : graph.Computes e ⟨id, place⟩) (right : graph'.Computes e ⟨id', place'⟩)

section

variable {requests : Requests} {graph graph' : Graph}

/-- Nodes agree in either order. -/
theorem Agree.symm {id id' : Nat} (agree : Agree requests graph graph' id id') :
    Agree requests graph' graph id' id := by
  cases agree with
  | output place left right => exact .output place right left
  | input left right => exact .input right left
  | computes needs left right => exact .computes needs right left

/-- The nodes of sockets that compute a tree that is needed agree. -/
theorem Computes.agree {e : Expr} {socket socket' : Socket} (needs : requests.Needs e)
    (left : graph.Computes e socket) (right : graph'.Computes e socket') :
    Agree requests graph graph' socket.node socket'.node :=
  .computes needs left right

/-- What computes a tree that has a recipe is a node that is made by the recipe. -/
theorem Computes.made_inv {e : Expr} {recipe : Recipe} {socket : Socket}
    (planned : Plan.of .empty e = .ok (.make recipe)) (computes : graph.Computes e socket) :
    socket.place = recipe.output ∧ graph.node? socket.node = some recipe.node ∧
      ∃ sources : Nat → Socket, (∀ operand ∈ recipe.operands,
        graph.source? ⟨socket.node, operand.1⟩ = some (sources operand.1) ∧
          graph.Computes operand.2 (sources operand.1)) ∧
        ∀ place, place ∉ recipe.operands.map Prod.fst →
          graph.source? ⟨socket.node, place⟩ = none := by
  have other {v : Variable} : Plan.of .empty (.var v) ≠ .ok (.make recipe) := by
    intro planned
    obtain ⟨_, same, -⟩ | ⟨_, _, _, same, -⟩ | ⟨_, called, -⟩ := Plan.make_cases planned
    · cases same
    · cases same
    · cases called
  cases computes with
  | input => exact absurd planned other
  | component => exact absurd planned other
  | @made _ recipe' id sources planned' found linked computed free =>
    rw [planned] at planned'
    cases planned'
    exact ⟨rfl, found, sources, fun operand mem => ⟨linked operand mem, computed operand mem⟩, free⟩

/-- How sockets of two graphs compute the same tree: as inputs of one name, as components of them at
one place, or as nodes that are made by one recipe. -/
inductive Pairs (graph graph' : Graph) (e : Expr) : Socket → Socket → Prop
  | input {name : String} {id id' : Nat} (left : graph.input? name = some id)
    (right : graph'.input? name = some id') : Pairs graph graph' e ⟨id, 0⟩ ⟨id', 0⟩
  | component {name : String} {place id id' split split' : Nat}
    (listed : graph.input? name = some id) (listed' : graph'.input? name = some id')
    (splits : graph.node? split = some (.ofOp .separateXyz))
    (splits' : graph'.node? split' = some (.ofOp .separateXyz))
    (linked : graph.source? ⟨split, 0⟩ = some ⟨id, 0⟩)
    (linked' : graph'.source? ⟨split', 0⟩ = some ⟨id', 0⟩) :
    Pairs graph graph' e ⟨split, place⟩ ⟨split', place⟩
  | made {recipe : Recipe} {id id' : Nat} (planned : Plan.of .empty e = .ok (.make recipe)) :
    Pairs graph graph' e ⟨id, recipe.output⟩ ⟨id', recipe.output⟩

/-- Sockets that compute the same tree do so in the same way. -/
theorem Computes.pairs {e : Expr} {socket socket' : Socket} (left : graph.Computes e socket)
    (right : graph'.Computes e socket') : Pairs graph graph' e socket socket' := by
  have make {recipe : Recipe} (planned : Plan.of .empty e = .ok (.make recipe)) :
      Pairs graph graph' e socket socket' := by
    have place := (left.made_inv planned).1
    have place' := (right.made_inv planned).1
    obtain ⟨id, at_⟩ := socket
    obtain ⟨id', at_'⟩ := socket'
    subst place place'
    exact .made planned
  cases left with
  | made sources planned => exact make planned
  | input readable listed found whole =>
    cases right with
    | made sources planned => exact make planned
    | input readable' listed' => exact .input listed listed'
    | component readable' selects known =>
      rw [(whole _ selects).1] at known
      cases known
  | component readable selects known listed found splits linked =>
    cases right with
    | made sources planned => exact make planned
    | input readable' listed' found' whole' =>
      rw [(whole' _ selects).1] at known
      cases known
    | component readable' selects' known' listed' found' splits' linked' =>
      rw [selects, Option.some.injEq] at selects'
      subst selects'
      rw [known, Option.some.injEq] at known'
      subst known'
      exact .component listed listed' splits splits' linked linked'

/-- Sockets that compute the same tree have the same place. -/
theorem Computes.place_eq {e : Expr} {socket socket' : Socket} (left : graph.Computes e socket)
    (right : graph'.Computes e socket') : socket.place = socket'.place := by
  cases left.pairs right <;> rfl

namespace Realizes

/-- Every tree that is needed is computed. -/
theorem exists_computes (realizes : graph.Realizes requests) {e : Expr} (needs : requests.Needs e) :
    ∃ socket, graph.Computes e socket := by
  obtain ⟨request, mem, needs⟩ := needs
  induction needs with
  | root =>
    obtain ⟨place, below, rfl⟩ := List.mem_iff_getElem.1 mem
    obtain ⟨length, yields⟩ := List.forall₂_iff_get.1 realizes.outputs
    obtain ⟨-, socket, -, computes⟩ := yields place below (length ▸ below)
    exact ⟨socket, computes⟩
  | operand _ planned mem ih =>
    obtain ⟨socket, computes⟩ := ih
    obtain ⟨-, -, sources, operands, -⟩ := computes.made_inv planned
    exact ⟨_, (operands _ mem).2⟩

/-- A variable that is needed has an input, which is a vector if the variable has a subscript. -/
theorem exists_input (realizes : graph.Realizes requests) {v : Variable}
    (needs : requests.Needs (.var v)) :
    ∃ id type, graph.input? v.name = some id ∧ graph.node? id = some (.newInput v.name type) ∧
      (v.subscript.isSome = true → type = .vector) := by
  obtain ⟨socket, computes⟩ := realizes.exists_computes needs
  cases computes with
  | @input v id type readable listed found whole =>
    refine ⟨id, type, listed, found, fun subscripted => ?_⟩
    obtain ⟨subscript, selects⟩ := Option.isSome_iff_exists.1 subscripted
    exact (whole subscript selects).2
  | component readable selects known listed found splits linked =>
    exact ⟨_, _, listed, found, fun _ => rfl⟩
  | made sources planned found linked computed free =>
    obtain ⟨_, same, -⟩ | ⟨_, _, _, same, -⟩ | ⟨_, called, -⟩ := Plan.make_cases planned
    · cases same
    · cases same
    · cases called

/-- Inputs of one name are the same. -/
theorem node?_input (left : graph.Realizes requests) (right : graph'.Realizes requests)
    {name : String} {id id' : Nat} (listed : graph.input? name = some id)
    (listed' : graph'.input? name = some id') :
    ∃ type, graph.node? id = some (.newInput name type) ∧
      graph'.node? id' = some (.newInput name type) := by
  obtain ⟨⟨type, found, reason⟩, -⟩ := left.inputs name id listed
  obtain ⟨⟨type', found', reason'⟩, -⟩ := right.inputs name id' listed'
  -- Each is a vector for a variable that is needed, which makes the other one a vector.
  have vector {graph : Graph} {id : Nat} {asked : SocketType} (realizes : graph.Realizes requests)
      (listed : graph.input? name = some id) (found : graph.node? id = some (.newInput name asked))
      (reason : ∃ v, requests.Needs (.var v) ∧ v.name = name ∧ v.subscript.isSome = true) :
      asked = .vector := by
    obtain ⟨v, needs, rfl, subscripted⟩ := reason
    obtain ⟨other, type, listed', found', widens⟩ := realizes.exists_input needs
    rw [listed, Option.some.injEq] at listed'
    rw [← listed', found, widens subscripted] at found'
    cases found'
    rfl
  have same : type = type' := by
    cases type with
    | vector => exact (vector right listed' found' (reason rfl)).symm
    | scalar =>
      cases type' with
      | scalar => rfl
      | vector => exact vector left listed found (reason' rfl)
  exact ⟨type, found, same ▸ found'⟩

/-- The outputs at a place yield the same request. -/
theorem yields (left : graph.Realizes requests) (right : graph'.Realizes requests) {place id id' : Nat}
    (listed : graph.outputs[place]? = some id) (listed' : graph'.outputs[place]? = some id') :
    ∃ request ∈ requests.outputs, graph.Yields request id ∧ graph'.Yields request id' := by
  obtain ⟨below, rfl⟩ := List.getElem?_eq_some_iff.1 listed
  obtain ⟨below', rfl⟩ := List.getElem?_eq_some_iff.1 listed'
  obtain ⟨length, yields⟩ := List.forall₂_iff_get.1 left.outputs
  obtain ⟨length', yields'⟩ := List.forall₂_iff_get.1 right.outputs
  have inside : place < requests.outputs.length := by omega
  exact ⟨requests.outputs[place], List.getElem_mem inside, yields place inside below,
    yields' place inside below'⟩

/-- Nodes that agree are the same. -/
theorem node?_agree (left : graph.Realizes requests) (right : graph'.Realizes requests) {id id' : Nat}
    (agree : Agree requests graph graph' id id') :
    ∃ node, graph.node? id = some node ∧ graph'.node? id' = some node := by
  have input {name : String} {id id' : Nat} (listed : graph.input? name = some id)
      (listed' : graph'.input? name = some id') :
      ∃ node, graph.node? id = some node ∧ graph'.node? id' = some node := by
    obtain ⟨type, found, found'⟩ := left.node?_input right listed listed'
    exact ⟨_, found, found'⟩
  cases agree with
  | output place listed listed' =>
    obtain ⟨request, -, yields, yields'⟩ := left.yields right listed listed'
    exact ⟨_, yields.1, yields'.1⟩
  | input listed listed' => exact input listed listed'
  | computes needs computes computes' =>
    cases computes.pairs computes' with
    | input listed listed' => exact input listed listed'
    | component _ _ splits splits' => exact ⟨_, splits, splits'⟩
    | made planned =>
      exact ⟨_, (computes.made_inv planned).2.1, (computes'.made_inv planned).2.1⟩

/-- Sockets of nodes that agree are linked to sockets of nodes that agree. -/
theorem source?_agree (left : graph.Realizes requests) (right : graph'.Realizes requests)
    {id id' : Nat} (agree : Agree requests graph graph' id id') (place : Nat) :
    Option.Rel (SocketsRelated (Agree requests graph graph')) (graph.source? ⟨id, place⟩)
      (graph'.source? ⟨id', place⟩) := by
  have free {graph : Graph} {id : Nat} {node : Node} (realizes : graph.Realizes requests)
      (found : graph.node? id = some node) (single : node.inputs.length ≤ 1) (later : place ≠ 0) :
      graph.source? ⟨id, place⟩ = none := by
    rw [Option.eq_none_iff_forall_not_mem]
    intro source linked
    obtain ⟨receiver, here, below⟩ := realizes.runnable.sound.hasInput linked
    rw [found, Option.some.injEq] at here
    subst here
    have below : place < node.inputs.length := below
    omega
  have input {name : String} {id id' : Nat} (listed : graph.input? name = some id)
      (listed' : graph'.input? name = some id') :
      Option.Rel (SocketsRelated (Agree requests graph graph')) (graph.source? ⟨id, place⟩)
        (graph'.source? ⟨id', place⟩) := by
    obtain ⟨type, found, found'⟩ := left.node?_input right listed listed'
    rw [left.runnable.sound.source?_input found rfl, right.runnable.sound.source?_input found' rfl]
    exact .none
  cases agree with
  | output at_ listed listed' =>
    obtain ⟨request, mem, ⟨found, socket, linked, computes⟩, found', socket', linked', computes'⟩ :=
      left.yields right listed listed'
    by_cases first : place = 0
    · subst first
      rw [linked, linked']
      exact .some ⟨computes.place_eq computes', computes.agree ⟨request, mem, .root⟩ computes'⟩
    · rw [free left found (le_refl 1) first, free right found' (le_refl 1) first]
      exact .none
  | input listed listed' => exact input listed listed'
  | computes needs computes computes' =>
    cases computes.pairs computes' with
    | input listed listed' => exact input listed listed'
    | component listed listed' splits splits' linked linked' =>
      by_cases first : place = 0
      · subst first
        rw [linked, linked']
        exact .some ⟨rfl, .input listed listed'⟩
      · rw [free left splits (le_refl 1) first, free right splits' (le_refl 1) first]
        exact .none
    | @made recipe _ _ planned =>
      obtain ⟨-, -, sources, operands, rest⟩ := computes.made_inv planned
      obtain ⟨-, -, sources', operands', rest'⟩ := computes'.made_inv planned
      by_cases fed : place ∈ recipe.operands.map Prod.fst
      · obtain ⟨operand, mem, rfl⟩ := List.mem_map.1 fed
        obtain ⟨linked, made⟩ := operands operand mem
        obtain ⟨linked', made'⟩ := operands' operand mem
        obtain ⟨request, asked, needs⟩ := needs
        rw [linked, linked']
        exact .some ⟨made.place_eq made', made.agree ⟨request, asked, needs.operand planned mem⟩ made'⟩
      · rw [rest place fed, rest' place fed]
        exact .none

/-- Every node agrees with one of the other graph. -/
theorem exists_agree (left : graph.Realizes requests) (right : graph'.Realizes requests) {id : Nat}
    (here : (graph.node? id).isSome = true) : ∃ id', Agree requests graph graph' id id' := by
  cases left.accounted id here with
  | held mem => cases mem
  | output mem =>
    obtain ⟨place, below, rfl⟩ := List.mem_iff_getElem.1 mem
    have length := left.outputs.length_eq.symm.trans right.outputs.length_eq
    have below' : place < graph'.outputs.length := by omega
    exact ⟨_, .output place (List.getElem?_eq_getElem below) (List.getElem?_eq_getElem below')⟩
  | input listed =>
    obtain ⟨-, v, needs, rfl⟩ := left.inputs _ _ listed
    obtain ⟨id', -, listed', -⟩ := right.exists_input needs
    exact ⟨id', .input listed listed'⟩
  | computes needs computes =>
    obtain ⟨socket, computes'⟩ := right.exists_computes needs
    exact ⟨_, computes.agree needs computes'⟩

/-- A node that agrees with an input is one of the same name. -/
theorem input?_agree (left : graph.Realizes requests) {id id' : Nat}
    (agree : Agree requests graph graph' id id') {name : String}
    (listed : graph.input? name = some id) : graph'.input? name = some id' := by
  obtain ⟨⟨type, found, -⟩, -⟩ := left.inputs name id listed
  have same {other : String} (listed' : graph.input? other = some id) : other = name := by
    obtain ⟨⟨type', found', -⟩, -⟩ := left.inputs other id listed'
    rw [found] at found'
    exact (Node.newInput_inj (Option.some.inj found')).1.symm
  cases agree with
  | output place listed' =>
    obtain ⟨node, port, found', output⟩ :=
      left.runnable.sound.outputNamed id (List.mem_of_getElem? listed')
    rw [found] at found'
    cases found'
    cases output
  | input listed' right => exact same listed' ▸ right
  | computes needs computes computes' =>
    cases computes.pairs computes' with
    | input listed' right => exact same listed' ▸ right
    | component _ _ splits =>
      rw [found] at splits
      cases splits
    | made planned =>
      have made := (computes.made_inv planned).2.1
      rw [found, Option.some.injEq] at made
      exact absurd (congrArg Node.op made.symm) (Recipe.not_input planned _)

/-- Graphs that realize the same requests mirror each other. -/
theorem mirrors (left : graph.Realizes requests) (right : graph'.Realizes requests) :
    Mirrors (Agree requests graph graph') graph graph' where
  node? _ _ := left.node?_agree right
  source? _ _ := left.source?_agree right
  left _ := left.exists_agree right
  right _ here := by
    obtain ⟨id, agree⟩ := right.exists_agree left here
    exact ⟨id, agree.symm⟩
  inputs _ _ _ agree := ⟨left.input?_agree agree, right.input?_agree agree.symm⟩
  outputs := by
    have length := left.outputs.length_eq.symm.trans right.outputs.length_eq
    refine List.forall₂_iff_get.2 ⟨length, fun place below below' => ?_⟩
    exact .output place (List.getElem?_eq_getElem below) (List.getElem?_eq_getElem below')

end Realizes

end

end Graph

end Shadeloom
