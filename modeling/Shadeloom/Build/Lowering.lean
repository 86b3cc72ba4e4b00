import Shadeloom.Build.Recipe
/-!
# Lowering

Building a tree into a scope: its recipe is carried out, each operand is built in turn and linked
to its socket, and the socket of the value is kept for equal trees. It ends because the trees of a
recipe are smaller than its tree.
-/
namespace Shadeloom

mutual

/-- Builds a tree, unless an equal one has been built; gives the socket of its value. -/
def lower (library : Library) (reuse : Bool) (e : Expr) (scope : Scope) :
    Except BuildError (Socket × Scope) :=
  match scope.remembered? reuse e with
  | some socket => .ok (socket, scope)
  | none =>
    match _planned : Plan.of library e with
    | .error error => .error error
    | .ok (.read v) => do
      let (socket, scope) ← scope.readVariable v
      .ok (socket, scope.remember reuse e socket)
    | .ok (.make recipe) => do
      let id := scope.graph.nextNode
      let scope ← feed library reuse recipe.operands id (scope.addNode recipe.node)
      .ok (⟨id, recipe.output⟩, scope.remember reuse e ⟨id, recipe.output⟩)
termination_by 2 * e.size
decreasing_by
  have := Recipe.load_lt_size _planned
  omega

/-- Builds operands and links them to the input sockets of a node, in order. -/
def feed (library : Library) (reuse : Bool) (operands : List (Nat × Expr)) (id : Nat)
    (scope : Scope) : Except BuildError Scope :=
  match operands with
  | [] => .ok scope
  | (place, e) :: rest => do
    let (source, scope) ← lower library reuse e scope
    let scope ← scope.connect source ⟨id, place⟩
    feed library reuse rest id scope
termination_by 2 * Recipe.load operands + 1
decreasing_by
  · have fits : e.size ≤ Recipe.load ((place, e) :: rest) := by simp [Recipe.load, Expr.totalSize]
    omega
  · have := e.size_pos
    simp only [Recipe.load, List.map_cons, Expr.totalSize]
    omega

end

/-- Builds a tree and links its value to an input socket. -/
def lowerInto (library : Library) (reuse : Bool) (e : Expr) (target : Socket) (scope : Scope) :
    Except BuildError Scope := do
  let (source, scope) ← lower library reuse e scope
  scope.connect source target

end Shadeloom
