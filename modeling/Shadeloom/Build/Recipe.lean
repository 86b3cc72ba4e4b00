import Shadeloom.Build.Settings
import Shadeloom.Build.Scope
import Shadeloom.Graph.Assembly
/-!
# Recipes

A recipe says what is made of a tree: one node, the trees that feed its sockets, and the socket
that its value is read from. Finding the recipe does not change the graph, so a tree that has none
is refused before anything is made of it. The trees of a recipe are smaller than its tree.
-/
namespace Shadeloom

/-- What is made of a tree. -/
structure Recipe where
  node : Node
  /-- The trees that feed input sockets, with the places of these, in the order in which they are
  built. -/
  operands : List (Nat × Expr)
  /-- The place of the output socket of the value. -/
  output : Nat

namespace Recipe

/-- The node of an operation fed in order from a place on. -/
def inOrder (op : NodeOp) (first : Nat) (operands : List Expr) (output : Nat) : Recipe where
  node := .ofOp op
  operands := (operands.zipIdx first).map Prod.swap
  output

/-- A scalar operation. With a function of many arguments the first one feeds the node, and a call
of the function on the others feeds its second socket. -/
def math (function : Function) (op : MathOp) (operands : List Expr) : Except BuildError Recipe :=
  if op.arity < operands.length && !(op.arity = 2 && function.isVariadic) then
    .error (.tooManyArguments function.name op.arity)
  else
    match operands with
    | first :: second :: third :: rest =>
      .ok (inOrder (.math op) 0
        [first, .call function.name (.chain (second :: third :: rest))] 0)
    | operands => .ok (inOrder (.math op) 0 operands 0)

/-- Any other operation on its operands alone. -/
def plain (function : Function) (op : NodeOp) (operands : List Expr) : Except BuildError Recipe :=
  let first := function.role.inputSocket
  let max := op.inputSockets.length - first
  if max < operands.length then .error (.tooManyArguments function.name max)
  else .ok (inOrder op first operands function.role.outputSocket)

/-- An operation with settings: the first operand feeds the node, and the others set it. -/
def configured (function : Function) (operands : List Expr)
    (op : List Expr → Except SettingFault NodeOp) : Except BuildError Recipe :=
  match operands with
  | [] => .error (.missingOperand function.name)
  | first :: settings =>
    match op settings with
    | .ok op => .ok (inOrder op 0 [first] function.role.outputSocket)
    | .error fault => .error (.invalidConfiguration function.name fault)

/-- An instance of a group of the library, fed in order. -/
def ofGroup (library : Library) (function group : String) (operands : List Expr) :
    Except BuildError Recipe :=
  match library.get? group with
  | none => .error (.unknownGroup group)
  | some definition =>
    let node := definition.instanceNode
    if node.inputs.length < operands.length then
      .error (.tooManyArguments function node.inputs.length)
    else .ok ⟨node, (operands.zipIdx 0).map Prod.swap, 0⟩

/-- A function on operands. -/
def ofFunction (function : Function) (operands : List Expr) : Except BuildError Recipe :=
  match function.role with
  | .math op => math function op operands
  | .vectorMath op => plain function (.vectorMath op) operands
  | .mix blend _ => plain function (.mix blend) operands
  | .noise => plain function .noise operands
  | .musgrave type => plain function (.musgrave type) operands
  | .voronoi mode => plain function (.voronoi mode) operands
  | .combine => plain function .combineXyz operands
  | .colorRamp =>
    configured function operands fun settings => do
      .ok (.colorRamp (← ColorRamp.ofArguments settings))
  | .image _ =>
    configured function operands fun settings => do
      .ok (.image (← ImageTexture.ofArguments settings))
  | .pointDensity _ =>
    configured function operands fun settings => do
      .ok (.pointDensity (← PointDensity.ofArguments settings))
  | .sugar => .error (.unknownOperation function.name)
  | .directive _ => .error (.misplacedDirective function.name)

/-- An operation, by the name of its function, on operands. -/
def ofOperation (library : Library) (name : String) (operands : List Expr) :
    Except BuildError Recipe :=
  if operands.any Expr.isEmpty then .error (.missingOperand name)
  else
    match Function.calledGroup? name with
    | some group => ofGroup library name group operands
    | none =>
      match Function.find? name with
      | none => .error (.unknownOperation name)
      | some function => ofFunction function operands

/-- The places of the components that are present. -/
def components (x : Expr) (y z : Option Expr) : List (Nat × Expr) :=
  (0, x) :: ((y.toList.map fun e => (1, e)) ++ z.toList.map fun e => (2, e))

/-- A vector put together from components. -/
def ofCombine (x : Expr) (y z : Option Expr) : Except BuildError Recipe :=
  if (Expr.components x y z).any Expr.isEmpty then .error (.missingOperand "combine")
  else .ok ⟨.ofOp .combineXyz, components x y z, 0⟩

/-- A constant of the number that a literal stands for. -/
def ofLiteral (literal : Literal) : Except BuildError Recipe :=
  match literal.number? with
  | some number => .ok (inOrder (.constant number) 0 [] 0)
  | none => .error (.invalidLiteral literal.text)

end Recipe

/-- What is done for a tree: a variable is read, and for anything else a node is made. -/
inductive Plan where
  | read (v : Variable)
  | make (recipe : Recipe)

/-- What is done for a tree, with the definitions of a library. -/
def Plan.of (library : Library) (e : Expr) : Except BuildError Plan :=
  match e with
  | .empty => .error (.missingOperand "expression")
  | .var v => .ok (.read v)
  | .value literal => (Recipe.ofLiteral literal).map .make
  | .combine x y z => (Recipe.ofCombine x y z).map .make
  | .binary .comma _ _ => .error .unexpectedComma
  | .binary .assign _ _ => .error (.misplacedDirective "=")
  | .binary op _ _ => (Recipe.ofOperation library op.symbol e.operands).map .make
  | .call name _ => (Recipe.ofOperation library name e.operands).map .make

namespace Recipe

/-- The sizes of the trees of operands together. -/
def load (operands : List (Nat × Expr)) : Nat :=
  Expr.totalSize (operands.map Prod.snd)

/-- The trees that are fed in order are as large together as the operands. -/
theorem load_zipIdx (operands : List Expr) (first : Nat) :
    load ((operands.zipIdx first).map Prod.swap) = Expr.totalSize operands := by
  induction operands generalizing first with
  | nil => rfl
  | cons e rest ih =>
    have := ih (first + 1)
    simp only [load, List.zipIdx_cons, List.map_cons, Prod.snd_swap, Expr.totalSize] at this ⊢
    omega

/-- Trees are smaller together than the room that they take, unless there are none. -/
theorem totalSize_lt_of_weight_le {operands : List Expr} {room : Nat}
    (fits : Expr.weight operands ≤ room) (positive : 0 < room) :
    Expr.totalSize operands < room := by
  cases operands with
  | nil => exact positive
  | cons e rest =>
    simp only [Expr.weight, List.length_cons] at fits
    omega

/-- What a scalar operation is fed with takes less room than its operands are given. -/
theorem load_math {function : Function} {op : MathOp} {operands : List Expr} {recipe : Recipe}
    {room : Nat} (fits : Expr.weight operands ≤ room) (positive : 0 < room)
    (made : math function op operands = .ok recipe) : load recipe.operands < room := by
  unfold math at made
  split at made
  · simp at made
  · split at made
    · rename_i first second third rest _
      cases made
      have tail := Expr.size_chain (second :: third :: rest) (by simp)
      simp only [inOrder, load_zipIdx, Expr.totalSize]
      simp only [Expr.weight, Expr.totalSize, List.length_cons, Expr.size] at fits tail ⊢
      omega
    · cases made
      simpa only [inOrder, load_zipIdx] using totalSize_lt_of_weight_le fits positive

/-- What an operation is fed with takes less room than its operands are given. -/
theorem load_ofOperation {library : Library} {name : String} {operands : List Expr}
    {recipe : Recipe} {room : Nat} (fits : Expr.weight operands ≤ room) (positive : 0 < room)
    (made : ofOperation library name operands = .ok recipe) : load recipe.operands < room := by
  have all := totalSize_lt_of_weight_le fits positive
  have ofNode (function : Function) (op : NodeOp)
      (made : plain function op operands = .ok recipe) : load recipe.operands < room := by
    unfold plain at made
    dsimp only at made
    split at made
    · simp at made
    · cases made
      simpa only [inOrder, load_zipIdx] using all
  have ofSettings (function : Function) (op : List Expr → Except SettingFault NodeOp)
      (made : configured function operands op = .ok recipe) : load recipe.operands < room := by
    unfold configured at made
    split at made
    · simp at made
    · split at made
      · cases made
        simp only [inOrder, load_zipIdx, Expr.totalSize] at all ⊢
        omega
      · simp at made
  unfold ofOperation at made
  split at made
  · simp at made
  · split at made
    · unfold ofGroup at made
      split at made
      · simp at made
      · dsimp only at made
        split at made
        · simp at made
        · cases made
          simpa only [load_zipIdx] using all
    · split at made
      · simp at made
      · unfold ofFunction at made
        split at made
        · exact load_math fits positive made
        · exact ofNode _ _ made
        · exact ofNode _ _ made
        · exact ofNode _ _ made
        · exact ofNode _ _ made
        · exact ofNode _ _ made
        · exact ofNode _ _ made
        · exact ofSettings _ _ made
        · exact ofSettings _ _ made
        · exact ofSettings _ _ made
        · simp at made
        · simp at made

/-- The trees of a recipe are smaller together than its tree. -/
theorem load_lt_size {library : Library} {e : Expr} {recipe : Recipe}
    (planned : Plan.of library e = .ok (.make recipe)) : load recipe.operands < e.size := by
  have unmap {made : Except BuildError Recipe} (mapped : made.map Plan.make = .ok (.make recipe)) :
      made = .ok recipe := by
    cases made with
    | error error => simp [Except.map] at mapped
    | ok made => simp only [Except.map, Except.ok.injEq, Plan.make.injEq] at mapped; rw [mapped]
  unfold Plan.of at planned
  split at planned
  · simp at planned
  · simp at planned
  · have made := unmap planned
    unfold ofLiteral at made
    split at made
    · cases made; exact Expr.size_pos _
    · simp at made
  · rename_i x y z
    have made := unmap planned
    unfold ofCombine at made
    split at made
    · simp at made
    · cases made
      cases y <;> cases z <;> simp +arith [components, load, Expr.totalSize, Expr.size]
  · simp at planned
  · simp at planned
  · rename_i op lhs rhs notComma notAssign
    exact load_ofOperation
      (Expr.weight_operands_le _ fun _ _ same => notComma (by injection same))
      (Expr.size_pos _) (unmap planned)
  · exact load_ofOperation (Expr.weight_operands_le _ (by simp)) (Expr.size_pos _)
      (unmap planned)

end Recipe

end Shadeloom
