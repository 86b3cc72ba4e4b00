import Shadeloom.Expr.Literal
import Shadeloom.Expr.Variable
/-!
# Expression trees

The arguments of a call and the statements of a source are chains of commas nested to the right.
Trees are compared with literals taken by their keys; this sameness is what the sharing of
subexpressions goes by.
-/
namespace Shadeloom

/-- The operators between two operands. -/
inductive BinaryOp where
  | add
  | sub
  | mul
  | div
  | pow
  | gt
  | lt
  /-- Names the output of a statement. -/
  | assign
  /-- Separates arguments and statements. -/
  | comma
  deriving Repr, DecidableEq, Inhabited

namespace BinaryOp

/-- The text of an operator, which is also the name of the function that it calls. -/
def symbol : BinaryOp → String
  | add => "+"
  | sub => "-"
  | mul => "*"
  | div => "/"
  | pow => "**"
  | gt => ">"
  | lt => "<"
  | assign => "="
  | comma => ","

/-- Whether an operator only puts its sides together and computes nothing. -/
def isStructural (op : BinaryOp) : Bool :=
  op = assign || op = comma

end BinaryOp

/-- An expression tree. -/
inductive Expr where
  /-- A missing operand. -/
  | empty
  | var (v : Variable)
  | value (literal : Literal)
  /-- A vector from up to three components. -/
  | combine (x : Expr) (y z : Option Expr)
  | binary (op : BinaryOp) (lhs rhs : Expr)
  /-- A function applied to one operand or a chain of them. -/
  | call (function : String) (args : Expr)
  deriving Repr, Inhabited

namespace Expr

/-- Induction over trees; a component of a vector is a part wherever it is present. -/
@[induction_eliminator]
theorem induct {motive : Expr → Prop} (empty : motive empty) (var : ∀ v, motive (var v))
    (value : ∀ literal, motive (value literal))
    (combine : ∀ x y z, motive x → (∀ e, y = some e → motive e) → (∀ e, z = some e → motive e) →
      motive (combine x y z))
    (binary : ∀ op lhs rhs, motive lhs → motive rhs → motive (binary op lhs rhs))
    (call : ∀ function args, motive args → motive (call function args)) : ∀ e, motive e
  | .empty => empty
  | .var v => var v
  | .value literal => value literal
  | .combine x none none =>
    combine _ _ _ (induct empty var value combine binary call x) nofun nofun
  | .combine x (some y) none =>
    combine _ _ _ (induct empty var value combine binary call x)
      (fun _ same => Option.some.inj same ▸ induct empty var value combine binary call y) nofun
  | .combine x none (some z) =>
    combine _ _ _ (induct empty var value combine binary call x) nofun
      (fun _ same => Option.some.inj same ▸ induct empty var value combine binary call z)
  | .combine x (some y) (some z) =>
    combine _ _ _ (induct empty var value combine binary call x)
      (fun _ same => Option.some.inj same ▸ induct empty var value combine binary call y)
      (fun _ same => Option.some.inj same ▸ induct empty var value combine binary call z)
  | .binary op lhs rhs =>
    binary op _ _ (induct empty var value combine binary call lhs)
      (induct empty var value combine binary call rhs)
  | .call function args => call function _ (induct empty var value combine binary call args)

/-- Whether an operand is missing. -/
def isEmpty : Expr → Bool
  | .empty => true
  | _ => false

/-- A numeral of the given text. -/
def numeral (text : String) : Expr :=
  .value ⟨text⟩

/-- Expressions put into a chain of commas; no expressions are a missing operand. -/
def chain : List Expr → Expr
  | [] => .empty
  | [e] => e
  | e :: rest => .binary .comma e (chain rest)

/-- The elements of a chain of commas; any other expression is a chain of one. -/
def arguments : Expr → List Expr
  | .binary .comma lhs rhs => lhs :: rhs.arguments
  | e => [e]

/-- The components of a vector that are present. -/
def components (x : Expr) (y z : Option Expr) : List Expr :=
  x :: (y.toList ++ z.toList)

/-- The name of the operation at the root of a tree. -/
def operation? : Expr → Option String
  | .binary op _ _ => some op.symbol
  | .call function _ => some function
  | .combine _ _ _ => some "combine"
  | _ => none

/-- The operands at the root of a tree as they are counted: a chain in the last place gives each
of its elements. -/
def operands : Expr → List Expr
  | .binary op lhs rhs => if op.isStructural then [lhs, rhs] else lhs :: rhs.arguments
  | .call _ args => args.arguments
  | .combine x y z => components x y z
  | _ => []

/-- The parts at the root of a tree in source order. -/
def children : Expr → List Expr
  | .binary _ lhs rhs => [lhs, rhs]
  | .call _ args => [args]
  | .combine x y z => components x y z
  | _ => []

mutual

/-- A tree and all its parts, each before its own parts. -/
def preorder : Expr → List Expr
  | .empty => [.empty]
  | .var v => [.var v]
  | .value literal => [.value literal]
  | .combine x y z => .combine x y z :: (x.preorder ++ preorderOf y ++ preorderOf z)
  | .binary op lhs rhs => .binary op lhs rhs :: (lhs.preorder ++ rhs.preorder)
  | .call function args => .call function args :: args.preorder

/-- The parts of a component, if it is present. -/
def preorderOf : Option Expr → List Expr
  | none => []
  | some e => e.preorder

end

/-- The variables of a tree in preorder. -/
def usedVariables (e : Expr) : List Variable :=
  e.preorder.filterMap fun
    | .var v => some v
    | _ => none

/-- The literals of a tree in preorder. -/
def literals (e : Expr) : List Literal :=
  e.preorder.filterMap fun
    | .value literal => some literal
    | _ => none

mutual

/-- The canonical text of a tree: operations as calls, chains with commas, atoms as written. -/
def text : Expr → String
  | .empty => ""
  | .var v => v.text
  | .value literal => literal.text
  | .combine x y z => "combine(" ++ x.text ++ componentText y ++ componentText z ++ ")"
  | .binary .comma lhs rhs => lhs.text ++ "," ++ rhs.text
  | .binary op lhs rhs => op.symbol ++ "(" ++ lhs.text ++ "," ++ rhs.text ++ ")"
  | .call function args => function ++ "(" ++ args.text ++ ")"

/-- The text of a component after the first, if it is present. -/
def componentText : Option Expr → String
  | none => ""
  | some e => "," ++ e.text

end

mutual

/-- Whether two trees differ at most in how literals with the same key are written. -/
def same : Expr → Expr → Bool
  | .empty, .empty => true
  | .var v, .var w => v = w
  | .value a, .value b => a.same b
  | .combine x y z, .combine x' y' z' => x.same x' && sameComponent y y' && sameComponent z z'
  | .binary op lhs rhs, .binary op' lhs' rhs' => op = op' && lhs.same lhs' && rhs.same rhs'
  | .call function args, .call function' args' => function = function' && args.same args'
  | _, _ => false

/-- Whether two components are both absent or the same. -/
def sameComponent : Option Expr → Option Expr → Bool
  | none, none => true
  | some e, some e' => e.same e'
  | _, _ => false

end

/-- A size of trees under which the operands of an operation, one taken for each of them, take no
more than the operation; a comma counts as the one taken for its left side. -/
def size : Expr → Nat
  | .empty => 1
  | .var _ => 1
  | .value _ => 1
  | .combine x none none => x.size + 1
  | .combine x (some y) none => x.size + y.size + 2
  | .combine x none (some z) => x.size + z.size + 2
  | .combine x (some y) (some z) => x.size + y.size + z.size + 3
  | .binary .comma lhs rhs => lhs.size + rhs.size + 1
  | .binary _ lhs rhs => lhs.size + rhs.size + 2
  | .call _ args => args.size + 1

/-- The sizes of trees together. -/
def totalSize : List Expr → Nat
  | [] => 0
  | e :: rest => e.size + totalSize rest

/-- The room that a list of trees takes: one more than its size for every tree. -/
def weight (es : List Expr) : Nat :=
  totalSize es + es.length

/-- Every tree has a node. -/
theorem size_pos (e : Expr) : 0 < e.size := by
  unfold size
  split <;> omega

/-- Putting the elements of a chain together again gives the chain. -/
theorem chain_arguments (e : Expr) : chain e.arguments = e := by
  fun_induction arguments e with
  | case1 lhs rhs ih =>
    have nonempty : rhs.arguments ≠ [] := by unfold arguments; split <;> simp
    match split : rhs.arguments, nonempty with
    | first :: rest, _ => rw [split] at ih; simp [chain, ih]
  | case2 e _ => rfl

/-- A chain has at least one element. -/
theorem arguments_ne_nil (e : Expr) : e.arguments ≠ [] := by
  unfold arguments
  split <;> simp

/-- The elements of a chain take one more than the size of the chain. -/
theorem weight_arguments (e : Expr) : weight e.arguments = e.size + 1 := by
  fun_induction arguments e with
  | case1 lhs rhs ih => simp only [weight, totalSize, List.length_cons, size] at ih ⊢; omega
  | case2 e _ => simp [weight, totalSize]

/-- A chain of at least one tree has a size one below what its elements take. -/
theorem size_chain (es : List Expr) (nonempty : es ≠ []) : (chain es).size + 1 = weight es := by
  fun_induction chain es with
  | case1 => exact absurd rfl nonempty
  | case2 e => simp [weight, totalSize]
  | case3 e rest notOne ih =>
    have tail : rest ≠ [] := fun h => notOne h
    have ih := ih tail
    simp only [weight, totalSize, List.length_cons, size] at ih ⊢
    omega

/-- The operands of a tree that is no chain take no more than the tree. -/
theorem weight_operands_le (e : Expr) (notChain : ∀ lhs rhs, e ≠ .binary .comma lhs rhs) :
    weight e.operands ≤ e.size := by
  cases e with
  | empty => simp [operands, weight, totalSize]
  | var v => simp [operands, weight, totalSize]
  | value literal => simp [operands, weight, totalSize]
  | combine x y z =>
    cases y <;> cases z <;> simp +arith [operands, components, weight, totalSize, size]
  | binary op lhs rhs =>
    have args := weight_arguments rhs
    have notComma : op ≠ .comma := fun h => notChain lhs rhs (h ▸ rfl)
    have cost : (Expr.binary op lhs rhs).size = lhs.size + rhs.size + 2 := by
      cases op <;> first | rfl | exact absurd rfl notComma
    rw [cost]
    simp only [operands]
    split
    · simp +arith [weight, totalSize]
    · simp only [weight, totalSize, List.length_cons] at args ⊢; omega
  | call function args =>
    have := weight_arguments args
    simp only [operands, size]
    omega

/-- Every tree is the same as itself. -/
theorem same_refl (e : Expr) : e.same e = true := by
  induction e with
  | empty => rfl
  | var v => simp [same]
  | value literal => simp [same, Literal.same_refl]
  | combine x y z hx hy hz =>
    cases y <;> cases z <;> simp_all [same, sameComponent]
  | binary op lhs rhs hl hr => simp [same, hl, hr]
  | call function args ha => simp [same, ha]

end Expr

end Shadeloom
