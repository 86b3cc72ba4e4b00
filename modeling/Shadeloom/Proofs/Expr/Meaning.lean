import Mathlib
import Shadeloom.Evaluation.Machine
import Shadeloom.Proofs.Build.Needs
/-!
# What trees mean

The value of a tree of numbers, variables, operators, vectors and calls of math functions, found by
going through the tree alone: no nodes, no sockets and no order. A variable is a vector if it carries
a subscript anywhere in the tree, and a scalar otherwise. The node that is made for such a tree
computes its value from the values of the operands that feed it.
-/
namespace Shadeloom

/-- The value of a scalar operation; of more than two operands the first one is combined with the
value of the others. -/
def MathOp.apply (op : MathOp) : List Value → Value
  | [] => .scalar 0.0
  | [a] => .scalar (op.eval a.toScalar 0.0)
  | [a, b] => .scalar (op.eval a.toScalar b.toScalar)
  | a :: b :: c :: rest => .scalar (op.eval a.toScalar (op.apply (b :: c :: rest)).toScalar)

/-- The value of a vector operation: a scalar for the dot product, a vector otherwise. -/
def VectorOp.apply (op : VectorOp) (operands : List Value) : Value :=
  let result := op.eval ((operands[0]?.map Value.toVec3).getD .zero)
    ((operands[1]?.map Value.toVec3).getD .zero)
  if op = .dotProduct then .scalar result.2 else .vector result.1

/-- The value of a blend of two colors, by a factor if there is one before them and in full
otherwise. -/
def MixBlend.apply (blend : MixBlend) : List Value → Value
  | [a, b] => .vector (blend.eval 1.0 a.toVec3 b.toVec3)
  | [factor, a, b] => .vector (blend.eval factor.toScalar a.toVec3 b.toVec3)
  | _ => .vector .zero

/-- The value of the function of a name. -/
def Function.apply (name : String) (operands : List Value) : Value :=
  match (Function.find? name).map Function.role with
  | some (.math op) => op.apply operands
  | some (.vectorMath op) => op.apply operands
  | some (.mix blend _) => blend.apply operands
  | _ => .scalar 0.0

/-- The value of a variable that is read as a vector or as a scalar: all of it, or one component. -/
def Variable.meaning (v : Variable) (type : SocketType) (supplied : Assignment) : Value :=
  let whole := ((supplied.get? v.name).getD (.scalar 0.0)).convert type
  match v.subscript.bind component? with
  | none => whole
  | some place => .scalar (whole.toVec3.toList[place]?.getD 0.0)

namespace Expr

mutual

/-- The values of the elements of a chain; any other tree has one value. Names are read as vectors or
as scalars. -/
def meanings (types : String → SocketType) (supplied : Assignment) : Expr → List Value
  | .empty => []
  | .var v => [v.meaning (types v.name) supplied]
  | .value literal => [.scalar (literal.number?.getD 0.0)]
  | .combine x y z =>
    [.vector ⟨scalarOf (x.meanings types supplied), componentMeaning types supplied y,
      componentMeaning types supplied z⟩]
  | .binary .comma lhs rhs => lhs.meanings types supplied ++ rhs.meanings types supplied
  | .binary op lhs rhs =>
    [Function.apply op.symbol (lhs.meanings types supplied ++ rhs.meanings types supplied)]
  | .call function args => [Function.apply function (args.meanings types supplied)]

/-- The value of a component as a scalar, zero if it is not present. -/
def componentMeaning (types : String → SocketType) (supplied : Assignment) : Option Expr → Float
  | none => 0.0
  | some e => scalarOf (e.meanings types supplied)

/-- The first value as a scalar. -/
def scalarOf (values : List Value) : Float :=
  (values.head?.map Value.toScalar).getD 0.0

end

/-- The type that the variables of a name in a tree are read as: that of a vector if one of them has
a subscript. -/
def typeOf (e : Expr) (name : String) : SocketType :=
  if e.usedVariables.any fun v => v.name = name && v.subscript.isSome then .vector else .scalar

/-- The value of a tree in which names are read as vectors or as scalars. -/
def meaningAs (types : String → SocketType) (supplied : Assignment) (e : Expr) : Value :=
  (e.meanings types supplied).headD (.scalar 0.0)

/-- The value of a tree for an assignment. -/
def meaning (e : Expr) (supplied : Assignment) : Value :=
  e.meaningAs e.typeOf supplied

end Expr

/-- Whether calls become scalar math, vector math or mixing nodes. -/
def Role.isArithmetic : Role → Bool
  | math _ => true
  | vectorMath _ => true
  | mix _ _ => true
  | _ => false

/-- Whether a tree is built from numbers, variables that are no references to instances, operators,
vectors and calls of math functions alone. -/
inductive Expr.IsArithmetic : Expr → Prop
  | value {literal : Literal} (number : literal.number?.isSome = true) : IsArithmetic (.value literal)
  | var {v : Variable} (plain : Text.afterStart? Function.instanceMark v.name = none)
    (subscript : ∀ subscript, v.subscript = some subscript →
      Variable.isKnownSubscript subscript = true) : IsArithmetic (.var v)
  | combine {x : Expr} {y z : Option Expr} (first : IsArithmetic x)
    (second : ∀ e ∈ y, IsArithmetic e) (third : ∀ e ∈ z, IsArithmetic e) :
    IsArithmetic (.combine x y z)
  | binary {op : BinaryOp} {lhs rhs : Expr} (computes : op.isStructural = false)
    (left : IsArithmetic lhs) (right : IsArithmetic rhs) : IsArithmetic (.binary op lhs rhs)
  | call {name : String} {args : Expr} {function : Function}
    (found : Function.find? name = some function) (arithmetic : function.role.isArithmetic = true)
    (operands : ∀ e ∈ args.arguments, IsArithmetic e) : IsArithmetic (.call name args)

namespace Expr

section

variable {types : String → SocketType} {supplied : Assignment}

/-- The values of a chain are those of its elements. -/
theorem meanings_eq_flatMap (e : Expr) :
    e.meanings types supplied = e.arguments.flatMap (meanings types supplied) := by
  fun_induction Expr.arguments e with
  | case1 lhs rhs ih => rw [meanings, ih, List.flatMap_cons]
  | case2 e _ => simp

end

/-- Whether a tree calls the function of a name on its operands; vectors and chains call none. -/
inductive Calls : Expr → String → Prop
  | binary {op : BinaryOp} (lhs rhs : Expr) (computes : op.isStructural = false) :
    Calls (.binary op lhs rhs) op.symbol
  | call (name : String) (args : Expr) : Calls (.call name args) name

/-- The operands of an operation that computes something are its sides. -/
theorem operands_binary {op : BinaryOp} (computes : op.isStructural = false) (lhs rhs : Expr) :
    (binary op lhs rhs).operands = lhs :: rhs.arguments := by
  show (if op.isStructural then [lhs, rhs] else lhs :: rhs.arguments) = _
  rw [computes]
  rfl

/-- The value of a tree that calls a function is that of the function on the values of the
operands. -/
theorem Calls.meanings_eq {e : Expr} {name : String} (calls : e.Calls name)
    (types : String → SocketType) (supplied : Assignment) : e.meanings types supplied =
      [Function.apply name (e.operands.flatMap (meanings types supplied))] := by
  cases calls with
  | call =>
    rw [meanings, meanings_eq_flatMap]
    rfl
  | @binary op lhs rhs computes =>
    rw [operands_binary computes, List.flatMap_cons, ← meanings_eq_flatMap rhs]
    cases op with
    | comma => cases computes
    | _ => rw [meanings]; exact nofun

/-- Whether a tree of math can be built: its variables can be read, its literals are numbers, and
its functions are called with as many operands as they take. -/
inductive IsComputable : Expr → Prop
  | var {v : Variable} (readable : v.IsReadable) : IsComputable (.var v)
  | value {literal : Literal} {number : Float} (read : literal.number? = some number) :
    IsComputable (.value literal)
  | combine {x : Expr} {y z : Option Expr} (first : IsComputable x)
    (second : ∀ e ∈ y, IsComputable e) (third : ∀ e ∈ z, IsComputable e) :
    IsComputable (.combine x y z)
  | calls {e : Expr} {name : String} {function : Function} (calls : e.Calls name)
    (found : Function.find? name = some function) (arithmetic : function.role.isArithmetic = true)
    (accepts : function.accepts e.operands.length = true)
    (operands : ∀ operand ∈ e.operands, IsComputable operand) : IsComputable e

/-- A tree that is no chain has one value. -/
theorem IsComputable.meanings_eq {e : Expr} (computable : e.IsComputable)
    (types : String → SocketType) (supplied : Assignment) :
    e.meanings types supplied = [e.meaningAs types supplied] := by
  have one : ∃ value, e.meanings types supplied = [value] := by
    cases computable with
    | var _ => exact ⟨_, rfl⟩
    | value _ => exact ⟨_, rfl⟩
    | combine _ _ _ => exact ⟨_, rfl⟩
    | calls calls => exact ⟨_, calls.meanings_eq types supplied⟩
  obtain ⟨value, one⟩ := one
  unfold meaningAs
  rw [one]
  rfl

/-- A tree that has a value is no chain. -/
theorem IsComputable.not_comma {e : Expr} (computable : e.IsComputable) :
    ∀ lhs rhs, e ≠ .binary .comma lhs rhs := by
  rintro lhs rhs rfl
  cases computable with
  | calls calls =>
    cases calls with
    | binary _ _ computes => cases computes

/-- Trees that are no chains have one value each. -/
theorem flatMap_meanings {es : List Expr} (computable : ∀ e ∈ es, e.IsComputable)
    (types : String → SocketType) (supplied : Assignment) :
    es.flatMap (meanings types supplied) = es.map (meaningAs types supplied) := by
  induction es with
  | nil => rfl
  | cons e rest ih =>
    rw [List.flatMap_cons, (computable e (by simp)).meanings_eq, List.map_cons,
      ih fun other mem => computable other (by simp [mem]), List.singleton_append]

/-- A tree that has a value is there. -/
theorem IsComputable.isEmpty_eq_false {e : Expr} (computable : e.IsComputable) :
    e.isEmpty = false := by
  cases computable with
  | calls calls => cases calls <;> rfl
  | _ => rfl

/-- No operand of a tree is missing when all of them have a value. -/
theorem any_isEmpty_eq_false {es : List Expr} (computable : ∀ e ∈ es, e.IsComputable) :
    es.any isEmpty = false := by
  rw [List.any_eq_false]
  intro e mem
  rw [(computable e mem).isEmpty_eq_false]
  exact Bool.false_ne_true

end Expr

end Shadeloom
