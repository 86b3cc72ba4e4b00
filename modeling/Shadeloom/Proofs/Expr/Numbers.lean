import Mathlib
import Shadeloom.Expr.Sugar
import Shadeloom.Proofs.Arithmetic.Fractions
import Shadeloom.Proofs.Expr.Meaning
/-!
# Trees of numbers

The value of a tree of scalar math over any numbers, from what its literals and variables stand for.
Over doubles it is the meaning of the tree. Over fractions nothing is rounded, which shows what the
expansions of `floor`, `ceil`, `mmod` and `fract` compute: the first is the floor of its argument,
the second the whole number that follows the floor, and the other two the rest above a floor.
-/
namespace Shadeloom

variable {α : Type} [Arithmetic α] [Transcendental α]

/-- The result of a scalar operation; of more than two operands the first one is combined with the
result for the others. -/
def MathOp.fold (op : MathOp) : List α → α
  | [] => 0.0
  | [a] => op.eval a 0.0
  | [a, b] => op.eval a b
  | a :: b :: c :: rest => op.eval a (op.fold (b :: c :: rest))

/-- The result of the function of a name, if it is a scalar operation. -/
def Function.number? (name : String) (operands : List α) : Option α :=
  match (find? name).map role with
  | some (.math op) => some (op.fold operands)
  | _ => none

/-- A function that is a scalar operation has its result. -/
theorem Function.number_eq (op : MathOp) {name : String}
    (found : (find? name).map role = some (.math op)) (operands : List α) :
    number? name operands = some (op.fold operands) := by
  rw [number?, found]

/-- The numbers that literals and variables stand for. -/
structure Reading (α : Type) where
  ofLiteral : Literal → Option α
  ofVariable : Variable → Option α

namespace Expr

/-- The numbers that the elements of a chain have as values; any other tree has one. There are none
for a vector, a missing operand or a function that is no scalar operation. -/
def numbers? (reading : Reading α) : Expr → Option (List α)
  | .empty => none
  | .var v => (reading.ofVariable v).map fun a => [a]
  | .value literal => (reading.ofLiteral literal).map fun a => [a]
  | .combine _ _ _ => none
  | .binary .comma lhs rhs => do
    let left ← lhs.numbers? reading
    let right ← rhs.numbers? reading
    return left ++ right
  | .binary op lhs rhs => do
    let left ← lhs.numbers? reading
    let right ← rhs.numbers? reading
    (Function.number? op.symbol (left ++ right)).map fun a => [a]
  | .call function args => do
    let operands ← args.numbers? reading
    (Function.number? function operands).map fun a => [a]

section

variable {reading : Reading α}

/-- A chain has the values of both of its sides. -/
theorem numbers_comma {lhs rhs : Expr} {left right : List α}
    (first : lhs.numbers? reading = some left) (second : rhs.numbers? reading = some right) :
    (binary .comma lhs rhs).numbers? reading = some (left ++ right) := by
  rw [numbers?, first, second]
  rfl

/-- An operation that computes something has one value. -/
theorem numbers_binary {op : BinaryOp} (computes : op.isStructural = false) {lhs rhs : Expr}
    {left right : List α} (first : lhs.numbers? reading = some left)
    (second : rhs.numbers? reading = some right) : (binary op lhs rhs).numbers? reading =
      (Function.number? op.symbol (left ++ right)).map fun a => [a] := by
  have apart : op ≠ .comma := by rintro rfl; cases computes
  rw [numbers?.eq_6 _ _ _ _ apart, first, second]
  rfl

/-- A call has one value. -/
theorem numbers_call {args : Expr} {operands : List α}
    (read : args.numbers? reading = some operands) (name : String) :
    (call name args).numbers? reading = (Function.number? name operands).map fun a => [a] := by
  rw [numbers?, read]
  rfl

/-- The values of a chain are those of its sides. -/
theorem exists_of_numbers_comma {lhs rhs : Expr} {values : List α}
    (read : (binary .comma lhs rhs).numbers? reading = some values) :
    ∃ left right, lhs.numbers? reading = some left ∧ rhs.numbers? reading = some right ∧
      values = left ++ right := by
  obtain ⟨left, first, rest⟩ := Option.bind_eq_some_iff.mp read
  obtain ⟨right, second, rest⟩ := Option.bind_eq_some_iff.mp rest
  exact ⟨left, right, first, second, (Option.some.inj rest).symm⟩

/-- The value of an operation is the result for the values of its sides. -/
theorem exists_of_numbers_binary {op : BinaryOp} (apart : op ≠ .comma) {lhs rhs : Expr}
    {values : List α} (read : (binary op lhs rhs).numbers? reading = some values) :
    ∃ left right a, lhs.numbers? reading = some left ∧ rhs.numbers? reading = some right ∧
      Function.number? op.symbol (left ++ right) = some a ∧ values = [a] := by
  rw [numbers?.eq_6 _ _ _ _ apart] at read
  obtain ⟨left, first, rest⟩ := Option.bind_eq_some_iff.mp read
  obtain ⟨right, second, rest⟩ := Option.bind_eq_some_iff.mp rest
  obtain ⟨a, result, rfl⟩ := Option.map_eq_some_iff.mp rest
  exact ⟨left, right, a, first, second, result, rfl⟩

/-- The value of a call is the result for the values of its arguments. -/
theorem exists_of_numbers_call {function : String} {args : Expr} {values : List α}
    (read : (call function args).numbers? reading = some values) :
    ∃ operands a, args.numbers? reading = some operands ∧
      Function.number? function operands = some a ∧ values = [a] := by
  obtain ⟨operands, first, rest⟩ := Option.bind_eq_some_iff.mp read
  obtain ⟨a, result, rfl⟩ := Option.map_eq_some_iff.mp rest
  exact ⟨operands, a, first, result, rfl⟩

/-- A tree with values has at least one. -/
theorem numbers_length_pos {e : Expr} {values : List α} (read : e.numbers? reading = some values) :
    0 < values.length := by
  induction e generalizing values with
  | empty => cases read
  | var v =>
    obtain ⟨a, -, rfl⟩ := Option.map_eq_some_iff.mp read
    exact Nat.one_pos
  | value literal =>
    obtain ⟨a, -, rfl⟩ := Option.map_eq_some_iff.mp read
    exact Nat.one_pos
  | combine => cases read
  | binary op lhs rhs left right =>
    by_cases comma : op = .comma
    · subst comma
      obtain ⟨first, second, one, -, rfl⟩ := exists_of_numbers_comma read
      exact List.length_append ▸ Nat.add_pos_left (left one) _
    · obtain ⟨_, _, a, -, -, -, rfl⟩ := exists_of_numbers_binary comma read
      exact Nat.one_pos
  | call function args =>
    obtain ⟨_, a, -, -, rfl⟩ := exists_of_numbers_call read
    exact Nat.one_pos

/-- A tree with one value is a chain of one. -/
theorem arguments_of_number {e : Expr} {a : α} (read : e.numbers? reading = some [a]) :
    e.arguments = [e] := by
  fun_cases arguments e with
  | case1 lhs rhs =>
    obtain ⟨first, second, left, right, same⟩ := exists_of_numbers_comma read
    have lengths := congrArg List.length same
    rw [List.length_singleton, List.length_append] at lengths
    have := numbers_length_pos left
    have := numbers_length_pos right
    omega
  | case2 _ => rfl

end

end Expr

/-- The number of a value that is no vector. -/
def Value.number? : Value → Option Float
  | .scalar a => some a
  | .vector _ => none

/-- A value that has a number is that scalar. -/
theorem Value.eq_of_number {value : Value} {a : Float} (number : value.number? = some a) :
    value = .scalar a := by
  cases value with
  | scalar b => cases number; rfl
  | vector => cases number

/-- Doubles as a tree is evaluated with them: names are read as vectors or as scalars, with their
values in an assignment. -/
def Reading.doubles (types : String → SocketType) (supplied : Assignment) : Reading Float where
  ofLiteral := Literal.number?
  ofVariable v := (v.meaning (types v.name) supplied).number?

/-- On scalars a scalar operation has its result as a scalar. -/
theorem MathOp.apply_scalars (op : MathOp) (operands : List Float) :
    op.apply (operands.map .scalar) = .scalar (op.fold operands) := by
  fun_induction MathOp.fold op operands with
  | case1 => rfl
  | case2 a => rfl
  | case3 a b => rfl
  | case4 a b c rest ih =>
    show Value.scalar (op.eval a (op.apply ((b :: c :: rest).map .scalar)).toScalar) = _
    rw [ih]
    rfl

/-- On scalars a function that is a scalar operation has its result as a scalar. -/
theorem Function.apply_scalars {name : String} {operands : List Float} {result : Float}
    (read : number? name operands = some result) :
    apply name (operands.map .scalar) = .scalar result := by
  unfold number? at read
  unfold apply
  split at read
  · rename_i op role
    cases read
    rw [role]
    exact op.apply_scalars operands
  · cases read

namespace Expr

/-- Over doubles the numbers of a tree are its values. -/
theorem meanings_of_numbers {types : String → SocketType} {supplied : Assignment} {e : Expr}
    {values : List Float} (read : e.numbers? (.doubles types supplied) = some values) :
    e.meanings types supplied = values.map .scalar := by
  induction e generalizing values with
  | empty => cases read
  | var v =>
    obtain ⟨a, number, rfl⟩ := Option.map_eq_some_iff.mp read
    rw [meanings, Value.eq_of_number number]
    rfl
  | value literal =>
    obtain ⟨a, number, rfl⟩ := Option.map_eq_some_iff.mp read
    have number : literal.number? = some a := number
    rw [meanings, number]
    rfl
  | combine => cases read
  | binary op lhs rhs left right =>
    by_cases comma : op = .comma
    · subst comma
      obtain ⟨first, second, one, two, rfl⟩ := exists_of_numbers_comma read
      rw [meanings, left one, right two, List.map_append]
    · obtain ⟨first, second, a, one, two, result, rfl⟩ := exists_of_numbers_binary comma read
      rw [meanings.eq_6 _ _ _ _ _ comma, left one, right two, ← List.map_append,
        Function.apply_scalars result]
      rfl
  | call function args operands =>
    obtain ⟨first, a, one, result, rfl⟩ := exists_of_numbers_call read
    rw [meanings, operands one, Function.apply_scalars result]
    rfl

end Expr

/-- The fraction that a literal stands for. -/
def Literal.fraction? (literal : Literal) : Option ℚ :=
  match literal.unquoted? with
  | some "pi" => some 3.14159265359
  | some "e" => some 2.71828182846
  | some _ => none
  | none => Decimal.fraction? (Text.trim literal.text.toList)

/-- Fractions, with literals as they are written. -/
def Reading.fractions (given : Variable → Option ℚ) : Reading ℚ where
  ofLiteral := Literal.fraction?
  ofVariable := given

namespace Expr

section

variable [Transcendental ℚ] {given : Variable → Option ℚ}

/-- The numeral that `floor` and `ceil` write is one half. -/
theorem numbers_half : (numeral "0.5").numbers? (.fractions given) = some [1 / 2] := by
  have half : Literal.fraction? ⟨"0.5"⟩ = some (1 / 2) := by decide +kernel
  show (Literal.fraction? ⟨"0.5"⟩).map _ = _
  rw [half]
  rfl

/-- The numeral that `fract` writes is one. -/
theorem numbers_one : (numeral "1.0").numbers? (.fractions given) = some [1] := by
  have one : Literal.fraction? ⟨"1.0"⟩ = some 1 := by decide +kernel
  show (Literal.fraction? ⟨"1.0"⟩).map _ = _
  rw [one]
  rfl

variable {x y : Expr} {a b : ℚ}

/-- A call of `round` rounds. -/
theorem numbers_round (read : x.numbers? (.fractions given) = some [a]) :
    (call "round" x).numbers? (.fractions given) = some [Arithmetic.round a] := by
  rw [numbers_call read, Function.number_eq .round (by decide +kernel)]
  rfl

/-- A call of `mod` takes the remainder. -/
theorem numbers_mod (left : x.numbers? (.fractions given) = some [a])
    (right : y.numbers? (.fractions given) = some [b]) :
    (call2 "mod" x y).numbers? (.fractions given) = some [Arithmetic.safeRemainder a b] := by
  rw [call2, numbers_call (numbers_comma left right),
    Function.number_eq .modulo (by decide +kernel)]
  rfl

/-- The remainder that has the sign of the divisor is the rest above the floor of the quotient, and
zero for a divisor of zero. -/
theorem numbers_flooredModulo (left : x.numbers? (.fractions given) = some [a])
    (right : y.numbers? (.fractions given) = some [b]) :
    (flooredModulo x y).numbers? (.fractions given) =
      some [if b = 0 then 0 else a - b * ⌊a / b⌋] := by
  have sum : (binary .add (call2 "mod" x y) y).numbers? (.fractions given) =
      some [Arithmetic.safeRemainder a b + b] := by
    rw [numbers_binary rfl (numbers_mod left right) right,
      Function.number_eq .add (by decide +kernel)]
    rfl
  rw [flooredModulo, numbers_mod sum right]
  split
  · rename_i zero
    rw [zero, Arithmetic.safeRemainder_zero]
  · rename_i nonzero
    rw [Arithmetic.safeRemainder_add_divisor nonzero]

/-- `floor` is the greatest whole number that is not above its argument. `ceil` is the least whole
number above its argument, so it is the ceiling exactly if the argument is not whole. -/
theorem floor_and_ceil {e : Expr} {a : ℚ} (read : e.numbers? (.fractions given) = some [a]) :
    (application "floor" e).numbers? (.fractions given) = some [(⌊a⌋ : ℚ)] ∧
      (application "ceil" e).numbers? (.fractions given) = some [(⌊a⌋ + 1 : ℚ)] ∧
      ((application "ceil" e).numbers? (.fractions given) = some [(⌈a⌉ : ℚ)] ↔
        ¬∃ n : ℤ, (n : ℚ) = a) := by
  have floor : application "floor" e = floorOf e := by
    rw [application, arguments_of_number read]
    rfl
  have ceiling : application "ceil" e = ceilingOf e := by
    rw [application, arguments_of_number read]
    rfl
  have down : (application "floor" e).numbers? (.fractions given) = some [(⌊a⌋ : ℚ)] := by
    have less : (binary .sub e (numeral "0.5")).numbers? (.fractions given) =
        some [a - 1 / 2] := by
      rw [numbers_binary rfl read numbers_half,
        Function.number_eq .subtract (by decide +kernel)]
      rfl
    rw [floor, floorOf, numbers_round less, Arithmetic.round_sub_half]
  have up : (application "ceil" e).numbers? (.fractions given) = some [(⌊a⌋ + 1 : ℚ)] := by
    have more : (binary .add e (numeral "0.5")).numbers? (.fractions given) =
        some [a + 1 / 2] := by
      rw [numbers_binary rfl read numbers_half,
        Function.number_eq .add (by decide +kernel)]
      rfl
    rw [ceiling, ceilingOf, numbers_round more, Arithmetic.round_add_half]
  refine ⟨down, up, ?_⟩
  rw [up, ← Set.mem_range, ← Int.ceil_eq_floor_add_one_iff_notMem, Option.some.injEq,
    List.singleton_inj, eq_comm]
  exact_mod_cast Iff.rfl

end

/-- `ceil` of two is three. -/
theorem ceil_two :
    letI : Transcendental ℚ := default
    (application "ceil" (.var (.plain "x"))).numbers? (.fractions fun _ => some 2) = some [3] := by
  let transcendental : Transcendental ℚ := default
  have read : (Expr.var (.plain "x")).numbers? (.fractions fun _ => some 2) = some [2] := rfl
  rw [(floor_and_ceil read).2.1]
  norm_num

section

variable [Transcendental ℚ] {given : Variable → Option ℚ} {x y : Expr} {a b : ℚ}

/-- `mmod` is the rest of its first argument above the floor of the quotient, which lies between
zero and the divisor and has its sign; for a divisor of zero it is zero. `fract` is the rest of its
argument above its floor. -/
theorem mmod_and_fract (left : x.numbers? (.fractions given) = some [a])
    (right : y.numbers? (.fractions given) = some [b]) :
    (application "mmod" (binary .comma x y)).numbers? (.fractions given) =
        some [if b = 0 then 0 else a - b * ⌊a / b⌋] ∧
      (0 < b → 0 ≤ a - b * ⌊a / b⌋ ∧ a - b * ⌊a / b⌋ < b) ∧
      (b < 0 → b < a - b * ⌊a / b⌋ ∧ a - b * ⌊a / b⌋ ≤ 0) ∧
      (application "fract" x).numbers? (.fractions given) = some [a - ⌊a⌋] := by
  have pair : (binary .comma x y).arguments = [x, y] := by
    rw [arguments, arguments_of_number right]
  have modulo : application "mmod" (binary .comma x y) = flooredModulo x y := by
    rw [application, pair]
    rfl
  have fraction : application "fract" x = flooredModulo x (numeral "1.0") := by
    rw [application, arguments_of_number left]
    rfl
  refine ⟨?_, fun positive => Arithmetic.floored_of_pos positive a,
    fun negative => Arithmetic.floored_of_neg negative a, ?_⟩
  · rw [modulo, numbers_flooredModulo left right]
  · rw [fraction, numbers_flooredModulo left numbers_one, if_neg one_ne_zero, div_one, one_mul]

end

/-- A negative number and a positive divisor. -/
theorem mmod_and_fract_negative :
    letI : Transcendental ℚ := default
    (application "mmod" (.binary .comma (.var (.plain "x")) (.var (.plain "y")))).numbers?
        (.fractions fun v => some (if v.name = "x" then -7 / 2 else 2)) = some [1 / 2] ∧
      (application "fract" (.var (.plain "x"))).numbers?
        (.fractions fun v => some (if v.name = "x" then -7 / 2 else 2)) = some [1 / 2] := by
  let transcendental : Transcendental ℚ := default
  let given (v : Variable) : Option ℚ := some (if v.name = "x" then -7 / 2 else 2)
  have x : (Expr.var (.plain "x")).numbers? (.fractions given) = some [-7 / 2] := rfl
  have y : (Expr.var (.plain "y")).numbers? (.fractions given) = some [2] := rfl
  obtain ⟨modulo, -, -, fraction⟩ := mmod_and_fract x y
  rw [modulo, fraction]
  have quotient : ⌊(-7 / 2 : ℚ) / 2⌋ = -2 := by decide +kernel
  have whole : ⌊(-7 / 2 : ℚ)⌋ = -4 := by decide +kernel
  rw [quotient, whole]
  norm_num

end Expr

end Shadeloom
