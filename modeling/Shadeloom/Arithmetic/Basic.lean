import Shadeloom.Node.Opcode
/-!
# Scalar math

What each scalar operation computes, over any numbers with the operations it needs. Math is safe:
a division, a remainder or a logarithm that has no value gives zero, and so does a negative number
to the power of a number that is not nearly whole.
-/
namespace Shadeloom

/-- Numbers with the operations that have exact results on fractions. -/
class Arithmetic (α : Type) extends Add α, Sub α, Mul α, Div α, LT α, LE α, BEq α,
    OfScientific α where
  decidableLT : DecidableLT α
  decidableLE : DecidableLE α
  /-- The greatest whole number that is not above a number. -/
  floor : α → α
  /-- The remainder of a division with the quotient cut toward zero. -/
  remainder : α → α → α
  abs : α → α
  /-- The smaller of two numbers; of a number and something that is none, the number. -/
  minimum : α → α → α
  /-- The greater of two numbers; of a number and something that is none, the number. -/
  maximum : α → α → α

/-- Functions on numbers that are not exact on fractions. -/
class Transcendental (α : Type) where
  sine : α → α
  cosine : α → α
  tangent : α → α
  arcsine : α → α
  arccosine : α → α
  arctangent : α → α
  power : α → α → α
  /-- The natural logarithm. -/
  logarithm : α → α

namespace Arithmetic

variable {α : Type} [Arithmetic α]

instance : DecidableLT α := decidableLT

instance : DecidableLE α := decidableLE

/-- A truth value as a number. -/
def truth (holds : Bool) : α :=
  if holds then 1.0 else 0.0

/-- The quotient, or zero if the divisor is zero. -/
def safeDivide (a b : α) : α :=
  if b == 0.0 then 0.0 else a / b

/-- The remainder, or zero if the divisor is zero. -/
def safeRemainder (a b : α) : α :=
  if b == 0.0 then 0.0 else remainder a b

/-- The nearest whole number, the upper one of two. -/
def round (a : α) : α :=
  floor (a + 0.5)

/-- The number between -1 and 1 that is nearest to a number. -/
def clampUnit (a : α) : α :=
  if a < 0.0 - 1.0 then 0.0 - 1.0 else if (1.0 : α) < a then 1.0 else a

/-- The part of a number above the whole number below it. -/
def fraction (a : α) : α :=
  let rest := remainder a 1.0
  if rest < (0.0 : α) then rest + 1.0 else rest

/-- The quotient of logarithms, or zero if one of them has no value. -/
def safeLogarithm [Transcendental α] (a b : α) : α :=
  if (0.0 : α) < a ∧ (0.0 : α) < b then
    safeDivide (Transcendental.logarithm a) (Transcendental.logarithm b)
  else 0.0

/-- A power; of a negative number, the power to the nearest whole exponent if the exponent is
nearly whole, and zero otherwise. -/
def safePower [Transcendental α] (a b : α) : α :=
  if (0.0 : α) ≤ a then Transcendental.power a b
  else
    let part := fraction b
    if (0.001 : α) ≤ part ∧ part ≤ (0.999 : α) then 0.0 else Transcendental.power a (round b)

end Arithmetic

open Arithmetic in
/-- The value of a scalar operation. -/
def MathOp.eval {α : Type} [Arithmetic α] [Transcendental α] : MathOp → α → α → α
  | add, a, b => a + b
  | subtract, a, b => a - b
  | multiply, a, b => a * b
  | divide, a, b => safeDivide a b
  | power, a, b => safePower a b
  | sine, a, _ => Transcendental.sine a
  | cosine, a, _ => Transcendental.cosine a
  | tangent, a, _ => Transcendental.tangent a
  | arcsine, a, _ => Transcendental.arcsine (clampUnit a)
  | arccosine, a, _ => Transcendental.arccosine (clampUnit a)
  | arctangent, a, _ => Transcendental.arctangent a
  | minimum, a, b => Arithmetic.minimum a b
  | maximum, a, b => Arithmetic.maximum a b
  | greaterThan, a, b => truth (decide (b < a))
  | lessThan, a, b => truth (decide (a < b))
  | logarithm, a, b => safeLogarithm a b
  | round, a, _ => Arithmetic.round a
  | modulo, a, b => safeRemainder a b
  | absolute, a, _ => abs a

end Shadeloom
