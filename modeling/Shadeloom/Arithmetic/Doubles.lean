import Shadeloom.Arithmetic.Basic
import Shadeloom.Decimal.Magnitude
/-!
# Math on doubles

The remainder of two doubles is exact: both are multiples of the smaller of the two powers of two,
so it is a remainder of natural numbers.
-/
namespace Shadeloom

namespace Decimal

/-- The double that is nearest to a natural number times a power of two. -/
def scaled (n : Nat) (exponent : Int) : Float :=
  if exponent < 0 then Float.ofScientific (n * Nat.pow 5 exponent.natAbs) true exponent.natAbs
  else Float.ofNat (n <<< exponent.toNat)

/-- The remainder of two magnitudes as a multiple of the smaller power of two. -/
def Magnitude.remainder (a b : Magnitude) : Nat × Int :=
  let unit := min a.exponent b.exponent
  ((a.mantissa <<< (a.exponent - unit).toNat) % (b.mantissa <<< (b.exponent - unit).toNat), unit)

/-- The remainder of two doubles, with the sign of the first; there is none for a division by zero
or of an infinite number. -/
def remainder (a b : Float) : Float :=
  if a.isNaN || b.isNaN || a.isInf || b == 0.0 then 0.0 / 0.0
  else if b.isInf then a
  else
    let (n, unit) := (Magnitude.ofFloat a).remainder (Magnitude.ofFloat b)
    if isNegative a then -scaled n unit else scaled n unit

example : remainder 5.5 2.0 = 1.5 := by decide +kernel
example : remainder (-7.0) 3.0 = -1.0 := by decide +kernel
example : (remainder (-6.0) 3.0).toBits = (-0.0 : Float).toBits := by decide +kernel

end Decimal

/-- Doubles; where one operand is no number, the minimum and the maximum are the other one, and of
two equal operands, such as zeros of different sign, they are the second. -/
instance : Arithmetic Float where
  decidableLT := inferInstance
  decidableLE := inferInstance
  floor := Float.floor
  remainder := Decimal.remainder
  abs := Float.abs
  minimum a b := if a.isNaN then b else if b.isNaN || a < b then a else b
  maximum a b := if a.isNaN then b else if b.isNaN || b < a then a else b

instance : Transcendental Float where
  sine := Float.sin
  cosine := Float.cos
  tangent := Float.tan
  arcsine := Float.asin
  arccosine := Float.acos
  arctangent := Float.atan
  power := Float.pow
  logarithm := Float.log

end Shadeloom
