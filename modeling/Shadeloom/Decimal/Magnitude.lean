/-!
# Magnitudes

A finite double without its sign is a natural number times a power of two. Decimal numerals are
compared with it exactly, by multiplying both sides out to natural numbers.
-/
namespace Shadeloom.Decimal

/-- A decimal numeral: `digits * 10 ^ exponent`. -/
structure Numeral where
  digits : Nat
  exponent : Int
  deriving Repr, DecidableEq

/-- A binary magnitude: `mantissa * 2 ^ exponent`. -/
structure Magnitude where
  mantissa : Nat
  exponent : Int
  /-- Whether the gap to the double below is half the gap to the double above. -/
  tightBelow : Bool
  deriving Repr, DecidableEq

/-- The magnitude of a finite double. -/
def Magnitude.ofFloat (x : Float) : Magnitude :=
  let bits := x.toBits
  let scale := ((bits >>> 52) &&& 0x7FF).toNat
  let fraction := (bits &&& 0xFFFFFFFFFFFFF).toNat
  if scale = 0 then ⟨fraction, -1074, false⟩
  else ⟨1 <<< 52 + fraction, (scale : Int) - 1075, fraction = 0 && scale > 1⟩

/-- Whether the sign bit of a double is set. -/
def isNegative (x : Float) : Bool :=
  (x.toBits >>> 63) = 1

namespace Magnitude

/-- A magnitude as a quotient of natural numbers, in units of `10 ^ unit`. -/
def ratio (value : Magnitude) (unit : Int) : Nat × Nat :=
  ((value.mantissa <<< value.exponent.toNat) * Nat.pow 10 (-unit).toNat,
    (1 <<< (-value.exponent).toNat) * Nat.pow 10 unit.toNat)

/-- The exponent of the leading decimal digit of a positive magnitude.

The guess from the binary length is off by at most one, which two exact comparisons settle. -/
def leadingExponent (value : Magnitude) : Int :=
  let guess := ((value.mantissa.log2 : Int) + value.exponent) * 30103 / 100000
  let (above, unitAbove) := value.ratio (guess + 1)
  if unitAbove ≤ above then guess + 1
  else
    let (here, unitHere) := value.ratio guess
    if unitHere ≤ here then guess else guess - 1

end Magnitude

end Shadeloom.Decimal
