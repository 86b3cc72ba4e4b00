import Shadeloom.Decimal.Reader
import Shadeloom.Json.Basic
/-!
# JSON numbers

A number without point and exponent is whole when it fits 64 bits. Any other number is read in two
steps, each of which rounds: the leading digits that fit 64 bits together become a double, which is
then multiplied with a power of ten or divided by one. A number too large for a double is written
correctly but has no use.
-/
namespace Shadeloom.Json

/-- Digits that fit 64 bits together, and the power of ten that they are multiples of. -/
structure Significand where
  digits : Nat
  exponent : Int
  deriving Repr, DecidableEq

namespace Significand

/-- Whether a natural number fits 64 bits. -/
def fits (n : Nat) : Bool := n < 1 <<< 64

/-- The number that is left of a decimal point; from the first digit on that does not fit, digits
only count as places. -/
def ofWhole (read : Nat) : List Char → Significand
  | [] => ⟨read, 0⟩
  | digit :: rest =>
    let next := 10 * read + Decimal.digitValue digit
    if fits next then ofWhole next rest else ⟨read, (rest.length + 1 : Nat)⟩

/-- Goes on with the digits right of a decimal point, up to the first one that does not fit. -/
def addFraction (value : Significand) : List Char → Significand
  | [] => value
  | digit :: rest =>
    let next := 10 * value.digits + Decimal.digitValue digit
    if fits next then addFraction ⟨next, value.exponent - 1⟩ rest else value

/-- The largest exponent of a power of ten that is a double. -/
def largestPower : Nat := 308

/-- The double nearest to a power of ten. -/
def powerOfTen (exponent : Nat) : Float := Decimal.nearest 1 exponent

/-- A double times a power of ten, unless that is infinite. Division by a power that is no double
takes more than one step. -/
def scale? (x : Float) (exponent : Int) : Option Float :=
  if exponent.natAbs ≤ largestPower then
    if exponent < 0 then some (x / powerOfTen exponent.natAbs)
    else
      let product := x * powerOfTen exponent.natAbs
      if product.isInf then none else some product
  else if x == 0.0 then some x
  else if 0 < exponent then none
  else scale? (x / powerOfTen largestPower) (exponent + largestPower)
termination_by exponent.natAbs
decreasing_by
  simp only [largestPower] at *
  omega

/-- The double that stands for the digits at their place. -/
def toFloat? (value : Significand) : Option Float :=
  scale? (Float.ofNat value.digits) value.exponent

end Significand

/-- The number of a sign and a magnitude, if there is a magnitude. -/
def signed (negative : Bool) : Option Float → Json
  | none => .unusable .null
  | some x => .float (if negative then -x else x)

/-- The number of a sign and digits without point and exponent. -/
def wholeNumber (negative : Bool) (digits : List Char) : Json :=
  let value := Significand.ofWhole 0 digits
  if value.exponent = 0 && !(negative && (value.digits = 0 || 1 <<< 63 < value.digits)) then
    .int (if negative then -(value.digits : Int) else value.digits)
  else signed negative value.toFloat?

/-- Whether a sequence of digits is a whole part: not empty and without a superfluous zero. -/
def isWholePart : List Char → Bool
  | [] => false
  | ['0'] => true
  | '0' :: _ => false
  | _ => true

/-- The number of a sign and digits before and after a point, with what comes after them. -/
def scaledNumber? (negative : Bool) (whole fraction rest : List Char) : Option Json :=
  (Decimal.exponent? rest).map fun exponent =>
    let value := (Significand.ofWhole 0 whole).addFraction fraction
    signed negative (Significand.toFloat? { value with exponent := value.exponent + exponent })

/-- The number that a word is. -/
def number? (word : List Char) : Option Json :=
  let (negative, rest) :=
    match word with
    | '-' :: rest => (true, rest)
    | rest => (false, rest)
  let (whole, rest) := rest.span Char.isDigit
  if isWholePart whole then
    match rest with
    | [] => some (wholeNumber negative whole)
    | '.' :: rest =>
      let (fraction, rest) := rest.span Char.isDigit
      if fraction = [] then none else scaledNumber? negative whole fraction rest
    | rest => scaledNumber? negative whole [] rest
  else none

end Shadeloom.Json
