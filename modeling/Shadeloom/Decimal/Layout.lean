import Shadeloom.Decimal.Shortest
import Shadeloom.Decimal.Rounded
/-!
# Written numbers

A layout says how the shortest digits of a double are set out: for which exponents of the leading
digit plain notation is used, whether a whole number keeps its `.0`, whether a positive exponent
shows its sign, and which way a tie between two shortest numerals goes.
-/
namespace Shadeloom.Decimal

/-- The decisions of a written form of doubles. -/
structure Layout where
  /-- Leading exponents written in plain notation, bounds included; `none` for all of them. -/
  plain : Option (Int × Int)
  /-- Whether plain notation always has a point. -/
  wholePoint : Bool
  /-- Whether a positive exponent is written with a sign. -/
  exponentSign : Bool
  tie : Tie
  deriving Repr, DecidableEq

/-- The decimal digits of a number, most significant first. -/
def digitsOf (n : Nat) : List Char :=
  Nat.toDigits 10 n

/-- Digits with a point after the first one; a lone digit gets no point. -/
def pointed : List Char → List Char
  | [] => []
  | [digit] => [digit]
  | digit :: rest => digit :: '.' :: rest

/-- An exponent, with the sign of a positive one if asked for. -/
def exponentText (signed : Bool) (exponent : Int) : List Char :=
  if exponent < 0 then '-' :: digitsOf exponent.natAbs
  else if signed then '+' :: digitsOf exponent.natAbs
  else digitsOf exponent.natAbs

namespace Layout

/-- Whether a leading exponent is written in plain notation. -/
def isPlain (layout : Layout) (leading : Int) : Bool :=
  match layout.plain with
  | none => true
  | some (low, high) => low ≤ leading && leading ≤ high

/-- Digits whose first one stands at the exponent, set out in plain notation. -/
def plainText (layout : Layout) (digits : List Char) (leading : Int) : List Char :=
  if leading < 0 then
    '0' :: '.' :: (List.replicate (leading.natAbs - 1) '0' ++ digits)
  else
    let whole := leading.toNat + 1
    if digits.length ≤ whole then
      digits ++ List.replicate (whole - digits.length) '0' ++
        if layout.wholePoint then ['.', '0'] else []
    else digits.take whole ++ '.' :: digits.drop whole

/-- A numeral set out. -/
def numeralText (layout : Layout) (numeral : Numeral) : List Char :=
  let digits := digitsOf numeral.digits
  let leading := numeral.exponent + digits.length - 1
  if layout.isPlain leading then layout.plainText digits leading
  else pointed digits ++ 'e' :: exponentText layout.exponentSign leading

/-- The sign of a number and the text of its magnitude. -/
def signed (x : Float) (text : List Char) : String :=
  String.ofList (if isNegative x then '-' :: text else text)

/-- The text of a double; NaN has no sign. -/
def text (layout : Layout) (x : Float) : String :=
  if x.isNaN then "NaN"
  else if x.isInf then signed x "inf".toList
  else
    let value := Magnitude.ofFloat x
    signed x (layout.numeralText (if value.mantissa = 0 then ⟨0, 0⟩ else value.shortest layout.tie))

end Layout

/-- The text of a double with a set number of digits after the first, always with an exponent. -/
def roundedText (places : Nat) (x : Float) : String :=
  if x.isNaN then "NaN"
  else if x.isInf then Layout.signed x "inf".toList
  else
    let value := Magnitude.ofFloat x
    let numeral := if value.mantissa = 0 then ⟨0, -(places : Int)⟩ else value.rounded places
    let digits := digitsOf numeral.digits
    let padded := digits ++ List.replicate (places + 1 - digits.length) '0'
    Layout.signed x (pointed padded ++ 'e' :: exponentText false (numeral.exponent + places))

/-- Numbers inside messages: plain notation only, and a whole number has no point. -/
def messageLayout : Layout where
  plain := none
  wholePoint := false
  exponentSign := false
  tie := .upward

/-- Numbers reported as values: plain notation from 0.0001 up to 10 ^ 16, always with a point. -/
def valueLayout : Layout where
  plain := some (-4, 15)
  wholePoint := true
  exponentSign := false
  tie := .upward

/-- Numbers in stored text: plain notation from 0.00001 up to 10 ^ 16, exponents with a sign. -/
def storedLayout : Layout where
  plain := some (-5, 15)
  wholePoint := true
  exponentSign := true
  tie := .toEven

/-- The text of a double inside a message. -/
def messageText (x : Float) : String :=
  messageLayout.text x

/-- The text of a double reported as a value. -/
def valueText (x : Float) : String :=
  valueLayout.text x

/-- The text of a finite double in stored text. -/
def storedText (x : Float) : String :=
  storedLayout.text x

example : valueText (0.1 + 0.2) = "0.30000000000000004" := by decide +kernel
example : valueText 1e16 = "1e16" := by decide +kernel
example : valueText (-0.0001) = "-0.0001" := by decide +kernel
example : messageText 1e20 = "100000000000000000000" := by decide +kernel
example : messageText 1.5e-7 = "0.00000015" := by decide +kernel
example : storedText 1.5e20 = "1.5e+20" := by decide +kernel
example : storedText 0.00001 = "0.00001" := by decide +kernel
example : roundedText 2 0.125 = "1.25e-1" := by decide +kernel
example : roundedText 0 2.5 = "2e0" := by decide +kernel

end Shadeloom.Decimal
