import Shadeloom.Decimal.Reader
import Shadeloom.Text.Blank
/-!
# Literals

A literal keeps its source text. Unquoted text stands for the number it reads as; of the quoted
texts only the two named constants have a value. Two literals are the same when they have the same
number, where the two zeros are one number and every NaN is one number, or else the same text.
-/
namespace Shadeloom

/-- The text of a value atom. -/
structure Literal where
  text : String
  deriving Repr, DecidableEq, Inhabited

namespace Literal

/-- The value of the quoted constant `"pi"`. -/
def piValue : Float := 3.14159265359

/-- The value of the quoted constant `"e"`. -/
def eValue : Float := 2.71828182846

/-- The characters between the quotes of a text in double quotes. -/
def unquotedChars? : List Char → Option (List Char)
  | '"' :: rest => if rest.getLast? = some '"' then some rest.dropLast else none
  | _ => none

/-- The text between the quotes of a quoted literal. -/
def unquoted? (literal : Literal) : Option String :=
  (unquotedChars? literal.text.toList).map String.ofList

/-- Whether the literal stands in double quotes. -/
def isQuoted (literal : Literal) : Bool :=
  literal.unquoted?.isSome

/-- The number that the literal stands for. -/
def number? (literal : Literal) : Option Float :=
  match literal.unquoted? with
  | some "pi" => some piValue
  | some "e" => some eValue
  | some _ => none
  | none => Decimal.read? (Text.trim literal.text.toList)

/-- What tells literals apart. -/
inductive Key where
  | number (bits : UInt64)
  | text (text : String)
  deriving Repr, DecidableEq

/-- The bits that stand for a number: one pattern for NaN and one for both zeros. -/
def keyBits (x : Float) : UInt64 :=
  if x.isNaN then (0.0 / 0.0 : Float).toBits
  else if x == 0.0 then (0.0 : Float).toBits
  else x.toBits

/-- The key of a literal: its number if it has one, its text otherwise. -/
def key (literal : Literal) : Key :=
  match literal.number? with
  | some x => .number (keyBits x)
  | none => .text literal.text

/-- Whether two literals have the same key. -/
def same (a b : Literal) : Bool :=
  a.key = b.key

/-- Every literal is the same as itself. -/
theorem same_refl (a : Literal) : a.same a = true := by
  simp [same]

/-- Being the same does not depend on the order. -/
theorem same_comm (a b : Literal) : a.same b = b.same a := by
  simp [same, eq_comm]

/-- Literals that are the same as a third one are the same. -/
theorem same_trans {a b c : Literal} (left : a.same b = true) (right : b.same c = true) :
    a.same c = true := by
  simp_all [same]

end Literal

end Shadeloom
