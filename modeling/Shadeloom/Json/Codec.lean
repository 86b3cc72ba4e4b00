import Shadeloom.Json.Basic
/-!
# Stored forms

A codec writes the values of a type as JSON and reads them back. Choices without data are written as
their names and records as objects of all their members in order.
-/
namespace Shadeloom

/-- A way to store the values of a type as JSON. -/
structure Codec (α : Type) where
  encode : α → Json
  decode : Json → Option α

namespace Codec

variable {α : Type}

/-- Texts. -/
def text : Codec String where
  encode := .str
  decode
    | .str text => some text
    | _ => none

/-- Truth values. -/
def bool : Codec Bool where
  encode := .bool
  decode
    | .bool value => some value
    | _ => none

/-- Natural numbers below a bound. -/
def natBelow (bound : Nat) : Codec Nat where
  encode := Json.ofNat
  decode
    | .int value => if 0 ≤ value ∧ value < bound then some value.toNat else none
    | _ => none

/-- Doubles; a whole number is read as the nearest double, and nothing is read for `null`. -/
def float : Codec Float where
  encode := Json.ofFloat
  decode
    | .int value => some (Float.ofInt value)
    | .float value => some value
    | _ => none

/-- Optional values. -/
def option (codec : Codec α) : Codec (Option α) where
  encode := Json.ofOption codec.encode
  decode
    | .null => some none
    | value => (codec.decode value).map some

/-- Lists. -/
def list (codec : Codec α) : Codec (List α) where
  encode items := .arr (items.map codec.encode)
  decode
    | .arr items => items.mapM codec.decode
    | _ => none

/-- Choices without data, written as their names. -/
def choice (all : List α) (name : α → String) : Codec α where
  encode a := .str (name a)
  decode value :=
    match value.tag? with
    | some (tag, none) => all.find? fun a => name a = tag
    | some (tag, some .null) => all.find? fun a => name a = tag
    | _ => none

end Codec

end Shadeloom
