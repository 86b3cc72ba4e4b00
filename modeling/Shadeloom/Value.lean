import Shadeloom.Decimal.Layout
import Shadeloom.Json.Codec
/-!
# Values

A value is a scalar or a vector of three components. A value is converted to the type of the
socket that reads it: a scalar becomes a vector of three equal components, a vector the mean of
its components.
-/
namespace Shadeloom

/-- Three components. -/
structure Vec3 where
  x : Float
  y : Float
  z : Float
  deriving Repr, Inhabited, DecidableEq

namespace Vec3

/-- The vector of three equal components. -/
def splat (a : Float) : Vec3 := ⟨a, a, a⟩

/-- The vector of zeros. -/
def zero : Vec3 := splat 0.0

/-- The vector of the values of a function at the components. -/
def map (f : Float → Float) (v : Vec3) : Vec3 := ⟨f v.x, f v.y, f v.z⟩

/-- The vector of the values of a function at the components of two vectors. -/
def zipWith (f : Float → Float → Float) (v w : Vec3) : Vec3 := ⟨f v.x w.x, f v.y w.y, f v.z w.z⟩

/-- The mean of the components. -/
def mean (v : Vec3) : Float := (v.x + v.y + v.z) / 3.0

/-- The components in order. -/
def toList (v : Vec3) : List Float := [v.x, v.y, v.z]

/-- The stored form of a vector, an array of three numbers. -/
def codec : Codec Vec3 where
  encode v := Codec.float.list.encode v.toList
  decode value :=
    match Codec.float.list.decode value with
    | some [x, y, z] => some ⟨x, y, z⟩
    | _ => none

end Vec3

/-- The types of sockets. -/
inductive SocketType where
  | scalar
  | vector
  deriving Repr, DecidableEq, Inhabited

namespace SocketType

/-- Every type. -/
def all : List SocketType := [scalar, vector]

/-- The written name of a type. -/
def name : SocketType → String
  | scalar => "Scalar"
  | vector => "Vector"

/-- Types are stored by name. -/
def codec : Codec SocketType := Codec.choice all name

end SocketType

/-- What a socket holds. -/
inductive Value where
  | scalar (a : Float)
  | vector (v : Vec3)
  deriving Repr, Inhabited, DecidableEq

namespace Value

/-- The type of a value. -/
def type : Value → SocketType
  | scalar _ => .scalar
  | vector _ => .vector

/-- The value as a scalar. -/
def toScalar : Value → Float
  | scalar a => a
  | vector v => v.mean

/-- The value as a vector. -/
def toVec3 : Value → Vec3
  | scalar a => .splat a
  | vector v => v

/-- The value as one of a type. -/
def convert (value : Value) : SocketType → Value
  | .scalar => scalar value.toScalar
  | .vector => vector value.toVec3

/-- The value of a type that has the number in every component. -/
def splat (a : Float) (type : SocketType) : Value :=
  (scalar a).convert type

/-- The zero of a type. -/
def zero (type : SocketType) : Value :=
  splat 0.0 type

/-- A converted value has the type that it was converted to. -/
@[simp] theorem type_convert (value : Value) (type : SocketType) :
    (value.convert type).type = type := by
  cases type <;> rfl

/-- Converting twice to the same type is converting once. -/
@[simp] theorem convert_convert (value : Value) (type : SocketType) :
    (value.convert type).convert type = value.convert type := by
  cases type <;> rfl

/-- The text of a value inside a message. -/
def text : Value → String
  | scalar a => Decimal.messageText a
  | vector v => "(" ++ ", ".intercalate (v.toList.map Decimal.messageText) ++ ")"

/-- The plain form of a value: a number or an array of three numbers. -/
def toJson : Value → Json
  | scalar a => Json.ofFloat a
  | vector v => Vec3.codec.encode v

/-- The stored form of a value, which shows its type. -/
def codec : Codec Value where
  encode
    | scalar a => Json.tagged "Scalar" (Json.ofFloat a)
    | vector v => Json.tagged "Vector" (Vec3.codec.encode v)
  decode value :=
    match value.tag? with
    | some ("Scalar", some payload) => (Codec.float.decode payload).map scalar
    | some ("Vector", some payload) => (Vec3.codec.decode payload).map vector
    | _ => none

end Value

end Shadeloom
