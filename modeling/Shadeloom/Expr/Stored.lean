import Shadeloom.Expr.Basic
import Shadeloom.Json.Codec
/-!
# Stored trees

A tree is stored as its kind with its parts by name; a missing operand is a kind without parts.
A component that a vector lacks is stored as `null` and may also be left out.
-/
namespace Shadeloom

namespace BinaryOp

/-- Every operator. -/
def all : List BinaryOp := [add, sub, mul, div, pow, gt, lt, assign, comma]

/-- The stored name of an operator. -/
def storedName : BinaryOp → String
  | add => "Add"
  | sub => "Sub"
  | mul => "Mul"
  | div => "Div"
  | pow => "Pow"
  | gt => "Gt"
  | lt => "Lt"
  | assign => "Assign"
  | comma => "Comma"

/-- Operators are stored by name. -/
def codec : Codec BinaryOp := Codec.choice all storedName

end BinaryOp

/-- The stored form of a literal, its text. -/
def Literal.codec : Codec Literal where
  encode literal := .str literal.text
  decode value := (Codec.text.decode value).map Literal.mk

/-- The stored form of a variable. -/
def Variable.codec : Codec Variable where
  encode v := .obj [("name", .str v.name), ("default", Codec.text.option.encode v.fallback),
    ("subscript", Codec.text.option.encode v.subscript)]
  decode value :=
    match value.members? ["name", "default", "subscript"] with
    | some [some name, fallback, subscript] => do
      let name ← Codec.text.decode name
      let fallback ← Codec.text.option.decode (fallback.getD .null)
      let subscript ← Codec.text.option.decode (subscript.getD .null)
      some ⟨name, fallback, subscript⟩
    | _ => none

namespace Expr

mutual

/-- The stored form of a tree. -/
def toJson : Expr → Json
  | .empty => .str "Empty"
  | .var v => Json.tagged "Variable" (Variable.codec.encode v)
  | .value literal => Json.tagged "Value" (Literal.codec.encode literal)
  | .combine x y z =>
    Json.tagged "Combine" (.obj [("x", x.toJson), ("y", componentJson y), ("z", componentJson z)])
  | .binary op lhs rhs =>
    Json.tagged "Binary"
      (.obj [("op", BinaryOp.codec.encode op), ("lhs", lhs.toJson), ("rhs", rhs.toJson)])
  | .call function args =>
    Json.tagged "Call" (.obj [("function", .str function), ("args", args.toJson)])

/-- The stored form of a component. -/
def componentJson : Option Expr → Json
  | none => .null
  | some e => e.toJson

end

/-- The tree that a value stores. -/
def ofJson? (value : Json) : Option Expr :=
  match _tagged : value.tag? with
  | some ("Empty", none) => some .empty
  | some ("Empty", some .null) => some .empty
  | some ("Variable", some payload) => (Variable.codec.decode payload).map .var
  | some ("Value", some payload) => (Literal.codec.decode payload).map .value
  | some ("Combine", some payload) =>
    match _members : payload.members? ["x", "y", "z"] with
    | some [some x, y, z] => do
      let x ← ofJson? x
      let y ←
        match _here : y with
        | none => some none
        | some .null => some none
        | some y => (ofJson? y).map some
      let z ←
        match _here : z with
        | none => some none
        | some .null => some none
        | some z => (ofJson? z).map some
      some (.combine x y z)
    | _ => none
  | some ("Binary", some payload) =>
    match _members : payload.members? ["op", "lhs", "rhs"] with
    | some [some op, some lhs, some rhs] => do
      let op ← BinaryOp.codec.decode op
      let lhs ← ofJson? lhs
      let rhs ← ofJson? rhs
      some (.binary op lhs rhs)
    | _ => none
  | some ("Call", some payload) =>
    match _members : payload.members? ["function", "args"] with
    | some [some function, some args] => do
      let function ← Codec.text.decode function
      let args ← ofJson? args
      some (.call function args)
    | _ => none
  | _ => none
termination_by sizeOf value
decreasing_by
  all_goals
    refine Nat.lt_trans (Json.sizeOf_lt_of_members? (by assumption) ?_)
      (Json.sizeOf_lt_of_tag? (by assumption))
    simp [*]

/-- Trees are stored as values. -/
def codec : Codec Expr := ⟨toJson, ofJson?⟩

end Expr

end Shadeloom
