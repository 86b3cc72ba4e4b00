/-!
# Opcodes

The selectors of the operator nodes, with the names under which they are written.
-/
namespace Shadeloom

/-- The operations of scalar math nodes, which have two inputs each. -/
inductive MathOp where
  | add
  | subtract
  | multiply
  | divide
  | power
  | sine
  | cosine
  | tangent
  | arcsine
  | arccosine
  | arctangent
  | minimum
  | maximum
  | greaterThan
  | lessThan
  | logarithm
  | round
  | modulo
  | absolute
  deriving Repr, DecidableEq, Inhabited

namespace MathOp

/-- Every operation. -/
def all : List MathOp :=
  [add, subtract, multiply, divide, power, sine, cosine, tangent, arcsine, arccosine, arctangent,
    minimum, maximum, greaterThan, lessThan, logarithm, round, modulo, absolute]

/-- The written name of an operation. -/
def name : MathOp → String
  | add => "Add"
  | subtract => "Subtract"
  | multiply => "Multiply"
  | divide => "Divide"
  | power => "Power"
  | sine => "Sine"
  | cosine => "Cosine"
  | tangent => "Tangent"
  | arcsine => "Arcsine"
  | arccosine => "Arccosine"
  | arctangent => "Arctangent"
  | minimum => "Minimum"
  | maximum => "Maximum"
  | greaterThan => "GreaterThan"
  | lessThan => "LessThan"
  | logarithm => "Logarithm"
  | round => "Round"
  | modulo => "Modulo"
  | absolute => "Absolute"

/-- Whether an operation reads only its first input. -/
def isUnary : MathOp → Bool
  | sine | cosine | tangent | arcsine | arccosine | arctangent | round | absolute => true
  | _ => false

/-- How many operands one node takes. -/
def arity (op : MathOp) : Nat :=
  if op.isUnary then 1 else 2

end MathOp

/-- The operations of vector math nodes. -/
inductive VectorOp where
  | add
  | subtract
  | dotProduct
  | crossProduct
  | normalize
  deriving Repr, DecidableEq, Inhabited

namespace VectorOp

/-- Every operation. -/
def all : List VectorOp := [add, subtract, dotProduct, crossProduct, normalize]

/-- The written name of an operation. -/
def name : VectorOp → String
  | add => "Add"
  | subtract => "Subtract"
  | dotProduct => "DotProduct"
  | crossProduct => "CrossProduct"
  | normalize => "Normalize"

end VectorOp

/-- How a mixing node blends its colors. -/
inductive MixBlend where
  | mix
  | multiply
  | divide
  deriving Repr, DecidableEq, Inhabited

namespace MixBlend

/-- Every blend. -/
def all : List MixBlend := [mix, multiply, divide]

/-- The written name of a blend. -/
def name : MixBlend → String
  | mix => "Mix"
  | multiply => "Multiply"
  | divide => "Divide"

end MixBlend

/-- The fractal types of musgrave textures. -/
inductive MusgraveType where
  | fbm
  | multiFractal
  | ridgedMultiFractal
  | hybridMultiFractal
  | heteroTerrain
  deriving Repr, DecidableEq, Inhabited

namespace MusgraveType

/-- Every type. -/
def all : List MusgraveType :=
  [fbm, multiFractal, ridgedMultiFractal, hybridMultiFractal, heteroTerrain]

/-- The written name of a type. -/
def name : MusgraveType → String
  | fbm => "Fbm"
  | multiFractal => "MultiFractal"
  | ridgedMultiFractal => "RidgedMultiFractal"
  | hybridMultiFractal => "HybridMultiFractal"
  | heteroTerrain => "HeteroTerrain"

end MusgraveType

/-- The modes of voronoi textures. -/
inductive VoronoiMode where
  | intensity
  | cells
  | crackle
  | distance1
  | distance2
  | distance3
  | distance4
  deriving Repr, DecidableEq, Inhabited

namespace VoronoiMode

/-- Every mode. -/
def all : List VoronoiMode :=
  [intensity, cells, crackle, distance1, distance2, distance3, distance4]

/-- The written name of a mode. -/
def name : VoronoiMode → String
  | intensity => "Intensity"
  | cells => "Cells"
  | crackle => "Crackle"
  | distance1 => "Distance1"
  | distance2 => "Distance2"
  | distance3 => "Distance3"
  | distance4 => "Distance4"

end VoronoiMode

end Shadeloom
