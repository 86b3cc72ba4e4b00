import Shadeloom.Arithmetic.Doubles
import Shadeloom.Node.Basic
/-!
# What nodes compute

The values of the output sockets of a node from those of its input sockets, for all nodes that
need nothing but these. Textures have no value here, and neither have color ramps that mix in
another way than linearly, eased or constant in red, green and blue.
-/
namespace Shadeloom

/-- Why an evaluation stops. -/
inductive EvalError where
  | missingInput (name : String)
  | unknownInput (name : String)
  /-- The node has no value outside of a renderer. -/
  | unsupported (node : Nat) (op : String)
  | cycleDetected (node : Nat)
  | unknownGroup (node : Nat) (group : String)
  | recursionLimitExceeded (node : Nat) (limit : Nat)
  /-- A port or an instance is evaluated as if it computed its outputs from its inputs alone. -/
  | notComputable (node : Nat) (op : String)
  /-- A node of the order is not in the graph. -/
  | vanished (node : Nat)
  /-- The search for an order met a number above all nodes, or a list with a link that is gone. -/
  | strayLink (number : Nat)
  /-- The factor of a color ramp lies between none of its stops. This stands for no error that is
  reported, but for an evaluation that breaks off: the stop before the first one is asked for, and
  its place underflows. -/
  | unbracketedFactor (node : Nat)
  deriving Repr, DecidableEq, Inhabited

namespace EvalError

/-- The text of an evaluation error. -/
def message : EvalError → String
  | missingInput name => "missing input: no value supplied for '" ++ name ++ "'"
  | unknownInput name => "unknown input: the graph has no input named '" ++ name ++ "'"
  | unsupported node op =>
    "node " ++ toString node ++ " (" ++ op ++ ") cannot be evaluated outside a renderer"
  | cycleDetected node => "cycle detected through node " ++ toString node
  | unknownGroup node group =>
    "group '" ++ group ++ "' instanced by node " ++ toString node ++ " is not defined"
  | recursionLimitExceeded node limit =>
    "group nesting limit (" ++ toString limit ++ ") exceeded at node " ++ toString node
  | notComputable node op =>
    "internal error: " ++ op ++ " at node " ++ toString node ++ " reached eval_op"
  | vanished node =>
    "internal error: node " ++ toString node ++ " vanished during evaluation"
  | strayLink number => "links lead astray at number " ++ toString number
  | unbracketedFactor node =>
    "the factor of the color ramp at node " ++ toString node ++ " lies between none of its stops"

end EvalError

namespace Vec3

/-- The sum of the products of components. -/
def dot (v w : Vec3) : Float := v.x * w.x + v.y * w.y + v.z * w.z

/-- The cross product. -/
def cross (v w : Vec3) : Vec3 :=
  ⟨v.y * w.z - v.z * w.y, v.z * w.x - v.x * w.z, v.x * w.y - v.y * w.x⟩

/-- The vector of length one in the same direction, and the length that it had; a vector of length
zero becomes zero. -/
def normalized (v : Vec3) : Vec3 × Float :=
  let length := Float.sqrt (v.dot v)
  if length == 0.0 then (zero, 0.0) else (v.map (· / length), length)

/-- The vector with the mean of the sizes of its components. -/
def withMeanSize (v : Vec3) : Vec3 × Float := (v, (v.map Float.abs).mean)

end Vec3

/-- The vector and the scalar of a vector operation. -/
def VectorOp.eval : VectorOp → Vec3 → Vec3 → Vec3 × Float
  | add, v, w => (v.zipWith (· + ·) w).withMeanSize
  | subtract, v, w => (v.zipWith (· - ·) w).withMeanSize
  | dotProduct, v, w => (.zero, v.dot w)
  | crossProduct, v, w => (v.cross w).normalized
  | normalize, v, _ => v.normalized

namespace MixBlend

/-- The blend of one component; a division by zero leaves the first color. -/
def evalComponent (blend : MixBlend) (factor a b : Float) : Float :=
  let keep := 1.0 - factor
  match blend with
  | mix => keep * a + factor * b
  | multiply => a * (keep + factor * b)
  | divide => if b == 0.0 then a else keep * a + factor * a / b

/-- The blend of two colors. -/
def eval (blend : MixBlend) (factor : Float) (v w : Vec3) : Vec3 :=
  v.zipWith (blend.evalComponent factor) w

end MixBlend

/-- Why a color ramp has no color. -/
inductive RampFault where
  | unsupported
  | unbracketed
  deriving Repr, DecidableEq

namespace ColorRamp

/-- How far the color has passed from the left stop to the right one, from how far the factor has,
for the interpolations that are computed. -/
def shape? : RampInterpolation → Option (Float → Float)
  | .linear => some fun t => t
  | .ease => some fun t => t * t * (3.0 - 2.0 * t)
  | .constant => some fun _ => 0.0
  | .cardinal => none
  | .bSpline => none

/-- The color at a factor between two stops. -/
def blend (shape : Float → Float) (factor : Float) (left right : RampStop) : Vec3 :=
  let span := right.position - left.position
  let t := if span > 0.0 then shape ((factor - left.position) / span) else 0.0
  left.color.zipWith (fun a b => a + (b - a) * t) right.color

/-- The color at a factor: that of an end at or beyond it, otherwise the blend of the last stop at
or below the factor and the next one. A ramp without stops is black. -/
def colorAt (shape : Float → Float) (factor : Float) (stops : List RampStop) :
    Except RampFault Vec3 :=
  match stops.head?, stops.getLast? with
  | some first, some last =>
    if factor ≤ first.position then .ok first.color
    else if last.position ≤ factor then .ok last.color
    else
      match countUpTo factor stops with
      | 0 => .error .unbracketed
      | below + 1 =>
        match stops[below]?, stops[below + 1]? with
        | some left, some right => .ok (blend shape factor left right)
        | _, _ => .error .unbracketed
  | _, _ => .ok .zero

/-- The color of a ramp at a factor. -/
def eval (ramp : ColorRamp) (factor : Float) : Except RampFault Vec3 :=
  match ramp.colorMode, shape? ramp.interpolation with
  | .rgb, some shape => colorAt shape factor ramp.stops
  | _, _ => .error .unsupported

end ColorRamp

namespace NodeOp

/-- The value of an input as a scalar; an input that is missing is zero. -/
def scalarAt (inputs : List Value) (socket : Nat) : Float :=
  (inputs[socket]?.map Value.toScalar).getD 0.0

/-- The value of an input as a vector; an input that is missing is zero. -/
def vectorAt (inputs : List Value) (socket : Nat) : Vec3 :=
  (inputs[socket]?.map Value.toVec3).getD .zero

/-- The values of the output sockets of a node. -/
def eval (op : NodeOp) (inputs : List Value) (node : Nat) : Except EvalError (List Value) :=
  match op with
  | math op => .ok [.scalar (op.eval (scalarAt inputs 0) (scalarAt inputs 1))]
  | vectorMath op =>
    let (v, a) := op.eval (vectorAt inputs 0) (vectorAt inputs 1)
    .ok [.vector v, .scalar a]
  | mix blend =>
    .ok [.vector (blend.eval (scalarAt inputs 0) (vectorAt inputs 1) (vectorAt inputs 2))]
  | colorRamp ramp =>
    match ramp.eval (scalarAt inputs 0) with
    | .ok color => .ok [.vector color, .scalar 1.0]
    | .error .unsupported =>
      .error (.unsupported node ("colorramp (" ++ ramp.interpolation.name ++
        " interpolation, " ++ ramp.colorMode.name ++ " mode)"))
    | .error .unbracketed => .error (.unbracketedFactor node)
  | constant value => .ok [.scalar value]
  | separateXyz =>
    let v := vectorAt inputs 0
    .ok [.scalar v.x, .scalar v.y, .scalar v.z]
  | combineXyz =>
    .ok [.vector ⟨scalarAt inputs 0, scalarAt inputs 1, scalarAt inputs 2⟩]
  | noise => .error (.unsupported node op.text)
  | musgrave _ => .error (.unsupported node op.text)
  | voronoi _ => .error (.unsupported node op.text)
  | image _ => .error (.unsupported node op.text)
  | pointDensity _ => .error (.unsupported node op.text)
  | input _ => .error (.notComputable node op.text)
  | output _ => .error (.notComputable node op.text)
  | group _ => .error (.notComputable node op.text)

end NodeOp

end Shadeloom
