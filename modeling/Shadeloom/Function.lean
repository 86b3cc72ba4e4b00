import Shadeloom.Node.Opcode
import Shadeloom.Text.Lines
/-!
# Functions

The operators and functions of the language: how many arguments each takes and what a call of it
becomes. A name is callable when it starts with an ASCII letter and is listed, or when it names a
group after the mark of group calls.
-/
namespace Shadeloom

/-- The statements that shape scopes and groups instead of computing a value. -/
inductive Directive where
  | groupStart
  | groupEnd
  | groupAdd
  | inputs
  | outputs
  deriving Repr, DecidableEq, Inhabited

/-- What a call of a function becomes. -/
inductive Role where
  | math (op : MathOp)
  | vectorMath (op : VectorOp)
  /-- A mixing node whose arguments go to its sockets from the first one given. -/
  | mix (blend : MixBlend) (firstSocket : Nat)
  | noise
  | musgrave (type : MusgraveType)
  | voronoi (mode : VoronoiMode)
  | colorRamp
  /-- An image node whose value is read from the output given. -/
  | image (output : Nat)
  /-- A point density node whose value is read from the output given. -/
  | pointDensity (output : Nat)
  | combine
  /-- Expanded while it is read, and never a node. -/
  | sugar
  | directive (directive : Directive)
  deriving Repr, DecidableEq, Inhabited

namespace Role

/-- The output socket that a value is read from. -/
def outputSocket : Role → Nat
  | vectorMath .dotProduct => 1
  | image output => output
  | pointDensity output => output
  | _ => 0

/-- The input socket that the first argument goes to. -/
def inputSocket : Role → Nat
  | mix _ firstSocket => firstSocket
  | _ => 0

end Role

/-- A function of the language. -/
structure Function where
  name : String
  minArgs : Nat
  maxArgs : Nat
  role : Role
  deriving Repr, DecidableEq, Inhabited

namespace Function

/-- Whether a number of arguments is within the range of the function. -/
def accepts (function : Function) (count : Nat) : Bool :=
  function.minArgs ≤ count && count ≤ function.maxArgs

/-- Whether the function takes more than two arguments. -/
def isVariadic (function : Function) : Bool :=
  2 < function.maxArgs

/-- The mark before the name of a group that is called inside an expression. -/
def groupCallMark : String := "fn:"

/-- The mark before the name of an instance whose outputs a variable reads. -/
def instanceMark : String := "group:"

/-- Every operator and function. -/
def all : List Function := [
  ⟨"+", 2, 2, .math .add⟩,
  ⟨"-", 2, 2, .math .subtract⟩,
  ⟨"*", 2, 2, .math .multiply⟩,
  ⟨"/", 2, 2, .math .divide⟩,
  ⟨"**", 2, 2, .math .power⟩,
  ⟨">", 2, 2, .math .greaterThan⟩,
  ⟨"<", 2, 2, .math .lessThan⟩,
  ⟨"sin", 1, 1, .math .sine⟩,
  ⟨"cos", 1, 1, .math .cosine⟩,
  ⟨"tan", 1, 1, .math .tangent⟩,
  ⟨"asin", 1, 1, .math .arcsine⟩,
  ⟨"acos", 1, 1, .math .arccosine⟩,
  ⟨"atan", 1, 1, .math .arctangent⟩,
  ⟨"abs", 1, 1, .math .absolute⟩,
  ⟨"round", 1, 1, .math .round⟩,
  ⟨"min", 2, 99, .math .minimum⟩,
  ⟨"max", 2, 99, .math .maximum⟩,
  ⟨"mod", 2, 2, .math .modulo⟩,
  ⟨"log", 2, 2, .math .logarithm⟩,
  ⟨"atan2", 2, 2, .sugar⟩,
  ⟨"not", 1, 1, .sugar⟩,
  ⟨"and", 2, 99, .sugar⟩,
  ⟨"or", 2, 99, .sugar⟩,
  ⟨"xor", 2, 2, .sugar⟩,
  ⟨"mmod", 2, 2, .sugar⟩,
  ⟨"combine", 1, 3, .combine⟩,
  ⟨"clamp", 1, 1, .sugar⟩,
  ⟨"clip", 1, 1, .sugar⟩,
  ⟨"floor", 1, 1, .sugar⟩,
  ⟨"fract", 1, 1, .sugar⟩,
  ⟨"ceil", 1, 1, .sugar⟩,
  ⟨"vadd", 2, 2, .vectorMath .add⟩,
  ⟨"vsub", 2, 2, .vectorMath .subtract⟩,
  ⟨"vmult", 2, 2, .mix .multiply 1⟩,
  ⟨"vdiv", 2, 2, .mix .divide 1⟩,
  ⟨"vdot", 2, 2, .vectorMath .dotProduct⟩,
  ⟨"vcross", 2, 2, .vectorMath .crossProduct⟩,
  ⟨"vnorm", 1, 1, .vectorMath .normalize⟩,
  ⟨"mix", 3, 3, .mix .mix 0⟩,
  ⟨"noise", 2, 4, .noise⟩,
  ⟨"musgrave", 2, 7, .musgrave .fbm⟩,
  ⟨"musgrave.fbm", 2, 7, .musgrave .fbm⟩,
  ⟨"musgrave.mf", 2, 7, .musgrave .multiFractal⟩,
  ⟨"musgrave.rmf", 2, 7, .musgrave .ridgedMultiFractal⟩,
  ⟨"musgrave.hmf", 2, 7, .musgrave .hybridMultiFractal⟩,
  ⟨"musgrave.ht", 2, 7, .musgrave .heteroTerrain⟩,
  ⟨"voronoi", 2, 2, .voronoi .intensity⟩,
  ⟨"voronoi.cell", 2, 2, .voronoi .cells⟩,
  ⟨"voronoi.crackle", 2, 2, .voronoi .crackle⟩,
  ⟨"voronoi.distance1", 2, 2, .voronoi .distance1⟩,
  ⟨"voronoi.distance2", 2, 2, .voronoi .distance2⟩,
  ⟨"voronoi.distance3", 2, 2, .voronoi .distance3⟩,
  ⟨"voronoi.distance4", 2, 2, .voronoi .distance4⟩,
  ⟨"colorramp", 2, 99, .colorRamp⟩,
  ⟨"image", 2, 5, .image 0⟩,
  ⟨"image.alpha", 2, 5, .image 1⟩,
  ⟨"point", 2, 9, .pointDensity 0⟩,
  ⟨"point.color", 2, 9, .pointDensity 0⟩,
  ⟨"point.density", 2, 9, .pointDensity 1⟩,
  ⟨"group:start", 1, 99, .directive .groupStart⟩,
  ⟨"group:end", 1, 1, .directive .groupEnd⟩,
  ⟨"group:add", 2, 99, .directive .groupAdd⟩,
  ⟨"function:start", 2, 99, .directive .groupStart⟩,
  ⟨"function:end", 1, 1, .directive .groupEnd⟩,
  ⟨"inputs", 1, 99, .directive .inputs⟩,
  ⟨"outputs", 1, 99, .directive .outputs⟩]

/-- The function of a name. -/
def find? (name : String) : Option Function :=
  all.find? fun function => function.name = name

/-- The name of the group that a group call names. -/
def calledGroup? (name : String) : Option String :=
  Text.afterStart? groupCallMark name

/-- Whether a name can be called in front of brackets. -/
def isCallable (name : String) : Bool :=
  match calledGroup? name with
  | some group => group ≠ ""
  | none => (name.toList.head?.any Char.isAlpha) && (find? name).isSome

/-- A function is found under its own name. -/
theorem name_of_find? {name : String} {function : Function} (found : find? name = some function) :
    function.name = name := by
  simpa using List.find?_some found

/-- A function that is found is listed. -/
theorem mem_of_find? {name : String} {function : Function} (found : find? name = some function) :
    function ∈ all :=
  List.mem_of_find?_eq_some found

/-- No two functions share a name. -/
theorem names_distinct : (all.map Function.name).Nodup := by
  decide +kernel

end Function

end Shadeloom
