import Shadeloom.Node.Opcode
import Shadeloom.Node.Settings
/-!
# Node operations

What a node computes: an operator with its selector or its settings, a constant, a vector taken
apart or put together, a named port of the graph, or an instance of a group.
-/
namespace Shadeloom

/-- A port through which a graph takes a value by name. -/
structure InputPort where
  name : String
  type : SocketType
  /-- The value where none is given. -/
  default : Value
  /-- Whether the port is visible from outside of the graph. -/
  exposed : Bool
  deriving Repr, Inhabited, DecidableEq

/-- A port through which a graph gives a value by name. -/
structure OutputPort where
  name : String
  type : SocketType
  /-- Whether the port is visible from outside of the graph. -/
  exposed : Bool
  deriving Repr, Inhabited, DecidableEq

/-- What a node computes. -/
inductive NodeOp where
  | math (op : MathOp)
  | vectorMath (op : VectorOp)
  | mix (blend : MixBlend)
  | noise
  | musgrave (type : MusgraveType)
  | voronoi (mode : VoronoiMode)
  | colorRamp (ramp : ColorRamp)
  | image (texture : ImageTexture)
  | pointDensity (density : PointDensity)
  | constant (value : Float)
  | separateXyz
  | combineXyz
  | input (port : InputPort)
  | output (port : OutputPort)
  /-- An instance of a group of the library. -/
  | group (name : String)
  deriving Repr, Inhabited, DecidableEq

/-- The roles that nodes play in a graph. -/
inductive NodeKind where
  | operator
  | constant
  | vectorSplit
  | vectorCombine
  | namedInput
  | namedOutput
  | groupInstance
  deriving Repr, Inhabited, DecidableEq

namespace NodeOp

/-- The role of a node. -/
def kind : NodeOp → NodeKind
  | constant _ => .constant
  | separateXyz => .vectorSplit
  | combineXyz => .vectorCombine
  | input _ => .namedInput
  | output _ => .namedOutput
  | group _ => .groupInstance
  | _ => .operator

/-- Whether the inputs of a node stay linked where a constant could be set instead. -/
def isBoundary : NodeOp → Bool
  | output _ => true
  | group _ => true
  | _ => false

/-- Whether a node is a port of its graph. -/
def isPort : NodeOp → Bool
  | input _ => true
  | output _ => true
  | _ => false

/-- The name of a port. -/
def portName? : NodeOp → Option String
  | input port => some port.name
  | output port => some port.name
  | _ => none

/-- Whether a node is a port that is visible from outside of the graph. -/
def isExposed : NodeOp → Bool
  | input port => port.exposed
  | output port => port.exposed
  | _ => false

/-- Whether a node is an instance of a group. -/
def isInstanceOf (op : NodeOp) (group : String) : Bool :=
  match op with
  | .group name => name = group
  | _ => false

/-- The text of an operation. -/
def text : NodeOp → String
  | math op => "math." ++ op.name
  | vectorMath op => "vector." ++ op.name
  | mix blend => "mix." ++ blend.name
  | noise => "noise"
  | musgrave type => "musgrave." ++ type.name
  | voronoi mode => "voronoi." ++ mode.name
  | colorRamp _ => "colorramp"
  | image _ => "image"
  | pointDensity _ => "point"
  | constant value => "constant(" ++ Decimal.messageText value ++ ")"
  | separateXyz => "separate_xyz"
  | combineXyz => "combine_xyz"
  | input port => "input '" ++ port.name ++ "'"
  | output port => "output '" ++ port.name ++ "'"
  | group name => "group '" ++ name ++ "'"

/-- The name and the data of the stored form. -/
def stored : NodeOp → String × Option Json
  | math op => ("Math", some (.str op.name))
  | vectorMath op => ("VectorMath", some (.str op.name))
  | mix blend => ("MixRgb", some (.str blend.name))
  | noise => ("Noise", none)
  | musgrave type => ("Musgrave", some (.str type.name))
  | voronoi mode => ("Voronoi", some (.str mode.name))
  | colorRamp ramp => ("ColorRamp", some (ColorRamp.codec.encode ramp))
  | image texture => ("Image", some (ImageTexture.codec.encode texture))
  | pointDensity density => ("PointDensity", some (PointDensity.codec.encode density))
  | constant value => ("Constant", some (.obj [("value", Codec.float.encode value)]))
  | separateXyz => ("SeparateXyz", none)
  | combineXyz => ("CombineXyz", none)
  | input port => ("NamedInput", some (.obj [("name", .str port.name),
      ("ty", SocketType.codec.encode port.type), ("default", Value.codec.encode port.default),
      ("exposed", .bool port.exposed)]))
  | output port => ("NamedOutput", some (.obj [("name", .str port.name),
      ("ty", SocketType.codec.encode port.type), ("exposed", .bool port.exposed)]))
  | group name => ("GroupInstance", some (.obj [("group", .str name)]))

/-- The constant, port or instance of a name that stores its data as a record. -/
def ofRecord? (name : String) (payload : Json) : Option NodeOp :=
  match name with
  | "Constant" =>
    match payload.members? ["value"] with
    | some [some value] => (Codec.float.decode value).map constant
    | _ => none
  | "NamedInput" =>
    match payload.members? ["name", "ty", "default", "exposed"] with
    | some [some name, some type, some default, some exposed] => do
      some (.input {
        name := ← Codec.text.decode name
        type := ← SocketType.codec.decode type
        default := ← Value.codec.decode default
        exposed := ← Codec.bool.decode exposed })
    | _ => none
  | "NamedOutput" =>
    match payload.members? ["name", "ty", "exposed"] with
    | some [some name, some type, some exposed] => do
      some (.output {
        name := ← Codec.text.decode name
        type := ← SocketType.codec.decode type
        exposed := ← Codec.bool.decode exposed })
    | _ => none
  | "GroupInstance" =>
    match payload.members? ["group"] with
    | some [some called] => (Codec.text.decode called).map group
    | _ => none
  | _ => none

/-- The operation of a name with data. -/
def ofPayload? (name : String) (payload : Json) : Option NodeOp :=
  match name with
  | "Math" => ((Codec.choice MathOp.all MathOp.name).decode payload).map math
  | "VectorMath" => ((Codec.choice VectorOp.all VectorOp.name).decode payload).map vectorMath
  | "MixRgb" => ((Codec.choice MixBlend.all MixBlend.name).decode payload).map mix
  | "Musgrave" => ((Codec.choice MusgraveType.all MusgraveType.name).decode payload).map musgrave
  | "Voronoi" => ((Codec.choice VoronoiMode.all VoronoiMode.name).decode payload).map voronoi
  | "ColorRamp" => (ColorRamp.codec.decode payload).map colorRamp
  | "Image" => (ImageTexture.codec.decode payload).map image
  | "PointDensity" => (PointDensity.codec.decode payload).map pointDensity
  | name => ofRecord? name payload

/-- The operation of a name without data. -/
def ofName? : String → Option NodeOp
  | "Noise" => some noise
  | "SeparateXyz" => some separateXyz
  | "CombineXyz" => some combineXyz
  | _ => none

/-- The stored form of an operation: its name, with its data if it has any. -/
def codec : Codec NodeOp where
  encode op :=
    match op.stored with
    | (name, none) => .str name
    | (name, some payload) => Json.tagged name payload
  decode value :=
    match value.tag? with
    | some (name, none) => ofName? name
    | some (name, some .null) => ofName? name
    | some (name, some payload) => ofPayload? name payload
    | none => none

end NodeOp

end Shadeloom
