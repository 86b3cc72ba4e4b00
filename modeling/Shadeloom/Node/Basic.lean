import Shadeloom.Node.Op
/-!
# Nodes

A node has an operation, its input and output sockets and sometimes a label. The sockets follow
from the operation; those of a group instance follow from the ports of the group.
-/
namespace Shadeloom

/-- A socket through which a node takes a value. -/
structure InputSocket where
  name : String
  type : SocketType
  /-- The value while nothing is linked. -/
  default : Value
  deriving Repr, Inhabited, DecidableEq

/-- A socket through which a node gives a value. -/
structure OutputSocket where
  name : String
  type : SocketType
  deriving Repr, Inhabited, DecidableEq

namespace InputSocket

/-- A scalar socket with a default. -/
def scalar (name : String) (default : Float) : InputSocket :=
  ⟨name, .scalar, .splat default .scalar⟩

/-- A vector socket with the same default in every component. -/
def vector (name : String) (default : Float) : InputSocket :=
  ⟨name, .vector, .splat default .vector⟩

/-- The stored form of an input socket. -/
def codec : Codec InputSocket where
  encode socket := .obj [("name", .str socket.name), ("ty", SocketType.codec.encode socket.type),
    ("default", Value.codec.encode socket.default)]
  decode value :=
    match value.members? ["name", "ty", "default"] with
    | some [some name, some type, some default] => do
      some ⟨← Codec.text.decode name, ← SocketType.codec.decode type,
        ← Value.codec.decode default⟩
    | _ => none

end InputSocket

/-- The stored form of an output socket. -/
def OutputSocket.codec : Codec OutputSocket where
  encode socket := .obj [("name", .str socket.name), ("ty", SocketType.codec.encode socket.type)]
  decode value :=
    match value.members? ["name", "ty"] with
    | some [some name, some type] => do
      some ⟨← Codec.text.decode name, ← SocketType.codec.decode type⟩
    | _ => none

namespace NodeOp

/-- The input sockets of an operation. -/
def inputSockets : NodeOp → List InputSocket
  | math _ => [.scalar "Value" 0.5, .scalar "Value_001" 0.5]
  | vectorMath _ => [.vector "Vector" 0.0, .vector "Vector_001" 0.0]
  | mix blend =>
    [.scalar "Fac" (if blend = .mix then 0.5 else 1.0), .vector "Color1" 0.5,
      .vector "Color2" 0.5]
  | noise =>
    [.vector "Vector" 0.0, .scalar "Scale" 5.0, .scalar "Detail" 2.0, .scalar "Distortion" 0.0]
  | musgrave _ =>
    [.vector "Vector" 0.0, .scalar "Scale" 5.0, .scalar "Detail" 2.0, .scalar "Dimension" 2.0,
      .scalar "Lacunarity" 2.0, .scalar "Offset" 0.0, .scalar "Gain" 1.0]
  | voronoi _ => [.vector "Vector" 0.0, .scalar "Scale" 5.0]
  | colorRamp _ => [.scalar "Fac" 0.5]
  | image _ => [.vector "Vector" 0.0]
  | pointDensity _ => [.vector "Vector" 0.0]
  | constant _ => []
  | separateXyz => [.vector "Vector" 0.0]
  | combineXyz => [.scalar "X" 0.0, .scalar "Y" 0.0, .scalar "Z" 0.0]
  | input _ => []
  | output port => [⟨port.name, port.type, .zero port.type⟩]
  | group _ => []

/-- The output sockets of an operation. -/
def outputSockets : NodeOp → List OutputSocket
  | math _ => [⟨"Value", .scalar⟩]
  | vectorMath _ => [⟨"Vector", .vector⟩, ⟨"Value", .scalar⟩]
  | mix _ => [⟨"Color", .vector⟩]
  | noise => [⟨"Fac", .scalar⟩, ⟨"Color", .vector⟩]
  | musgrave _ => [⟨"Fac", .scalar⟩]
  | voronoi _ => [⟨"Color", .vector⟩, ⟨"Fac", .scalar⟩]
  | colorRamp _ => [⟨"Color", .vector⟩, ⟨"Alpha", .scalar⟩]
  | image _ => [⟨"Color", .vector⟩, ⟨"Alpha", .scalar⟩]
  | pointDensity _ => [⟨"Color", .vector⟩, ⟨"Density", .scalar⟩]
  | constant _ => [⟨"Value", .scalar⟩]
  | separateXyz => [⟨"X", .scalar⟩, ⟨"Y", .scalar⟩, ⟨"Z", .scalar⟩]
  | combineXyz => [⟨"Vector", .vector⟩]
  | input port => [⟨port.name, port.type⟩]
  | output _ => []
  | group _ => []

end NodeOp

/-- A node of a graph. -/
structure Node where
  op : NodeOp
  inputs : List InputSocket
  outputs : List OutputSocket
  /-- The name given to an instance of a group. -/
  label : Option String
  deriving Repr, Inhabited, DecidableEq

namespace Node

/-- The node of an operation with the sockets that follow from it. -/
def ofOp (op : NodeOp) : Node :=
  ⟨op, op.inputSockets, op.outputSockets, none⟩

/-- The place of the first input socket of a name. -/
def inputIndex? (node : Node) (name : String) : Option Nat :=
  node.inputs.findIdx? fun socket => socket.name = name

/-- The place of the first output socket of a name. -/
def outputIndex? (node : Node) (name : String) : Option Nat :=
  node.outputs.findIdx? fun socket => socket.name = name

/-- The node with the default of an input socket set to a value as the type of the socket. -/
def setInputDefault (node : Node) (socket : Nat) (value : Value) : Node :=
  { node with
    inputs := node.inputs.modify socket fun input =>
      { input with default := value.convert input.type } }

/-- The named input with another type for itself, its default and its first output socket; there
is none for other nodes. -/
def retypeInput? (node : Node) (type : SocketType) : Option Node :=
  match node.op with
  | .input port =>
    some { node with
      op := .input { port with type := type, default := port.default.convert type }
      outputs := node.outputs.modify 0 fun socket => { socket with type := type } }
  | _ => none

/-- The named input with a value as its default; there is none for other nodes. -/
def setPortDefault? (node : Node) (value : Value) : Option Node :=
  match node.op with
  | .input port => some { node with op := .input { port with default := value.convert port.type } }
  | _ => none

/-- The named port shown or hidden; there is none for other nodes. -/
def setExposed? (node : Node) (exposed : Bool) : Option Node :=
  match node.op with
  | .input port => some { node with op := .input { port with exposed } }
  | .output port => some { node with op := .output { port with exposed } }
  | _ => none

/-- Changes the type of a named input, with that of its default and its first output socket; tells
whether the node is one. -/
def retypeInput (type : SocketType) : StateM Node Bool := do
  match (← get).op with
  | .input port =>
    modify fun node => { node with
      op := .input { port with type := type, default := port.default.convert type } }
    modify fun node => { node with
      outputs := node.outputs.modify 0 fun socket => { socket with type := type } }
    return true
  | _ => return false

/-- Changes the default of a named input; tells whether the node is one. -/
def setPortDefault (value : Value) : StateM Node Bool := do
  match (← get).op with
  | .input port =>
    modify fun node => { node with
      op := .input { port with default := value.convert port.type } }
    return true
  | _ => return false

/-- Shows or hides a named port; tells whether the node is one. -/
def setExposed (exposed : Bool) : StateM Node Bool := do
  match (← get).op with
  | .input port =>
    modify fun node => { node with op := .input { port with exposed } }
    return true
  | .output port =>
    modify fun node => { node with op := .output { port with exposed } }
    return true
  | _ => return false

/-- The stored form of a node. -/
def codec : Codec Node where
  encode node := .obj [("op", NodeOp.codec.encode node.op),
    ("inputs", InputSocket.codec.list.encode node.inputs),
    ("outputs", OutputSocket.codec.list.encode node.outputs),
    ("label", Codec.text.option.encode node.label)]
  decode value :=
    match value.members? ["op", "inputs", "outputs", "label"] with
    | some [some op, some inputs, some outputs, label] => do
      some {
        op := ← NodeOp.codec.decode op
        inputs := ← InputSocket.codec.list.decode inputs
        outputs := ← OutputSocket.codec.list.decode outputs
        label := ← Codec.text.option.decode (label.getD .null) }
    | _ => none

end Node

end Shadeloom
