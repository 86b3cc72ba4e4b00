import Shadeloom.Graph.Assembly
/-!
# Stored graphs

A graph is stored with its nodes by number, the vacant numbers below the last one in use, and its
links by number with `null` for vacant ones. Vacant numbers at the end are not stored. Reading
checks that the vacant numbers ascend, that there is a node for every other number and that every
link joins numbers of nodes or vacant ones; it does not check sockets and ports.
-/
namespace Shadeloom

/-- Why a stored graph is not read. -/
inductive StoredFault where
  /-- What is read is not the stored form of a graph. -/
  | malformed
  /-- There are fewer nodes than numbers below a vacant one. -/
  | missingNodes
  deriving Repr, DecidableEq, Inhabited

/-- What is read, if it has the stored form. -/
def orMalformed {α : Type} : Option α → Except StoredFault α
  | some a => .ok a
  | none => .error .malformed

namespace Graph

/-- How many values a stored number of a node or a link may have. -/
def numberLimit : Nat := 1 <<< 32

/-- How many values a stored place of a socket may have. -/
def placeLimit : Nat := 1 <<< 16

/-- The stored form of the two sockets that a link joins: the nodes, then the places. -/
def endsCodec : Codec (Socket × Socket) where
  encode ends := .arr [Json.ofNat ends.1.node, Json.ofNat ends.2.node,
    .obj [("source_port", Json.ofNat ends.1.place), ("target_port", Json.ofNat ends.2.place)]]
  decode
    | .arr [source, target, places] =>
      match places.members? ["source_port", "target_port"] with
      | some [some sourcePlace, some targetPlace] => do
        let source ← (Codec.natBelow numberLimit).decode source
        let target ← (Codec.natBelow numberLimit).decode target
        let sourcePlace ← (Codec.natBelow placeLimit).decode sourcePlace
        let targetPlace ← (Codec.natBelow placeLimit).decode targetPlace
        some (⟨source, sourcePlace⟩, ⟨target, targetPlace⟩)
      | _ => none
    | _ => none

/-- The mark of graphs whose links have a direction, the only one that is read. -/
def directedMark : Codec Unit :=
  Codec.choice [()] fun _ => "directed"

/-- The vacant numbers below the last one in use. -/
def holes (nodes : Slots Node) : List Nat :=
  (List.range nodes.bound).filter fun number => (nodes.get? number).isNone

/-- The sockets that links join, by number of the link up to the highest one. -/
def endsByNumber (links : List Link) : List (Option (Socket × Socket)) :=
  (List.range ((links.map fun link => link.number + 1).max?.getD 0)).map fun number =>
    (links.find? fun link => link.number = number).map fun link => (link.source, link.target)

/-- The stored form of the nodes and links of a graph. -/
def structureJson (graph : Graph) : Json :=
  .obj [
    ("nodes", .arr (graph.nodes.entries.map fun entry => Node.codec.encode entry.2)),
    ("node_holes", .arr ((holes graph.nodes).map Json.ofNat)),
    ("edge_property", directedMark.encode ()),
    ("edges", endsCodec.option.list.encode (endsByNumber graph.links))]

/-- The cells of nodes from a number on, up to a number that no cell has, with the vacant numbers
left out of the nodes. -/
def cellsFrom (number limit : Nat) : List Nat → List Node → Except StoredFault (List (Option Node))
  | [], nodes => .ok (nodes.map some)
  | hole :: holes, nodes =>
    if hole < number ∨ limit ≤ hole then .error .malformed
    else if nodes.length < hole - number then .error .missingNodes
    else do
      let rest ← cellsFrom (hole + 1) limit holes (nodes.drop (hole - number))
      .ok ((nodes.take (hole - number)).map some ++ none :: rest)

/-- The links of stored links by number, newest first; the highest number is the newest. -/
def numberedLinks (stored : List (Option (Socket × Socket))) : List Link :=
  (stored.zipIdx.filterMap fun (ends, number) =>
    ends.map fun (source, target) => ⟨number, source, target⟩).reverse

/-- The numbers of stored links. -/
def linkPool (stored : List (Option (Socket × Socket))) : NumberPool where
  next := stored.length
  freed := ((List.range stored.length).filter fun number => stored[number]?.join.isNone).reverse

/-- A graph of cells and stored links, without name and ports. Its lists are in a tangle if a link
has an end at a vacant number. -/
def ofCells? (cells : List (Option Node)) (links : List (Option (Socket × Socket))) :
    Option Graph :=
  let joinAll (test : Nat → Bool) :=
    links.all fun ends => ends.all fun (source, target) => test source.node && test target.node
  if joinAll (· < cells.length) then
    let nodes := Slots.ofCells cells
    some { empty "" with
      nodes
      links := numberedLinks links
      linkNumbers := linkPool links
      tangle :=
        if joinAll fun id => (nodes.get? id).isSome then none
        else some (.ofNumbered cells.length nodes.freed.reverse links) }
  else none

/-- The nodes, vacant numbers and links of a stored graph. -/
def parts? (value : Json) :
    Option (List Node × List Nat × List (Option (Socket × Socket))) :=
  match value.members? ["nodes", "node_holes", "edge_property", "edges"] with
  | some [some nodes, holes, some property, some links] => do
    let nodes ← Node.codec.list.decode nodes
    let holes ← match holes with
      | none => some []
      | some holes => (Codec.natBelow numberLimit).list.decode holes
    let _ ← directedMark.decode property
    let links ← endsCodec.option.list.decode links
    some (nodes, holes, links)
  | _ => none

/-- The graph without name and ports whose nodes and links a value stores. -/
def ofStructure (value : Json) : Except StoredFault Graph := do
  let (nodes, holes, links) ← orMalformed (parts? value)
  let cells ← cellsFrom 0 (nodes.length + holes.length) holes nodes
  orMalformed (ofCells? cells links)

end Graph

namespace Assembly

/-- The stored form of a graph with its definitions. -/
def toJson (assembly : Assembly) : Json :=
  .obj [
    ("name", .str assembly.graph.name),
    ("graph", assembly.graph.structureJson),
    ("inputs", .obj (assembly.graph.inputs.entries.map fun entry =>
      (entry.1, Json.ofNat entry.2))),
    ("outputs", .arr (assembly.graph.outputs.map Json.ofNat)),
    ("groups", .obj (assembly.groups.attach.map fun ⟨(name, definition), _⟩ =>
      (name, definition.toJson)))]
termination_by sizeOf assembly
decreasing_by
  rename_i mem
  have inside := List.sizeOf_lt_of_mem mem
  cases assembly
  simp only [Prod.mk.sizeOf_spec, mk.sizeOf_spec] at inside ⊢
  omega

/-- The named inputs of a stored graph. -/
def inputsOfJson? : Json → Option (Table String Nat)
  | .obj members => do
    let entries ← members.mapM fun member => do
      some (member.1, ← (Codec.natBelow Graph.numberLimit).decode member.2)
    some (.ofList entries)
  | _ => none

/-- The members of a stored graph that have been read. -/
structure Draft where
  name : Option String
  content : Option Graph
  inputs : Option (Table String Nat)
  outputs : Option (List Nat)
  groups : Option (List (String × Assembly))

namespace Draft

/-- A draft without members. -/
def empty : Draft := ⟨none, none, none, none, none⟩

/-- The names of the members in their order. -/
def names : List String := ["name", "graph", "inputs", "outputs", "groups"]

/-- A member that is read for the first time. -/
def once {α : Type} (old : Option α) (read : Unit → Except StoredFault α) :
    Except StoredFault (Option α) :=
  match old with
  | none => (read ()).map some
  | some _ => .error .malformed

/-- The draft with one more member, which is passed over if its name is none of the names. -/
def add (draft : Draft) (name : String) (value : Json)
    (groups : Unit → Except StoredFault (List (String × Assembly))) :
    Except StoredFault Draft :=
  match name with
  | "name" =>
    (once draft.name fun _ => orMalformed (Codec.text.decode value)).map fun name =>
      { draft with name }
  | "graph" =>
    (once draft.content fun _ => Graph.ofStructure value).map fun content =>
      { draft with content }
  | "inputs" =>
    (once draft.inputs fun _ => orMalformed (inputsOfJson? value)).map fun inputs =>
      { draft with inputs }
  | "outputs" =>
    (once draft.outputs fun _ =>
      orMalformed ((Codec.natBelow Graph.numberLimit).list.decode value)).map fun outputs =>
      { draft with outputs }
  | "groups" => (once draft.groups groups).map fun groups => { draft with groups }
  | _ => .ok draft

/-- The graph with its definitions, if every member has been read. -/
def finish : Draft → Except StoredFault Assembly
  | ⟨some name, some content, some inputs, some outputs, some groups⟩ =>
    .ok (groups.foldl (fun assembly entry => assembly.setGroup entry.1 entry.2)
      (ofGraph { content with name, inputs, outputs }))
  | _ => .error .malformed

end Draft

mutual

/-- The graph with its definitions that a value stores. Members are read in their order, so that
of two faults the first one is found. -/
def ofJson : Json → Except StoredFault Assembly
  | .obj members => do (← addMembers .empty members).finish
  | .arr items => do (← addItems .empty Draft.names items).finish
  | .unusable start => do
    let _ ← ofJson start
    .error .malformed
  | _ => .error .malformed

/-- A draft with the members of an object. -/
def addMembers (draft : Draft) : List (String × Json) → Except StoredFault Draft
  | [] => .ok draft
  | (name, value) :: rest => do
    addMembers (← draft.add name value fun _ => groupsOfJson value) rest

/-- A draft with the items of an array, which are members in the order of the names. -/
def addItems (draft : Draft) : List String → List Json → Except StoredFault Draft
  | _, [] => .ok draft
  | [], _ :: _ => .error .malformed
  | name :: names, value :: rest => do
    addItems (← draft.add name value fun _ => groupsOfJson value) names rest

/-- The definitions that a value stores, by name. -/
def groupsOfJson : Json → Except StoredFault (List (String × Assembly))
  | .obj members => groupsOfMembers members
  | .unusable start => do
    let _ ← groupsOfJson start
    .error .malformed
  | _ => .error .malformed

/-- The definitions that members of an object store. -/
def groupsOfMembers : List (String × Json) → Except StoredFault (List (String × Assembly))
  | [] => .ok []
  | (name, value) :: rest => do
    let definition ← ofJson value
    .ok ((name, definition) :: (← groupsOfMembers rest))

end

end Assembly

end Shadeloom
