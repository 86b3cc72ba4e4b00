import Shadeloom.Build.Options
import Shadeloom.Build.Scope
import Shadeloom.Graph.Assembly
/-!
# Cleanup

What is done to a graph once all its statements are built: variables that are defined read their
definitions, unused ports go, ports that are not declared are hidden, inputs of a group that always
get the same value become one, constants become defaults, and the defaults written for inputs are
set. A step that is refused leaves what the steps before it have done.
-/
namespace Shadeloom

/-- How much a cleanup has changed. -/
structure CleanupReport where
  relinkedOutputs : Nat
  removedInputs : Nat
  removedOutputs : Nat
  hiddenPorts : Nat
  mergedInputs : Nat
  foldedConstants : Nat
  deriving Repr, DecidableEq, Inhabited

/-- The stored form of a report. -/
def CleanupReport.toJson (report : CleanupReport) : Json :=
  .obj [
    ("relinked_outputs", Json.ofNat report.relinkedOutputs),
    ("removed_inputs", Json.ofNat report.removedInputs),
    ("removed_outputs", Json.ofNat report.removedOutputs),
    ("hidden_ports", Json.ofNat report.hiddenPorts),
    ("merged_inputs", Json.ofNat report.mergedInputs),
    ("folded_constants", Json.ofNat report.foldedConstants)]

/-- What a cleanup needs to know of a scope. -/
structure Declarations where
  /-- The defaults written for inputs. -/
  defaults : Table String Float
  /-- The inputs to be shown; all of them if none is named. -/
  inputs : List String
  /-- The outputs to be shown; all of them if none is named. -/
  outputs : List String

/-- The declarations of a scope. -/
def Scope.declarations (scope : Scope) : Declarations :=
  ⟨scope.defaults, scope.declaredInputs, scope.declaredOutputs⟩

/-- A graph with the definitions of its groups, while it is cleaned up. -/
structure Site where
  graph : Graph
  library : Library

/-- Steps of a cleanup; what a step has done stays done if it is refused later on. -/
abbrev Cleanup := EStateM BuildError Site

namespace Cleanup

/-- The graph as it is now. -/
def graph : Cleanup Graph := do
  return (← get).graph

/-- Replaces the graph. -/
def setGraph (graph : Graph) : Cleanup Unit :=
  modify fun site => { site with graph }

/-- Edits the graph. -/
def edit (change : Graph → Except GraphError Graph) : Cleanup Unit := do
  match change (← graph) with
  | .ok changed => setGraph changed
  | .error error => throw (.graph error)

/-- Edits the definition of a group. -/
def editDefinition (group : String) (change : Graph → Except GraphError Graph) :
    Cleanup Unit := do
  match (← get).library.get? group with
  | none => pure ()
  | some definition =>
    match change definition with
    | .ok changed =>
      modify fun site => { site with library := site.library.insert group changed }
    | .error error => throw (.graph error)

/-- How many of some items a step has changed something for. -/
def count {α : Type} (items : List α) (step : α → Cleanup Bool) : Cleanup Nat :=
  items.foldlM (fun total item => do return if ← step item then total + 1 else total) 0

/-- Takes a node away. -/
def removeNode (id : Nat) : Cleanup Unit :=
  edit fun graph => (graph.removeNode id).map Prod.snd

/-- The name of the port that a node is. -/
def portName? (graph : Graph) (id : Nat) : Option String :=
  (graph.node? id).bind fun node => node.op.portName?

/-- Whether a socket belongs to a node or to one that leads to it. -/
def feeds (node : Nat) (socket : Socket) : Cleanup Bool := do
  if socket.node = node then return true
  else
    match (← graph).reaches socket.node node with
    | .ok answer => return answer
    | .error fault => throw (.graph fault.toGraphError)

/-- Lets the readers of the input that has the name of an output read what feeds the output. -/
def relinkOutput (output : Nat) : Cleanup Bool := do
  let graph ← graph
  match portName? graph output with
  | none => return false
  | some name =>
    match graph.input? name, graph.source? ⟨output, 0⟩ with
    | some input, some source =>
      let readers := graph.consumers ⟨input, 0⟩
      if readers.isEmpty then return false
      else if source.node = input || (← readers.anyM (feeds source.node)) then
        throw (.cyclicDefinition name)
      else
        readers.forM fun reader => edit fun graph => graph.connect source reader
        return true
    | _, _ => return false

/-- Lets the readers of inputs that are defined read the definitions. -/
def relinkOutputs : Cleanup Nat := do
  count (← graph).outputs relinkOutput

/-- Takes away the inputs that nothing reads. -/
def removeUnusedInputs : Cleanup Nat := do
  count (← graph).inputs.values fun id => do
    if ((← graph).outgoing id).isEmpty then
      removeNode id
      return true
    else return false

/-- Takes away the outputs that nothing feeds. -/
def removeUnusedOutputs : Cleanup Nat := do
  count (← graph).outputs fun id => do
    if ((← graph).incoming id).isEmpty then
      removeNode id
      return true
    else return false

/-- Whether a port is hidden: its name starts with an underscore, or others are declared. -/
def isHidden (declared : List String) (name : String) : Bool :=
  name.toList.head? = some '_' || !Scope.isDeclared declared name

/-- The ports of a graph that are to be hidden. -/
def portsToHide (declarations : Declarations) (graph : Graph) : List Nat :=
  (graph.inputs.entries.filter fun entry => isHidden declarations.inputs entry.1).map Prod.snd ++
    graph.outputs.filter fun id => (portName? graph id).any (isHidden declarations.outputs)

/-- Hides ports that are not shown. -/
def hidePorts (declarations : Declarations) : Cleanup Nat := do
  count (portsToHide declarations (← graph)) fun id => do
    if (← graph).isExposed id then
      edit fun graph => graph.setExposed id false
      return true
    else return false

/-- How many instances of a group a graph has. -/
def instanceCount (graph : Graph) (group : String) : Nat :=
  graph.countNodes fun op => op.isInstanceOf group

/-- How many instances of a group there are in a graph and in all definitions. -/
def useCount (site : Site) (group : String) : Nat :=
  site.library.values.foldl (fun count definition => count + instanceCount definition group)
    (instanceCount site.graph group)

/-- The places of the sockets that links enter from the same output socket as a link before, each
after the place that the first such link enters. The first links are `seen`. -/
def repeatedPlaces (seen : List Link) : List Link → List (Nat × Nat)
  | [] => []
  | link :: rest =>
    match seen.find? fun other => other.source = link.source with
    | some first => (first.target.place, link.target.place) :: repeatedPlaces seen rest
    | none => repeatedPlaces (link :: seen) rest

/-- The places of the sockets that are fed by the same output socket as one above them, each after
the place of the first such socket. -/
def duplicatePlaces (links : List Link) : List (Nat × Nat) :=
  repeatedPlaces [] (links.mergeSort fun a b => a.target.place ≤ b.target.place)

/-- Takes an input socket of a node away; the links of those after it move up by one. -/
def removeInputSocket (id place : Nat) : Cleanup Unit := do
  let moved := ((← graph).incoming id).filter fun link => place ≤ link.target.place
  moved.forM fun link => edit fun graph => (graph.disconnect link.number).map Prod.snd
  edit fun graph => do
    let node ← graph.node id
    .ok (graph.setNode id { node with inputs := node.inputs.eraseIdx place })
  (moved.filter fun link => place < link.target.place).forM fun link =>
    edit fun graph => graph.connect link.source ⟨id, link.target.place - 1⟩

/-- Lets the readers of one input of a definition read another one, and takes the input away. -/
def mergeInputs (group : String) (kept dropped : Nat) : Cleanup Unit := do
  match (← get).library.get? group with
  | none => pure ()
  | some definition =>
    (definition.consumers ⟨dropped, 0⟩).forM fun reader =>
      editDefinition group fun definition => definition.connect ⟨kept, 0⟩ reader
    editDefinition group fun definition => (definition.removeNode dropped).map Prod.snd

/-- Merges the input at a place of an instance into the one at another place, if the definition
has both. -/
def mergePlaces (id : Nat) (group : String) (places : Nat × Nat) : Cleanup Bool := do
  let inputs := (((← get).library.get? group).map fun definition =>
    definition.exposedInputs.map Prod.snd).getD []
  match inputs[places.1]?, inputs[places.2]? with
  | some kept, some dropped =>
    mergeInputs group kept dropped
    removeInputSocket id places.2
    return true
  | _, _ => return false

/-- Merges the inputs of an instance that are fed by the same output socket, the last one first,
if no other instance uses its group. -/
def mergeInstance (id : Nat) (group : String) : Cleanup Nat := do
  let site ← get
  if useCount site group ≠ 1 || !site.library.contains group then return 0
  else count (duplicatePlaces (site.graph.incoming id)).reverse (mergePlaces id group)

/-- The instances of groups in a graph. -/
def instances (graph : Graph) : List (Nat × String) :=
  graph.nodes.entries.filterMap fun entry =>
    match entry.2.op with
    | .group group => some (entry.1, group)
    | _ => none

/-- Merges the inputs of all instances that are fed by the same output socket. -/
def mergeDuplicateInputs : Cleanup Nat := do
  (instances (← graph)).foldlM (fun total entry => do
    return total + (← mergeInstance entry.1 entry.2)) 0

/-- The constants of a graph. -/
def constants (graph : Graph) : List (Nat × Float) :=
  graph.nodes.entries.filterMap fun entry =>
    match entry.2.op with
    | .constant value => some (entry.1, value)
    | _ => none

/-- Makes a constant the default of a socket that it feeds, unless the socket stays linked. -/
def foldLink (value : Float) (link : Link) : Cleanup Unit := do
  if ((← graph).node? link.target.node).any fun node => node.op.isBoundary then pure ()
  else
    edit fun graph => graph.setSocketDefault link.target (.scalar value)
    edit fun graph => (graph.disconnect link.number).map Prod.snd

/-- Makes a constant the default of the sockets that it feeds, and takes it away if nothing is
left that it feeds. -/
def foldConstant (constant : Nat × Float) : Cleanup Bool := do
  ((← graph).outgoing constant.1).forM (foldLink constant.2)
  if ((← graph).outgoing constant.1).isEmpty then
    removeNode constant.1
    return true
  else return false

/-- Makes constants the defaults of the sockets that they feed. -/
def foldConstants : Cleanup Nat := do
  count (constants (← graph)) foldConstant

/-- Sets the defaults that are written for inputs. -/
def applyDefaults (defaults : Table String Float) : Cleanup Unit :=
  defaults.entries.forM fun entry => do
    match (← graph).input? entry.1 with
    | some id => edit fun graph => graph.setInputDefault id (.scalar entry.2)
    | none => pure ()

/-- Whether a name has two characters or fewer before the digits at its end. -/
def isShort (name : String) : Bool :=
  (name.toList.reverse.dropWhile Char.isDigit).length ≤ 2

/-- Whether a name may stand before another one: short names first, then by their characters. -/
def shortNamesFirst (a b : String) : Bool :=
  if isShort a = isShort b then a ≤ b else isShort a

/-- All steps of a cleanup. -/
def all (declarations : Declarations) (options : BuildOptions) : Cleanup CleanupReport := do
  let relinkedOutputs ← relinkOutputs
  let removedInputs ← if options.pruneUnused then removeUnusedInputs else pure 0
  let removedOutputs ← if options.pruneUnused then removeUnusedOutputs else pure 0
  let hiddenPorts ← hidePorts declarations
  let mergedInputs ← mergeDuplicateInputs
  let foldedConstants ← if options.foldConstants then foldConstants else pure 0
  applyDefaults declarations.defaults
  if options.resequenceInputs then
    setGraph ((← graph).sortInputs shortNamesFirst)
  return {
    relinkedOutputs, removedInputs, removedOutputs, hiddenPorts, mergedInputs, foldedConstants }

end Cleanup

/-- Cleans up a graph with the definitions of its groups; the site comes back also if a step is
refused. -/
def cleanUp (declarations : Declarations) (options : BuildOptions) (site : Site) :
    Except BuildError CleanupReport × Site :=
  match (Cleanup.all declarations options).run site with
  | .ok report site => (.ok report, site)
  | .error error site => (.error error, site)

end Shadeloom
