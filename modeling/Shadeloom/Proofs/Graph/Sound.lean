import Mathlib
import Shadeloom.Graph.Order
import Shadeloom.Proofs.Graph.Numbers
/-!
# Sound graphs

A graph that is made by edits keeps its bookkeeping in order: numbers that are handed out are
fresh, links join sockets that exist and no two links enter the same input socket, and the tables
of ports list nodes that are these ports. Two views say all that matters of a sound graph: the node
of a number and the output socket that an input socket is linked to. Each edit is described by
what it does to these views, and keeps the graph sound.
-/
namespace Shadeloom

/-- A named input has no input sockets, one output socket, and one type for all that it shows. -/
structure Node.IsInput (node : Node) (port : InputPort) : Prop where
  op : node.op = .input port
  inputs : node.inputs = []
  outputs : node.outputs = [⟨port.name, port.type⟩]
  default : port.default.type = port.type

namespace Graph

/-- Whether a node has an output socket at the place. -/
def HasOutput (graph : Graph) (socket : Socket) : Prop :=
  ∃ node, graph.node? socket.node = some node ∧ socket.place < node.outputs.length

/-- Whether a node has an input socket at the place. -/
def HasInput (graph : Graph) (socket : Socket) : Prop :=
  ∃ node, graph.node? socket.node = some node ∧ socket.place < node.inputs.length

/-- The bookkeeping of a graph that is made by edits. -/
structure Sound (graph : Graph) : Prop where
  orderly : graph.tangle = none
  slots : graph.nodes.Sound
  numbers : graph.linkNumbers.Sound (graph.links.map Link.number)
  /-- Links join sockets of nodes. -/
  joined : ∀ link ∈ graph.links, graph.HasOutput link.source ∧ graph.HasInput link.target
  /-- An input socket is entered by one link at most. -/
  single : ∀ a ∈ graph.links, ∀ b ∈ graph.links, a.target = b.target → a = b
  /-- The table of inputs lists named inputs under their names. -/
  inputNamed : ∀ entry ∈ graph.inputs.entries,
    ∃ node port, graph.node? entry.2 = some node ∧ node.op = .input port ∧ port.name = entry.1
  /-- The list of outputs lists named outputs. -/
  outputNamed : ∀ id ∈ graph.outputs,
    ∃ node port, graph.node? id = some node ∧ node.op = .output port
  outputsDistinct : graph.outputs.Nodup
  inputShaped : ∀ id node port, graph.node? id = some node → node.op = .input port →
    node.IsInput port

/-- An empty graph is sound. -/
theorem sound_empty (name : String) : (empty name).Sound where
  orderly := rfl
  slots := Slots.sound_empty
  numbers := ⟨List.nodup_nil, by simp [empty], List.nodup_nil, by simp [empty, NumberPool.empty],
    by simp [empty]⟩
  joined := by simp [empty]
  single := by simp [empty]
  inputNamed := by simp [empty, Table.empty]
  outputNamed := by simp [empty]
  outputsDistinct := List.nodup_nil
  inputShaped := by simp [empty, node?, Slots.empty, Slots.get?]

/-- The links that enter a node of a graph without a tangle. -/
theorem Sound.incoming_eq {graph : Graph} (sound : graph.Sound) (id : Nat) :
    graph.incoming id = graph.links.filter fun link => link.target.node = id :=
  linksAt_eq_filter sound.orderly .input id

/-- The links that leave a node of a graph without a tangle. -/
theorem Sound.outgoing_eq {graph : Graph} (sound : graph.Sound) (id : Nat) :
    graph.outgoing id = graph.links.filter fun link => link.source.node = id :=
  linksAt_eq_filter sound.orderly .output id

/-- A socket is linked to another one exactly when a link leads from there to here. -/
theorem Sound.source?_eq_some_iff {graph : Graph} (sound : graph.Sound) {source target : Socket} :
    graph.source? target = some source ↔
      ∃ link ∈ graph.links, link.source = source ∧ link.target = target := by
  unfold source?
  rw [sound.incoming_eq, Option.map_eq_some_iff]
  constructor
  · rintro ⟨link, found, rfl⟩
    have mem := List.mem_filter.1 (List.mem_of_find?_eq_some found)
    have place := List.find?_some found
    simp only [decide_eq_true_eq] at mem place
    exact ⟨link, mem.1, rfl, by rw [Socket.mk.injEq]; exact ⟨mem.2, place⟩⟩
  · rintro ⟨link, mem, rfl, rfl⟩
    have here : link ∈ graph.links.filter fun other => other.target.node = link.target.node :=
      List.mem_filter.2 ⟨mem, by simp⟩
    obtain ⟨first, found⟩ := Option.isSome_iff_exists.1
      (List.find?_isSome (p := fun other => other.target.place = link.target.place)
        |>.2 ⟨link, here, by simp⟩)
    refine ⟨first, found, ?_⟩
    have first_mem := List.mem_filter.1 (List.mem_of_find?_eq_some found)
    have place := List.find?_some found
    simp only [decide_eq_true_eq] at first_mem place
    have same : first.target = link.target := by
      rw [Socket.mk.injEq]; exact ⟨first_mem.2, place⟩
    rw [sound.single first first_mem.1 link mem same]

/-- A socket is linked to nothing exactly when no link enters it. -/
theorem Sound.source?_eq_none_iff {graph : Graph} (sound : graph.Sound) {target : Socket} :
    graph.source? target = none ↔ ∀ link ∈ graph.links, link.target ≠ target := by
  rw [Option.eq_none_iff_forall_not_mem]
  constructor
  · intro none link mem same
    exact none link.source (sound.source?_eq_some_iff.2 ⟨link, mem, rfl, same⟩)
  · intro none source found
    obtain ⟨link, mem, _, same⟩ := sound.source?_eq_some_iff.1 found
    exact none link mem same

/-- A node that is no output is not listed as one. -/
theorem Sound.not_mem_outputs {graph : Graph} (sound : graph.Sound) {id : Nat} {node : Node}
    (found : graph.node? id = some node) (other : ∀ port, node.op ≠ .output port) :
    id ∉ graph.outputs := by
  intro mem
  obtain ⟨node', port, found', output⟩ := sound.outputNamed id mem
  rw [found, Option.some.injEq] at found'
  exact other port (found' ▸ output)

/-- The sockets that an output socket is linked to are those linked from it. -/
theorem Sound.mem_consumers {graph : Graph} (sound : graph.Sound) {source target : Socket} :
    target ∈ graph.consumers source ↔ graph.source? target = some source := by
  rw [sound.source?_eq_some_iff]
  unfold consumers
  rw [sound.outgoing_eq]
  simp only [List.mem_map, List.mem_filter, decide_eq_true_eq]
  constructor
  · rintro ⟨link, ⟨⟨mem, node⟩, place⟩, rfl⟩
    exact ⟨link, mem, by rw [Socket.mk.injEq]; exact ⟨node, place⟩, rfl⟩
  · rintro ⟨link, mem, rfl, rfl⟩
    exact ⟨link, ⟨⟨mem, rfl⟩, rfl⟩, rfl⟩

/-- What an input socket is linked to is an output socket of a node. -/
theorem Sound.hasOutput {graph : Graph} (sound : graph.Sound) {source target : Socket}
    (linked : graph.source? target = some source) : graph.HasOutput source := by
  obtain ⟨link, mem, rfl, _⟩ := sound.source?_eq_some_iff.1 linked
  exact (sound.joined link mem).1

/-- What is linked to an output socket is an input socket of a node. -/
theorem Sound.hasInput {graph : Graph} (sound : graph.Sound) {source target : Socket}
    (linked : graph.source? target = some source) : graph.HasInput target := by
  obtain ⟨link, mem, _, rfl⟩ := sound.source?_eq_some_iff.1 linked
  exact (sound.joined link mem).2

/-- Nothing enters a named input. -/
theorem Sound.source?_input {graph : Graph} (sound : graph.Sound) {id : Nat} {node : Node}
    {port : InputPort} (found : graph.node? id = some node) (input : node.op = .input port)
    (place : Nat) : graph.source? ⟨id, place⟩ = none := by
  rw [Option.eq_none_iff_forall_not_mem]
  intro source linked
  obtain ⟨receiver, here, below⟩ := sound.hasInput linked
  simp only at here
  rw [found, Option.some.injEq] at here
  rw [← here, (sound.inputShaped id node port found input).inputs] at below
  exact Nat.not_lt_zero _ below

/-- The next number belongs to no node yet. -/
theorem Sound.node?_nextNode {graph : Graph} (sound : graph.Sound) :
    graph.node? graph.nextNode = none :=
  Slots.get?_nextNumber sound.slots

/-- The input that a name is listed for. -/
theorem Sound.input?_spec {graph : Graph} (sound : graph.Sound) {name : String} {id : Nat}
    (listed : graph.input? name = some id) :
    ∃ node port, graph.node? id = some node ∧ node.op = .input port ∧ port.name = name := by
  unfold input? Table.get? at listed
  obtain ⟨entry, found, rfl⟩ := Option.map_eq_some_iff.1 listed
  have name_eq : entry.1 = name := by simpa using List.find?_some found
  obtain ⟨node, port, here, input, named⟩ := sound.inputNamed entry (List.mem_of_find?_eq_some found)
  exact ⟨node, port, here, input, named.trans name_eq⟩

/-- An input is listed for one name. -/
theorem Sound.name_of_input? {graph : Graph} (sound : graph.Sound) {name name' : String} {id : Nat}
    (listed : graph.input? name = some id) (listed' : graph.input? name' = some id) :
    name = name' := by
  obtain ⟨node, port, found, input, named⟩ := sound.input?_spec listed
  obtain ⟨node', port', found', input', named'⟩ := sound.input?_spec listed'
  rw [found, Option.some.injEq] at found'
  rw [← found', input, NodeOp.input.injEq] at input'
  rw [← named, ← named', input']

/-- A node is added to a sound graph under the next number. -/
theorem Sound.addNode_eq {graph : Graph} (sound : graph.Sound) (node : Node) :
    graph.addNode node = { graph with nodes := graph.nodes.add node } := by
  unfold addNode
  rw [sound.orderly]

/-- The nodes after one is added. -/
theorem Sound.node?_addNode {graph : Graph} (sound : graph.Sound) (node : Node) (other : Nat) :
    (graph.addNode node).node? other =
      if graph.nextNode = other then some node else graph.node? other := by
  rw [sound.addNode_eq]
  exact Slots.get?_add sound.slots node other

/-- A node that is there stays when another one is added. -/
theorem Sound.node?_addNode_of_some {graph : Graph} (sound : graph.Sound) (node : Node)
    {other : Nat} {old : Node} (found : graph.node? other = some old) :
    (graph.addNode node).node? other = some old := by
  rw [sound.node?_addNode, if_neg, found]
  intro same
  rw [← same, sound.node?_nextNode] at found
  cases found

/-- Adding a node links nothing. -/
@[simp] theorem links_addNode (graph : Graph) (node : Node) :
    (graph.addNode node).links = graph.links := by
  unfold addNode addTangledNode
  split
  · rfl
  · split
    · rfl
    · split <;> rfl

/-- Adding a node changes no table of ports. -/
@[simp] theorem inputs_addNode (graph : Graph) (node : Node) :
    (graph.addNode node).inputs = graph.inputs := by
  unfold addNode addTangledNode
  split
  · rfl
  · split
    · rfl
    · split <;> rfl

/-- Adding a node changes no list of ports. -/
@[simp] theorem outputs_addNode (graph : Graph) (node : Node) :
    (graph.addNode node).outputs = graph.outputs := by
  unfold addNode addTangledNode
  split
  · rfl
  · split
    · rfl
    · split <;> rfl

/-- Adding a node keeps a graph sound, if a named input is shaped as one. -/
theorem Sound.addNode {graph : Graph} (sound : graph.Sound) (node : Node)
    (shaped : ∀ port, node.op = .input port → node.IsInput port) : (graph.addNode node).Sound where
  orderly := by rw [sound.addNode_eq]; exact sound.orderly
  slots := by rw [sound.addNode_eq]; exact sound.slots.add node
  numbers := by rw [sound.addNode_eq]; exact sound.numbers
  joined link mem := by
    rw [links_addNode] at mem
    obtain ⟨⟨sender, sent, below⟩, ⟨receiver, received, below'⟩⟩ := sound.joined link mem
    exact ⟨⟨sender, sound.node?_addNode_of_some node sent, below⟩,
      ⟨receiver, sound.node?_addNode_of_some node received, below'⟩⟩
  single := by rw [links_addNode]; exact sound.single
  inputNamed entry mem := by
    rw [inputs_addNode] at mem
    obtain ⟨old, port, found, input, named⟩ := sound.inputNamed entry mem
    exact ⟨old, port, sound.node?_addNode_of_some node found, input, named⟩
  outputNamed id mem := by
    rw [outputs_addNode] at mem
    obtain ⟨old, port, found, output⟩ := sound.outputNamed id mem
    exact ⟨old, port, sound.node?_addNode_of_some node found, output⟩
  outputsDistinct := by rw [outputs_addNode]; exact sound.outputsDistinct
  inputShaped id old port found input := by
    rw [sound.node?_addNode] at found
    split at found
    · cases found; exact shaped port input
    · exact sound.inputShaped id old port found input

/-- Linked sockets stay linked as they are when a node is added. -/
theorem Sound.source?_addNode {graph : Graph} (sound : graph.Sound) {node : Node}
    (target : Socket) : (graph.addNode node).source? target = graph.source? target := by
  have orderly : (graph.addNode node).tangle = none := by
    rw [sound.addNode_eq]; exact sound.orderly
  unfold source? incoming
  rw [linksAt_eq_filter orderly, linksAt_eq_filter sound.orderly, links_addNode]

end Graph

end Shadeloom
