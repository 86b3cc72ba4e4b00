import Mathlib
import Shadeloom.Proofs.Graph.Editing
import Shadeloom.Proofs.Graph.Sound
/-!
# Edits of sound graphs

What every edit does to the two views of a sound graph, the node of a number and the output socket
that an input socket is linked to, and that it keeps the graph sound. An edit that may be refused
is described by when it is carried out.
-/
namespace Shadeloom

/-- A node that may take the place of another one: it has as many sockets, and it is the same named
port if the other one is a port. -/
structure Node.Replaces (new old : Node) : Prop where
  inputs : new.inputs.length = old.inputs.length
  outputs : new.outputs.length = old.outputs.length
  input : ∀ port, old.op = .input port → ∃ port', new.op = .input port' ∧ port'.name = port.name
  output : ∀ port, old.op = .output port → ∃ port', new.op = .output port'
  shaped : ∀ port, new.op = .input port → new.IsInput port

/-- Sockets are the same when they have the same place at the same node. -/
theorem Socket.eq_iff {a b : Socket} : a = b ↔ a.node = b.node ∧ a.place = b.place := by
  cases a
  cases b
  simp

namespace Graph

/-- Graphs with the same links agree in what sockets are linked to. -/
theorem source?_congr (a b : Graph) (orderly : a.tangle = none) (orderly' : b.tangle = none)
    (links : a.links = b.links) (target : Socket) : a.source? target = b.source? target := by
  unfold source? incoming
  rw [linksAt_eq_filter orderly, linksAt_eq_filter orderly', links]

/-- The sockets of nodes that are there still exist when nodes keep their sockets. -/
theorem HasOutput.mono {before after : Graph} {socket : Socket} (has : before.HasOutput socket)
    (kept : ∀ node, before.node? socket.node = some node →
      ∃ node', after.node? socket.node = some node' ∧
        node'.outputs.length = node.outputs.length) : after.HasOutput socket := by
  obtain ⟨node, found, below⟩ := has
  obtain ⟨node', found', same⟩ := kept node found
  exact ⟨node', found', by omega⟩

/-- The sockets of nodes that are there still exist when nodes keep their sockets. -/
theorem HasInput.mono {before after : Graph} {socket : Socket} (has : before.HasInput socket)
    (kept : ∀ node, before.node? socket.node = some node →
      ∃ node', after.node? socket.node = some node' ∧
        node'.inputs.length = node.inputs.length) : after.HasInput socket := by
  obtain ⟨node, found, below⟩ := has
  obtain ⟨node', found', same⟩ := kept node found
  exact ⟨node', found', by omega⟩

/-- The nodes after one is replaced. -/
theorem node?_setNode {graph : Graph} {id : Nat} {old : Node} (found : graph.node? id = some old)
    (new : Node) (other : Nat) :
    (graph.setNode id new).node? other = if id = other then some new else graph.node? other :=
  Slots.get?_set (Slots.lt_of_get? found) other new

/-- A node is given exactly when it is there. -/
theorem node_eq_ok_iff {graph : Graph} {id : Nat} {node : Node} :
    graph.node id = .ok node ↔ graph.node? id = some node := by
  unfold Graph.node
  cases graph.node? id <;> simp

/-- Replacing a node links nothing. -/
theorem Sound.source?_setNode {graph : Graph} (sound : graph.Sound) (id : Nat) (node : Node)
    (target : Socket) : (graph.setNode id node).source? target = graph.source? target :=
  source?_congr (graph.setNode id node) graph sound.orderly sound.orderly rfl target

/-- Replacing a node keeps a graph sound if the new node has all the sockets that are linked. -/
theorem Sound.setNode_of_linked {graph : Graph} (sound : graph.Sound) {id : Nat} {old new : Node}
    (found : graph.node? id = some old)
    (entered : ∀ link ∈ graph.links, link.target.node = id →
      link.target.place < new.inputs.length)
    (outputs : new.outputs.length = old.outputs.length)
    (input : ∀ port, old.op = .input port → ∃ port', new.op = .input port' ∧ port'.name = port.name)
    (output : ∀ port, old.op = .output port → ∃ port', new.op = .output port')
    (shaped : ∀ port, new.op = .input port → new.IsInput port) :
    (graph.setNode id new).Sound := by
  have node? := node?_setNode found new
  refine {
    orderly := sound.orderly
    slots := sound.slots.set (Option.isSome_iff_exists.2 ⟨old, found⟩) new
    numbers := sound.numbers
    joined := fun link mem => ?_
    single := sound.single
    inputNamed := fun entry mem => ?_
    outputNamed := fun other mem => ?_
    outputsDistinct := sound.outputsDistinct
    inputShaped := fun other node port here input => ?_ }
  · obtain ⟨leaves, receiver, received, below⟩ := sound.joined link mem
    constructor
    · refine leaves.mono fun node here => ?_
      rw [node?]
      split
      · rename_i same
        rw [← same, found, Option.some.injEq] at here
        exact ⟨new, rfl, here ▸ outputs⟩
      · exact ⟨node, here, rfl⟩
    · unfold HasInput
      rw [node?]
      split
      · rename_i same
        exact ⟨new, rfl, entered link mem same.symm⟩
      · exact ⟨receiver, received, below⟩
  · obtain ⟨node, port, here, isInput, named⟩ := sound.inputNamed entry mem
    rw [node?]
    split
    · rename_i same
      rw [← same, found, Option.some.injEq] at here
      obtain ⟨port', input', named'⟩ := input port (here ▸ isInput)
      exact ⟨new, port', rfl, input', named'.trans named⟩
    · exact ⟨node, port, here, isInput, named⟩
  · obtain ⟨node, port, here, isOutput⟩ := sound.outputNamed other mem
    rw [node?]
    split
    · rename_i same
      rw [← same, found, Option.some.injEq] at here
      obtain ⟨port', output'⟩ := output port (here ▸ isOutput)
      exact ⟨new, port', rfl, output'⟩
    · exact ⟨node, port, here, isOutput⟩
  · rw [node?] at here
    split at here
    · cases here
      exact shaped port input
    · exact sound.inputShaped other node port here input

/-- Replacing a node by one that may take its place keeps a graph sound. -/
theorem Sound.setNode {graph : Graph} (sound : graph.Sound) {id : Nat} {old new : Node}
    (found : graph.node? id = some old) (fits : new.Replaces old) :
    (graph.setNode id new).Sound := by
  refine sound.setNode_of_linked found (fun link mem same => ?_) fits.outputs fits.input fits.output
    fits.shaped
  obtain ⟨-, receiver, received, below⟩ := sound.joined link mem
  rw [same, found, Option.some.injEq] at received
  rw [fits.inputs, received]
  exact below

/-- Links of a sound graph with the same number are the same. -/
theorem Sound.eq_of_number {graph : Graph} (sound : graph.Sound) {a b : Link}
    (here : a ∈ graph.links) (there : b ∈ graph.links) (same : a.number = b.number) : a = b :=
  List.inj_on_of_nodup_map sound.numbers.used_distinct here there same

/-- Taking links of a sound graph away keeps it sound. -/
theorem Sound.dropLinks {graph : Graph} (sound : graph.Sound) (dropped : List Link)
    (linked : ∀ link ∈ dropped, link ∈ graph.links) (distinct : dropped.Nodup) :
    (graph.dropLinks dropped).Sound := by
  have numbers : (dropped.map Link.number).Nodup :=
    distinct.map_on fun a here b there same =>
      sound.eq_of_number (linked a here) (linked b there) same
  have released := sound.numbers.release numbers fun number mem => by
    obtain ⟨link, here, rfl⟩ := List.mem_map.1 mem
    exact List.mem_map_of_mem (linked link here)
  have kept : (graph.dropLinks dropped).links.map Link.number =
      (graph.links.map Link.number).filter fun number => number ∉ dropped.map Link.number := by
    simp only [Graph.dropLinks, List.filter_map]
    congr 1
    refine List.filter_congr fun link mem => ?_
    have agree : link ∈ dropped ↔ link.number ∈ dropped.map Link.number := by
      refine ⟨List.mem_map_of_mem, fun here => ?_⟩
      obtain ⟨other, there, same⟩ := List.mem_map.1 here
      exact sound.eq_of_number (linked other there) mem same ▸ there
    simp only [List.contains_eq_mem, agree, Function.comp_apply, decide_not]
  have sub : ∀ link ∈ (graph.dropLinks dropped).links, link ∈ graph.links :=
    fun link mem => (List.mem_filter.1 mem).1
  exact {
    orderly := by simp [Graph.dropLinks, sound.orderly]
    slots := sound.slots
    numbers := by rw [kept]; exact released
    joined := fun link mem => sound.joined link (sub link mem)
    single := fun a here b there => sound.single a (sub a here) b (sub b there)
    inputNamed := sound.inputNamed
    outputNamed := sound.outputNamed
    outputsDistinct := sound.outputsDistinct
    inputShaped := sound.inputShaped }

/-- What a socket is linked to after links are taken away. -/
theorem Sound.source?_dropLinks {graph : Graph} (sound : graph.Sound) {dropped : List Link}
    (linked : ∀ link ∈ dropped, link ∈ graph.links) (distinct : dropped.Nodup)
    (target : Socket) : (graph.dropLinks dropped).source? target =
      if dropped.any (fun link => link.target = target) then none else graph.source? target := by
  have later := sound.dropLinks _ linked distinct
  split
  · rename_i hit
    obtain ⟨link, mem, rfl⟩ := by simpa using hit
    rw [later.source?_eq_none_iff]
    intro other here same
    obtain ⟨there, kept⟩ := List.mem_filter.1 here
    rw [sound.single other there link (linked link mem) same] at kept
    simp [mem] at kept
  · rename_i miss
    have miss : ∀ link ∈ dropped, link.target ≠ target := by simpa using miss
    apply Option.ext
    intro source
    rw [later.source?_eq_some_iff, sound.source?_eq_some_iff]
    constructor
    · rintro ⟨link, mem, ends⟩
      exact ⟨link, (List.mem_filter.1 mem).1, ends⟩
    · rintro ⟨link, mem, left, right⟩
      exact ⟨link, List.mem_filter.2 ⟨mem, by simpa using fun here => miss link here right⟩,
        left, right⟩

/-- The link of a number of a sound graph. -/
theorem Sound.link?_eq_some_iff {graph : Graph} (sound : graph.Sound) {number : Nat} {link : Link} :
    graph.link? number = some link ↔ link ∈ graph.links ∧ link.number = number := by
  unfold link?
  constructor
  · intro found
    exact ⟨List.mem_of_find?_eq_some found, by simpa using List.find?_some found⟩
  · rintro ⟨mem, rfl⟩
    obtain ⟨first, found⟩ := Option.isSome_iff_exists.1
      (List.find?_isSome (p := fun other => other.number = link.number) |>.2 ⟨link, mem, by simp⟩)
    rw [found, sound.eq_of_number (List.mem_of_find?_eq_some found) mem
      (by simpa using List.find?_some found)]

/-- The link of a number is taken away if there is one. -/
theorem disconnect_eq_ok_iff {graph : Graph} {number : Nat} {link : Link} {after : Graph} :
    graph.disconnect number = .ok (link, after) ↔
      graph.link? number = some link ∧ after = graph.dropLinks [link] := by
  rw [disconnect_eq]
  cases found : graph.link? number with
  | none => simp
  | some other =>
    simp only [Except.ok.injEq, Prod.mk.injEq, Option.some.injEq]
    constructor
    · rintro ⟨rfl, rfl⟩; exact ⟨rfl, rfl⟩
    · rintro ⟨rfl, rfl⟩; exact ⟨rfl, rfl⟩

/-- Putting a link in front of a sound graph keeps it sound if it enters a socket that no link
enters. -/
theorem Sound.pushLink {graph : Graph} (sound : graph.Sound) {source target : Socket}
    (leaves : graph.HasOutput source) (enters : graph.HasInput target)
    (free : graph.source? target = none) : (graph.pushLink source target).Sound := by
  have taken := sound.numbers.take
  have free := sound.source?_eq_none_iff.1 free
  exact {
    orderly := by simp [Graph.pushLink, sound.orderly]
    slots := sound.slots
    numbers := taken
    joined := fun link mem => by
      rcases List.mem_cons.1 mem with rfl | mem
      · exact ⟨leaves, enters⟩
      · exact sound.joined link mem
    single := fun a here b there same => by
      rcases List.mem_cons.1 here with rfl | here <;> rcases List.mem_cons.1 there with rfl | there
      · rfl
      · exact absurd same.symm (free b there)
      · exact absurd same (free a here)
      · exact sound.single a here b there same
    inputNamed := sound.inputNamed
    outputNamed := sound.outputNamed
    outputsDistinct := sound.outputsDistinct
    inputShaped := sound.inputShaped }

/-- What a socket is linked to after a link is put in front. -/
theorem Sound.source?_pushLink {graph : Graph} (sound : graph.Sound) {source target : Socket}
    (leaves : graph.HasOutput source) (enters : graph.HasInput target)
    (free : graph.source? target = none) (other : Socket) :
    (graph.pushLink source target).source? other =
      if target = other then some source else graph.source? other := by
  have later := sound.pushLink leaves enters free
  apply Option.ext
  intro sender
  rw [later.source?_eq_some_iff]
  have links : (graph.pushLink source target).links =
      ⟨graph.linkNumbers.take.1, source, target⟩ :: graph.links := rfl
  simp only [links, List.mem_cons, exists_eq_or_imp]
  split
  · rename_i here
    subst here
    rw [Option.some.injEq]
    constructor
    · rintro (⟨rfl, -⟩ | ⟨link, mem, -, entered⟩)
      · rfl
      · exact absurd entered (sound.source?_eq_none_iff.1 free link mem)
    · rintro rfl
      exact Or.inl ⟨rfl, rfl⟩
  · rename_i apart
    rw [sound.source?_eq_some_iff]
    exact or_iff_right fun new => apart new.2

/-- The links that a link to a socket replaces. -/
theorem Sound.replaced_eq {graph : Graph} (sound : graph.Sound) (target : Socket) :
    ((graph.incoming target.node).filter fun link => link.target.place = target.place) =
      graph.links.filter fun link => link.target = target := by
  rw [sound.incoming_eq, List.filter_filter]
  refine List.filter_congr fun link _ => ?_
  simp [Socket.eq_iff, Bool.and_comm]

/-- The links that enter a socket are linked, and listed once each. -/
theorem Sound.replaced_spec {graph : Graph} (sound : graph.Sound) (target : Socket) :
    (∀ link ∈ graph.links.filter (fun link => link.target = target), link ∈ graph.links) ∧
      (graph.links.filter fun link => link.target = target).Nodup :=
  ⟨fun _ mem => (List.mem_filter.1 mem).1,
    (List.Nodup.of_map _ sound.numbers.used_distinct).filter _⟩

/-- Two sockets of a sound graph can be linked exactly when they exist. -/
theorem Sound.connect_eq_ok_iff {graph : Graph} (sound : graph.Sound) {source target : Socket}
    {after : Graph} : graph.connect source target = .ok after ↔
      (graph.HasOutput source ∧ graph.HasInput target) ∧
        after = (graph.dropLinks (graph.links.filter fun link => link.target = target)).pushLink
          source target := by
  rw [connect_eq, sound.replaced_eq, isFrayed_eq_false sound.orderly]
  unfold HasOutput HasInput Graph.node
  cases graph.node? source.node with
  | none => simp [bind, Except.bind]
  | some sender =>
    by_cases leaves : source.place < sender.outputs.length
    · cases graph.node? target.node with
      | none => simp [bind, Except.bind, leaves]
      | some receiver =>
        by_cases enters : target.place < receiver.inputs.length
        · simp [bind, Except.bind, leaves, enters, eq_comm]
        · simp [bind, Except.bind, leaves, enters]
    · simp [bind, Except.bind, leaves]

/-- What a link between two sockets does to a graph. -/
structure Connects (before after : Graph) (source target : Socket) : Prop where
  sound : after.Sound
  leaves : before.HasOutput source
  enters : before.HasInput target
  node? : ∀ id, after.node? id = before.node? id
  source? : ∀ other, after.source? other =
    if target = other then some source else before.source? other
  inputs : after.inputs = before.inputs
  outputs : after.outputs = before.outputs
  nodes : after.nodes = before.nodes
  name : after.name = before.name

/-- Linking two sockets of a sound graph links these and keeps it sound. -/
theorem Sound.connect {graph : Graph} (sound : graph.Sound) {source target : Socket}
    {after : Graph} (done : graph.connect source target = .ok after) :
    Connects graph after source target := by
  obtain ⟨⟨leaves, enters⟩, rfl⟩ := sound.connect_eq_ok_iff.1 done
  obtain ⟨linked, distinct⟩ := sound.replaced_spec target
  have dropped := sound.dropLinks _ linked distinct
  have source? := sound.source?_dropLinks linked distinct
  have free : (graph.dropLinks (graph.links.filter fun link => link.target = target)).source?
      target = none := by
    rw [source?]
    split
    · rfl
    · rename_i miss
      rw [sound.source?_eq_none_iff]
      exact fun link mem same => miss (by simpa using ⟨link, mem, same⟩)
  refine ⟨dropped.pushLink leaves enters free, leaves, enters, fun _ => rfl, fun other => ?_,
    rfl, rfl, rfl, rfl⟩
  rw [dropped.source?_pushLink leaves enters free]
  split
  · rfl
  · rename_i apart
    rw [source?, if_neg]
    simp only [List.any_filter, List.any_eq_true, Bool.and_eq_true, decide_eq_true_eq, not_exists,
      not_and]
    exact fun link _ same other' => apart (same.symm.trans other')

/-- Two sockets of a sound graph that exist can be linked. -/
theorem Sound.exists_connect {graph : Graph} (sound : graph.Sound) {source target : Socket}
    (leaves : graph.HasOutput source) (enters : graph.HasInput target) :
    ∃ after, graph.connect source target = .ok after :=
  ⟨_, sound.connect_eq_ok_iff.2 ⟨⟨leaves, enters⟩, rfl⟩⟩

/-- What the removal of a node does to a graph. -/
structure Removes (before after : Graph) (id : Nat) : Prop where
  sound : after.Sound
  found : (before.node? id).isSome = true
  node? : ∀ other, after.node? other = if id = other then none else before.node? other
  source? : ∀ target, after.source? target =
    if target.node = id then none
    else (before.source? target).filter fun source => source.node ≠ id
  inputs : after.inputs = before.inputs.filter fun _ port => port ≠ id
  outputs : after.outputs = before.outputs.filter fun port => port ≠ id
  name : after.name = before.name

/-- The links at a node of a sound graph, those that leave it first. -/
def linksOf (graph : Graph) (id : Nat) : List Link :=
  graph.outgoing id ++ (graph.incoming id).filter fun link => link.source.node ≠ id

/-- The links at a node are those that leave or enter it, listed once each. -/
theorem Sound.linksOf_spec {graph : Graph} (sound : graph.Sound) (id : Nat) :
    (∀ link, link ∈ graph.linksOf id ↔
      link ∈ graph.links ∧ (link.source.node = id ∨ link.target.node = id)) ∧
      (graph.linksOf id).Nodup := by
  have distinct : graph.links.Nodup := List.Nodup.of_map _ sound.numbers.used_distinct
  unfold linksOf
  rw [sound.outgoing_eq, sound.incoming_eq]
  constructor
  · intro link
    simp only [List.mem_append, List.mem_filter, decide_eq_true_eq, ne_eq, decide_not,
      Bool.not_eq_true', decide_eq_false_iff_not]
    tauto
  · refine List.nodup_append.2 ⟨distinct.filter _, (distinct.filter _).filter _,
      fun a here b there same => ?_⟩
    subst same
    simp only [List.mem_filter, decide_eq_true_eq, ne_eq, decide_not, Bool.not_eq_true',
      decide_eq_false_iff_not] at here there
    exact there.2 here.2

/-- A sound graph without a node and its links. -/
def withoutNode (graph : Graph) (id : Nat) : Graph :=
  { graph.dropLinks (graph.linksOf id) with
    nodes := graph.nodes.remove id
    inputs := graph.inputs.filter fun _ port => port ≠ id
    outputs := graph.outputs.filter fun port => port ≠ id }

/-- A node of a sound graph is removed with its links. -/
theorem Sound.removeNode_eq_ok_iff {graph : Graph} (sound : graph.Sound) {id : Nat} {node : Node}
    {after : Graph} : graph.removeNode id = .ok (node, after) ↔
      graph.node? id = some node ∧ after = graph.withoutNode id := by
  rw [removeNode_eq]
  unfold Graph.node Editing.result
  rw [Editing.outcome_dropNodeLinks sound.orderly]
  cases graph.node? id with
  | none => simp [bind, Except.bind]
  | some found =>
    simp only [bind, Except.bind, Except.map, Except.ok.injEq, Prod.mk.injEq, Option.some.injEq]
    refine and_congr_right fun _ => ?_
    simp only [withoutNode, linksOf, Graph.dropLinks, sound.orderly, Option.map_none]
    exact eq_comm

/-- Removing a node of a sound graph takes it away with its links and keeps the graph sound. -/
theorem Sound.removeNode {graph : Graph} (sound : graph.Sound) {id : Nat} {node : Node}
    {after : Graph} (done : graph.removeNode id = .ok (node, after)) :
    Removes graph after id := by
  obtain ⟨found, rfl⟩ := sound.removeNode_eq_ok_iff.1 done
  obtain ⟨mem_linksOf, distinct⟩ := sound.linksOf_spec id
  have dropped := sound.dropLinks _ (fun link mem => ((mem_linksOf link).1 mem).1) distinct
  have source?_dropped :=
    sound.source?_dropLinks (fun link mem => ((mem_linksOf link).1 mem).1) distinct
  have isSome : (graph.node? id).isSome = true := Option.isSome_iff_exists.2 ⟨node, found⟩
  have node? (other : Nat) : (graph.nodes.remove id).get? other =
      if id = other then none else graph.node? other := Slots.get?_remove graph.nodes id other
  have apart (link : Link) (mem : link ∈ (graph.dropLinks (graph.linksOf id)).links) :
      id ≠ link.source.node ∧ id ≠ link.target.node := by
    obtain ⟨here, kept⟩ := List.mem_filter.1 mem
    have kept : link ∉ graph.linksOf id := by simpa using kept
    rw [mem_linksOf] at kept
    tauto
  refine ⟨?_, isSome, node?, fun target => ?_, rfl, rfl, rfl⟩
  · exact {
      orderly := dropped.orderly
      slots := sound.slots.remove isSome
      numbers := dropped.numbers
      joined := fun link mem => by
        obtain ⟨leaves, enters⟩ := dropped.joined link mem
        obtain ⟨left, right⟩ := apart link mem
        refine ⟨leaves.mono fun node here => ⟨node, ?_, rfl⟩,
          enters.mono fun node here => ⟨node, ?_, rfl⟩⟩
        · exact (node? _).trans ((if_neg left).trans here)
        · exact (node? _).trans ((if_neg right).trans here)
      single := dropped.single
      inputNamed := fun entry mem => by
        obtain ⟨listed, kept⟩ := List.mem_filter.1 mem
        obtain ⟨node, port, here, input⟩ := sound.inputNamed entry listed
        have other : id ≠ entry.2 := fun same => by simp [same] at kept
        exact ⟨node, port, (node? _).trans ((if_neg other).trans here), input⟩
      outputNamed := fun other mem => by
        obtain ⟨listed, kept⟩ := List.mem_filter.1 mem
        obtain ⟨node, port, here, output⟩ := sound.outputNamed other listed
        have other : id ≠ other := fun same => by simp [same] at kept
        exact ⟨node, port, (node? _).trans ((if_neg other).trans here), output⟩
      outputsDistinct := sound.outputsDistinct.filter _
      inputShaped := fun other node port here input => by
        have here := (node? other).symm.trans here
        split at here
        · cases here
        · exact sound.inputShaped other node port here input }
  · rw [source?_congr (graph.withoutNode id) (graph.dropLinks (graph.linksOf id)) dropped.orderly
      dropped.orderly rfl, source?_dropped]
    cases linked : graph.source? target with
    | none => simp
    | some source =>
      obtain ⟨link, mem, rfl, rfl⟩ := sound.source?_eq_some_iff.1 linked
      by_cases entered : link.target.node = id
      · rw [if_pos entered, if_pos]
        simpa using ⟨link, (mem_linksOf link).2 ⟨mem, .inr entered⟩, rfl⟩
      · rw [if_neg entered]
        by_cases left : link.source.node = id
        · rw [if_pos]
          · simp [Option.filter, left]
          · simpa using ⟨link, (mem_linksOf link).2 ⟨mem, .inl left⟩, rfl⟩
        · rw [if_neg]
          · simp [Option.filter, left]
          · simp only [List.any_eq_true, decide_eq_true_eq, not_exists, not_and]
            intro other here into
            have here := (mem_linksOf other).1 here
            rw [sound.single other here.1 link mem into] at here
            tauto

/-- A node of a sound graph can be removed. -/
theorem Sound.exists_removeNode {graph : Graph} (sound : graph.Sound) {id : Nat} {node : Node}
    (found : graph.node? id = some node) :
    ∃ after, graph.removeNode id = .ok (node, after) :=
  ⟨_, sound.removeNode_eq_ok_iff.2 ⟨found, rfl⟩⟩

end Graph

end Shadeloom
