import Mathlib
import Shadeloom.Proofs.Build.Realization
import Shadeloom.Proofs.Graph.Shapes
/-!
# Nodes that feed others

A node is made for a tree, and what its value is linked to is decided only afterwards: until then the
node feeds nothing and is spared. Every link that a build makes enters a socket that nothing has
entered before, so whatever feeds something still does. Between two statements a graph without
instances of their own has no node that feeds nothing but its ports, and these are all listed.
-/
namespace Shadeloom

/-- The roles of the nodes that are ports. -/
def NodeKind.ports : List NodeKind :=
  [.namedInput, .namedOutput]

namespace Graph

/-- Whether the ports of a graph are listed as such, and its outputs have no second socket. -/
structure ListsPorts (graph : Graph) : Prop where
  input : ∀ id node, graph.node? id = some node → node.op.kind = .namedInput →
    ∃ name, graph.input? name = some id
  output : ∀ id node, graph.node? id = some node → node.op.kind = .namedOutput →
    id ∈ graph.outputs ∧ node.inputs.length ≤ 1

/-- Whether every node of a graph feeds something, but for those of some kinds and some that are
spared, and the ports of the graph are listed. -/
structure Busy (graph : Graph) (kinds : List NodeKind) (spared : List Nat) : Prop extends
    graph.Shaped, graph.ListsPorts where
  idle : ∀ id node, graph.node? id = some node → graph.Idle id →
    node.op.kind ∈ kinds ∨ id ∈ spared

variable {before after : Graph} {kinds : List NodeKind} {spared : List Nat}

/-- A node that a link leaves is not idle. -/
theorem not_idle_of_source? {graph : Graph} {target source : Socket}
    (linked : graph.source? target = some source) : ¬ graph.Idle source.node :=
  fun idle => idle target source linked rfl

/-- Ports stay listed in a graph whose nodes play the roles that they did. -/
theorem ListsPorts.of_nodes (lists : before.ListsPorts)
    (node : ∀ id new, after.node? id = some new → ∃ old, before.node? id = some old ∧
      new.op.kind = old.op.kind ∧ new.inputs.length ≤ old.inputs.length)
    (input : ∀ name id, before.input? name = some id → (after.node? id).isSome = true →
      after.input? name = some id)
    (output : ∀ id ∈ before.outputs, (after.node? id).isSome = true → id ∈ after.outputs) :
    after.ListsPorts where
  input id new found kind := by
    obtain ⟨old, found', same, -⟩ := node id new found
    obtain ⟨name, listed⟩ := lists.input id old found' (same ▸ kind)
    exact ⟨name, input name id listed (Option.isSome_iff_exists.2 ⟨new, found⟩)⟩
  output id new found kind := by
    obtain ⟨old, found', same, fewer⟩ := node id new found
    obtain ⟨listed, single⟩ := lists.output id old found' (same ▸ kind)
    exact ⟨output id listed (Option.isSome_iff_exists.2 ⟨new, found⟩), fewer.trans single⟩

/-- Ports stay listed in a graph with the same nodes and the same lists. -/
theorem ListsPorts.of_same (lists : before.ListsPorts)
    (node? : ∀ id, after.node? id = before.node? id) (inputs : after.inputs = before.inputs)
    (outputs : after.outputs = before.outputs) : after.ListsPorts :=
  lists.of_nodes (fun id new found => ⟨new, node? id ▸ found, rfl, le_rfl⟩)
    (fun name id listed _ => by rw [input?, inputs]; exact listed) fun id mem _ => outputs ▸ mem

/-- Ports stay listed when a node is added that is no port. -/
theorem ListsPorts.addNode (lists : before.ListsPorts) (sound : before.Sound) {node : Node}
    (plain : node.op.kind ∉ NodeKind.ports) : (before.addNode node).ListsPorts where
  input id new found kind := by
    rw [sound.node?_addNode] at found
    split at found
    · cases found
      exact absurd (kind ▸ by simp [NodeKind.ports]) plain
    · obtain ⟨name, listed⟩ := lists.input id new found kind
      exact ⟨name, by rw [input?, inputs_addNode]; exact listed⟩
  output id new found kind := by
    rw [sound.node?_addNode] at found
    split at found
    · cases found
      exact absurd (kind ▸ by simp [NodeKind.ports]) plain
    · rw [outputs_addNode]
      exact lists.output id new found kind

/-- An input that is asked for is listed like the others. -/
theorem AddsInput.listsPorts {name : String} {type : SocketType} {id : Nat}
    (adds : before.AddsInput after name type id) (lists : before.ListsPorts) :
    after.ListsPorts where
  input other new found kind := by
    by_cases same : other = id
    · exact ⟨name, by rw [adds.input?, if_pos rfl, same]⟩
    · rw [adds.node? other same] at found
      obtain ⟨name', listed⟩ := lists.input other new found kind
      refine ⟨name', ?_⟩
      rw [adds.input?, if_neg]
      · exact listed
      · rintro rfl
        cases known : before.node? id with
        | none => cases (adds.fresh known).1.symm.trans listed
        | some old => exact same (Option.some.inj (listed.symm.trans (adds.known old known).1))
  output other new found kind := by
    rw [adds.outputs]
    by_cases same : other = id
    · subst same
      cases known : before.node? other with
      | none =>
        rw [(adds.fresh known).2] at found
        cases found
        cases kind
      | some old =>
        rw [(adds.known old known).2] at found
        cases found
        rw [Node.kind_widened] at kind
        rw [Node.inputs_widened]
        exact lists.output other old known kind
    · rw [adds.node? other same] at found
      exact lists.output other new found kind

/-- An output that is added is listed like the others. -/
theorem AddsOutput.listsPorts {name : String} {type : SocketType} {id : Nat}
    (adds : before.AddsOutput after name type id) (lists : before.ListsPorts) :
    after.ListsPorts where
  input other new found kind := by
    rw [adds.node?] at found
    split at found
    · cases found
      cases kind
    · obtain ⟨name', listed⟩ := lists.input other new found kind
      exact ⟨name', by rw [input?, adds.inputs]; exact listed⟩
  output other new found kind := by
    rw [adds.outputs, List.mem_append]
    rw [adds.node?] at found
    split at found
    · rename_i same
      cases found
      exact ⟨.inr (by simp [same]), le_rfl⟩
    · obtain ⟨listed, single⟩ := lists.output other new found kind
      exact ⟨.inl listed, single⟩

/-- Nothing enters an output that has been added. -/
theorem AddsOutput.source?_eq_none {name : String} {type : SocketType} {id : Nat}
    (adds : before.AddsOutput after name type id) (sound : before.Sound) (place : Nat) :
    after.source? ⟨id, place⟩ = none := by
  refine (adds.source? _).trans (Option.eq_none_iff_forall_not_mem.2 fun source linked => ?_)
  have there := (sound.isSome_of_leads (leads_of_source? linked)).2
  rw [adds.fresh] at there
  cases there

/-- More nodes may be spared. -/
theorem Busy.spare (busy : before.Busy kinds spared) (id : Nat) :
    before.Busy kinds (id :: spared) :=
  { busy with idle := fun other node found idle =>
      (busy.idle other node found idle).imp_right (List.mem_cons_of_mem id) }

/-- A node that feeds something need not be spared. -/
theorem Busy.unspare {id : Nat} (busy : before.Busy kinds (id :: spared))
    (read : ¬ before.Idle id) : before.Busy kinds spared :=
  ⟨busy.toShaped, busy.toListsPorts, fun other node found idle => by
    rcases busy.idle other node found idle with kind | mem
    · exact .inl kind
    · rcases List.mem_cons.1 mem with rfl | mem
      · exact absurd idle read
      · exact .inr mem⟩

/-- Nodes stay busy in a graph in which they play the roles that they did and feed something if they
did. -/
theorem Busy.of_nodes (busy : before.Busy kinds spared) (shaped : after.Shaped)
    (lists : after.ListsPorts)
    (node : ∀ id new, after.node? id = some new →
      ∃ old, before.node? id = some old ∧ new.op.kind = old.op.kind)
    (read : ∀ id new, after.node? id = some new → after.Idle id →
      before.Idle id ∨ new.op.kind ∈ kinds) : after.Busy kinds spared where
  toShaped := shaped
  toListsPorts := lists
  idle id new found idle := by
    obtain ⟨old, found', same⟩ := node id new found
    rcases read id new found idle with idle' | kind
    · rw [same]
      exact busy.idle id old found' idle'
    · exact .inl kind

/-- A link to a socket that nothing has entered keeps nodes busy, and the node that it leaves need
not be spared any more. -/
theorem Busy.connect {source target : Socket} (busy : before.Busy kinds (source.node :: spared))
    (connects : before.Connects after source target) (free : before.source? target = none) :
    after.Busy kinds spared := by
  have kept (other from_ : Socket) (linked : before.source? other = some from_) :
      after.source? other = some from_ := by
    rw [connects.source?, if_neg]
    · exact linked
    · rintro rfl
      cases free.symm.trans linked
  have linked : after.source? target = some source := (connects.source? target).trans (if_pos rfl)
  refine Busy.unspare ?_ (not_idle_of_source? linked)
  exact busy.of_nodes
    ⟨connects.sound, fun id node found => busy.nodes id node (connects.node? id ▸ found)⟩
    (busy.toListsPorts.of_same connects.node? connects.inputs connects.outputs)
    (fun id new found => ⟨new, connects.node? id ▸ found, rfl⟩)
    fun id new found idle => .inl fun other from_ linked => idle other from_ (kept other from_ linked)

/-- A node that is added and is no port is spared. -/
theorem Busy.addNode (busy : before.Busy kinds spared) {node : Node} (shaped : node.Shaped)
    (plain : node.op.kind ∉ NodeKind.ports) :
    (before.addNode node).Busy kinds (before.nextNode :: spared) where
  toShaped := busy.toShaped.addNode shaped fun port input => by
    rw [input] at plain
    exact absurd (.head _) plain
  toListsPorts := busy.toListsPorts.addNode busy.toSound plain
  idle id new found idle := by
    rw [busy.node?_addNode] at found
    split at found
    · rename_i same
      exact .inr (by simp [same])
    · refine (busy.spare before.nextNode).idle id new found fun other from_ linked => ?_
      exact idle other from_ ((busy.source?_addNode other).trans linked)

/-- Asking for an input keeps nodes busy where inputs need not be. -/
theorem Busy.addInput (busy : before.Busy NodeKind.ports spared) (name : String)
    (type : SocketType) : (before.addInput name type).2.Busy NodeKind.ports spared where
  toShaped := busy.toShaped.addInput name type
  toListsPorts := (busy.toSound.addInput name type).listsPorts busy.toListsPorts
  idle other new found idle := by
    have adds := busy.toSound.addInput name type
    have idle' : before.Idle other := fun target source linked =>
      idle target source ((adds.source? target).trans linked)
    by_cases same : other = (before.addInput name type).1
    · subst same
      cases known : before.node? (before.addInput name type).1 with
      | none =>
        rw [(adds.fresh known).2] at found
        cases found
        exact .inl (.head _)
      | some old =>
        rw [(adds.known old known).2] at found
        cases found
        rw [Node.kind_widened]
        exact busy.idle _ old known idle'
    · rw [adds.node? other same] at found
      exact busy.idle other new found idle'

/-- Adding an output keeps nodes busy where outputs need not be. -/
theorem Busy.addOutput (busy : before.Busy NodeKind.ports spared) (name : String)
    (type : SocketType) : (before.addOutput name type).2.Busy NodeKind.ports spared where
  toShaped := busy.toShaped.addOutput name type
  toListsPorts := (busy.toSound.addOutput name type).listsPorts busy.toListsPorts
  idle other new found idle := by
    have adds := busy.toSound.addOutput name type
    rw [adds.node?] at found
    split at found
    · cases found
      exact .inl (.tail _ (.head _))
    · refine busy.idle other new found fun target source linked => ?_
      exact idle target source ((adds.source? target).trans linked)

/-- An empty graph has no node that feeds nothing. -/
theorem busy_empty (name : String) (kinds : List NodeKind) : (empty name).Busy kinds [] := by
  have vacant (id : Nat) (node : Node) : (empty name).node? id ≠ some node := by
    simp [empty, node?, Slots.empty, Slots.get?]
  exact {
    toShaped := shaped_empty name
    input := fun id node found => absurd found (vacant id node)
    output := fun id node found => absurd found (vacant id node)
    idle := fun id node found => absurd found (vacant id node) }

end Graph

namespace Recipe

variable {library : Library} {e : Expr} {recipe : Recipe}

/-- A recipe makes no port. -/
theorem kind_notMem_ports (planned : Plan.of library e = .ok (.make recipe)) :
    recipe.node.op.kind ∉ NodeKind.ports := by
  rcases isPlain_or_isInstance planned with plain | ⟨group, definition, -, node⟩
  · obtain ⟨op, node, isPlain⟩ := plain.node
    rw [node]
    show op.kind ∉ NodeKind.ports
    have inner := isPlain.1
    cases op <;> first | (cases inner; done) | (simp [NodeOp.kind, NodeKind.ports])
  · rw [node]
    show NodeKind.groupInstance ∉ NodeKind.ports
    decide

/-- A recipe makes a node of the shape of its operation. -/
theorem shaped_node (planned : Plan.of library e = .ok (.make recipe)) : recipe.node.Shaped := by
  rcases isPlain_or_isInstance planned with plain | ⟨group, definition, -, node⟩
  · obtain ⟨op, node, -⟩ := plain.node
    exact node ▸ Node.shaped_ofOp op
  · rw [node]
    exact ⟨nofun, nofun⟩

/-- The operands of an instance go to different sockets. -/
theorem nodup_places_ofGroup {function group : String} {operands : List Expr}
    (made : ofGroup library function group operands = .ok recipe) :
    (recipe.operands.map Prod.fst).Nodup := by
  obtain ⟨definition, -, -, rfl⟩ := ofGroup_eq_ok made
  have places := places_inOrder (.group group) 0 operands 0
  show (((operands.zipIdx 0).map Prod.swap).map Prod.fst).Nodup
  rw [show ((operands.zipIdx 0).map Prod.swap).map Prod.fst = List.range' 0 operands.length from
    places]
  exact List.nodup_range'

/-- The operands of a recipe go to different sockets. -/
theorem nodup_places (planned : Plan.of library e = .ok (.make recipe)) :
    (recipe.operands.map Prod.fst).Nodup := by
  rcases isPlain_or_ofGroup planned with plain | ⟨name, group, operands, made⟩
  · exact plain.distinct
  · exact nodup_places_ofGroup made

end Recipe

namespace Scope

/-- Whether a scope that is being built has no instances that are called by a name, and its nodes
feed something but for its ports and some that are spared. -/
structure Busy (scope : Scope) (spared : List Nat) : Prop where
  graph : scope.graph.Busy NodeKind.ports spared
  instances : ∀ name, scope.instances.get? name = none

variable {library : Library} {held spared : List Nat} {before after : Scope}

/-- An empty scope has no node that feeds nothing. -/
theorem busy_empty (name : String) : (empty name).Busy [] :=
  ⟨Graph.busy_empty name _, fun name => by simp [empty]⟩

/-- The vector of an input is split by a node that may feed nothing. -/
theorem Busy.split (busy : before.Busy spared) (tidy : before.Tidy library held) {name : String}
    {input id : Nat} (offers : before.Offers held input)
    (done : before.split name input = .ok (id, after)) : after.Busy (id :: spared) := by
  obtain ⟨-, rfl⟩ | ⟨-, rfl, graph, -, connects, rfl⟩ := tidy.split_eq_ok offers done
  · exact ⟨busy.graph.spare id, busy.instances⟩
  · have start := busy.graph.addNode (Node.shaped_ofOp .separateXyz) (by decide)
    exact ⟨Graph.Busy.connect (start.spare input) connects (source?_nextNode tidy _ 0),
      busy.instances⟩

/-- What a variable is read from may feed nothing. -/
theorem Busy.readVariable (busy : before.Busy spared) (tidy : before.Tidy library held)
    {v : Variable} {socket : Socket} (done : before.readVariable v = .ok (socket, after)) :
    after.Busy (socket.node :: spared) := by
  obtain ⟨name, -, read, -⟩ | ⟨-, defaults, -, type, input, asked, asks, read⟩ :=
    readVariable_eq_ok done
  · rw [Scope.instanceOutput, busy.instances] at read
    cases read
  · obtain ⟨advances, -, -, offers⟩ := (tidy.withDefaults defaults).tidy.addInput v.name type
    have listed : (Scope.addInput { before with defaults } v.name type).2.Busy spared := by
      refine ⟨busy.graph.addInput v.name type, fun name => ?_⟩
      rw [advances.instances]
      exact busy.instances name
    rw [asks] at advances offers listed
    obtain ⟨-, -, rfl, rfl⟩ | ⟨-, -, rfl, rfl⟩ | ⟨-, -, id, -, -, -, -, rfl, split⟩ := read
    · exact ⟨listed.graph.spare _, listed.instances⟩
    · exact ⟨listed.graph.spare _, listed.instances⟩
    · exact listed.split advances.tidy offers split

/-- Keeping the socket of a tree changes no node. -/
theorem Busy.remember (busy : before.Busy spared) (reuse : Bool) (e : Expr) (socket : Socket) :
    (before.remember reuse e socket).Busy spared := by
  unfold Scope.remember
  split
  · exact ⟨busy.graph, busy.instances⟩
  · exact busy

end Scope

section

variable {library : Library} {reuse : Bool}

/-- What is shown of every step of a build in a tidy scope, where each link enters a socket that
nothing has entered, holds of the trees that are built and of the nodes that are fed where nothing
has entered them. -/
theorem lower_free_induct (runnable : Library.Runnable library)
    {lowers : List Nat → Expr → Scope → Socket → Scope → Prop}
    {feeds : List Nat → List (Nat × Expr) → Nat → Scope → Scope → Prop}
    (remembered : ∀ held e scope socket, scope.Tidy library held →
      scope.remembered? reuse e = some socket → lowers held e scope socket scope)
    (read : ∀ held v scope socket after, scope.Tidy library held →
      scope.remembered? reuse (.var v) = none → scope.readVariable v = .ok (socket, after) →
        lowers held (.var v) scope socket (after.remember reuse (.var v) socket))
    (make : ∀ held e scope recipe fed, scope.Tidy library held →
      scope.remembered? reuse e = none → Plan.of library e = .ok (.make recipe) →
        feeds held recipe.operands scope.graph.nextNode (scope.addNode recipe.node) fed →
          lowers held e scope ⟨scope.graph.nextNode, recipe.output⟩
            (fed.remember reuse e ⟨scope.graph.nextNode, recipe.output⟩))
    (nil : ∀ held id scope, feeds held [] id scope scope)
    (cons : ∀ held place e rest id scope source built linked after, scope.Tidy library (id :: held) →
      Scope.Advances library (id :: held) [] scope built → source.node ∉ id :: held →
        built.graph.source? ⟨id, place⟩ = none → built.connect source ⟨id, place⟩ = .ok linked →
          lowers (id :: held) e scope source built → feeds held rest id linked after →
            feeds held ((place, e) :: rest) id scope after) :
    (∀ held e scope socket after, scope.Tidy library held →
      lower library reuse e scope = .ok (socket, after) → lowers held e scope socket after) ∧
    ∀ held operands id scope after, scope.Tidy library (id :: held) →
      (operands.map Prod.fst).Nodup →
        (∀ operand ∈ operands, scope.graph.source? ⟨id, operand.1⟩ = none) →
          feed library reuse operands id scope = .ok after →
            feeds held operands id scope after := by
  have both := @lower_tidy_induct library reuse runnable lowers
    (fun held operands id scope after => (operands.map Prod.fst).Nodup →
      (∀ operand ∈ operands, scope.graph.source? ⟨id, operand.1⟩ = none) →
        feeds held operands id scope after)
    remembered read ?make (fun held id scope _ _ => nil held id scope) ?cons
  · exact ⟨both.1, fun held operands id scope after tidy distinct free done =>
      both.2 held operands id scope after tidy done distinct free⟩
  case make =>
    intro held e scope recipe fed tidy fresh planned feeds
    exact make held e scope recipe fed tidy fresh planned
      (feeds (Recipe.nodup_places planned)
        fun operand _ => source?_nextNode tidy recipe.node operand.1)
  case cons =>
    intro held place e rest id scope source built linked after tidy advances offers links first others
      distinct free
    rw [List.map_cons, List.nodup_cons] at distinct
    obtain ⟨-, connects, -⟩ := advances.tidy.connect offers (by simp) links
    -- Building the operand links nothing into the node that is being fed.
    have still (place : Nat) :
        built.graph.source? ⟨id, place⟩ = scope.graph.source? ⟨id, place⟩ :=
      advances.grows.source? ⟨id, place⟩ (tidy.idle id (by simp)).1 (by simp)
    refine cons held place e rest id scope source built linked after tidy advances offers
      ((still place).trans (free (place, e) (by simp))) links first
      (others distinct.2 fun operand mem => ?_)
    rw [connects.source?, if_neg, still]
    · exact free operand (by simp [mem])
    · intro same
      have places : place = operand.1 := (Socket.eq_iff.1 same).2
      have listed : operand.1 ∈ rest.map Prod.fst := List.mem_map_of_mem mem
      exact distinct.1 (places ▸ listed)

/-- What building a tree leaves: the node of its value may feed nothing. -/
def LowerBusies (library : Library) (reuse : Bool) (e : Expr) (scope : Scope) : Prop :=
  ∀ held spared socket after, scope.Tidy library held → scope.Busy spared →
    lower library reuse e scope = .ok (socket, after) → after.Busy (socket.node :: spared)

/-- What feeding a node leaves: the nodes of the operands feed this one. -/
def FeedBusies (library : Library) (reuse : Bool) (operands : List (Nat × Expr)) (id : Nat)
    (scope : Scope) : Prop :=
  ∀ held spared after, scope.Tidy library (id :: held) → scope.Busy spared →
    (operands.map Prod.fst).Nodup →
      (∀ operand ∈ operands, scope.graph.source? ⟨id, operand.1⟩ = none) →
        feed library reuse operands id scope = .ok after → after.Busy spared

/-- Building a tree leaves no node that feeds nothing but the one of its value, and feeding a node
leaves none. -/
theorem lower_busies (runnable : Library.Runnable library) (reuse : Bool) :
    (∀ e scope, LowerBusies library reuse e scope) ∧
      ∀ operands id scope, FeedBusies library reuse operands id scope := by
  have both := @lower_free_induct library reuse runnable
    (fun _ _ scope socket after => ∀ spared, scope.Busy spared → after.Busy (socket.node :: spared))
    (fun _ _ _ scope after => ∀ spared, scope.Busy spared → after.Busy spared)
    ?remembered ?read ?make ?nil ?cons
  · exact ⟨fun e scope held spared socket after tidy busy done =>
        both.1 held e scope socket after tidy done spared busy,
      fun operands id scope held spared after tidy busy distinct free done =>
        both.2 held operands id scope after tidy distinct free done spared busy⟩
  case remembered =>
    intro held e scope socket tidy found spared busy
    exact ⟨busy.graph.spare _, busy.instances⟩
  case read =>
    intro held v scope socket after tidy fresh reads spared busy
    exact (busy.readVariable tidy reads).remember reuse (.var v) socket
  case make =>
    intro held e scope recipe fed tidy fresh planned busies spared busy
    have start : (scope.addNode recipe.node).Busy (scope.graph.nextNode :: spared) :=
      ⟨busy.graph.addNode (Recipe.shaped_node planned) (Recipe.kind_notMem_ports planned),
        busy.instances⟩
    exact (busies _ start).remember reuse e _
  case nil =>
    intro held id scope spared busy
    exact busy
  case cons =>
    intro held place e rest id scope source built linked after tidy advances offers free links first
      others spared busy
    obtain ⟨linking, connects, -⟩ := advances.tidy.connect offers (by simp) links
    have busy' := first spared busy
    refine others spared ⟨busy'.graph.connect connects free, fun name => ?_⟩
    rw [linking.instances]
    exact busy'.instances name

end

end Shadeloom
