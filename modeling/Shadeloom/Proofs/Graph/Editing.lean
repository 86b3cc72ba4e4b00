import Mathlib
import Shadeloom.Graph.Order
import Shadeloom.Proofs.Results
/-!
# Edits in place

What steps that edit a graph in place make of it, and what they leave of it when they are refused. A
step checks what it is given before it changes anything, so a step that is refused leaves the graph
as it was; only the links of a node in a tangle may lead astray after some have been taken away.
-/
namespace Shadeloom

namespace Node

/-- A named input that is changed to another type in place is the one with that type. -/
theorem retypeInput_eq (type : SocketType) (node : Node) : retypeInput type node =
    ((node.retypeInput? type).isSome, (node.retypeInput? type).getD node) := by
  obtain ⟨op, inputs, outputs, label⟩ := node
  cases op <;> rfl

/-- A named input that gets another default in place is the one with that default. -/
theorem setPortDefault_eq (value : Value) (node : Node) : setPortDefault value node =
    ((node.setPortDefault? value).isSome, (node.setPortDefault? value).getD node) := by
  obtain ⟨op, inputs, outputs, label⟩ := node
  cases op <;> rfl

/-- A port that is shown or hidden in place is the one that is. -/
theorem setExposed_eq (exposed : Bool) (node : Node) : setExposed exposed node =
    ((node.setExposed? exposed).isSome, (node.setExposed? exposed).getD node) := by
  obtain ⟨op, inputs, outputs, label⟩ := node
  cases op <;> rfl

end Node

namespace Graph

/-- Taking links away one by one takes them away. -/
theorem dropLinks_cons (graph : Graph) (link : Link) (rest : List Link) :
    (graph.dropLinks [link]).dropLinks rest = graph.dropLinks (link :: rest) := by
  unfold dropLinks
  ext1
  · rfl
  · rfl
  · simp only [List.filter_filter]
    refine List.filter_congr fun other _ => ?_
    simp [Bool.and_comm]
  · rfl
  · simp only [Option.map_map]
    rfl
  · rfl
  · rfl

/-- Taking no links away changes nothing. -/
theorem dropLinks_nil (graph : Graph) : graph.dropLinks [] = graph := by
  unfold dropLinks
  ext1
  · rfl
  · rfl
  · simp
  · rfl
  · cases graph.tangle <;> rfl
  · rfl
  · rfl

/-- Taking links away in two parts takes them all away. -/
theorem dropLinks_append (graph : Graph) (first rest : List Link) :
    (graph.dropLinks first).dropLinks rest = graph.dropLinks (first ++ rest) := by
  induction first generalizing graph with
  | nil => rw [dropLinks_nil, List.nil_append]
  | cons link first ih => rw [← dropLinks_cons, ih, dropLinks_cons, List.cons_append]

/-- Replacing a node by itself changes nothing. -/
theorem setNode_self {graph : Graph} {id : Nat} {node : Node} (found : graph.node? id = some node) :
    graph.setNode id node = graph := by
  have cell : graph.nodes.cells[id]? = some (some node) := by
    have joined : graph.nodes.cells[id]?.join = some node := found
    cases inside : graph.nodes.cells[id]? with
    | none => rw [inside] at joined; cases joined
    | some content => rw [inside] at joined; exact congrArg some joined
  obtain ⟨below, content⟩ := List.getElem?_eq_some_iff.1 cell
  have same : graph.nodes.set id node = graph.nodes := by
    unfold Slots.set
    rw [← content, List.set_getElem_self]
  unfold setNode
  rw [same]

/-- Changes a port in a way that not every node allows. -/
def changeNode (graph : Graph) (id : Nat) (change? : Node → Option Node) :
    Except GraphError Graph := do
  match change? (← graph.node id) with
  | some changed => .ok (graph.setNode id changed)
  | none => .error (.notAPort id)

end Graph

namespace Editing

variable {α β : Type} {graph : Graph} {first : Editing α} {next : α → Editing β}

/-- Steps go on from what others give and from the graph that they leave. -/
theorem run_bind_ok {a : α} {between : Graph} (done : first graph = .ok a between) :
    (first >>= next) graph = next a between := by
  show EStateM.bind first next graph = _
  unfold EStateM.bind
  rw [done]

/-- Steps do not go on after others that are refused. -/
theorem run_bind_error {error : GraphError} {between : Graph}
    (refused : first graph = .error error between) :
    (first >>= next) graph = .error error between := by
  show EStateM.bind first next graph = _
  unfold EStateM.bind
  rw [refused]

/-- What steps give and leave is what the second part makes of what the first one gives and
leaves. -/
theorem outcome_bind (first : Editing α) (next : α → Editing β) (graph : Graph) :
    (first >>= next).outcome graph =
      first.outcome graph >>= fun done => (next done.1).outcome done.2 := by
  unfold outcome
  cases done : first graph with
  | ok a between => rw [run_bind_ok done]; rfl
  | error error between => rw [run_bind_error done]; rfl

/-- What steps leave is what the second part leaves of what the first one gives and leaves. -/
theorem result_bind (first : Editing α) (next : α → Editing β) (graph : Graph) :
    (first >>= next).result graph =
      first.outcome graph >>= fun done => (next done.1).result done.2 := by
  unfold result
  rw [outcome_bind, bind_map_eq]

/-- Steps whose gift is not used leave what they leave. -/
theorem result_discard (steps : Editing α) (graph : Graph) :
    (discard steps).result graph = steps.result graph := by
  have run : discard steps graph = EStateM.map (fun _ => ()) steps graph := rfl
  unfold result outcome
  rw [run]
  unfold EStateM.map
  cases steps graph <;> rfl

/-- Looking at a graph leaves it. -/
theorem outcome_get (graph : Graph) : (get : Editing Graph).outcome graph = .ok (graph, graph) :=
  rfl

/-- A node is looked up in place. -/
theorem run_node (id : Nat) (graph : Graph) : node id graph =
    match graph.node? id with
    | some node => .ok node graph
    | none => .error (.nodeNotFound id) graph := by
  have run : node id graph = (match graph.node? id with
    | some node => pure node
    | none => throw (.nodeNotFound id) : Editing Node) graph := rfl
  rw [run]
  cases graph.node? id <;> rfl

/-- Looking a node up leaves the graph. -/
theorem outcome_node (id : Nat) (graph : Graph) :
    (node id).outcome graph = (graph.node id).map fun node => (node, graph) := by
  unfold outcome Graph.node
  rw [run_node]
  cases graph.node? id <;> rfl

/-- Checking a socket leaves the graph. -/
theorem outcome_checkSocket (socket : Socket) (available : Nat) (side : Side) (graph : Graph) :
    (checkSocket socket available side).outcome graph =
      if socket.place < available then .ok ((), graph)
      else .error (.socketOutOfRange socket available side) := by
  unfold checkSocket
  split <;> rfl

/-- Links are taken away one after the other, which is never refused. -/
theorem run_dropLinks (dropped : List Link) (graph : Graph) :
    dropLinks dropped graph = .ok () (graph.dropLinks dropped) := by
  induction dropped generalizing graph with
  | nil => rw [Graph.dropLinks_nil]; rfl
  | cons link rest ih => rw [← Graph.dropLinks_cons, ← ih]; rfl

/-- Links are taken away one after the other, which is never refused. -/
theorem outcome_dropLinks (dropped : List Link) (graph : Graph) :
    (dropLinks dropped).outcome graph = .ok ((), graph.dropLinks dropped) := by
  unfold outcome
  rw [run_dropLinks]

/-- A port is changed in place if its node allows that. -/
theorem result_changePort {change : StateM Node Bool} {change? : Node → Option Node}
    (same : ∀ node, change node = ((change? node).isSome, (change? node).getD node)) (id : Nat)
    (graph : Graph) : (changePort id change).result graph = graph.changeNode id change? := by
  unfold changePort Graph.changeNode
  rw [result_bind, outcome_node, map_bind_eq]
  refine bind_congr fun node => ?_
  rw [show change.run node = _ from same node]
  cases change? node <;> rfl

/-- A list of a tangle is cleared from its first link on. -/
theorem result_clearList_succ (side : Side) (id steps : Nat) (graph : Graph) :
    (clearList side id (steps + 1)).result graph =
      match graph.tangle.bind fun tangle => tangle.first side id with
      | none => .ok graph
      | some number =>
        match graph.link? number with
        | none => .error (.strayLink id)
        | some link => (clearList side id steps).result (graph.dropLinks [link]) := by
  simp only [clearList, result_bind, outcome_get, ok_bind]
  cases graph.tangle.bind fun tangle => tangle.first side id with
  | none => rfl
  | some number =>
    simp only [result_bind, outcome_get, ok_bind]
    cases graph.link? number <;> rfl

/-- The links of a node are taken away, those that leave it first. -/
theorem outcome_dropNodeLinks (orderly : graph.tangle = none) (id : Nat) :
    (dropNodeLinks id).outcome graph = .ok ((), graph.dropLinks (graph.outgoing id ++
      (graph.incoming id).filter fun link => link.source.node ≠ id)) := by
  have entering : (graph.dropLinks (graph.outgoing id)).incoming id =
      (graph.incoming id).filter fun link => link.source.node ≠ id := by
    have orderly' (dropped : List Link) : (graph.dropLinks dropped).tangle = none := by
      simp [Graph.dropLinks, orderly]
    unfold Graph.incoming Graph.outgoing
    rw [Graph.linksAt_eq_filter (orderly' _), Graph.linksAt_eq_filter orderly,
      Graph.linksAt_eq_filter orderly]
    simp only [Graph.dropLinks, List.filter_filter]
    refine List.filter_congr fun link mem => ?_
    by_cases left : link.source.node = id <;> simp [mem, Link.nodeAt, left]
  simp only [dropNodeLinks, outcome_bind, outcome_get, ok_bind, orderly, outcome_dropLinks]
  rw [← Graph.dropLinks_append, entering]

/-- The lists of a node in a tangle are cleared, that of the links which leave it first. -/
theorem result_dropNodeLinks_tangled {tangle : Tangle} (tangled : graph.tangle = some tangle)
    (id : Nat) : (dropNodeLinks id).result graph =
      (clearList .output id (graph.links.length + 1)).result graph >>=
        (clearList .input id (graph.links.length + 1)).result := by
  simp only [dropNodeLinks, result_bind, outcome_get, ok_bind, tangled]
  exact (map_bind_eq _ Prod.snd _).symm

end Editing

namespace Graph

/-- Two sockets are linked when they are there, and the links of the second one are followed. -/
theorem connect_eq (graph : Graph) (source target : Socket) :
    graph.connect source target = graph.node source.node >>= fun sender =>
      if source.place < sender.outputs.length then graph.node target.node >>= fun receiver =>
        if target.place < receiver.inputs.length then
          if graph.isFrayed .input target.node then .error (.strayLink target.node)
          else .ok ((graph.dropLinks ((graph.incoming target.node).filter fun link =>
            link.target.place = target.place)).pushLink source target)
        else .error (.socketOutOfRange target receiver.inputs.length .input)
      else .error (.socketOutOfRange source sender.outputs.length .output) := by
  simp only [connect, Editing.connect, Editing.result_bind, Editing.outcome_node, map_bind_eq,
    Editing.outcome_checkSocket]
  refine bind_congr fun sender => ?_
  by_cases leaves : source.place < sender.outputs.length
  · simp only [leaves, if_true, ok_bind]
    refine bind_congr fun receiver => ?_
    by_cases enters : target.place < receiver.inputs.length
    · simp only [enters, if_true, ok_bind, Editing.outcome_get]
      cases graph.isFrayed .input target.node with
      | true => rfl
      | false =>
        simp only [Bool.false_eq_true, if_false, Editing.result_bind, Editing.outcome_get, ok_bind,
          Editing.outcome_dropLinks]
        rfl
    · simp only [enters, if_false]
      rfl
  · simp only [leaves, if_false]
    rfl

/-- A link is taken away if there is one. -/
theorem disconnect_eq (graph : Graph) (number : Nat) : graph.disconnect number =
    match graph.link? number with
    | some link => .ok (link, graph.dropLinks [link])
    | none => .error (.linkNotFound number) := by
  simp only [disconnect, Editing.disconnect, Editing.outcome_bind, Editing.outcome_get, ok_bind]
  cases graph.link? number <;> rfl

/-- The default of a socket is set if the socket is there. -/
theorem setSocketDefault_eq (graph : Graph) (socket : Socket) (value : Value) :
    graph.setSocketDefault socket value = graph.node socket.node >>= fun node =>
      if socket.place < node.inputs.length then
        .ok (graph.setNode socket.node (node.setInputDefault socket.place value))
      else .error (.socketOutOfRange socket node.inputs.length .input) := by
  simp only [setSocketDefault, Editing.setSocketDefault, Editing.result_bind, Editing.outcome_node,
    map_bind_eq, Editing.outcome_checkSocket]
  refine bind_congr fun node => ?_
  split <;> rfl

/-- A node is taken away after its links. -/
theorem removeNode_eq (graph : Graph) (id : Nat) : graph.removeNode id =
    graph.node id >>= fun node => (Editing.dropNodeLinks id).result graph >>= fun cleared =>
      .ok (node, { cleared with
        nodes := cleared.nodes.remove id
        tangle := cleared.tangle.map fun tangle => tangle.vacate id cleared.nodes.freed.head?
        inputs := cleared.inputs.filter fun _ port => port ≠ id
        outputs := cleared.outputs.filter fun port => port ≠ id }) := by
  simp only [removeNode, Editing.removeNode, Editing.outcome_bind, Editing.outcome_node,
    map_bind_eq, Editing.result]
  rfl

/-- A port is shown or hidden if the node is one. -/
theorem setExposed_eq (graph : Graph) (id : Nat) (exposed : Bool) :
    graph.setExposed id exposed = graph.changeNode id fun node => node.setExposed? exposed :=
  Editing.result_changePort (Node.setExposed_eq exposed) id graph

/-- The type of an input is changed if the node is one. -/
theorem setInputType_eq (graph : Graph) (id : Nat) (type : SocketType) :
    graph.setInputType id type = graph.changeNode id fun node => node.retypeInput? type :=
  Editing.result_changePort (Node.retypeInput_eq type) id graph

/-- The default of an input is changed if the node is one. -/
theorem setInputDefault_eq (graph : Graph) (id : Nat) (value : Value) :
    graph.setInputDefault id value = graph.changeNode id fun node => node.setPortDefault? value :=
  Editing.result_changePort (Node.setPortDefault_eq value) id graph

end Graph

namespace Editing

variable {α β : Type} {graph : Graph} {first : Editing α} {next : α → Editing β}

/-- Whether steps only look at a graph, carried out or refused. -/
def Looks (steps : Editing α) : Prop :=
  ∀ graph, (∃ a, steps graph = .ok a graph) ∨ ∃ error, steps graph = .error error graph

/-- Whether steps are never refused. -/
def Succeeds (steps : Editing α) : Prop :=
  ∀ graph, ∃ a after, steps graph = .ok a after

/-- Whether steps leave a graph as it is if they are refused. -/
def Spares (steps : Editing α) (graph : Graph) : Prop :=
  ∀ error after, steps graph = .error error after → after = graph

/-- Steps are not refused if neither part is. -/
theorem Succeeds.bind (early : first.Succeeds) (late : ∀ a, (next a).Succeeds) :
    (first >>= next).Succeeds := by
  intro graph
  obtain ⟨a, between, done⟩ := early graph
  rw [run_bind_ok done]
  exact late a between

/-- Nothing is done without a refusal. -/
theorem succeeds_pure (a : α) : (pure a : Editing α).Succeeds :=
  fun graph => ⟨a, graph, rfl⟩

/-- A graph is changed without a refusal. -/
theorem succeeds_modify (change : Graph → Graph) : (modify change : Editing Unit).Succeeds :=
  fun graph => ⟨(), change graph, rfl⟩

/-- Links are taken away without a refusal. -/
theorem succeeds_dropLinks (dropped : List Link) : (dropLinks dropped).Succeeds :=
  fun graph => ⟨(), graph.dropLinks dropped, run_dropLinks dropped graph⟩

/-- Looking a node up only looks at the graph. -/
theorem looks_node (id : Nat) : (node id).Looks := by
  intro graph
  rw [run_node]
  cases graph.node? id with
  | none => exact .inr ⟨_, rfl⟩
  | some node => exact .inl ⟨node, rfl⟩

/-- Checking a socket only looks at the graph. -/
theorem looks_checkSocket (socket : Socket) (available : Nat) (side : Side) :
    (checkSocket socket available side).Looks := by
  intro graph
  unfold checkSocket
  split
  · exact .inl ⟨(), rfl⟩
  · exact .inr ⟨_, rfl⟩

/-- A refusal only looks at the graph. -/
theorem looks_throw (error : GraphError) : (throw error : Editing α).Looks :=
  fun _ => .inr ⟨error, rfl⟩

/-- Steps that are never refused spare a graph. -/
theorem Succeeds.spares {steps : Editing α} (succeeds : steps.Succeeds) (graph : Graph) :
    steps.Spares graph := by
  intro error after refused
  obtain ⟨a, done, carriedOut⟩ := succeeds graph
  cases carriedOut.symm.trans refused

/-- Steps that only look at a graph spare it. -/
theorem Looks.spares {steps : Editing α} (looks : steps.Looks) (graph : Graph) :
    steps.Spares graph := by
  intro error after refused
  rcases looks graph with ⟨a, done⟩ | ⟨fault, done⟩
  · cases done.symm.trans refused
  · cases done.symm.trans refused
    rfl

/-- Steps after a look at a graph spare it if what follows does. -/
theorem Looks.spares_bind (looks : first.Looks)
    (late : ∀ a, first graph = .ok a graph → (next a).Spares graph) :
    (first >>= next).Spares graph := by
  intro error after refused
  rcases looks graph with ⟨a, done⟩ | ⟨fault, done⟩
  · rw [run_bind_ok done] at refused
    exact late a done error after refused
  · rw [run_bind_error done] at refused
    cases refused
    rfl

/-- Steps before others that are never refused spare a graph if they do so alone. -/
theorem Spares.bind (early : first.Spares graph) (late : ∀ a, (next a).Succeeds) :
    (first >>= next).Spares graph := by
  intro error after refused
  cases done : first graph with
  | error fault between =>
    rw [run_bind_error done] at refused
    cases refused
    exact early _ _ done
  | ok a between =>
    rw [run_bind_ok done] at refused
    obtain ⟨b, last, carriedOut⟩ := late a between
    cases carriedOut.symm.trans refused

/-- Steps whose gift is not used spare a graph if they do so with it. -/
theorem Spares.discard {steps : Editing α} (spares : steps.Spares graph) :
    (discard steps : Editing Unit).Spares graph := by
  intro error after refused
  have run : EStateM.map (fun _ => ()) steps graph = .error error after := refused
  unfold EStateM.map at run
  cases done : steps graph with
  | ok a between => rw [done] at run; cases run
  | error fault between =>
    rw [done] at run
    cases run
    exact spares _ _ done

/-- Steps that only look at a graph first spare it if the rest does. -/
theorem spares_get {next : Graph → Editing β} (late : (next graph).Spares graph) :
    ((get : Editing Graph) >>= next).Spares graph :=
  late

/-- A link that is refused leaves the graph as it was. -/
theorem spares_connect (source target : Socket) (graph : Graph) :
    (connect source target).Spares graph := by
  refine (looks_node _).spares_bind fun sender _ => ?_
  refine (looks_checkSocket _ _ _).spares_bind fun _ _ => ?_
  refine (looks_node _).spares_bind fun receiver _ => ?_
  refine (looks_checkSocket _ _ _).spares_bind fun _ _ => spares_get ?_
  show (if graph.isFrayed .input target.node then _ else _ : Editing Nat).Spares graph
  split
  · exact (looks_throw _).spares_bind fun _ impossible => nomatch impossible
  · refine spares_get (((succeeds_dropLinks _).bind fun _ graph => ?_).spares graph)
    exact ⟨_, _, rfl⟩

/-- A link that is not there to be taken away leaves the graph as it was. -/
theorem spares_disconnect (number : Nat) (graph : Graph) :
    (disconnect number).Spares graph := by
  refine spares_get ?_
  show (match graph.link? number with | some _ => _ | none => _ : Editing Link).Spares graph
  cases graph.link? number with
  | none => exact (looks_throw _).spares graph
  | some link => exact ((succeeds_modify _).bind fun _ => succeeds_pure link).spares graph

/-- A default that is refused leaves the graph as it was. -/
theorem spares_setSocketDefault (socket : Socket) (value : Value) (graph : Graph) :
    (setSocketDefault socket value).Spares graph := by
  refine (looks_node _).spares_bind fun node _ => ?_
  exact (looks_checkSocket _ _ _).spares_bind fun _ _ => (succeeds_modify _).spares graph

/-- A node that is not there to be taken away leaves the graph as it was. -/
theorem spares_removeNode (orderly : graph.tangle = none) (id : Nat) :
    (removeNode id).Spares graph := by
  refine (looks_node id).spares_bind fun node _ => ?_
  have early : (dropNodeLinks id).Spares graph := by
    intro error after refused
    have cleared := outcome_dropNodeLinks orderly id
    unfold outcome at cleared
    rw [refused] at cleared
    cases cleared
  exact early.bind fun _ => (succeeds_modify _).bind fun _ => (succeeds_modify _).bind fun _ =>
    (succeeds_modify _).bind fun _ => succeeds_pure node

/-- A port that does not allow a change is left as it was. -/
theorem spares_changePort {change : StateM Node Bool} {change? : Node → Option Node}
    (same : ∀ node, change node = ((change? node).isSome, (change? node).getD node)) (id : Nat)
    (graph : Graph) : (changePort id change).Spares graph := by
  refine (looks_node id).spares_bind fun node looked => ?_
  have found : graph.node? id = some node := by
    rw [run_node] at looked
    cases here : graph.node? id with
    | none => rw [here] at looked; cases looked
    | some other => rw [here] at looked; cases looked; rfl
  rw [show change.run node = _ from same node]
  cases change? node with
  | none =>
    intro error after refused
    cases refused
    exact Graph.setNode_self found
  | some changed =>
    intro error after refused
    cases refused

end Editing

end Shadeloom
