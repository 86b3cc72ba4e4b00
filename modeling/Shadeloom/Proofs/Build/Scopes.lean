import Mathlib
import Shadeloom.Build.Lowering
import Shadeloom.Proofs.Graph.Runnable
import Shadeloom.Proofs.Results
/-!
# Tidy scopes

While operands are built for a node, no link leaves the node: it is held back. A scope is tidy when
its graph is runnable, nothing that may be read is held back, and no link leaves what is. So a
link into a node that is held back closes no cycle. Building a tree keeps a scope tidy, and so do
all the steps that it takes.
-/
namespace Shadeloom

/-- A component is one of three. -/
theorem Variable.component?_lt {subscript : String} {place : Nat}
    (known : component? subscript = some place) : place < 3 := by
  unfold component? at known
  split at known <;> cases known <;> decide

namespace Scope

/-- Whether a node may be read while others are held back. -/
def Offers (held : List Nat) (scope : Scope) (id : Nat) : Prop :=
  (scope.graph.node? id).isSome = true ∧ id ∉ held

/-- Whether a graph that is being built is in order while nodes are held back. -/
structure Tidy (library : Library) (held : List Nat) (scope : Scope) : Prop where
  runnable : scope.graph.Runnable library
  idle : ∀ id ∈ held, (scope.graph.node? id).isSome = true ∧ scope.graph.Idle id
  inputs : ∀ name id, scope.graph.input? name = some id → id ∉ held
  built : ∀ entry ∈ scope.built, scope.Offers held entry.2.node
  splits : ∀ name id, scope.splits.get? name = some id → scope.Offers held id
  instances : ∀ name id, scope.instances.get? name = some id → scope.Offers held id

/-- What a step of a build does to a scope. -/
structure Advances (library : Library) (held fed : List Nat) (before after : Scope) : Prop where
  tidy : after.Tidy library held
  grows : before.graph.Grows after.graph fed
  outputs : after.graph.outputs = before.graph.outputs
  name : after.graph.name = before.graph.name
  instances : after.instances = before.instances
  declaredInputs : after.declaredInputs = before.declaredInputs
  declaredOutputs : after.declaredOutputs = before.declaredOutputs

section Steps

variable {library : Library} {held fed : List Nat} {before after : Scope}

/-- A tidy scope has advanced to itself. -/
theorem Tidy.advances (tidy : before.Tidy library held) :
    Advances library held fed before before :=
  ⟨tidy, .refl _ _, rfl, rfl, rfl, rfl, rfl⟩

/-- A scope that advances twice has advanced. -/
theorem Advances.trans {last : Scope} {held' fed' : List Nat}
    (early : Advances library held fed before after)
    (late : Advances library held' fed' after last)
    (sub : ∀ id ∈ fed', id ∈ fed ∨ before.graph.node? id = none) :
    Advances library held' fed before last where
  tidy := late.tidy
  grows := early.grows.trans late.grows sub
  outputs := late.outputs.trans early.outputs
  name := late.name.trans early.name
  instances := late.instances.trans early.instances
  declaredInputs := late.declaredInputs.trans early.declaredInputs
  declaredOutputs := late.declaredOutputs.trans early.declaredOutputs

/-- A step advances a scope also if more nodes may have been fed. -/
theorem Advances.weaken {fed' : List Nat} (advances : Advances library held fed before after)
    (sub : ∀ id ∈ fed, id ∈ fed') : Advances library held fed' before after :=
  { advances with grows := advances.grows.weaken sub }

/-- A node that may be read is neither held nor the next one. -/
theorem Offers.not_mem_nextNode {id : Nat} (offers : before.Offers held id)
    (fresh : before.graph.node? before.graph.nextNode = none) :
    id ∉ before.graph.nextNode :: held := by
  have here := offers.1
  simp only [List.mem_cons, offers.2, or_false]
  rintro rfl
  rw [fresh] at here
  cases here

/-- What may be read may still be read when the graph has grown. -/
theorem Offers.grow {id : Nat} (offers : before.Offers held id) (after : Scope)
    (grows : before.graph.Grows after.graph fed) : after.Offers held id :=
  ⟨grows.isSome offers.1, offers.2⟩

/-- Holding back fewer nodes keeps a scope tidy. -/
theorem Tidy.release (tidy : before.Tidy library held) {held' : List Nat}
    (sub : ∀ id ∈ held', id ∈ held) : before.Tidy library held' where
  runnable := tidy.runnable
  idle id mem := tidy.idle id (sub id mem)
  inputs name id listed mem := tidy.inputs name id listed (sub id mem)
  built entry mem := ⟨(tidy.built entry mem).1, fun here => (tidy.built entry mem).2 (sub _ here)⟩
  splits name id found := ⟨(tidy.splits name id found).1,
    fun here => (tidy.splits name id found).2 (sub _ here)⟩
  instances name id found := ⟨(tidy.instances name id found).1,
    fun here => (tidy.instances name id found).2 (sub _ here)⟩

/-- A graph that grows into a runnable one keeps a scope tidy if nothing new leaves what is held
back and no new input is held back. -/
theorem Tidy.grow (tidy : before.Tidy library held) {graph : Graph}
    (runnable : graph.Runnable library) (grows : before.graph.Grows graph fed)
    (idle : ∀ id ∈ held, graph.Idle id)
    (inputs : ∀ name id, graph.input? name = some id → id ∉ held) :
    Tidy library held { before with graph } where
  runnable := runnable
  idle id mem := ⟨grows.isSome (tidy.idle id mem).1, idle id mem⟩
  inputs := inputs
  built entry mem := (tidy.built entry mem).grow { before with graph } grows
  splits name id found := (tidy.splits name id found).grow { before with graph } grows
  instances name id found :=
    (tidy.instances name id found).grow { before with graph } grows

/-- Links of a graph that stay are the reason why a node stays without links that leave it. -/
theorem Tidy.idle_of_source? (tidy : before.Tidy library held) {graph : Graph}
    (same : ∀ target, graph.source? target = before.graph.source? target) :
    ∀ id ∈ held, graph.Idle id :=
  fun id mem => (tidy.idle id mem).2.of_links fun target _ linked => .inl (same target ▸ linked)

/-- A node that is added is held back until it is released. -/
theorem Tidy.addNode (tidy : before.Tidy library held) (node : Node)
    (shaped : ∀ port, node.op = .input port → node.IsInput port) (refers : node.Refers library) :
    Advances library (before.graph.nextNode :: held) [] before (before.addNode node) := by
  have sound := tidy.runnable.sound
  have fresh := sound.node?_nextNode
  have grows := sound.grows_addNode node
  have apart (id : Nat) (here : (before.graph.node? id).isSome = true) :
      id ≠ before.graph.nextNode := by
    rintro rfl
    rw [fresh] at here
    cases here
  have offers (id : Nat) (old : before.Offers held id) :
      (before.addNode node).Offers (before.graph.nextNode :: held) id :=
    ⟨grows.isSome old.1, by simp [apart id old.1, old.2]⟩
  refine ⟨?_, grows, Graph.outputs_addNode _ _, ?_, rfl, rfl, rfl⟩
  · refine {
      runnable := tidy.runnable.addNode shaped refers
      idle := fun id mem => ?_
      inputs := fun name id listed => ?_
      built := fun entry mem => offers _ (tidy.built entry mem)
      splits := fun name id found => offers _ (tidy.splits name id found)
      instances := fun name id found => offers _ (tidy.instances name id found) }
    · rcases List.mem_cons.1 mem with rfl | mem
      · refine ⟨?_, fun target source linked same => ?_⟩
        · show ((before.graph.addNode node).node? _).isSome = true
          rw [sound.node?_addNode, if_pos rfl]
          rfl
        · have linked : (before.graph.addNode node).source? target = some source := linked
          rw [sound.source?_addNode] at linked
          exact apart source.node (sound.isSome_of_leads (Graph.leads_of_source? linked)).1 same
      · exact ⟨grows.isSome (tidy.idle id mem).1,
          tidy.idle_of_source? sound.source?_addNode id mem⟩
    · have listed : before.graph.input? name = some id := by
        unfold Graph.input? at listed ⊢
        rwa [show (before.addNode node).graph.inputs = before.graph.inputs from
          Graph.inputs_addNode _ _] at listed
      obtain ⟨old, port, found, -⟩ := sound.input?_spec listed
      simp [apart id (Option.isSome_iff_exists.2 ⟨old, found⟩), tidy.inputs name id listed]
  · show (before.graph.addNode node).name = before.graph.name
    rw [sound.addNode_eq]

/-- A link from what may be read into a node that is held back keeps a scope tidy. -/
theorem Tidy.connect (tidy : before.Tidy library held) {source target : Socket}
    (offers : source.node ∉ held) (fed : target.node ∈ held)
    (done : before.connect source target = .ok after) :
    Advances library held [target.node] before after ∧
      Graph.Connects before.graph after.graph source target ∧
        after = { before with graph := after.graph } := by
  obtain ⟨graph, linked, same⟩ := bind_eq_ok_iff.1 done
  rw [lift_eq_ok_iff] at linked
  cases same
  have connects := tidy.runnable.sound.connect linked
  have apart : source.node ≠ target.node := fun same => offers (same ▸ fed)
  have acyclic := tidy.runnable.acyclic.connect_idle connects (tidy.idle _ fed).2 apart
  refine ⟨⟨tidy.grow (tidy.runnable.connect connects acyclic) connects.grows (fun id mem => ?_)
    fun name id listed => ?_, connects.grows, connects.outputs, connects.name, rfl, rfl, rfl⟩,
    connects, rfl⟩
  · refine (tidy.idle id mem).2.of_links fun other from_ here => ?_
    rw [connects.source?] at here
    split at here
    · cases here
      exact .inr fun same => offers (same ▸ mem)
    · exact .inl here
  · refine tidy.inputs name id ?_
    unfold Graph.input? at listed ⊢
    rwa [connects.inputs] at listed

/-- Asking for an input keeps a scope tidy, and the input may be read. -/
theorem Tidy.addInput (tidy : before.Tidy library held) (name : String) (type : SocketType) :
    Advances library held [] before (before.addInput name type).2 ∧
      Graph.AddsInput before.graph (before.addInput name type).2.graph name type
        (before.addInput name type).1 ∧
      (before.addInput name type).2 =
        { before with graph := (before.addInput name type).2.graph } ∧
      (before.addInput name type).2.Offers held (before.addInput name type).1 := by
  have adds := tidy.runnable.sound.addInput name type
  show Advances library held [] before { before with graph := (before.graph.addInput name type).2 } ∧
    Graph.AddsInput before.graph (before.graph.addInput name type).2 name type
      (before.graph.addInput name type).1 ∧
    ({ before with graph := (before.graph.addInput name type).2 } : Scope) =
      { before with graph := (before.graph.addInput name type).2 } ∧
    Offers held { before with graph := (before.graph.addInput name type).2 }
      (before.graph.addInput name type).1
  generalize (before.graph.addInput name type).1 = id at adds ⊢
  generalize (before.graph.addInput name type).2 = graph at adds ⊢
  have here : (graph.node? id).isSome = true := by
    cases found : before.graph.node? id with
    | none => rw [(adds.fresh found).2]; rfl
    | some old => rw [(adds.known old found).2]; rfl
  have free : id ∉ held := by
    intro mem
    obtain ⟨old, found⟩ := Option.isSome_iff_exists.1 (tidy.idle id mem).1
    exact tidy.inputs name id (adds.known old found).1 mem
  refine ⟨⟨tidy.grow (tidy.runnable.addInput adds) adds.grows (tidy.idle_of_source? adds.source?)
    fun other id' listed => ?_, adds.grows, adds.outputs, adds.name, rfl, rfl, rfl⟩, adds, rfl,
    here, free⟩
  rw [adds.input?] at listed
  split at listed
  · cases listed; exact free
  · exact tidy.inputs other id' listed

/-- Keeping a default changes nothing else of a scope. -/
theorem noteDefault_eq {v : Variable} (done : before.noteDefault v = .ok after) :
    ∃ defaults, after = { before with defaults } := by
  unfold noteDefault at done
  split at done
  · cases done; exact ⟨before.defaults, rfl⟩
  · obtain ⟨number, -, same⟩ := bind_eq_ok_iff.1 done
    cases same
    exact ⟨_, rfl⟩

/-- A default that cannot be noted is no number. -/
theorem noteDefault_refused {scope : Scope} {v : Variable} {error : BuildError}
    (refused : scope.noteDefault v = .error error) : ∃ text, error = .invalidLiteral text := by
  unfold Scope.noteDefault at refused
  split at refused
  · cases refused
  · rcases bind_eq_error_iff.1 refused with read | ⟨_, _, impossible⟩
    · unfold Scope.readDefault at read
      split at read <;> cases read
      exact ⟨_, rfl⟩
    · cases impossible

/-- Other defaults keep a scope tidy. -/
theorem Tidy.withDefaults (tidy : before.Tidy library held) (defaults : Table String Float) :
    Advances library held [] before { before with defaults } :=
  ⟨⟨tidy.runnable, tidy.idle, tidy.inputs, tidy.built, tidy.splits, tidy.instances⟩,
    .refl _ _, rfl, rfl, rfl, rfl, rfl⟩

/-- The vector of an input is split by the node that is kept for it, or by one that is added and
linked. -/
theorem Tidy.split_eq_ok (tidy : before.Tidy library held) {name : String} {input id : Nat}
    (offers : before.Offers held input) (done : before.split name input = .ok (id, after)) :
    (before.splits.get? name = some id ∧ after = before) ∨
      before.splits.get? name = none ∧ id = before.graph.nextNode ∧ ∃ graph,
        Advances library (id :: held) [id] (before.addNode (.ofOp .separateXyz))
          { before with graph } ∧
        (before.graph.addNode (.ofOp .separateXyz)).Connects graph ⟨input, 0⟩ ⟨id, 0⟩ ∧
        after = { before with graph, splits := before.splits.insert name id } := by
  unfold Scope.split at done
  split at done
  · rename_i known found
    cases done
    exact .inl ⟨found, rfl⟩
  · rename_i absent
    have fresh := tidy.runnable.sound.node?_nextNode
    have added := tidy.addNode (.ofOp .separateXyz) (fun port same => by cases same)
      (fun group same => by cases same)
    obtain ⟨scope, linked, done⟩ := bind_eq_ok_iff.1 done
    cases done
    obtain ⟨advances, connects, same⟩ :=
      added.tidy.connect (offers.not_mem_nextNode fresh) (by simp) linked
    refine .inr ⟨absent, rfl, scope.graph, ?_, connects, ?_⟩
    · rw [same] at advances
      exact advances
    · rw [same]
      rfl

/-- Splitting the vector of an input keeps a scope tidy, and the node that splits it may be
read. -/
theorem Tidy.split (tidy : before.Tidy library held) {name : String} {input id : Nat}
    (offers : before.Offers held input) (done : before.split name input = .ok (id, after)) :
    Advances library held [] before after ∧ after.Offers held id := by
  obtain ⟨found, rfl⟩ | ⟨-, rfl, graph, advances, -, rfl⟩ := tidy.split_eq_ok offers done
  · exact ⟨tidy.advances, tidy.splits name id found⟩
  · have fresh := tidy.runnable.sound.node?_nextNode
    have added := tidy.addNode (.ofOp .separateXyz) (fun port same => by cases same)
      (fun group same => by cases same)
    have both := added.trans advances fun id mem => by
      rw [List.mem_singleton] at mem
      exact .inr (mem ▸ fresh)
    have tidy' : Tidy library held { before with graph } :=
      both.tidy.release fun id mem => List.mem_cons_of_mem _ mem
    have offers' : Offers held { before with graph } before.graph.nextNode := by
      refine ⟨(both.tidy.idle _ (by simp)).1, fun mem => ?_⟩
      have here := (tidy.idle _ mem).1
      rw [fresh] at here
      cases here
    refine ⟨⟨⟨tidy'.runnable, tidy'.idle, tidy'.inputs, tidy'.built, fun other id found => ?_,
      tidy'.instances⟩, both.grows, both.outputs, both.name, both.instances, both.declaredInputs,
      both.declaredOutputs⟩, offers'⟩
    rw [Table.get?_insert] at found
    split at found
    · cases found; exact offers'
    · exact tidy'.splits other id found

/-- The output of an instance may be read. -/
theorem Tidy.instanceOutput (tidy : before.Tidy library held) {name : String}
    {subscript : Option String} {socket : Socket}
    (done : before.instanceOutput name subscript = .ok socket) :
    before.Offers held socket.node := by
  unfold Scope.instanceOutput at done
  split at done
  · cases done
  · rename_i id found
    have offers := tidy.instances name id found
    split at done
    · cases done; exact offers
    · cases done; exact offers
    · split at done
      · cases done; exact offers
      · cases done

/-- A variable that is read names an output of an instance, or asks for its input; the vector of this
is split for a component. -/
theorem readVariable_eq_ok {v : Variable} {socket : Socket}
    (done : before.readVariable v = .ok (socket, after)) :
    (∃ name, Text.afterStart? Function.instanceMark v.name = some name ∧
      before.instanceOutput name v.subscript = .ok socket ∧ after = before) ∨
    Text.afterStart? Function.instanceMark v.name = none ∧ ∃ defaults,
      before.noteDefault v = .ok { before with defaults } ∧ ∃ type input asked,
        Scope.addInput { before with defaults } v.name type = (input, asked) ∧
          ((v.subscript = none ∧ type = .scalar ∧ socket = ⟨input, 0⟩ ∧ after = asked) ∨
            (v.subscript = some "" ∧ type = .vector ∧ socket = ⟨input, 0⟩ ∧ after = asked) ∨
            ∃ subscript place id, v.subscript = some subscript ∧ subscript ≠ "" ∧
              Variable.component? subscript = some place ∧ type = .vector ∧
              socket = ⟨id, place⟩ ∧ asked.split v.name input = .ok (id, after)) := by
  unfold Scope.readVariable at done
  split at done
  · rename_i name named
    obtain ⟨source, read, same⟩ := bind_eq_ok_iff.1 done
    cases same
    exact .inl ⟨name, named, read, rfl⟩
  · rename_i plain
    obtain ⟨noted, written, done⟩ := bind_eq_ok_iff.1 done
    obtain ⟨defaults, rfl⟩ := noteDefault_eq written
    refine .inr ⟨plain, defaults, written, ?_⟩
    split at done
    · rename_i whole
      cases done
      exact ⟨.scalar, _, _, rfl, .inl ⟨whole, rfl, rfl, rfl⟩⟩
    · rename_i whole
      cases done
      exact ⟨.vector, _, _, rfl, .inr (.inl ⟨whole, rfl, rfl, rfl⟩)⟩
    · rename_i subscript part selects
      split at done
      · cases done
      · rename_i place known
        obtain ⟨⟨id, last⟩, split, same⟩ := bind_eq_ok_iff.1 done
        cases same
        exact ⟨.vector, _, _, rfl,
          .inr (.inr ⟨subscript, place, id, selects, part, known, rfl, rfl, split⟩)⟩

/-- Reading a variable keeps a scope tidy, and what it gives may be read. -/
theorem Tidy.readVariable (tidy : before.Tidy library held) {v : Variable} {socket : Socket}
    (done : before.readVariable v = .ok (socket, after)) :
    Advances library held [] before after ∧ after.Offers held socket.node := by
  obtain ⟨name, -, read, rfl⟩ | ⟨-, defaults, -, type, input, asked, asks, read⟩ :=
    readVariable_eq_ok done
  · exact ⟨tidy.advances, tidy.instanceOutput read⟩
  · have start := tidy.withDefaults defaults
    obtain ⟨advances, -, -, offers⟩ := start.tidy.addInput v.name type
    rw [asks] at advances offers
    have both := start.trans advances (by simp)
    obtain ⟨-, -, rfl, rfl⟩ | ⟨-, -, rfl, rfl⟩ | ⟨-, -, id, -, -, -, -, rfl, split⟩ := read
    · exact ⟨both, offers⟩
    · exact ⟨both, offers⟩
    · obtain ⟨later, offers'⟩ := both.tidy.split offers split
      exact ⟨both.trans later (by simp), offers'⟩

/-- Keeping a socket leaves the graph as it is. -/
theorem graph_remember (scope : Scope) (reuse : Bool) (e : Expr) (socket : Socket) :
    (scope.remember reuse e socket).graph = scope.graph := by
  unfold Scope.remember
  split <;> rfl

/-- Keeping the socket of a tree that may be read keeps a scope tidy. -/
theorem Tidy.remember (tidy : before.Tidy library held) (reuse : Bool) (e : Expr) (socket : Socket)
    (offers : before.Offers held socket.node) :
    Advances library held [] before (before.remember reuse e socket) := by
  unfold Scope.remember
  split
  · refine ⟨⟨tidy.runnable, tidy.idle, tidy.inputs, fun entry mem => ?_, tidy.splits,
      tidy.instances⟩, .refl _ _, rfl, rfl, rfl, rfl, rfl⟩
    rcases List.mem_cons.1 mem with rfl | mem
    · exact offers
    · exact tidy.built entry mem
  · exact tidy.advances

/-- The socket of a tree that has been built may be read. -/
theorem Tidy.remembered (tidy : before.Tidy library held) {reuse : Bool} {e : Expr}
    {socket : Socket} (found : before.remembered? reuse e = some socket) :
    before.Offers held socket.node := by
  unfold Scope.remembered? at found
  split at found
  · obtain ⟨entry, mem, rfl⟩ := Option.map_eq_some_iff.1 found
    exact tidy.built entry (List.mem_of_find?_eq_some mem)
  · cases found

end Steps

end Scope

end Shadeloom
