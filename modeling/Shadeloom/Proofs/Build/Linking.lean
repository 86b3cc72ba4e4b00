import Mathlib
import Shadeloom.Proofs.Build.Lowering
/-!
# Links that a build comes to

A build links the values of operands to the nodes that they feed. The sockets of these values are
output sockets that are there, but for one case: the first output socket of an instance whose
definition shows no output. So a link is refused only where an operand is such an instance.
-/
namespace Shadeloom

namespace Graph

/-- Whether a node is an instance that has no output sockets. -/
def IsBarren (graph : Graph) (id : Nat) : Prop :=
  ∃ node group, graph.node? id = some node ∧ node.op = .group group ∧ node.outputs = []

/-- Whether an output socket is there, or is the first one of an instance that has none. -/
def Gives (graph : Graph) (socket : Socket) : Prop :=
  graph.HasOutput socket ∨ socket.place = 0 ∧ graph.IsBarren socket.node

/-- The first output socket of an instance that has none cannot be linked. -/
theorem IsBarren.connect_eq {graph : Graph} {id : Nat} (barren : graph.IsBarren id)
    (target : Socket) :
    graph.connect ⟨id, 0⟩ target = .error (.socketOutOfRange ⟨id, 0⟩ 0 .output) := by
  obtain ⟨node, group, found, -, none⟩ := barren
  rw [Graph.connect_eq, node_eq_ok_iff.2 found, ok_bind, none]
  rfl

/-- A link to a socket that is there is refused only for an instance that has no output sockets. -/
theorem Gives.connect_error {graph : Graph} (sound : graph.Sound) {source target : Socket}
    {fault : GraphError} (gives : graph.Gives source) (enters : graph.HasInput target)
    (refused : graph.connect source target = .error fault) :
    source.place = 0 ∧ graph.IsBarren source.node ∧ fault = .socketOutOfRange source 0 .output := by
  rcases gives with leaves | ⟨first, barren⟩
  · obtain ⟨after, done⟩ := sound.exists_connect leaves enters
    cases done.symm.trans refused
  · obtain ⟨id, place⟩ := source
    cases first
    cases (barren.connect_eq target).symm.trans refused
    exact ⟨rfl, barren, rfl⟩

section

variable {before after : Graph} {fed : List Nat}

/-- Instances stay as they are while a graph grows. -/
theorem Grows.node?_of_group (grows : Grows before after fed) {id : Nat} {node : Node}
    {group : String} (found : before.node? id = some node) (op : node.op = .group group) :
    after.node? id = some node :=
  grows.node?_of_not_input found fun port same => by rw [op] at same; cases same

/-- What gives a value does so while a graph grows. -/
theorem Grows.gives (grows : Grows before after fed) {socket : Socket}
    (gives : before.Gives socket) : after.Gives socket := by
  rcases gives with has | ⟨first, node, group, found, op, none⟩
  · exact .inl (grows.hasOutput has)
  · exact .inr ⟨first, node, group, grows.node?_of_group found op, op, none⟩

end

end Graph

namespace Scope

/-- Whether the sockets that a scope keeps give values, and its instances are those of definitions
that there have been. -/
structure Readable (defined : String → Graph → Prop) (scope : Scope) : Prop where
  built : ∀ entry ∈ scope.built, scope.graph.Gives entry.2
  splits : ∀ name id, scope.splits.get? name = some id →
    ∀ place < 3, scope.graph.HasOutput ⟨id, place⟩
  instances : ∀ name id, scope.instances.get? name = some id →
    ∃ node group, scope.graph.node? id = some node ∧ node.op = .group group
  grouped : ∀ id node group, scope.graph.node? id = some node → node.op = .group group →
    ∃ definition, defined group definition ∧ { node with label := none } = definition.instanceNode

variable {defined : String → Graph → Prop} {library : Library} {held fed : List Nat}
  {before after : Scope}

/-- An empty scope may be read. -/
theorem readable_empty (name : String) : Readable defined (empty name) where
  built entry mem := by cases mem
  splits name id found := by simp [empty] at found
  instances name id found := by simp [empty] at found
  grouped id node group found := by
    simp [empty, Graph.empty, Graph.node?, Slots.empty, Slots.get?] at found

/-- A scope may be read when there have been more definitions. -/
theorem Readable.mono {defined' : String → Graph → Prop} (readable : before.Readable defined)
    (more : ∀ group definition, defined group definition → defined' group definition) :
    before.Readable defined' :=
  { readable with
    grouped := fun id node group found op => by
      obtain ⟨definition, known, same⟩ := readable.grouped id node group found op
      exact ⟨definition, more group definition known, same⟩ }

/-- A scope may be read when what has been built is forgotten. -/
theorem Readable.forget (readable : before.Readable defined) : before.forget.Readable defined where
  built entry mem := by cases mem
  splits name id found := by simp [Scope.forget] at found
  instances := readable.instances
  grouped := readable.grouped

/-- A scope may be read while its graph grows, if new instances are those of definitions. -/
theorem Readable.grow (readable : before.Readable defined) {graph : Graph}
    (grows : before.graph.Grows graph fed)
    (grouped : ∀ id node group, graph.node? id = some node → node.op = .group group →
      before.graph.node? id = some node ∨
        ∃ definition, defined group definition ∧ node = definition.instanceNode) :
    Readable defined { before with graph } where
  built entry mem := grows.gives (readable.built entry mem)
  splits name id found place below := grows.hasOutput (readable.splits name id found place below)
  instances name id found := by
    obtain ⟨node, group, here, op⟩ := readable.instances name id found
    exact ⟨node, group, grows.node?_of_group here op, op⟩
  grouped id node group found op := by
    rcases grouped id node group found op with old | ⟨definition, known, rfl⟩
    · exact readable.grouped id node group old op
    · exact ⟨definition, known, rfl⟩

/-- A scope may be read when a node is added that is an instance of a definition, if it is one. -/
theorem Readable.addNode (readable : before.Readable defined) (sound : before.graph.Sound)
    {node : Node} (made : ∀ group, node.op = .group group →
      ∃ definition, defined group definition ∧ node = definition.instanceNode) :
    (before.addNode node).Readable defined :=
  readable.grow (sound.grows_addNode node) fun id other group found op => by
    rw [sound.node?_addNode] at found
    split at found
    · cases found
      exact .inr (made group op)
    · exact .inl found

/-- A scope may be read when two sockets are linked. -/
theorem Readable.connect (readable : before.Readable defined) {graph : Graph}
    {source target : Socket} (connects : Graph.Connects before.graph graph source target) :
    Readable defined { before with graph } :=
  readable.grow connects.grows fun id _ _ found _ => .inl ((connects.node? id).symm.trans found)

/-- A scope may be read when an output is added. -/
theorem Readable.addOutput (readable : before.Readable defined) {graph : Graph} {name : String}
    {type : SocketType} {id : Nat} (adds : before.graph.AddsOutput graph name type id) :
    Readable defined { before with graph } :=
  readable.grow adds.grows fun other node group found op => by
    rw [adds.node?] at found
    split at found
    · cases found
      cases op
    · exact .inl found

/-- A scope may be read when a node is given another label. -/
theorem Readable.setLabel (readable : before.Readable defined) {id : Nat} {label : Option String}
    {graph : Graph} (done : before.graph.setLabel id label = .ok graph) :
    Readable defined { before with graph } := by
  obtain ⟨changed, here, same⟩ := bind_eq_ok_iff.1 done
  cases same
  rw [Graph.node_eq_ok_iff] at here
  have node? := Graph.node?_setNode here { changed with label }
  have stays (other : Nat) (node : Node) (found : before.graph.node? other = some node) :
      ∃ said, (before.graph.setNode id { changed with label }).node? other =
        some { node with label := said } := by
    rw [node?]
    split
    · rename_i same
      rw [← same, here, Option.some.injEq] at found
      exact ⟨label, found ▸ rfl⟩
    · exact ⟨node.label, found⟩
  have output {socket : Socket} (has : before.graph.HasOutput socket) :
      (before.graph.setNode id { changed with label }).HasOutput socket :=
    has.mono fun node found => by
      obtain ⟨said, found'⟩ := stays _ node found
      exact ⟨_, found', rfl⟩
  refine ⟨fun entry mem => ?_, fun name other known place below =>
    output (readable.splits name other known place below), fun name other known => ?_,
    fun other node group found op => ?_⟩
  · rcases readable.built entry mem with has | ⟨first, node, group, found, op, none⟩
    · exact .inl (output has)
    · obtain ⟨said, found'⟩ := stays _ node found
      exact .inr ⟨first, _, group, found', op, none⟩
  · obtain ⟨node, group, found, op⟩ := readable.instances name other known
    obtain ⟨said, found'⟩ := stays _ node found
    exact ⟨_, group, found', op⟩
  · have found : (before.graph.setNode id { changed with label }).node? other = some node := found
    rw [node?] at found
    split at found
    · cases found
      exact readable.grouped id changed group here op
    · exact readable.grouped other node group found op

/-- A scope may be read when an input is asked for, and the input is there. -/
theorem Readable.addInput (readable : before.Readable defined) (sound : before.graph.Sound)
    (name : String) (type : SocketType) :
    (before.addInput name type).2.Readable defined ∧
      (before.addInput name type).2.graph.HasOutput ⟨(before.addInput name type).1, 0⟩ := by
  have adds := sound.addInput name type
  show Readable defined { before with graph := (before.graph.addInput name type).2 } ∧
    (before.graph.addInput name type).2.HasOutput ⟨(before.graph.addInput name type).1, 0⟩
  generalize (before.graph.addInput name type).1 = id at adds ⊢
  generalize (before.graph.addInput name type).2 = graph at adds ⊢
  refine ⟨readable.grow adds.grows fun other node group found op => ?_, ?_⟩
  · by_cases same : other = id
    · subst same
      cases old : before.graph.node? other with
      | none =>
        rw [(adds.fresh old).2] at found
        cases found
        cases op
      | some old_ =>
        rw [(adds.known old_ old).2] at found
        cases found
        have op' := Node.op_of_widened op
        rw [Node.widened_of_not_input fun port same => by rw [op'] at same; cases same]
        exact .inl rfl
    · exact .inl ((adds.node? other same).symm.trans found)
  · have listed : graph.input? name = some id := by rw [adds.input?, if_pos rfl]
    obtain ⟨node, port, found, input, -⟩ := adds.sound.input?_spec listed
    refine ⟨node, found, ?_⟩
    rw [(adds.sound.inputShaped id node port found input).outputs]
    exact Nat.zero_lt_one

/-- A vector is split unless that has been done, and its components are there. -/
theorem Readable.split (readable : before.Readable defined) (sound : before.graph.Sound)
    (name : String) {input : Nat} (leaves : before.graph.HasOutput ⟨input, 0⟩) :
    ∃ id after, before.split name input = .ok (id, after) ∧ after.Readable defined ∧
      ∀ place < 3, after.graph.HasOutput ⟨id, place⟩ := by
  cases known : before.splits.get? name with
  | some id =>
    refine ⟨id, before, ?_, readable, readable.splits name id known⟩
    rw [Scope.split, known]
  | none =>
    have added := sound.addNode (.ofOp .separateXyz) fun port same => by cases same
    have readable' : (before.addNode (.ofOp .separateXyz)).Readable defined :=
      readable.addNode sound fun group same => by cases same
    have found := (sound.node?_addNode (.ofOp .separateXyz) before.graph.nextNode).trans (if_pos rfl)
    obtain ⟨graph, linked⟩ := added.exists_connect
      ((sound.grows_addNode (.ofOp .separateXyz)).hasOutput leaves)
      (⟨_, found, Nat.zero_lt_one⟩ :
        (before.graph.addNode (.ofOp .separateXyz)).HasInput ⟨before.graph.nextNode, 0⟩)
    have connects := added.connect linked
    have later := readable'.connect connects
    have components (place : Nat) (below : place < 3) :
        graph.HasOutput ⟨before.graph.nextNode, place⟩ :=
      ⟨_, (connects.node? _).trans found, below⟩
    refine ⟨before.graph.nextNode, { before.addNode (.ofOp .separateXyz) with
      graph, splits := before.splits.insert name before.graph.nextNode }, ?_,
      { later with splits := fun other id here => ?_ }, components⟩
    · rw [Scope.split, known]
      exact bind_eq_ok_iff.2 ⟨_, bind_eq_ok_iff.2 ⟨graph, lift_eq_ok_iff.2 linked, rfl⟩, rfl⟩
    · rw [Table.get?_insert] at here
      split at here
      · cases here
        exact components
      · exact later.splits other id here

/-- The output of an instance that is given is there, or is the first one of an instance that has
none. -/
theorem Readable.instanceOutput (readable : before.Readable defined) {name : String}
    {subscript : Option String} {socket : Socket}
    (done : before.instanceOutput name subscript = .ok socket) : before.graph.Gives socket := by
  unfold Scope.instanceOutput at done
  split at done
  · cases done
  · rename_i id found
    obtain ⟨node, group, here, op⟩ := readable.instances name id found
    have first : before.graph.Gives ⟨id, 0⟩ := by
      rcases Nat.eq_zero_or_pos node.outputs.length with none | some
      · exact .inr ⟨rfl, node, group, here, op, List.length_eq_zero_iff.1 none⟩
      · exact .inl ⟨node, here, some⟩
    split at done
    · cases done
      exact first
    · cases done
      exact first
    · split at done
      · rename_i place listed
        cases done
        rw [here] at listed
        exact .inl ⟨node, here, (List.findIdx?_eq_some_iff_getElem.1 listed).1⟩
      · cases done

/-- What a variable reads gives a value, and reading it is not refused by the graph. -/
theorem Readable.readVariable (readable : before.Readable defined) (sound : before.graph.Sound)
    (v : Variable) :
    (∀ socket after, before.readVariable v = .ok (socket, after) →
      after.Readable defined ∧ after.graph.Gives socket) ∧
    ∀ fault, before.readVariable v ≠ .error (.graph fault) := by
  unfold Scope.readVariable
  split
  · rename_i name _
    refine ⟨fun socket after done => ?_, fun fault refused => ?_⟩
    · obtain ⟨source, read, same⟩ := bind_eq_ok_iff.1 done
      cases same
      exact ⟨readable, readable.instanceOutput read⟩
    · rcases bind_eq_error_iff.1 refused with unread | ⟨_, -, impossible⟩
      · unfold Scope.instanceOutput at unread
        split at unread
        · cases unread
        · split at unread
          · cases unread
          · cases unread
          · split at unread <;> cases unread
      · cases impossible
  · cases noted : before.noteDefault v with
    | error error =>
      refine ⟨fun socket after done => (by cases done), fun fault refused => ?_⟩
      cases refused
      obtain ⟨text, impossible⟩ := noteDefault_refused noted
      cases impossible
    | ok scope =>
      obtain ⟨defaults, rfl⟩ := noteDefault_eq noted
      have ready : Readable defined { before with defaults } := { readable with }
      have input (type : SocketType) := ready.addInput sound v.name type
      simp only [ok_bind]
      split
      · refine ⟨fun socket after done => ?_, fun fault refused => (by cases refused)⟩
        cases done
        exact ⟨(input .scalar).1, .inl (input .scalar).2⟩
      · refine ⟨fun socket after done => ?_, fun fault refused => (by cases refused)⟩
        cases done
        exact ⟨(input .vector).1, .inl (input .vector).2⟩
      · split
        · exact ⟨fun socket after done => (by cases done), fun fault refused => (by cases refused)⟩
        · rename_i place known
          have adds := sound.addInput v.name .vector
          obtain ⟨id, last, splits, readable', components⟩ :=
            (input .vector).1.split adds.sound v.name (input .vector).2
          refine ⟨fun socket after done => ?_, fun fault refused => ?_⟩
          · obtain ⟨_, splits', same⟩ := bind_eq_ok_iff.1 done
            cases splits.symm.trans splits'
            cases same
            exact ⟨readable', .inl (components place (Variable.component?_lt known))⟩
          · rcases bind_eq_error_iff.1 refused with unsplit | ⟨_, -, impossible⟩
            · cases splits.symm.trans unsplit
            · cases impossible

/-- A scope may be read when the socket of a tree is kept that gives a value. -/
theorem Readable.remember (readable : before.Readable defined) (reuse : Bool) (e : Expr)
    {socket : Socket} (gives : before.graph.Gives socket) :
    (before.remember reuse e socket).Readable defined := by
  unfold Scope.remember
  split
  · refine { readable with built := fun entry mem => ?_ }
    rcases List.mem_cons.1 mem with rfl | mem
    · exact gives
    · exact readable.built entry mem
  · exact readable

/-- The socket of a tree that has been built gives a value. -/
theorem Readable.remembered (readable : before.Readable defined) {reuse : Bool} {e : Expr}
    {socket : Socket} (found : before.remembered? reuse e = some socket) :
    before.graph.Gives socket := by
  unfold Scope.remembered? at found
  split at found
  · obtain ⟨entry, mem, rfl⟩ := Option.map_eq_some_iff.1 found
    exact readable.built entry (List.mem_of_find?_eq_some mem)
  · cases found

end Scope

/-- The links that feeding a node comes to: the scope in which a link is made, and its two sockets.
Building an operand comes to links of its own, then its value is linked, then come the operands
after it. -/
inductive Links (library : Library) (reuse : Bool) :
    List (Nat × Expr) → Nat → Scope → Scope → Socket → Socket → Prop
  | within {place : Nat} {e : Expr} {rest : List (Nat × Expr)} {id : Nat} {scope now : Scope}
    {source target : Socket} {recipe : Recipe} (fresh : scope.remembered? reuse e = none)
    (planned : Plan.of library e = .ok (.make recipe))
    (links : Links library reuse recipe.operands scope.graph.nextNode (scope.addNode recipe.node)
      now source target) :
    Links library reuse ((place, e) :: rest) id scope now source target
  | value {place : Nat} {e : Expr} {rest : List (Nat × Expr)} {id : Nat} {scope now : Scope}
    {source : Socket} (built : lower library reuse e scope = .ok (source, now)) :
    Links library reuse ((place, e) :: rest) id scope now source ⟨id, place⟩
  | after {place : Nat} {e : Expr} {rest : List (Nat × Expr)} {id : Nat}
    {scope between linked now : Scope} {value source target : Socket}
    (built : lower library reuse e scope = .ok (value, between))
    (link : between.connect value ⟨id, place⟩ = .ok linked)
    (links : Links library reuse rest id linked now source target) :
    Links library reuse ((place, e) :: rest) id scope now source target

section

variable {library : Library} {reuse : Bool} {defined : String → Graph → Prop}

/-- Feeding a node is refused where a link that it comes to is. -/
theorem Links.feed_eq {operands : List (Nat × Expr)} {id : Nat} {scope now : Scope}
    {source target : Socket} (links : Links library reuse operands id scope now source target)
    {fault : GraphError} (refused : now.graph.connect source target = .error fault) :
    feed library reuse operands id scope = .error (.graph fault) := by
  have unlinked : now.connect source target = .error (.graph fault) := by
    rw [Scope.connect, refused]
    rfl
  induction links with
  | within fresh planned links ih =>
    rw [feed, lower_of_make fresh planned, ih refused unlinked]
    rfl
  | value built =>
    rw [feed, built]
    exact (congrArg (· >>= _) unlinked).trans rfl
  | after built link links ih =>
    rw [feed, built, ok_bind]
    dsimp only
    rw [link]
    exact ih refused unlinked

/-- Whether the graph of a scope refuses to link a socket, which is the first one of an instance that
has none. -/
structure Scope.Balks (defined : String → Graph → Prop) (scope : Scope) (source : Socket)
    (fault : GraphError) : Prop where
  readable : scope.Readable defined
  first : source.place = 0
  barren : scope.graph.IsBarren source.node
  fault : fault = .socketOutOfRange source 0 .output

/-- What building a tree comes to where scopes may be read. -/
def LowerReads (defined : String → Graph → Prop) (library : Library) (reuse : Bool) (e : Expr)
    (scope : Scope) : Prop :=
  ∀ held, scope.Tidy library held → scope.Readable defined →
    (∀ socket after, lower library reuse e scope = .ok (socket, after) →
      after.Readable defined ∧ after.graph.Gives socket) ∧
    ∀ fault, lower library reuse e scope = .error (.graph fault) →
      ∃ now source target, now.Balks defined source fault ∧
        ∀ place rest id, Links library reuse ((place, e) :: rest) id scope now source target

/-- What feeding a node comes to where scopes may be read. -/
def FeedReads (defined : String → Graph → Prop) (library : Library) (reuse : Bool)
    (operands : List (Nat × Expr)) (id : Nat) (scope : Scope) : Prop :=
  ∀ held, scope.Tidy library (id :: held) → scope.Readable defined →
    (∀ operand ∈ operands, scope.graph.HasInput ⟨id, operand.1⟩) →
    (∀ after, feed library reuse operands id scope = .ok after → after.Readable defined) ∧
    ∀ fault, feed library reuse operands id scope = .error (.graph fault) →
      ∃ now source target, now.Balks defined source fault ∧
        Links library reuse operands id scope now source target

/-- What making a node and feeding it comes to where scopes may be read. -/
theorem FeedReads.make {operands : List (Nat × Expr)} {scope : Scope} {node : Node}
    {held : List Nat}
    (reads : FeedReads defined library reuse operands scope.graph.nextNode (scope.addNode node))
    (runnable : Library.Runnable library) (tidy : scope.Tidy library held)
    (readable : scope.Readable defined) (shaped : ∀ port, node.op ≠ .input port)
    (refers : node.Refers library)
    (made : ∀ group, node.op = .group group →
      ∃ definition, defined group definition ∧ node = definition.instanceNode)
    (places : ∀ operand ∈ operands, operand.1 < node.inputs.length) :
    (∀ after, feed library reuse operands scope.graph.nextNode (scope.addNode node) = .ok after →
      after.Readable defined ∧
        (scope.addNode node).graph.Grows after.graph [scope.graph.nextNode]) ∧
    ∀ fault, feed library reuse operands scope.graph.nextNode (scope.addNode node) =
        .error (.graph fault) →
      ∃ now source target, now.Balks defined source fault ∧
        Links library reuse operands scope.graph.nextNode (scope.addNode node) now source target := by
  have sound := tidy.runnable.sound
  have added := tidy.addNode node (fun port same => absurd same (shaped port)) refers
  have found : (scope.addNode node).graph.node? scope.graph.nextNode = some node :=
    (sound.node?_addNode node _).trans (if_pos rfl)
  obtain ⟨fed, refuses⟩ := reads held added.tidy (readable.addNode sound made)
    fun operand mem => ⟨node, found, places operand mem⟩
  refine ⟨fun after feeding => ⟨fed after feeding, ?_⟩, refuses⟩
  exact ((lower_keeps runnable reuse).2 _ _ _ held after added.tidy feeding).grows

/-- A tree that has no plan is not refused by a graph. -/
theorem Plan.of_ne_graph {e : Expr} {fault : GraphError} :
    Plan.of library e ≠ .error (.graph fault) := by
  intro refused
  cases Plan.refused refused

/-- Whether all definitions of a library are among those that there have been. -/
def Library.Recorded (defined : String → Graph → Prop) (library : Library) : Prop :=
  ∀ group definition, library.get? group = some definition → defined group definition

/-- A recipe makes an instance of a definition, if it makes one. -/
theorem Recipe.defined_of_group (runnable : Library.Runnable library)
    (recorded : Library.Recorded defined library)
    {recipe : Recipe} (made : recipe.IsPlain ∨ recipe.IsInstance library) {group : String}
    (op : recipe.node.op = .group group) :
    ∃ definition, defined group definition ∧ recipe.node = definition.instanceNode := by
  rcases made with plain | ⟨name, definition, found, node⟩
  · obtain ⟨kind, node, isPlain⟩ := plain.node
    rw [node] at op
    exact absurd op (isPlain.2 group)
  · have named : definition.name = group := by
      rw [node] at op
      exact NodeOp.group.inj op
    have same := (runnable name definition found).1
    exact ⟨definition, recorded group definition (by rw [← named, same]; exact found), node⟩

/-- Building a tree or the operands of a node gives sockets that may be read, or the graph refuses
to link an instance that has no output sockets. -/
theorem lower_reads (runnable : Library.Runnable library)
    (recorded : Library.Recorded defined library) :
    (∀ e scope, LowerReads defined library reuse e scope) ∧
      ∀ operands id scope, FeedReads defined library reuse operands id scope := by
  apply lower.mutual_induct library reuse (LowerReads defined library reuse)
    (FeedReads defined library reuse)
  case case1 =>
    intro e scope socket found held tidy readable
    rw [lower_of_remembered found]
    refine ⟨fun socket' after done => ?_, fun fault refused => by cases refused⟩
    cases done
    exact ⟨readable, readable.remembered found⟩
  case case2 =>
    intro e scope fresh error planned held tidy readable
    rw [lower_of_refused fresh planned]
    refine ⟨fun socket after done => (by cases done), fun fault refused => ?_⟩
    cases refused
    exact absurd planned Plan.of_ne_graph
  case case3 =>
    intro e scope fresh v planned held tidy readable
    obtain ⟨reads, unrefused⟩ := readable.readVariable tidy.runnable.sound v
    rw [lower_of_read fresh planned]
    refine ⟨fun socket after done => ?_, fun fault refused => ?_⟩
    · obtain ⟨⟨source, read⟩, given, same⟩ := bind_eq_ok_iff.1 done
      cases same
      obtain ⟨readable', gives⟩ := reads socket read given
      exact ⟨readable'.remember reuse e gives, by rw [Scope.graph_remember]; exact gives⟩
    · rcases bind_eq_error_iff.1 refused with unread | ⟨_, -, impossible⟩
      · exact absurd unread (unrefused fault)
      · cases impossible
  case case4 =>
    intro e scope fresh recipe planned id feeds held tidy readable
    have fits := Recipe.fits_of_planned planned
    have found : (scope.addNode recipe.node).graph.node? id = some recipe.node :=
      (tidy.runnable.sound.node?_addNode recipe.node id).trans (if_pos rfl)
    obtain ⟨fed, refuses⟩ := feeds.make runnable tidy readable (Recipe.not_input planned)
      (Recipe.refers runnable planned)
      (fun group => Recipe.defined_of_group runnable recorded
        (Recipe.isPlain_or_isInstance planned)) fits.places
    rw [lower_of_make fresh planned]
    refine ⟨fun socket after done => ?_, fun fault refused => ?_⟩
    · obtain ⟨last, feeding, same⟩ := bind_eq_ok_iff.1 done
      cases same
      have gives : (scope.addNode recipe.node).graph.Gives ⟨id, recipe.output⟩ := by
        rcases fits.output with below | ⟨first, group, op⟩
        · exact .inl ⟨recipe.node, found, below⟩
        · rcases Nat.eq_zero_or_pos recipe.node.outputs.length with none | some
          · exact .inr ⟨first, recipe.node, group, found, op, List.length_eq_zero_iff.1 none⟩
          · exact .inl ⟨recipe.node, found, by rw [first]; exact some⟩
      obtain ⟨readable', grows⟩ := fed last feeding
      have gives' := grows.gives gives
      exact ⟨readable'.remember reuse e gives', by rw [Scope.graph_remember]; exact gives'⟩
    · rcases bind_eq_error_iff.1 refused with unfed | ⟨_, -, impossible⟩
      · obtain ⟨now, source, target, balks, links⟩ := refuses fault unfed
        exact ⟨now, source, target, balks, fun place rest id => .within fresh planned links⟩
      · cases impossible
  case case5 =>
    intro id scope held tidy readable inputs
    rw [feed]
    refine ⟨fun after done => ?_, fun fault refused => by cases refused⟩
    cases done
    exact readable
  case case6 =>
    intro id scope place e rest first others held tidy readable inputs
    obtain ⟨reads, refuses⟩ := first (id :: held) tidy readable
    have enters := inputs (place, e) (by simp)
    have both {source : Socket} {between : Scope}
        (built : lower library reuse e scope = .ok (source, between)) :=
      (lower_keeps runnable reuse).1 e scope (id :: held) source between tidy built
    rw [feed]
    refine ⟨fun after done => ?_, fun fault refused => ?_⟩
    · obtain ⟨⟨source, between⟩, built, done⟩ := bind_eq_ok_iff.1 done
      obtain ⟨linked, link, done⟩ := bind_eq_ok_iff.1 done
      obtain ⟨advances, offers⟩ := both built
      obtain ⟨linking, connects, same⟩ := advances.tidy.connect offers.2 (by simp) link
      have readable' : linked.Readable defined := same ▸ (reads source between built).1.connect connects
      exact (others linked held linking.tidy readable' fun operand mem =>
        linking.grows.hasInput (advances.grows.hasInput (inputs operand (by simp [mem])))).1 after done
    · rcases bind_eq_error_iff.1 refused with unbuilt | ⟨⟨source, between⟩, built, refused⟩
      · obtain ⟨now, source, target, balks, links⟩ := refuses fault unbuilt
        exact ⟨now, source, target, balks, links place rest id⟩
      · obtain ⟨advances, offers⟩ := both built
        obtain ⟨readable', gives⟩ := reads source between built
        rcases bind_eq_error_iff.1 refused with unlinked | ⟨linked, link, refused⟩
        · obtain ⟨first, barren, fault⟩ := gives.connect_error advances.tidy.runnable.sound
            (advances.grows.hasInput enters) (lift_eq_error_iff.1 (map_eq_error_iff.1 unlinked))
          exact ⟨between, source, ⟨id, place⟩, ⟨readable', first, barren, fault⟩, .value built⟩
        · obtain ⟨linking, connects, same⟩ := advances.tidy.connect offers.2 (by simp) link
          have readable'' : linked.Readable defined := same ▸ readable'.connect connects
          obtain ⟨now, source, target, balks, links⟩ := (others linked held linking.tidy readable''
            fun operand mem => linking.grows.hasInput
              (advances.grows.hasInput (inputs operand (by simp [mem])))).2 fault refused
          exact ⟨now, source, target, balks, .after built link links⟩

end

end Shadeloom
