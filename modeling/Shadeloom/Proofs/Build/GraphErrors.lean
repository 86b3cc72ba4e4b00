import Mathlib
import Shadeloom.Proofs.Build.Linking
import Shadeloom.Proofs.Build.Outcomes
/-!
# Graph errors of a build

All that a build does to graphs is carried out, but for one thing: a value cannot be read from an
instance whose definition showed no output when the instance was made. No cleanup comes to a graph
error, and no other edit of a statement does.

The invariant is that the scopes of a build may be read. A statement keeps it or stops at a link
that a graph refuses, and whatever is refused for a link stops the statement, so both directions
come from the same account of what a statement feeds.
-/
namespace Shadeloom

/-- Feeding a node one operand builds the operand into the socket. -/
theorem feed_single (library : Library) (reuse : Bool) (place : Nat) (e : Expr) (id : Nat)
    (scope : Scope) :
    feed library reuse [(place, e)] id scope = lowerInto library reuse e ⟨id, place⟩ scope := by
  rw [feed, lowerInto]
  cases lower library reuse e scope with
  | error error => rfl
  | ok built =>
    rw [ok_bind, ok_bind]
    dsimp only
    cases built.2.connect built.1 ⟨id, place⟩ with
    | error error => rfl
    | ok linked => rw [ok_bind, feed]

/-- An instance without output sockets is one of a definition that shows no output. -/
theorem Graph.Sound.exposedOutputs_eq_nil {definition : Graph} (sound : definition.Sound)
    (none : definition.instanceNode.outputs = []) : definition.exposedOutputs = [] := by
  rw [List.eq_nil_iff_forall_not_mem]
  intro entry mem
  have unmade := List.filterMap_eq_nil_iff.1 none entry mem
  obtain ⟨id, listed, named⟩ := List.mem_filterMap.1 mem
  obtain ⟨name, -, rfl⟩ := Option.map_eq_some_iff.1 named
  obtain ⟨node, port, found, output⟩ := sound.outputNamed id listed
  simp [outputSocket?, found, output] at unmade

namespace Builder

/-- The innermost scope with an output that is to be fed. -/
def withOutput (builder : Builder) (name : String) (type : SocketType) : Scope :=
  { builder.scope with graph := (builder.scope.graph.addOutput name type).2 }

/-- What a statement feeds, with the scope in which it does so: the output of its expression, or the
instance that it adds. -/
inductive Feeds (builder : Builder) : Expr → List (Nat × Expr) → Nat → Scope → Prop
  | named {target tree : Expr} {name : String} {type : SocketType}
    (targeted : outputTarget target = .ok (name, type)) (present : tree.isEmpty = false) :
    Feeds builder (.binary .assign target tree) [(0, tree)] builder.scope.graph.nextNode
      (builder.withOutput name type)
  | bare {e : Expr} (bare : e.IsBare) :
    Feeds builder e [(0, e)] builder.scope.graph.nextNode (builder.withOutput bareOutput .scalar)
  | added {name : String} {args group called : Expr} {inputs : List Expr} {groupName : String}
    {calledName : String} {recipe : Recipe} (directive : directive? name = some .groupAdd)
    (listed : args.arguments = group :: called :: inputs)
    (grouped : plainName name group = .ok groupName)
    (named : plainName name called = .ok calledName)
    (made : Recipe.ofGroup builder.library name groupName inputs = .ok recipe) :
    Feeds builder (.call name args) recipe.operands builder.scope.graph.nextNode
      (builder.scope.addNode recipe.node)

variable {builder : Builder} {defined : String → Graph → Prop}

/-- An output is fed with its expression. -/
theorem output_eq {e : Expr} (present : e.isEmpty = false) (name : String) (type : SocketType) :
    builder.output name type e = (feed builder.library builder.options.optimize [(0, e)]
      builder.scope.graph.nextNode (builder.withOutput name type)).map builder.setScope := by
  rw [feed_single]
  simp only [output, present, Bool.false_eq_true, if_false]
  show (lowerInto builder.library builder.options.optimize e ⟨builder.scope.graph.nextNode, 0⟩
    (builder.withOutput name type) >>= fun scope => .ok (builder.setScope scope)) = _
  cases lowerInto builder.library builder.options.optimize e ⟨builder.scope.graph.nextNode, 0⟩
    (builder.withOutput name type) <;> rfl

/-- A statement is refused where what it feeds is. -/
theorem Feeds.statement_eq {e : Expr} {operands : List (Nat × Expr)} {id : Nat} {scope : Scope}
    (feeds : builder.atStatement.Feeds e operands id scope) {error : BuildError}
    (refused : feed builder.library builder.options.optimize operands id scope = .error error) :
    builder.statement e = .error error := by
  rw [← library_atStatement, ← options_atStatement] at refused
  cases feeds with
  | named targeted present =>
    rw [statement_of_assign, targeted, ok_bind, output_eq present, refused]
    rfl
  | bare bare =>
    rw [statement_of_bare bare, output_eq bare.isEmpty, refused]
    rfl
  | added directive listed grouped named made =>
    rw [statement_of_directive directive, listed]
    simp only [Builder.directive, addInstance, grouped, named, made, ok_bind, refused]
    rfl

/-- Whether the scopes of a build may be read. -/
structure Readable (defined : String → Graph → Prop) (builder : Builder) : Prop where
  root : builder.root.Readable defined
  opened : ∀ group ∈ builder.opened, group.scope.Readable defined

/-- A build may be read before the first statement. -/
theorem readable_start (options : BuildOptions) : (start options).Readable defined where
  root := Scope.readable_empty rootName
  opened group mem := by cases mem

/-- A build may be read when there have been more definitions. -/
theorem Readable.mono {defined' : String → Graph → Prop} (readable : builder.Readable defined)
    (more : ∀ group definition, defined group definition → defined' group definition) :
    builder.Readable defined' where
  root := readable.root.mono more
  opened group mem := (readable.opened group mem).mono more

/-- The innermost scope of a build that may be read may be read. -/
theorem Readable.scope (readable : builder.Readable defined) :
    builder.scope.Readable defined :=
  scope_of_forall readable.root readable.opened

/-- A build may be read with another scope that may be. -/
theorem Readable.setScope (readable : builder.Readable defined) {scope : Scope}
    (readable' : scope.Readable defined) : (builder.setScope scope).Readable defined := by
  obtain ⟨root, opened⟩ := forall_setScope readable.root readable.opened readable'
  exact ⟨root, opened⟩

/-- A build may be read at the start of a statement. -/
theorem Readable.atStatement (readable : builder.Readable defined) :
    builder.atStatement.Readable defined := by
  unfold Builder.atStatement
  split
  · exact readable.setScope readable.scope.forget
  · exact readable

/-- Whether a statement feeds something where a graph refuses a link. -/
def Balks (builder : Builder) (defined : String → Graph → Prop) (e : Expr) (fault : GraphError) :
    Prop :=
  ∃ operands id scope now source target, builder.Feeds e operands id scope ∧
    Links builder.library builder.options.optimize operands id scope now source target ∧
      now.Balks defined source fault

/-- What a statement comes to: a build that may be read, or a graph error for a link. -/
structure Reads (defined : String → Graph → Prop) (builder : Builder) (e : Expr)
    (outcome : Except BuildError Builder) : Prop where
  done : ∀ after, outcome = .ok after → after.Readable defined
  refused : ∀ fault, outcome = .error (.graph fault) → builder.Balks defined e fault

section

variable {after : Builder} {e : Expr}

/-- A statement is carried out with a build that may be read. -/
theorem Readable.reads (readable : after.Readable defined) :
    builder.Reads defined e (.ok after) where
  done _ same := by cases same; exact readable
  refused _ same := by cases same

/-- A statement is refused for another reason than a graph. -/
theorem reads_refused {error : BuildError} (other : ∀ fault, error ≠ .graph fault) :
    builder.Reads defined e (.error error) where
  done _ same := by cases same
  refused fault same := by cases same; exact absurd rfl (other fault)

/-- A statement goes on after a step that no graph refuses. -/
theorem reads_bind {α : Type} {first : Except BuildError α} {next : α → Except BuildError Builder}
    (other : ∀ fault, first ≠ .error (.graph fault))
    (later : ∀ a, first = .ok a → builder.Reads defined e (next a)) :
    builder.Reads defined e (first >>= next) := by
  cases first with
  | error error => exact reads_refused fun fault same => other fault (same ▸ rfl)
  | ok a => exact later a rfl

/-- A statement goes on after a step that is refused for the form of a directive alone. -/
theorem reads_directive {α : Type} {first : Except BuildError α}
    {next : α → Except BuildError Builder} {directive : String}
    (formal : ∀ error, first = .error error → ∃ fault, error = .invalidDirective directive fault)
    (later : ∀ a, first = .ok a → builder.Reads defined e (next a)) :
    builder.Reads defined e (first >>= next) :=
  reads_bind (fun fault refused => by
    obtain ⟨_, impossible⟩ := formal _ refused
    cases impossible) later

/-- An output gives a build that may be read, or its expression is refused for a link. -/
theorem Readable.output (readable : builder.Readable defined) (tidy : builder.Tidy)
    (recorded : Library.Recorded defined builder.library) {name : String} {type : SocketType}
    {tree : Expr} (feeds : tree.isEmpty = false → builder.Feeds e [(0, tree)]
      builder.scope.graph.nextNode (builder.withOutput name type)) :
    builder.Reads defined e (builder.output name type tree) := by
  cases present : tree.isEmpty with
  | true =>
    simp only [Builder.output, present, if_true]
    exact reads_refused fun fault same => by cases same
  | false =>
    have adds := tidy.scope.runnable.sound.addOutput name type
    have enters : (builder.withOutput name type).graph.HasInput
        ⟨builder.scope.graph.nextNode, 0⟩ :=
      ⟨_, (adds.node? _).trans (if_pos rfl), Nat.zero_lt_one⟩
    obtain ⟨reads, refuses⟩ := (lower_reads tidy.library recorded).2 [(0, tree)]
      builder.scope.graph.nextNode (builder.withOutput name type) [] (tidy.scope.addOutput adds)
      (readable.scope.addOutput adds) fun operand mem => List.mem_singleton.1 mem ▸ enters
    rw [output_eq present]
    refine ⟨fun after done => ?_, fun fault refused => ?_⟩
    · obtain ⟨scope, fed, rfl⟩ := map_eq_ok_iff.1 done
      exact readable.setScope (reads scope fed)
    · obtain ⟨now, source, target, balks, links⟩ := refuses fault (map_eq_error_iff.1 refused)
      exact ⟨_, _, _, now, source, target, feeds present, links, balks⟩

/-- An instance that is added gives a build that may be read, or an operand is refused for a link. -/
theorem Readable.addInstance (readable : builder.Readable defined) (tidy : builder.Tidy)
    (recorded : Library.Recorded defined builder.library) {name : String} {args : Expr}
    (directive : directive? name = some .groupAdd) :
    builder.Reads defined (.call name args) (builder.addInstance name args.arguments) := by
  unfold Builder.addInstance
  split
  · rename_i group called inputs listed
    -- Names and the recipe are refused for other reasons; the operands may be refused for a link.
    refine reads_directive (fun _ => plainName_refused) fun groupName grouped => ?_
    refine reads_directive (fun _ => plainName_refused) fun calledName calls => ?_
    refine reads_bind (fun fault refused => ?_) fun recipe made => ?_
    · rcases Recipe.ofGroup_refused refused with impossible | ⟨_, impossible⟩ <;> cases impossible
    have feeds := Feeds.added directive listed grouped calls made
    obtain ⟨definitionName, definition, found, node⟩ := Recipe.isInstance_ofGroup made
    have op : recipe.node.op = .group definition.name := by rw [node]; rfl
    obtain ⟨reads, refuses⟩ := FeedReads.make ((lower_reads tidy.library recorded).2 recipe.operands
      builder.scope.graph.nextNode (builder.scope.addNode recipe.node)) tidy.library tidy.scope
      readable.scope (fun port same => by rw [op] at same; cases same)
      (node ▸ tidy.library.refers_instanceNode found)
      (fun group => Recipe.defined_of_group tidy.library recorded
        (.inr ⟨definitionName, definition, found, node⟩)) (Recipe.fits_ofGroup made).places
    dsimp only
    cases fed : feed builder.library builder.options.optimize recipe.operands
        builder.scope.graph.nextNode (builder.scope.addNode recipe.node) with
    | error error =>
      refine ⟨fun after done => (by cases done), fun fault refused => ?_⟩
      cases refused
      obtain ⟨now, source, target, balks, links⟩ := refuses fault fed
      exact ⟨_, _, _, now, source, target, feeds, links, balks⟩
    | ok scope =>
      -- The instance is still there, as feeding it only grows the graph, so it can be labelled.
      obtain ⟨readable', grows⟩ := reads scope fed
      have here := grows.node?_of_group ((tidy.scope.runnable.sound.node?_addNode recipe.node
        builder.scope.graph.nextNode).trans (if_pos rfl)) op
      have labels : scope.graph.setLabel builder.scope.graph.nextNode (some calledName) =
          .ok (scope.graph.setNode builder.scope.graph.nextNode
            { recipe.node with label := some calledName }) := by
        rw [Graph.setLabel, Graph.node_eq_ok_iff.2 here]
        rfl
      have labelled := readable'.setLabel labels
      rw [ok_bind, labels]
      refine Readable.reads (readable.setScope ?_)
      refine ⟨labelled.built, labelled.splits, fun other id entry => ?_, labelled.grouped⟩
      rw [Table.get?_insert] at entry
      split at entry
      · cases entry
        exact ⟨_, _, (Graph.node?_setNode here _ _).trans (if_pos rfl), op⟩
      · exact labelled.instances other id entry
  · exact reads_refused fun fault same => by cases same

/-- An input that is declared gives a scope that may be read. -/
theorem readable_declareInput {library : Library} {scope scope' : Scope} {directive : String}
    {argument : Expr} (tidy : scope.Tidy library []) (readable : scope.Readable defined)
    (done : declareInput directive scope argument = .ok scope') : scope'.Readable defined := by
  obtain ⟨v, type, defaults, -, rfl⟩ := declareInput_eq_ok done
  have ready : Scope.Readable defined { scope with defaults } := { readable with }
  exact (ready.addInput tidy.runnable.sound v.name type).1

/-- The start of a group gives a build that may be read. -/
theorem Readable.startGroup (readable : builder.Readable defined) (directive : String)
    (arguments : List Expr) : builder.Reads defined e (builder.startGroup directive arguments) := by
  refine ⟨fun after done => ?_, fun fault refused => ?_⟩
  · obtain ⟨-, inputs, name, scope, -, -, declared, rfl⟩ := startGroup_eq_ok done
    refine ⟨readable.root, fun group mem => ?_⟩
    rcases List.mem_cons.1 mem with rfl | mem
    · exact (foldlM_keeps
        (fun scope => scope.Tidy builder.library [] ∧ scope.Readable defined)
        (fun before input after keeps stepped => ⟨(declareInput_keeps keeps.1 stepped).tidy,
          readable_declareInput keeps.1 keeps.2 stepped⟩)
        declared ⟨Scope.tidy_empty _ name, Scope.readable_empty name⟩).2
    · exact readable.opened group mem
  · obtain ⟨_, impossible⟩ | ⟨_, impossible⟩ := startGroup_refused refused <;> cases impossible

/-- The end of a group gives a build that may be read. -/
theorem Readable.endGroup (readable : builder.Readable defined) (tidy : builder.Tidy)
    (directive : String) (arguments : List Expr) :
    builder.Reads defined e (builder.endGroup directive arguments) := by
  unfold Builder.endGroup
  split
  · rename_i argument
    refine reads_directive (fun _ => plainName_refused) fun name _ => ?_
    split
    · exact reads_refused fun fault same => by cases same
    · rename_i group rest opened
      split
      · exact reads_refused fun fault same => by cases same
      · refine reads_bind (fun fault refused => ?_) fun site _ => ?_
        · rcases tidy.close_outcome (tidy.opened group (by simp [opened])).1 with
            ⟨site, closed, -⟩ | ⟨name, knot⟩
          · cases closed.symm.trans refused
          · cases knot.symm.trans refused
        · exact Readable.reads ⟨readable.root, fun other mem =>
            readable.opened other (by simp [opened, mem])⟩
  · exact reads_refused fun fault same => by cases same

/-- A statement gives a build that may be read, or what it feeds is refused for a link. -/
theorem Readable.statement (readable : builder.Readable defined) (tidy : builder.Tidy)
    (recorded : Library.Recorded defined builder.library) (e : Expr) :
    builder.atStatement.Reads defined e (builder.statement e) := by
  have ready := readable.atStatement
  have scope := ready.scope
  have tidy' := tidy.atStatement
  rw [← library_atStatement] at recorded
  obtain rfl | ⟨name, args, directive, rfl, called⟩ | ⟨target, tree, rfl⟩ | bare :=
    e.statement_cases
  · exact ready.reads
  · rw [statement_of_directive called]
    cases directive with
    | groupStart => exact ready.startGroup name args.arguments
    | groupEnd => exact ready.endGroup tidy' name args.arguments
    | groupAdd => exact ready.addInstance tidy' recorded called
    | inputs =>
      refine reads_directive (fun _ => plainNames_refused) fun names _ =>
        Readable.reads (ready.setScope ?_)
      exact ⟨scope.built, scope.splits, scope.instances, scope.grouped⟩
    | outputs =>
      refine reads_directive (fun _ => plainNames_refused) fun names _ =>
        Readable.reads (ready.setScope ?_)
      exact ⟨scope.built, scope.splits, scope.instances, scope.grouped⟩
  · rw [statement_of_assign]
    exact reads_directive (fun _ => outputTarget_refused) fun output targeted =>
      ready.output tidy' recorded (Feeds.named targeted)
  · rw [statement_of_bare bare]
    exact ready.output tidy' recorded fun _ => Feeds.bare bare

end

/-- Whether a group has had a definition after some of the statements that have been carried out. -/
def HasDefined (options : BuildOptions) (done : List Expr) (group : String) (definition : Graph) :
    Prop :=
  ∃ early late between, done = early ++ late ∧
    early.foldlM statement (start options) = .ok between ∧
      between.library.get? group = some definition

section

variable {options : BuildOptions} {done : List Expr} {group : String} {definition : Graph}

/-- A group has had a definition that it has now. -/
theorem hasDefined_of_get? (built : done.foldlM statement (start options) = .ok builder)
    (found : builder.library.get? group = some definition) :
    HasDefined options done group definition :=
  ⟨done, [], builder, (List.append_nil done).symm, built, found⟩

/-- A group has had the definitions that it has had before. -/
theorem HasDefined.append (had : HasDefined options done group definition) (later : List Expr) :
    HasDefined options (done ++ later) group definition := by
  obtain ⟨early, late, between, rfl, built, found⟩ := had
  exact ⟨early, late ++ later, between, List.append_assoc early late later, built, found⟩

/-- What a group has had as a definition is a sound graph. -/
theorem HasDefined.sound (had : HasDefined options done group definition) : definition.Sound := by
  obtain ⟨early, late, between, -, built, found⟩ := had
  exact (((tidy_start options).statements built).library group definition found).2.sound

/-- After every statement a build may be read. -/
theorem readable_statements (built : done.foldlM statement (start options) = .ok builder) :
    builder.Readable (HasDefined options done) := by
  induction done using List.reverseRecOn generalizing builder with
  | nil => cases built; exact readable_start options
  | append_singleton earlier e ih =>
    rw [List.foldlM_append] at built
    obtain ⟨between, before, last⟩ := bind_eq_ok_iff.1 built
    obtain ⟨after, stated, same⟩ := bind_eq_ok_iff.1 last
    cases same
    have reads := (ih before).statement ((tidy_start options).statements before)
      (fun group definition => hasDefined_of_get? before) e
    exact (reads.done _ stated).mono fun group definition had => had.append [e]

end

/-- The end of a build is refused by no graph. -/
theorem Tidy.finish_ne_graph (tidy : builder.Tidy) (fault : GraphError) :
    builder.finish ≠ .error (.graph fault) := by
  unfold Builder.finish
  split
  · nofun
  · intro refused
    rcases tidy.close_outcome tidy.root with ⟨site, closed, -⟩ | ⟨name, knot⟩
    · cases closed.symm.trans refused
    · cases knot.symm.trans refused

end Builder

namespace Expr

/-- Whether a build comes to a link after some of its statements: the scope in which the link is
made, and its two sockets. -/
def ComesToLink (e : Expr) (options : BuildOptions) (done : List Expr) (now : Scope)
    (source target : Socket) : Prop :=
  ∃ here rest builder operands id scope, e.arguments = done ++ here :: rest ∧
    done.foldlM Builder.statement (.start options) = .ok builder ∧
      builder.atStatement.Feeds here operands id scope ∧
        Links builder.library builder.options.optimize operands id scope now source target

/-- A build is refused by a graph for one reason only. It has come to a link from the first output
of a node that has no output sockets, and the node is an instance of a group that was made when the
definition of the group showed no output. -/
theorem build_graph_error_iff (e : Expr) (options : BuildOptions) (fault : GraphError) :
    e.build options = .error (.graph fault) ↔
      ∃ done now id target node group definition, e.ComesToLink options done now ⟨id, 0⟩ target ∧
        now.graph.node? id = some node ∧ node.op = .group group ∧ node.outputs = [] ∧
        Builder.HasDefined options done group definition ∧
        { node with label := none } = definition.instanceNode ∧ definition.exposedOutputs = [] ∧
        fault = .socketOutOfRange ⟨id, 0⟩ 0 .output := by
  constructor
  · intro refused
    -- The statement that stops the build has been reached with scopes that may be read.
    rcases bind_eq_error_iff.1 refused with stopped | ⟨builder, built, unfinished⟩
    · obtain ⟨done, here, rest, builder, listed, built, stopped⟩ := foldlM_eq_error_iff.1 stopped
      have reads := (Builder.readable_statements built).statement
        ((Builder.tidy_start options).statements built)
        (fun group definition => Builder.hasDefined_of_get? built) here
      obtain ⟨operands, first, scope, now, ⟨id, place⟩, target, feeds, links, balks⟩ :=
        reads.refused fault stopped
      rw [Builder.library_atStatement, Builder.options_atStatement] at links
      obtain ⟨readable, start, ⟨node, group, found, op, none⟩, said⟩ := balks
      cases start
      obtain ⟨definition, had, made⟩ := readable.grouped id node group found op
      exact ⟨done, now, id, target, node, group, definition,
        ⟨here, rest, builder, operands, first, scope, listed, built, feeds, links⟩, found, op, none,
        had, made, had.sound.exposedOutputs_eq_nil (made ▸ none), said⟩
    · exact absurd unfinished
        (((Builder.tidy_start options).statements built).finish_ne_graph fault)
  · rintro ⟨done, now, id, target, node, group, definition, comes, found, op, none, -, -, -, rfl⟩
    obtain ⟨here, rest, builder, operands, first, scope, listed, built, feeds, links⟩ := comes
    have barren : now.graph.IsBarren id := ⟨node, group, found, op, none⟩
    have stopped := feeds.statement_eq (links.feed_eq (barren.connect_eq target))
    exact bind_eq_error_iff.2 (.inl (foldlM_eq_error_iff.2
      ⟨done, here, rest, builder, listed, built, stopped⟩))

/-- A group of nothing, an instance of it, and a reading of the instance. -/
def emptyReading : Expr :=
  .chain [.call "group:start" (.var ⟨"g", none, none⟩), .call "group:end" (.var ⟨"g", none, none⟩),
    .call "group:add" (.chain [.var ⟨"g", none, none⟩, .var ⟨"i", none, none⟩]),
    .var ⟨"group:i", none, none⟩]

/-- An instance of a group of nothing cannot be read, as it has no output. -/
theorem build_emptyReading : emptyReading.build .standard =
    .error (.graph (.socketOutOfRange ⟨0, 0⟩ 0 .output)) := by
  let read : Expr := .var ⟨"group:i", none, none⟩
  let node : Node := { Graph.instanceNode (.empty "g") with label := some "i" }
  let defined : Builder := ⟨.standard, .empty "root", [], .ofList [("g", .empty "g")]⟩
  let ready : Builder := { defined with root := { Scope.empty "root" with
    graph := (Graph.empty "root").addNode node, instances := .ofList [("i", 0)] } }
  let scope := ready.withOutput Builder.bareOutput .scalar
  have instanced : defined.statement
      (.call "group:add" (.chain [.var ⟨"g", none, none⟩, .var ⟨"i", none, none⟩])) = .ok ready := by
    have feeds : defined.statement
        (.call "group:add" (.chain [.var ⟨"g", none, none⟩, .var ⟨"i", none, none⟩])) = (do
          let fed ← feed defined.library true [] 0
            (defined.scope.addNode (Graph.instanceNode (.empty "g")))
          let graph ← GraphError.lift (fed.graph.setLabel 0 (some "i"))
          .ok (defined.setScope { fed with graph, instances := fed.instances.insert "i" 0 })) := rfl
    rw [feeds, feed]
    rfl
  have built : (emptyReading.arguments.take 3).foldlM Builder.statement (.start .standard) =
      .ok ready := by
    show defined.statement _ >>= _ = _
    rw [instanced]
    rfl
  have bare : read.IsBare := by constructor <;> simp [read]
  have reads : lower ready.library true read scope =
      .ok (⟨0, 0⟩, scope.remember true read ⟨0, 0⟩) := by
    have planned : Plan.of ready.library read = .ok (.read ⟨"group:i", none, none⟩) := rfl
    rw [lower_of_read rfl planned]
    rfl
  exact (build_graph_error_iff emptyReading .standard _).2
    ⟨emptyReading.arguments.take 3, scope.remember true read ⟨0, 0⟩, 0, ⟨1, 0⟩, node, "g", .empty "g",
      ⟨read, [], ready, [(0, read)], 1, scope, rfl, built, .bare bare, .value reads⟩,
      rfl, rfl, rfl, Builder.hasDefined_of_get? built rfl, rfl, rfl, rfl⟩

end Expr

end Shadeloom
