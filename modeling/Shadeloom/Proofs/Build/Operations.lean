import Mathlib
import Shadeloom.Proofs.Build.Ramps
import Shadeloom.Proofs.Build.SelfContained
import Shadeloom.Proofs.Build.Outcomes
import Shadeloom.Proofs.Evaluation.Factors
/-!
# Operations of built graphs

Ports apart, the nodes of a built graph and of its definitions perform only what trees are planned
to perform, what instances of groups perform, and splits of vectors into their components: a build
adds no other nodes, and a cleanup changes none. So each color ramp of a build is one that settings
describe, with stops in order, and an evaluation finds no stops around a factor only if the factor
is no number.
-/
namespace Shadeloom

/-- Whether an operation is one of the nodes that a build adds, ports apart. -/
inductive NodeOp.IsBuilt : NodeOp → Prop
  | planned {library : Library} {e : Expr} {recipe : Recipe}
    (planned : Plan.of library e = .ok (.make recipe)) : IsBuilt recipe.node.op
  | split : IsBuilt .separateXyz
  | group (name : String) : IsBuilt (.group name)

namespace Recipe

/-- A function that makes a color ramp makes one that settings describe. -/
theorem exists_ofArguments {function : Function} {operands : List Expr} {recipe : Recipe}
    (made : ofFunction function operands = .ok recipe) {ramp : ColorRamp}
    (op : recipe.node.op = .colorRamp ramp) :
    ∃ arguments, ColorRamp.ofArguments arguments = .ok ramp := by
  have plainly {other : NodeOp} (made : plain function other operands = .ok recipe) :
      other = .colorRamp ramp := by
    obtain ⟨-, rfl⟩ := plain_eq_ok made
    exact op
  unfold ofFunction at made
  split at made
  · obtain ⟨-, rfl⟩ | ⟨_, _, _, -, rfl⟩ := math_eq_ok made <;> cases op
  · cases plainly made
  · cases plainly made
  · cases plainly made
  · cases plainly made
  · cases plainly made
  · cases plainly made
  · obtain ⟨_, settings, _, -, read, rfl⟩ := configured_eq_ok made
    obtain ⟨ramp, described, same⟩ := bind_eq_ok_iff.1 read
    cases same
    cases op
    exact ⟨settings, described⟩
  · obtain ⟨_, _, _, -, read, rfl⟩ := configured_eq_ok made
    obtain ⟨texture, -, same⟩ := bind_eq_ok_iff.1 read
    cases same
    cases op
  · obtain ⟨_, _, _, -, read, rfl⟩ := configured_eq_ok made
    obtain ⟨density, -, same⟩ := bind_eq_ok_iff.1 read
    cases same
    cases op
  · cases made
  · cases made

end Recipe

/-- A color ramp that is built is one that settings describe. -/
theorem NodeOp.IsBuilt.exists_ofArguments {op : NodeOp} (built : op.IsBuilt) {ramp : ColorRamp}
    (same : op = .colorRamp ramp) : ∃ arguments, ColorRamp.ofArguments arguments = .ok ramp := by
  cases built with
  | planned planned =>
    obtain ⟨literal, rfl, made⟩ | ⟨x, y, z, rfl, made⟩ | ⟨name, -, made⟩ := Plan.make_cases planned
    · obtain ⟨number, -, rfl⟩ := Recipe.ofLiteral_eq_ok made
      cases same
    · obtain ⟨-, rfl⟩ := Recipe.ofCombine_eq_ok made
      cases same
    · obtain ⟨-, ⟨group, -, made⟩ | ⟨-, function, -, made⟩⟩ := Recipe.ofOperation_eq_ok made
      · obtain ⟨definition, -, -, rfl⟩ := Recipe.ofGroup_eq_ok made
        cases same
      · exact Recipe.exists_ofArguments made same
  | split => cases same
  | group name => cases same

/-- What is no port stays as it is when a node is widened. -/
theorem Node.op_widened {node : Node} {type : SocketType}
    (plain : (node.widened type).op.isPort = false) : (node.widened type).op = node.op := by
  by_cases input : ∃ port, node.op = .input port
  · obtain ⟨port, input⟩ := input
    cases type with
    | scalar => rfl
    | vector => rw [widened_of_input input] at plain; cases plain
  · rw [widened_of_not_input fun port op => input ⟨port, op⟩]

namespace Graph

/-- Whether a graph performs only operations that are built, ports apart. -/
def Composed (graph : Graph) : Prop :=
  ∀ op, op.isPort = false → graph.Performs op → op.IsBuilt

/-- An empty graph performs no operation. -/
theorem composed_empty (name : String) : (empty name).Composed := by
  rintro op - ⟨id, node, found, -⟩
  simp [empty, node?, Slots.empty, Slots.get?] at found

section

variable {before after : Graph}

/-- A graph that narrows stays composed. -/
theorem Composed.narrows (composed : before.Composed) (narrows : before.Narrows after) :
    after.Composed :=
  fun op plain performs => composed op plain (narrows op plain performs)

/-- A graph to which a node with a built operation is added stays composed. -/
theorem Composed.addNode (composed : before.Composed) (sound : before.Sound) {node : Node}
    (built : node.op.IsBuilt) : (before.addNode node).Composed := by
  rintro op plain ⟨id, other, found, rfl⟩
  rw [sound.node?_addNode] at found
  split at found
  · cases found
    exact built
  · exact composed _ plain ⟨id, other, found, rfl⟩

/-- A graph that is asked for an input performs no other operations. -/
theorem AddsInput.narrows {name : String} {type : SocketType} {id : Nat}
    (adds : AddsInput before after name type id) : before.Narrows after :=
  narrows_of_nodes fun other node found plain => by
    by_cases same : other = id
    · subst same
      cases old : before.node? other with
      | none =>
        rw [(adds.fresh old).2] at found
        cases found
        cases plain
      | some known =>
        rw [(adds.known known old).2] at found
        cases found
        exact ⟨known, rfl, (Node.op_widened plain).symm⟩
    · rw [adds.node? other same] at found
      exact ⟨node, found, rfl⟩

/-- A graph to which an output is added performs no other operations. -/
theorem AddsOutput.narrows {name : String} {type : SocketType} {id : Nat}
    (adds : AddsOutput before after name type id) : before.Narrows after :=
  narrows_of_nodes fun other node found plain => by
    rw [adds.node?] at found
    split at found
    · cases found
      cases plain
    · exact ⟨node, found, rfl⟩

/-- A graph performs no other operations once a node has another label. -/
theorem narrows_setLabel {id : Nat} {label : Option String}
    (done : before.setLabel id label = .ok after) : before.Narrows after := by
  obtain ⟨node, found, same⟩ := bind_eq_ok_iff.1 done
  cases same
  rw [node_eq_ok_iff] at found
  refine narrows_of_nodes fun other changed here _ => ?_
  rw [node?_setNode found] at here
  split at here
  · rename_i same
    cases here
    exact ⟨node, same ▸ found, rfl⟩
  · exact ⟨changed, here, rfl⟩

end

end Graph

namespace Scope

variable {library : Library} {held : List Nat} {before after : Scope}

/-- A variable is read from ports, from instances or from the split of a vector. -/
theorem Tidy.composed_readVariable (tidy : before.Tidy library held)
    (composed : before.graph.Composed) {v : Variable} {socket : Socket}
    (done : before.readVariable v = .ok (socket, after)) : after.graph.Composed := by
  obtain ⟨name, -, -, rfl⟩ | ⟨-, defaults, -, type, input, asked, asks, read⟩ :=
    readVariable_eq_ok done
  · exact composed
  · obtain ⟨advances, adds, -, offers⟩ := (tidy.withDefaults defaults).tidy.addInput v.name type
    rw [asks] at advances adds offers
    have start : asked.graph.Composed := composed.narrows adds.narrows
    obtain ⟨-, -, -, rfl⟩ | ⟨-, -, -, rfl⟩ | ⟨-, -, id, -, -, -, -, -, split⟩ := read
    · exact start
    · exact start
    · obtain ⟨-, rfl⟩ | ⟨-, -, graph, -, connects, rfl⟩ := advances.tidy.split_eq_ok offers split
      · exact start
      · have added : (asked.addNode (.ofOp .separateXyz)).graph.Composed :=
          start.addNode advances.tidy.runnable.sound .split
        exact added.narrows (Graph.narrows_of_same connects.node?)

end Scope

section

variable {library : Library} {reuse : Bool}

/-- Building a tree, and feeding a node, adds only nodes with built operations. -/
theorem lower_composed (runnable : Library.Runnable library) (reuse : Bool) :
    (∀ held e scope socket after, scope.Tidy library held →
      lower library reuse e scope = .ok (socket, after) →
        scope.graph.Composed → after.graph.Composed) ∧
    ∀ held operands id scope after, scope.Tidy library (id :: held) →
      feed library reuse operands id scope = .ok after →
        scope.graph.Composed → after.graph.Composed := by
  refine @lower_tidy_induct library reuse runnable
    (fun _ _ scope _ after => scope.graph.Composed → after.graph.Composed)
    (fun _ _ _ scope after => scope.graph.Composed → after.graph.Composed)
    ?remembered ?read ?make ?nil ?cons
  case remembered =>
    intro held e scope socket tidy found composed
    exact composed
  case read =>
    intro held v scope socket after tidy fresh reads composed
    rw [Scope.graph_remember]
    exact tidy.composed_readVariable composed reads
  case make =>
    intro held e scope recipe fed tidy fresh planned keeps composed
    rw [Scope.graph_remember]
    exact keeps (composed.addNode tidy.runnable.sound (.planned planned))
  case nil =>
    intro held id scope composed
    exact composed
  case cons =>
    intro held place e rest id scope source built linked after tidy advances offers links first
      others composed
    obtain ⟨-, connects, -⟩ := advances.tidy.connect offers (by simp) links
    exact others ((first composed).narrows (Graph.narrows_of_same connects.node?))

end

namespace Builder

/-- Whether the graphs and the definitions of a build perform only operations that are built, ports
apart. -/
structure Composed (builder : Builder) : Prop where
  library : ∀ name definition, builder.library.get? name = some definition → definition.Composed
  root : builder.root.graph.Composed
  opened : ∀ group ∈ builder.opened, group.scope.graph.Composed

/-- Nothing is performed before the first statement. -/
theorem composed_start (options : BuildOptions) : (start options).Composed where
  library name definition found := by simp [start] at found
  root := Graph.composed_empty rootName
  opened group mem := by cases mem

section

variable {builder after : Builder} {called : String} {arguments : List Expr}

/-- The innermost graph of a build is composed. -/
theorem Composed.scope (composed : builder.Composed) : builder.scope.graph.Composed :=
  scope_of_forall (P := fun scope => scope.graph.Composed) composed.root composed.opened

/-- Another innermost scope keeps a build composed. -/
theorem Composed.setScope (composed : builder.Composed) {scope : Scope}
    (composed' : scope.graph.Composed) : (builder.setScope scope).Composed := by
  obtain ⟨root, opened⟩ :=
    forall_setScope (P := fun scope => scope.graph.Composed) composed.root composed.opened composed'
  refine ⟨?_, root, opened⟩
  rw [library_setScope]
  exact composed.library

/-- The start of a statement keeps a build composed. -/
theorem Composed.atStatement (composed : builder.Composed) : builder.atStatement.Composed := by
  unfold Builder.atStatement
  split
  · exact composed.setScope composed.scope
  · exact composed

/-- An output keeps a build composed. -/
theorem Composed.output (composed : builder.Composed) (tidy : builder.Tidy) {name : String}
    {type : SocketType} {e : Expr} (done : builder.output name type e = .ok after) :
    after.Composed := by
  obtain ⟨scope, lowered, rfl⟩ := output_eq_ok done
  have adds := tidy.scope.runnable.sound.addOutput name type
  have ready := tidy.scope.addOutput adds
  obtain ⟨⟨source, built⟩, builds, links⟩ := bind_eq_ok_iff.1 lowered
  obtain ⟨advances, offers⟩ :=
    (lower_keeps tidy.library builder.options.optimize).1 e _ _ _ _ ready builds
  obtain ⟨-, connects, -⟩ := advances.tidy.connect offers.2 (by simp) links
  have start : Graph.Composed (builder.scope.graph.addOutput name type).2 :=
    composed.scope.narrows adds.narrows
  exact composed.setScope (((lower_composed tidy.library builder.options.optimize).1 _ e _ _ _ ready
    builds start).narrows (Graph.narrows_of_same connects.node?))

/-- The start of a group keeps a build composed. -/
theorem Composed.startGroup (composed : builder.Composed)
    (done : builder.startGroup called arguments = .ok after) : after.Composed := by
  obtain ⟨-, inputs, name, scope, -, -, declared, rfl⟩ := startGroup_eq_ok done
  have started : scope.graph.Sound ∧ scope.graph.Composed :=
    foldlM_keeps (fun scope : Scope => scope.graph.Sound ∧ scope.graph.Composed)
      (fun before argument after ⟨sound, composed⟩ stepped => by
        obtain ⟨v, type, defaults, -, rfl⟩ := declareInput_eq_ok stepped
        have adds := sound.addInput v.name type
        exact ⟨adds.sound, composed.narrows adds.narrows⟩)
      declared ⟨Graph.sound_empty name, Graph.composed_empty name⟩
  refine ⟨composed.library, composed.root, fun group mem => ?_⟩
  rcases List.mem_cons.1 mem with rfl | mem
  · exact started.2
  · exact composed.opened group mem

/-- What a composed scope becomes when it is closed is composed, and so are the definitions. -/
theorem Composed.close (composed : builder.Composed) (tidy : builder.Tidy) {scope : Scope}
    {site : Site} (tidy' : scope.Tidy builder.library []) (composed' : scope.graph.Composed)
    (done : builder.close scope = .ok site) : ∀ graph, site.Holds graph → graph.Composed := by
  have shrinks : Site.Shrinks ⟨scope.graph, builder.library⟩ site := by
    rcases tidy.close_outcome tidy' with ⟨site', closed, shrinks⟩ | ⟨name, refused⟩
    · cases done.symm.trans closed
      exact shrinks
    · cases done.symm.trans refused
  rintro graph (- | ⟨found⟩)
  · exact composed'.narrows shrinks.graph
  · obtain ⟨old, known, narrows⟩ := shrinks.definitions _ graph found
    exact (composed.library _ old known).narrows narrows

/-- The end of a group keeps a build composed. -/
theorem Composed.endGroup (composed : builder.Composed) (tidy : builder.Tidy)
    (done : builder.endGroup called arguments = .ok after) : after.Composed := by
  obtain ⟨-, group, rest, site, -, -, opened, closed, rfl⟩ := endGroup_eq_ok done
  have innermost : group ∈ builder.opened := by simp [opened]
  have composed' := composed.close tidy (tidy.opened group innermost).1
    (composed.opened group innermost) closed
  refine ⟨fun name definition found => ?_, composed.root,
    fun other mem => composed.opened other (by simp [opened, mem])⟩
  rw [Table.get?_insert] at found
  split at found
  · cases found
    exact composed' _ .root
  · exact composed' _ (.definition found)

/-- An instance that is added keeps a build composed. -/
theorem Composed.addInstance (composed : builder.Composed) (tidy : builder.Tidy)
    (done : builder.addInstance called arguments = .ok after) : after.Composed := by
  obtain ⟨group, recipe, fed, label, graph, made, feeds, labels, rfl⟩ := addInstance_eq_ok done
  obtain ⟨name, definition, found, node⟩ := Recipe.isInstance_ofGroup made
  obtain ⟨-, added⟩ := tidy.addInstanceNode made
  have start : (builder.scope.addNode recipe.node).graph.Composed :=
    composed.scope.addNode tidy.scope.runnable.sound (node ▸ .group _)
  exact composed.setScope (((lower_composed tidy.library builder.options.optimize).2 _ _ _ _ _
    added.tidy feeds start).narrows (Graph.narrows_setLabel labels))

/-- A directive keeps a build composed. -/
theorem Composed.directive (composed : builder.Composed) (tidy : builder.Tidy) {role : Directive}
    (done : builder.directive role called arguments = .ok after) : after.Composed := by
  cases role with
  | groupStart => exact composed.startGroup done
  | groupEnd => exact composed.endGroup tidy done
  | groupAdd => exact composed.addInstance tidy done
  | inputs | outputs =>
    obtain ⟨names, -, same⟩ := bind_eq_ok_iff.1 done
    cases same
    exact composed.setScope composed.scope

/-- A statement keeps a build composed. -/
theorem Composed.statement (composed : builder.Composed) (tidy : builder.Tidy) {e : Expr}
    (done : builder.statement e = .ok after) : after.Composed := by
  have ready := composed.atStatement
  obtain rfl | ⟨name, args, role, rfl, called⟩ | ⟨target, tree, rfl⟩ | bare := e.statement_cases
  · cases done
    exact ready
  · rw [statement_of_directive called] at done
    exact ready.directive tidy.atStatement done
  · obtain ⟨⟨name, type⟩, -, done⟩ := bind_eq_ok_iff.1 done
    exact ready.output tidy.atStatement done
  · rw [statement_of_bare bare] at done
    exact ready.output tidy.atStatement done

/-- Statements keep a build composed. -/
theorem Composed.statements (composed : builder.Composed) (tidy : builder.Tidy)
    {statements : List Expr} (done : statements.foldlM Builder.statement builder = .ok after) :
    after.Composed ∧ after.Tidy :=
  foldlM_keeps (fun builder => Composed builder ∧ builder.Tidy)
    (fun _ _ _ ⟨composed, tidy⟩ stated => ⟨composed.statement tidy stated, tidy.statement stated⟩)
    done ⟨composed, tidy⟩

end

end Builder

/-- The graphs of a build, the root and the definitions, perform only operations that are built,
ports apart. -/
theorem Expr.composed_build {e : Expr} {options : BuildOptions} {site : Site}
    (built : e.build options = .ok site) {graph : Graph} (holds : site.Holds graph) :
    graph.Composed := by
  obtain ⟨builder, stated, finished⟩ := bind_eq_ok_iff.1 built
  obtain ⟨composed, tidy⟩ := (Builder.composed_start options).statements
    (Builder.tidy_start options) stated
  unfold Builder.finish at finished
  split at finished
  · cases finished
  · exact composed.close tidy tidy.root composed.root finished graph holds

/-- The stops of the color ramps of a build are in order. -/
theorem Expr.rampsInOrder_build {e : Expr} {options : BuildOptions} {site : Site}
    (built : e.build options = .ok site) {graph : Graph} (holds : site.Holds graph) :
    graph.RampsInOrder := by
  intro id node ramp found op
  obtain ⟨arguments, described⟩ :=
    (composed_build built holds _ (by rw [op]; rfl) ⟨id, node, found, rfl⟩).exists_ofArguments op
  exact ColorRamp.inOrder_ofArguments described

/-- The refusals that tell of the assignment, of a node that has no value outside of a renderer, or
of instances that are nested too deep. -/
inductive EvalError.IsReported : EvalError → Prop
  | missingInput (name : String) : IsReported (.missingInput name)
  | unknownInput (name : String) : IsReported (.unknownInput name)
  | unsupported (node : Nat) (op : String) : IsReported (.unsupported node op)
  | recursionLimitExceeded (node limit : Nat) : IsReported (.recursionLimitExceeded node limit)

/-- An evaluation of a built graph that is refused tells why, unless it comes to a color ramp that is
sampled at what is no number; there, and only there, it finds no stops around a factor. -/
theorem Expr.build_strays {e : Expr} {options : BuildOptions} {site : Site}
    (built : e.build options = .ok site) (config : EvalConfig) (supplied : Assignment) :
    (∀ error, evaluate site.graph site.library config supplied = .error error →
      error.IsReported ∨ ∃ id, error = .unbracketedFactor id) ∧
    ∀ id, evaluate site.graph site.library config supplied = .error (.unbracketedFactor id) ↔
      Strays site.library config config.maxDepth site.graph supplied id := by
  have runs := runs_build built
  constructor
  · intro error refused
    have sound := runs.graph.evaluate_error runs.library refused
    cases error with
    | missingInput name => exact .inl (.missingInput name)
    | unknownInput name => exact .inl (.unknownInput name)
    | unsupported node op => exact .inl (.unsupported node op)
    | recursionLimitExceeded node limit => exact .inl (.recursionLimitExceeded node limit)
    | unbracketedFactor id => exact .inr ⟨id, rfl⟩
    | cycleDetected node => exact absurd (.cycleDetected node) sound
    | unknownGroup node group => exact absurd (.unknownGroup node group) sound
    | notComputable node op => exact absurd (.notComputable node op) sound
    | vanished node => exact absurd (.vanished node) sound
    | strayLink number => exact absurd (.strayLink number) sound
  · intro id
    refine ⟨fun refused => ?_, Strays.unbracketed⟩
    exact strays_of_unbracketed (fun name definition found =>
      rampsInOrder_build built (.definition found)) (rampsInOrder_build built .root) refused

/-- A color ramp from black to white whose factor is an input. -/
def Expr.rampOfInput : Expr :=
  .call "colorramp" (.chain [.var (.plain "x"), .var (.plain "linear")])

/-- A color ramp is built that finds no stops around an input that is no number. -/
theorem Expr.build_strays_nan : ∃ site, rampOfInput.build .standard = .ok site ∧
    Strays site.library .standard 64 site.graph (.ofList [("x", .scalar Float.nan)]) 1 := by
  have bare : rampOfInput.IsBare := isBare_call rfl _
  have ramp : Plan.of .empty rampOfInput = .ok (.make ⟨.ofOp (.colorRamp .blackToWhite),
      [(0, .var (.plain "x"))], 0⟩) := by with_unfolding_all rfl
  have input : Plan.of .empty (.var (.plain "x")) = .ok (.read (.plain "x")) := rfl
  obtain ⟨site, built, refused⟩ : ∃ site, rampOfInput.build .standard = .ok site ∧
      evaluate site.graph site.library .standard (.ofList [("x", .scalar Float.nan)]) =
        .error (.unbracketedFactor 1) := by
    rw [build_of_bare bare rfl, lowerInto, lower_of_make rfl ramp, feed, lower_of_read rfl input]
    simp only [feed]
    exact ⟨_, rfl, by decide +kernel⟩
  exact ⟨site, built, ((build_strays built .standard _).2 1).1 refused⟩

end Shadeloom
