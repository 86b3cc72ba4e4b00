import Mathlib
import Shadeloom.Proofs.Build.Correctness
import Shadeloom.Proofs.Build.Supplying
/-!
# Nodes that are saved

A build that uses sockets again goes beside one of the same statements that does not. Their scopes
stay level: they have the same inputs and have split the same vectors. So a statement adds as many
ports and splits to both, and of the nodes that compute something it adds no more to the first: where
the one takes a tree that has been built, the other makes it anew.
-/
namespace Shadeloom

namespace Graph

/-- A graph that grows loses no node of a kind. -/
theorem Grows.countNodes_le {before after : Graph} {fed : List Nat} (grows : before.Grows after fed)
    {test : NodeOp → Bool} (byKind : ∀ op op', op.kind = op'.kind → test op = test op') :
    before.countNodes test ≤ after.countNodes test := by
  refine Graph.countNodes_le fun id node found passes => ?_
  obtain ⟨type, here⟩ := grows.node? id node found
  exact ⟨_, here, (byKind _ _ (node.kind_widened type)).trans passes⟩

/-- A graph that grows loses no node that computes something. -/
theorem Grows.computingCount_le {before after : Graph} {fed : List Nat}
    (grows : before.Grows after fed) : before.computingCount ≤ after.computingCount :=
  grows.countNodes_le fun _ _ same => congrArg NodeKind.isComputing same

/-- Every node computes something, or it is a port or splits a vector. -/
theorem nodeCount_eq_add (graph : Graph) :
    graph.nodeCount = graph.computingCount + graph.portCount :=
  graph.nodeCount_eq _

/-- An output that is added is one node more. -/
theorem AddsOutput.nodeCount {before after : Graph} {name : String} {type : SocketType} {id : Nat}
    (adds : before.AddsOutput after name type id) : after.nodeCount = before.nodeCount + 1 := by
  have computing : after.computingCount = before.computingCount := adds.countNodes
  have port : after.portCount = before.portCount + 1 := adds.countNodes
  rw [nodeCount_eq_add, nodeCount_eq_add, computing, port, Nat.add_assoc]

/-- A label changes neither the inputs of a graph nor how many nodes there are. -/
theorem setLabel_counts {before after : Graph} {id : Nat} {label : Option String}
    (done : before.setLabel id label = .ok after) :
    after.inputs = before.inputs ∧ after.nodeCount = before.nodeCount := by
  obtain ⟨node, found, same⟩ := bind_eq_ok_iff.1 done
  cases same
  rw [node_eq_ok_iff] at found
  have computing : (before.setNode id { node with label }).computingCount = before.computingCount :=
    countNodes_setNode found rfl
  have port : (before.setNode id { node with label }).portCount = before.portCount :=
    countNodes_setNode found rfl
  exact ⟨rfl, by rw [nodeCount_eq_add, nodeCount_eq_add, computing, port]⟩

end Graph

section

variable {library library' : Library}

/-- Nodes that are made on both sides count once on each. -/
theorem saves_of_made {scope scope' fed fed' : Scope} {node node' : Node}
    (sound : scope.graph.Sound) (sound' : scope'.graph.Sound)
    (computing : node.op.kind.isComputing = true) (computing' : node'.op.kind.isComputing = true)
    (later : fed.graph.computingCount + (scope'.addNode node').graph.computingCount ≤
      fed'.graph.computingCount + (scope.addNode node).graph.computingCount) :
    fed.graph.computingCount + scope'.graph.computingCount ≤
      fed'.graph.computingCount + scope.graph.computingCount := by
  have count : (scope.addNode node).graph.computingCount = scope.graph.computingCount + 1 := by
    have one := sound.computingCount_addNode node
    rwa [if_pos computing] at one
  have count' : (scope'.addNode node').graph.computingCount = scope'.graph.computingCount + 1 := by
    have one := sound'.computingCount_addNode node'
    rwa [if_pos computing'] at one
  omega

/-- Building a tree with sockets used again adds no more nodes that compute something than building
it anew, and so does feeding a node. -/
theorem lower_saves (runnable : Library.Runnable library) (runnable' : Library.Runnable library') :
    (∀ held e scope socket after, scope.Tidy library held →
      lower library true e scope = .ok (socket, after) →
        ∀ held' scope' socket' after', scope'.Tidy library' held' →
          lower library' false e scope' = .ok (socket', after') →
            after.graph.computingCount + scope'.graph.computingCount ≤
              after'.graph.computingCount + scope.graph.computingCount) ∧
    ∀ held operands id scope after, scope.Tidy library (id :: held) →
      feed library true operands id scope = .ok after →
        ∀ held' operands' id' scope' after', operands'.map Prod.snd = operands.map Prod.snd →
          scope'.Tidy library' (id' :: held') →
            feed library' false operands' id' scope' = .ok after' →
              after.graph.computingCount + scope'.graph.computingCount ≤
                after'.graph.computingCount + scope.graph.computingCount := by
  have keeps' := lower_keeps runnable' false
  -- The steps are those with sockets used again; the other build does at least as much in each.
  apply @lower_tidy_induct library true runnable
    (fun _ e scope _ after => ∀ held' scope' socket' after', scope'.Tidy library' held' →
      lower library' false e scope' = .ok (socket', after') →
        after.graph.computingCount + scope'.graph.computingCount ≤
          after'.graph.computingCount + scope.graph.computingCount)
    (fun _ operands _ scope after => ∀ held' operands' id' scope' after',
      operands'.map Prod.snd = operands.map Prod.snd → scope'.Tidy library' (id' :: held') →
        feed library' false operands' id' scope' = .ok after' →
          after.graph.computingCount + scope'.graph.computingCount ≤
            after'.graph.computingCount + scope.graph.computingCount)
  case remembered =>
    intro held e scope socket tidy found held' scope' socket' after' tidy' done'
    have more := (keeps'.1 e scope' held' _ after' tidy' done').1.grows.computingCount_le
    omega
  case read =>
    intro held v scope socket after tidy fresh reads held' scope' socket' after' tidy' done'
    have planned' : Plan.of library' (.var v) = .ok (.read v) := rfl
    rw [lower_of_read rfl planned'] at done'
    obtain ⟨⟨source', read'⟩, reads', same⟩ := bind_eq_ok_iff.1 done'
    cases same
    have count := (tidy.readVariable_computes reads).2
    have count' := (tidy'.readVariable_computes reads').2
    show after.graph.computingCount + _ ≤ read'.graph.computingCount + _
    omega
  case make =>
    intro held e scope recipe fed tidy fresh planned feeds held' scope' socket' after' tidy' done'
    cases planned' : Plan.of library' e with
    | error error =>
      rw [lower_of_refused rfl planned'] at done'
      cases done'
    | ok plan =>
      cases plan with
      | read v =>
        obtain rfl := Plan.eq_var_of_read planned'
        cases Recipe.isComputed_of_make planned
      | make recipe' =>
        rw [lower_of_make rfl planned'] at done'
        obtain ⟨fed', fills', same⟩ := bind_eq_ok_iff.1 done'
        cases same
        have operands : recipe'.operands.map Prod.snd = recipe.operands.map Prod.snd :=
          (Recipe.map_operands planned').trans (Recipe.map_operands planned).symm
        have added' := tidy'.addNode recipe'.node
          (fun port same => absurd same (Recipe.not_input planned' port))
          (Recipe.refers runnable' planned')
        show fed.graph.computingCount + _ ≤ fed'.graph.computingCount + _
        exact saves_of_made tidy.runnable.sound tidy'.runnable.sound (Recipe.isComputing planned)
          (Recipe.isComputing planned') (feeds held' _ _ _ fed' operands added'.tidy fills')
  case nil =>
    intro held id scope held' operands' id' scope' after' same tidy' done'
    rw [List.map_nil, List.map_eq_nil_iff] at same
    subst same
    rw [feed] at done'
    cases done'
    exact Nat.le_of_eq (Nat.add_comm _ _)
  case cons =>
    intro held place e rest id scope source built linked after tidy advances offers links first others
      held' operands' id' scope' after' same tidy' done'
    obtain ⟨⟨place', e'⟩, rest', rfl, rfl, alike⟩ := List.map_eq_cons_iff.1 same
    rw [feed] at done'
    obtain ⟨⟨source', built'⟩, builds', done'⟩ := bind_eq_ok_iff.1 done'
    obtain ⟨linked', links', done'⟩ := bind_eq_ok_iff.1 done'
    obtain ⟨advances', offers'⟩ := keeps'.1 e' scope' (id' :: held') source' built' tidy' builds'
    obtain ⟨-, connects, -⟩ := advances.tidy.connect offers (by simp) links
    obtain ⟨linking', connects', -⟩ := advances'.tidy.connect offers'.2 (by simp) links'
    have early := first (id' :: held') scope' source' built' tidy' builds'
    have link : linked.graph.computingCount = built.graph.computingCount := connects.countNodes
    have link' : linked'.graph.computingCount = built'.graph.computingCount := connects'.countNodes
    have late := others held' rest' id' linked' after' alike linking'.tidy done'
    omega

/-- A node that is made and fed with sockets used again adds no more nodes than one that is fed with
trees that are built anew. -/
theorem feed_saves (runnable : Library.Runnable library) (runnable' : Library.Runnable library')
    {operands operands' : List (Nat × Expr)} {scope scope' fed fed' : Scope} {node node' : Node}
    {held held' : List Nat} (tidy : scope.Tidy library held) (tidy' : scope'.Tidy library' held')
    (shaped : ∀ port, node.op ≠ .input port) (shaped' : ∀ port, node'.op ≠ .input port)
    (refers : node.Refers library) (refers' : node'.Refers library')
    (computing : node.op.kind.isComputing = true) (computing' : node'.op.kind.isComputing = true)
    (same : operands'.map Prod.snd = operands.map Prod.snd)
    (feeds : feed library true operands scope.graph.nextNode (scope.addNode node) = .ok fed)
    (feeds' : feed library' false operands' scope'.graph.nextNode (scope'.addNode node') = .ok fed') :
    fed.graph.computingCount + scope'.graph.computingCount ≤
      fed'.graph.computingCount + scope.graph.computingCount := by
  have added := tidy.addNode node (fun port same => absurd same (shaped port)) refers
  have added' := tidy'.addNode node' (fun port same => absurd same (shaped' port)) refers'
  have later := (lower_saves runnable runnable').2 held operands _ _ fed added.tidy feeds held'
    operands' _ _ fed' same added'.tidy feeds'
  exact saves_of_made tidy.runnable.sound tidy'.runnable.sound computing computing' later

end

namespace Scope

/-- Whether two scopes have the same inputs and have split the same vectors, and each has all that is
used by what it has built. -/
structure Level (scope scope' : Scope) : Prop where
  covers : scope.Covers
  covers' : scope'.Covers
  supplies : scope.supplies = scope'.supplies

section

variable {library library' : Library} {scope scope' after after' : Scope}

/-- Scopes that gain what is used by the same trees stay level, and the first one gets no more nodes
if it gets no more that compute something. -/
theorem Level.gain (level : scope.Level scope') {uses : Supply → Prop}
    (gains : scope.Gains uses after) (gains' : scope'.Gains uses after')
    (saves : after.graph.computingCount + scope'.graph.computingCount ≤
      after'.graph.computingCount + scope.graph.computingCount) :
    after.Level after' ∧ after.graph.nodeCount + scope'.graph.nodeCount ≤
      after'.graph.nodeCount + scope.graph.nodeCount := by
  have supplies : after.supplies = after'.supplies := by
    ext supply
    rw [gains.supplies, gains'.supplies, level.supplies]
  refine ⟨⟨gains.covers, gains'.covers, supplies⟩, ?_⟩
  have count := gains.count
  have count' := gains'.count
  rw [supplies, level.supplies] at count
  simp only [Graph.nodeCount_eq_add]
  omega

/-- Scopes stay level when both forget what they have built and split. -/
theorem Level.forget (level : scope.Level scope') : scope.forget.Level scope'.forget where
  covers entry mem := by cases mem
  covers' entry mem := by cases mem
  supplies := by
    ext supply
    cases supply with
    | input name =>
      have same : .input name ∈ scope.supplies ↔ .input name ∈ scope'.supplies := by
        rw [level.supplies]
      rw [mem_supplies_input, mem_supplies_input] at same
      rw [mem_supplies_input, mem_supplies_input]
      exact same
    | split name =>
      rw [mem_supplies_split, mem_supplies_split]
      rfl

/-- Scopes stay level when their graphs change but for their inputs. -/
theorem Level.withGraph (level : scope.Level scope') (same : after.graph.inputs = scope.graph.inputs)
    (splits : after.splits = scope.splits) (built : after.built = scope.built)
    (same' : after'.graph.inputs = scope'.graph.inputs) (splits' : after'.splits = scope'.splits)
    (built' : after'.built = scope'.built) : after.Level after' := by
  have supplies := supplies_congr same splits
  have supplies' := supplies_congr same' splits'
  refine ⟨fun entry mem => ?_, fun entry mem => ?_, ?_⟩
  · rw [supplies]
    exact level.covers entry (built ▸ mem)
  · rw [supplies']
    exact level.covers' entry (built' ▸ mem)
  · rw [supplies, supplies', level.supplies]

/-- Building a tree into a socket keeps scopes level and adds no more nodes than building it anew. -/
theorem Level.lowerInto (level : scope.Level scope') (runnable : Library.Runnable library)
    (runnable' : Library.Runnable library') {e : Expr} {target target' : Socket}
    (tidy : scope.Tidy library [target.node]) (tidy' : scope'.Tidy library' [target'.node])
    (done : lowerInto library true e target scope = .ok after)
    (done' : lowerInto library' false e target' scope' = .ok after') :
    after.Level after' ∧ after.graph.nodeCount + scope'.graph.nodeCount ≤
      after'.graph.nodeCount + scope.graph.nodeCount := by
  obtain ⟨⟨source, built⟩, builds, links⟩ := bind_eq_ok_iff.1 done
  obtain ⟨⟨source', built'⟩, builds', links'⟩ := bind_eq_ok_iff.1 done'
  obtain ⟨advances, offers⟩ := (lower_keeps runnable true).1 e scope _ _ _ tidy builds
  obtain ⟨advances', offers'⟩ := (lower_keeps runnable' false).1 e scope' _ _ _ tidy' builds'
  have gains := (lower_gains runnable true).1 _ e scope _ _ tidy builds level.covers
  have gains' := (lower_gains runnable' false).1 _ e scope' _ _ tidy' builds' level.covers'
  have link := gains.covers.connect advances.tidy offers.2 (by simp) links
  have link' := gains'.covers.connect advances'.tidy offers'.2 (by simp) links'
  obtain ⟨-, connects, -⟩ := advances.tidy.connect offers.2 (by simp) links
  obtain ⟨-, connects', -⟩ := advances'.tidy.connect offers'.2 (by simp) links'
  have saves := (lower_saves runnable runnable').1 _ e scope _ _ tidy builds _ scope' _ _ tidy' builds'
  have count : after.graph.computingCount = built.graph.computingCount := connects.countNodes
  have count' : after'.graph.computingCount = built'.graph.computingCount := connects'.countNodes
  refine level.gain (gains.trans link fun supply => by rw [or_false])
    (gains'.trans link' fun supply => by rw [or_false]) ?_
  rw [count, count']
  exact saves

end

end Scope

namespace Builder

/-- The number of nodes in the root and in the groups that are open. -/
def nodeCount (builder : Builder) : Nat :=
  builder.root.graph.nodeCount +
    (builder.opened.map fun group => group.scope.graph.nodeCount).sum

/-- The number of nodes that statements add, up to one that is refused; a group that ends takes its
nodes away and adds none. -/
def added (builder : Builder) : List Expr → Nat
  | [] => 0
  | e :: rest =>
    match builder.statement e with
    | .error _ => 0
    | .ok after => after.nodeCount - builder.nodeCount + after.added rest

/-- Whether two builds are at the same statement, of which the first one uses sockets again and the
second one does not. -/
structure Level (builder builder' : Builder) : Prop where
  tidy : builder.Tidy
  tidy' : builder'.Tidy
  root : builder.root.Level builder'.root
  opened : List.Forall₂ (fun group group' => group.scope.Level group'.scope) builder.opened
    builder'.opened
  shares : builder.options.optimize = true
  repeats : builder'.options.optimize = false
  isolates : builder.options.isolateStatements = builder'.options.isolateStatements

/-- Whether a step of two builds leaves them level and adds no more nodes to the first one. -/
structure StaysLevel (builder builder' after after' : Builder) : Prop where
  level : after.Level after'
  added : after.nodeCount - builder.nodeCount ≤ after'.nodeCount - builder'.nodeCount

section

variable {builder builder' after after' : Builder}

/-- The nodes of the innermost scope are replaced with it. -/
theorem nodeCount_setScope (builder : Builder) (scope : Scope) :
    (builder.setScope scope).nodeCount + builder.scope.graph.nodeCount =
      builder.nodeCount + scope.graph.nodeCount := by
  unfold nodeCount setScope Builder.scope
  cases opened : builder.opened with
  | nil =>
    simp only [List.map_nil, List.sum_nil]
    omega
  | cons group rest =>
    simp only [List.map_cons, List.sum_cons]
    omega

/-- No more nodes are added with a scope that gets no more. -/
theorem setScope_adds_le {scope scope' : Scope}
    (count : scope.graph.nodeCount + builder'.scope.graph.nodeCount ≤
      scope'.graph.nodeCount + builder.scope.graph.nodeCount) :
    (builder.setScope scope).nodeCount - builder.nodeCount ≤
      (builder'.setScope scope').nodeCount - builder'.nodeCount := by
  have total := nodeCount_setScope builder scope
  have total' := nodeCount_setScope builder' scope'
  omega

/-- No node is added at the start of a statement. -/
theorem nodeCount_atStatement (builder : Builder) :
    builder.atStatement.nodeCount = builder.nodeCount := by
  unfold atStatement
  split
  · have total := nodeCount_setScope builder builder.scope.forget
    have same : builder.scope.forget.graph.nodeCount = builder.scope.graph.nodeCount := rfl
    omega
  · rfl

namespace Level

/-- The innermost scopes of builds that are level are. -/
theorem scope (level : builder.Level builder') : builder.scope.Level builder'.scope := by
  have opened := level.opened
  unfold Builder.scope
  cases groups : builder.opened with
  | nil =>
    rw [groups, List.forall₂_nil_left_iff] at opened
    rw [opened]
    exact level.root
  | cons group rest =>
    rw [groups, List.forall₂_cons_left_iff] at opened
    obtain ⟨group', rest', head, -, groups'⟩ := opened
    rw [groups']
    exact head

/-- Builds stay level with other scopes that are. -/
theorem setScope (level : builder.Level builder') {scope scope' : Scope}
    (scopes : scope.Level scope') (tidy : (builder.setScope scope).Tidy)
    (tidy' : (builder'.setScope scope').Tidy) :
    (builder.setScope scope).Level (builder'.setScope scope') := by
  have opened := level.opened
  unfold Builder.setScope at tidy tidy' ⊢
  cases groups : builder.opened with
  | nil =>
    rw [groups, List.forall₂_nil_left_iff] at opened
    simp only [groups] at tidy
    simp only [opened] at tidy' ⊢
    exact { level with tidy, tidy', root := scopes, opened := .nil }
  | cons group rest =>
    rw [groups, List.forall₂_cons_left_iff] at opened
    obtain ⟨group', rest', -, tail, groups'⟩ := opened
    simp only [groups] at tidy
    simp only [groups'] at tidy' ⊢
    exact { level with tidy, tidy', opened := .cons scopes tail }

/-- Builds stay level at the start of a statement. -/
theorem atStatement (level : builder.Level builder') :
    builder.atStatement.Level builder'.atStatement := by
  have tidy := level.tidy.atStatement
  have tidy' := level.tidy'.atStatement
  unfold Builder.atStatement at tidy tidy' ⊢
  rw [← level.isolates] at tidy' ⊢
  split
  · rename_i isolates
    rw [if_pos isolates] at tidy tidy'
    exact level.setScope level.scope.forget tidy tidy'
  · exact level

/-- An output adds no more nodes to the first one of builds that are level. -/
theorem output (level : builder.Level builder') {name : String} {type : SocketType} {e : Expr}
    (done : builder.output name type e = .ok after)
    (done' : builder'.output name type e = .ok after') :
    StaysLevel builder builder' after after' := by
  have tidy := level.tidy.output done
  have tidy' := level.tidy'.output done'
  obtain ⟨scope, lowered, rfl⟩ := output_eq_ok done
  obtain ⟨scope', lowered', rfl⟩ := output_eq_ok done'
  rw [level.shares] at lowered
  rw [level.repeats] at lowered'
  have adds := level.tidy.scope.runnable.sound.addOutput name type
  have adds' := level.tidy'.scope.runnable.sound.addOutput name type
  have opened : Scope.Level
      { builder.scope with graph := (builder.scope.graph.addOutput name type).2 }
      { builder'.scope with graph := (builder'.scope.graph.addOutput name type).2 } :=
    level.scope.withGraph adds.inputs rfl rfl adds'.inputs rfl rfl
  obtain ⟨scopes, count⟩ := opened.lowerInto level.tidy.library level.tidy'.library
    (level.tidy.scope.addOutput adds) (level.tidy'.scope.addOutput adds') lowered lowered'
  have one := adds.nodeCount
  have one' := adds'.nodeCount
  refine ⟨level.setScope scopes tidy tidy', setScope_adds_le ?_⟩
  dsimp only at count
  omega

/-- An instance adds no more nodes to the first one of builds that are level. -/
theorem addInstance (level : builder.Level builder') {directive : String} {arguments : List Expr}
    (done : builder.addInstance directive arguments = .ok after)
    (done' : builder'.addInstance directive arguments = .ok after') :
    StaysLevel builder builder' after after' := by
  have tidy := level.tidy.addInstance done
  have tidy' := level.tidy'.addInstance done'
  obtain ⟨group, recipe, fed, called, graph, made, feeds, labels, rfl⟩ := addInstance_eq_ok done
  obtain ⟨group', recipe', fed', called', graph', made', feeds', labels', rfl⟩ :=
    addInstance_eq_ok done'
  rw [level.shares] at feeds
  rw [level.repeats] at feeds'
  obtain ⟨definition, found, -, rfl⟩ := Recipe.ofGroup_eq_ok made
  obtain ⟨definition', found', -, rfl⟩ := Recipe.ofGroup_eq_ok made'
  have refers := level.tidy.library.refers_instanceNode found
  have refers' := level.tidy'.library.refers_instanceNode found'
  have apart (definition : Graph) (port : InputPort) : definition.instanceNode.op ≠ .input port := by
    intro same
    cases same
  have gains := feed_gains level.tidy.library level.tidy.scope level.scope.covers (apart definition)
    refers rfl feeds
  have gains' := feed_gains level.tidy'.library level.tidy'.scope level.scope.covers'
    (apart definition') refers' rfl feeds'
  have saves := feed_saves level.tidy.library level.tidy'.library level.tidy.scope level.tidy'.scope
    (apart definition) (apart definition') refers refers' rfl rfl rfl feeds feeds'
  obtain ⟨scopes, count⟩ := level.scope.gain gains gains' saves
  obtain ⟨inputs, same⟩ := Graph.setLabel_counts labels
  obtain ⟨inputs', same'⟩ := Graph.setLabel_counts labels'
  refine ⟨level.setScope (scopes.withGraph inputs rfl rfl inputs' rfl rfl) tidy tidy',
    setScope_adds_le ?_⟩
  dsimp only
  rw [same, same']
  exact count

/-- A group that is started adds the same nodes to builds that are level. -/
theorem startGroup (level : builder.Level builder') {directive : String} {arguments : List Expr}
    (done : builder.startGroup directive arguments = .ok after)
    (done' : builder'.startGroup directive arguments = .ok after') :
    StaysLevel builder builder' after after' := by
  have tidy := level.tidy.startGroup done
  have tidy' := level.tidy'.startGroup done'
  obtain ⟨argument, inputs, name, scope, rfl, named, declared, rfl⟩ := startGroup_eq_ok done
  obtain ⟨argument', inputs', name', scope', same, named', declared', rfl⟩ :=
    startGroup_eq_ok done'
  cases same
  cases named.symm.trans named'
  cases declared.symm.trans declared'
  clear named' declared'
  have unbuilt : scope.built = [] := by
    refine foldlM_keeps (fun scope => scope.built = []) (fun before item after empty stated => ?_)
      declared rfl
    obtain ⟨v, type, defaults, -, rfl⟩ := declareInput_eq_ok stated
    exact empty
  have covers : scope.Covers := fun entry mem => by
    rw [unbuilt] at mem
    cases mem
  refine ⟨{ level with tidy, tidy', opened := .cons ⟨covers, covers, rfl⟩ level.opened }, ?_⟩
  simp only [nodeCount, List.map_cons, List.sum_cons]
  omega

/-- A group that is ended adds no nodes to builds that are level. -/
theorem endGroup (level : builder.Level builder') {directive : String} {arguments : List Expr}
    (done : builder.endGroup directive arguments = .ok after)
    (done' : builder'.endGroup directive arguments = .ok after') :
    StaysLevel builder builder' after after' := by
  have tidy := level.tidy.endGroup done
  have tidy' := level.tidy'.endGroup done'
  obtain ⟨-, group, rest, site, -, -, groups, -, rfl⟩ := endGroup_eq_ok done
  obtain ⟨-, group', rest', site', -, -, groups', -, rfl⟩ := endGroup_eq_ok done'
  have opened := level.opened
  rw [groups, groups'] at opened
  refine ⟨{ level with tidy, tidy', opened := (List.forall₂_cons.1 opened).2 }, ?_⟩
  simp only [nodeCount, groups, groups', List.map_cons, List.sum_cons]
  omega

/-- A directive adds no more nodes to the first one of builds that are level. -/
theorem directive (level : builder.Level builder') {role : Directive} {name : String}
    {arguments : List Expr} (done : builder.directive role name arguments = .ok after)
    (done' : builder'.directive role name arguments = .ok after') :
    StaysLevel builder builder' after after' := by
  have tidy := level.tidy.directive done
  have tidy' := level.tidy'.directive done'
  cases role with
  | groupStart => exact level.startGroup done done'
  | groupEnd => exact level.endGroup done done'
  | groupAdd => exact level.addInstance done done'
  | inputs | outputs =>
    obtain ⟨names, -, same⟩ := bind_eq_ok_iff.1 done
    obtain ⟨names', -, same'⟩ := bind_eq_ok_iff.1 done'
    cases same
    cases same'
    exact ⟨level.setScope (level.scope.withGraph rfl rfl rfl rfl rfl rfl) tidy tidy',
      setScope_adds_le (Nat.le_of_eq (Nat.add_comm _ _))⟩

/-- A statement adds no more nodes to the first one of builds that are level. -/
theorem statement (level : builder.Level builder') {e : Expr}
    (done : builder.statement e = .ok after) (done' : builder'.statement e = .ok after') :
    StaysLevel builder builder' after after' := by
  have ready := level.atStatement
  have start := nodeCount_atStatement builder
  have start' := nodeCount_atStatement builder'
  have stays (same : StaysLevel builder.atStatement builder'.atStatement after after') :
      StaysLevel builder builder' after after' := by
    have added := same.added
    rw [start, start'] at added
    exact ⟨same.level, added⟩
  apply stays
  obtain rfl | ⟨name, args, role, rfl, called⟩ | ⟨target, tree, rfl⟩ | bare := e.statement_cases
  · cases done
    cases done'
    exact ⟨ready, (Nat.sub_self builder.atStatement.nodeCount).le.trans (Nat.zero_le _)⟩
  · rw [statement_of_directive called] at done done'
    exact ready.directive done done'
  · obtain ⟨⟨name, type⟩, named, done⟩ := bind_eq_ok_iff.1 done
    obtain ⟨⟨name', type'⟩, named', done'⟩ := bind_eq_ok_iff.1 done'
    cases named.symm.trans named'
    exact ready.output done done'
  · rw [statement_of_bare bare] at done done'
    exact ready.output done done'

/-- Statements add no more nodes to the first one of builds that are level. -/
theorem added_le (level : builder.Level builder') {statements : List Expr}
    (done : statements.foldlM Builder.statement builder = .ok after)
    (done' : statements.foldlM Builder.statement builder' = .ok after') :
    builder.added statements ≤ builder'.added statements := by
  induction statements generalizing builder builder' with
  | nil => exact Nat.le_refl _
  | cons e rest ih =>
    rw [List.foldlM_cons] at done done'
    obtain ⟨between, first, later⟩ := bind_eq_ok_iff.1 done
    obtain ⟨between', first', later'⟩ := bind_eq_ok_iff.1 done'
    obtain ⟨next, count⟩ := level.statement first first'
    have more := ih next later later'
    simp only [added, first, first']
    omega

end Level

/-- Builds with and without sockets that are used again are level at the first statement. -/
theorem level_start (options : BuildOptions) :
    (start { options with optimize := true }).Level (start { options with optimize := false }) where
  tidy := tidy_start _
  tidy' := tidy_start _
  root := ⟨fun entry mem => (by cases mem), fun entry mem => (by cases mem), rfl⟩
  opened := .nil
  shares := rfl
  repeats := rfl
  isolates := rfl

end

end Builder

/-- The square of a sum reaches three different trees. -/
theorem Expr.encard_reachedTrees_square : (binary .mul sum sum).reachedTrees.encard = 3 := by
  let number : Expr := .value ⟨"2"⟩
  have numbers : number.reachedTrees = {Quotient.mk sameness number} := by
    have fed : number.fed = [] := rfl
    rw [reachedTrees_eq_insert rfl]
    simp [fed]
  have sums : sum.reachedTrees = {Quotient.mk sameness sum, Quotient.mk sameness number} := by
    have fed : sum.fed = [.var (.plain "x"), number] := rfl
    rw [reachedTrees_eq_insert rfl]
    simp [fed, reachedTrees_var, numbers]
  have products : (binary .mul sum sum).reachedTrees = {Quotient.mk sameness (.binary .mul sum sum),
      Quotient.mk sameness sum, Quotient.mk sameness number} := by
    have fed : (binary .mul sum sum).fed = [sum, sum] := rfl
    rw [reachedTrees_eq_insert rfl]
    simp only [fed, sums, List.mem_cons, List.not_mem_nil, or_false, or_self, exists_eq_left]
    rfl
  have apart {e e' : Expr} (other : e.same e' = false) :
      Quotient.mk sameness e ≠ Quotient.mk sameness e' := fun same =>
    Bool.false_ne_true (other.symm.trans (Quotient.exact same))
  rw [products, Set.encard_insert_of_notMem, Set.encard_pair (apart rfl)]
  · rfl
  · rintro (same | same)
    · exact apart rfl same
    · exact apart rfl same

/-- A single statement that is built with sockets used again adds one node for each different tree
among the literals and operations that it reaches, besides ports and one node for each input whose
vector is split; so statements that are built with and without that add no more nodes with it. -/
theorem Expr.build_shares (options : BuildOptions) :
    (∀ statement builder,
      (Builder.start { options with optimize := true }).statement statement = .ok builder →
        (builder.root.graph.computingCount : ℕ∞) =
          {tree | ∃ root ∈ statement.lowered?, tree ∈ root.reachedTrees}.encard ∧
        builder.root.graph.SplitsOnce) ∧
    ∀ (e : Expr) shared unshared, e.build { options with optimize := true } = .ok shared →
      e.build { options with optimize := false } = .ok unshared →
        (Builder.start { options with optimize := true }).added e.arguments ≤
          (Builder.start { options with optimize := false }).added e.arguments := by
  constructor
  · intro statement builder done
    exact Builder.start_statement_shares rfl done
  · intro e shared unshared built built'
    obtain ⟨builder, stated, -⟩ := bind_eq_ok_iff.1 built
    obtain ⟨builder', stated', -⟩ := bind_eq_ok_iff.1 built'
    exact (Builder.level_start options).added_le stated stated'

/-- A statement that names the square of a sum. -/
def Expr.squared : Expr :=
  .binary .assign (.var (.plain "s")) (.binary .mul sum sum)

/-- The square of a sum is built with one node for the product, one for the sum and one for the
number, and with no more nodes than without sockets that are used again. -/
theorem Expr.squared_shares : ∃ builder shared unshared,
    (Builder.start .standard).statement squared = .ok builder ∧
      squared.build .standard = .ok shared ∧
      squared.build { BuildOptions.standard with optimize := false } = .ok unshared ∧
      builder.root.graph.computingCount = 3 ∧ builder.root.graph.SplitsOnce ∧
      (Builder.start .standard).added squared.arguments ≤
        (Builder.start { BuildOptions.standard with optimize := false }).added squared.arguments := by
  obtain ⟨shared, once⟩ := exists_ok_of_isOk
    (show (squared.build .standard).isOk = true by decide +kernel)
  obtain ⟨unshared, anew⟩ := exists_ok_of_isOk
    (show (squared.build { BuildOptions.standard with optimize := false }).isOk = true by
      decide +kernel)
  obtain ⟨last, stated, -⟩ := bind_eq_ok_iff.1 once
  obtain ⟨builder, stated, -⟩ := bind_eq_ok_iff.1 stated
  have shares := build_shares .standard
  obtain ⟨count, splits⟩ := shares.1 squared builder stated
  have lowered : squared.lowered? = some (.binary .mul sum sum) := rfl
  have single : {tree | ∃ root ∈ squared.lowered?, tree ∈ root.reachedTrees} =
      (binary .mul sum sum).reachedTrees := by simp [lowered]
  rw [single, encard_reachedTrees_square] at count
  exact ⟨builder, shared, unshared, stated, once, anew, by exact_mod_cast count, splits,
    shares.2 squared shared unshared once anew⟩

end Shadeloom
