import Mathlib
import Shadeloom.Build.Cleanup
import Shadeloom.Proofs.Graph.Doubles
import Shadeloom.Proofs.Tables
/-!
# Cleanups of changed doubles

No step of a cleanup looks at a double. So a cleanup that begins with changed doubles gives the same
report or refusal, and what it leaves is the same but for the change.
-/
namespace Shadeloom

/-- The definitions with their doubles changed. -/
def Library.mapDoubles (f : Float → Float) (library : Library) : Library :=
  library.mapValues (Graph.mapDoubles f)

/-- The site with its doubles changed. -/
def Site.mapDoubles (f : Float → Float) (site : Site) : Site :=
  ⟨site.graph.mapDoubles f, Library.mapDoubles f site.library⟩

/-- The declarations with the defaults changed. -/
def Declarations.mapDoubles (f : Float → Float) (declarations : Declarations) : Declarations :=
  { declarations with defaults := declarations.defaults.mapValues f }

variable {f : Float → Float}

namespace Site

variable (site : Site) (group : String)

/-- The graph of a site has its doubles changed. -/
@[simp] theorem graph_mapDoubles : (site.mapDoubles f).graph = site.graph.mapDoubles f := rfl

/-- A definition has its doubles changed. -/
@[simp] theorem get?_mapDoubles :
    (site.mapDoubles f).library.get? group =
      (site.library.get? group).map (Graph.mapDoubles f) :=
  Table.get?_mapValues _ _ _

/-- Which groups are defined stays. -/
@[simp] theorem contains_mapDoubles :
    (site.mapDoubles f).library.contains group = site.library.contains group :=
  Table.contains_mapValues _ _ _

/-- A definition is set before or after doubles are changed. -/
theorem insert_mapDoubles (definition : Graph) :
    (site.mapDoubles f).library.insert group (definition.mapDoubles f) =
      Library.mapDoubles f (site.library.insert group definition) :=
  Table.insert_mapValues _ _ _ _

end Site

namespace Cleanup

variable {α β γ δ : Type}

/-- What a step leaves, with the doubles and the result changed. -/
def changeOutcome (f : Float → Float) (change : α → β) :
    EStateM.Result BuildError Site α → EStateM.Result BuildError Site β
  | .ok a site => .ok (change a) (site.mapDoubles f)
  | .error error site => .error error (site.mapDoubles f)

/-- Whether a step that begins with changed doubles does what another one does before the change,
but for a change of its result. -/
def Follows (f : Float → Float) (change : α → β) (step : Cleanup α) (step' : Cleanup β) : Prop :=
  ∀ site : Site, step' (site.mapDoubles f) = changeOutcome f change (step site)

/-- Whether a step does the same before and after doubles are changed. -/
abbrev IsBlind (f : Float → Float) (step : Cleanup α) : Prop :=
  Follows f id step step

/-- Steps that follow others do so one after another. -/
theorem Follows.bind {change : α → β} {change' : γ → δ} {first : Cleanup α} {first' : Cleanup β}
    {next : α → Cleanup γ} {next' : β → Cleanup δ} (early : Follows f change first first')
    (late : ∀ a, Follows f change' (next a) (next' (change a))) :
    Follows f change' (first >>= next) (first' >>= next') := by
  intro site
  show EStateM.bind first' next' (site.mapDoubles f) =
    changeOutcome f change' (EStateM.bind first next site)
  unfold EStateM.bind
  rw [early site]
  cases first site with
  | ok a between => exact late a between
  | error error between => rfl

/-- A changed result follows the result. -/
theorem follows_pure (change : α → β) (a : α) : Follows f change (pure a) (pure (change a)) :=
  fun _ => rfl

/-- A refusal follows itself. -/
theorem isBlind_throw (error : BuildError) : IsBlind f (throw error : Cleanup α) :=
  fun _ => rfl

/-- The graph is read with changed doubles. -/
theorem follows_graph : Follows f (Graph.mapDoubles f) graph graph :=
  fun _ => rfl

/-- The site is read with changed doubles. -/
theorem follows_get : Follows f (Site.mapDoubles f) (get : Cleanup Site) get :=
  fun _ => rfl

/-- The graph is replaced by one with changed doubles. -/
theorem follows_setGraph (graph : Graph) :
    Follows f id (setGraph graph) (setGraph (graph.mapDoubles f)) :=
  fun _ => rfl

/-- An edit follows another one when the graphs that they make are the same but for the change. -/
theorem follows_edit {change change' : Graph → Except GraphError Graph}
    (same : ∀ graph, change' (graph.mapDoubles f) = (change graph).map (Graph.mapDoubles f)) :
    Follows f id (edit change) (edit change') := by
  refine follows_graph.bind fun graph => ?_
  rw [same]
  cases change graph with
  | ok changed => exact follows_setGraph changed
  | error error => exact isBlind_throw _

/-- An edit of a definition is blind when it makes no difference whether doubles are changed before
or after it. -/
theorem isBlind_editDefinition (group : String) {change : Graph → Except GraphError Graph}
    (same : ∀ graph, change (graph.mapDoubles f) = (change graph).map (Graph.mapDoubles f)) :
    IsBlind f (editDefinition group change) := by
  refine follows_get.bind fun site => ?_
  rw [Site.get?_mapDoubles]
  cases site.library.get? group with
  | none => exact follows_pure id ()
  | some definition =>
    dsimp only [Option.map_some]
    rw [same]
    cases change definition with
    | error error => exact isBlind_throw _
    | ok changed =>
      intro site
      show EStateM.Result.ok () ({ site.mapDoubles f with
        library := (site.mapDoubles f).library.insert group (changed.mapDoubles f) } : Site) = _
      rw [Site.insert_mapDoubles]
      rfl

/-- Steps along lists follow each other when those for each item do. -/
theorem follows_forM (change : α → β) {step : α → Cleanup Unit} {step' : β → Cleanup Unit}
    (items : List α) (each : ∀ a, Follows f id (step a) (step' (change a))) :
    Follows f id (items.forM step) ((items.map change).forM step') := by
  induction items with
  | nil => exact follows_pure id ()
  | cons item rest ih => exact (each item).bind fun _ => ih

/-- Steps along a list are blind when each of them is. -/
theorem isBlind_forM {step : α → Cleanup Unit} (items : List α) (each : ∀ a, IsBlind f (step a)) :
    IsBlind f (items.forM step) := by
  have all := follows_forM id items each
  rwa [List.map_id] at all

/-- Steps along lists that carry a result follow each other when those for each item do. -/
theorem follows_foldlM (change : α → β) {step : γ → α → Cleanup γ} {step' : γ → β → Cleanup γ}
    (items : List α) (each : ∀ c a, Follows f id (step c a) (step' c (change a))) (start : γ) :
    Follows f id (items.foldlM step start) ((items.map change).foldlM step' start) := by
  induction items generalizing start with
  | nil => exact follows_pure id start
  | cons item rest ih => exact (each start item).bind ih

/-- Steps along a list that carry a result are blind when each of them is. -/
theorem isBlind_foldlM {step : γ → α → Cleanup γ} (items : List α)
    (each : ∀ c a, IsBlind f (step c a)) (start : γ) : IsBlind f (items.foldlM step start) := by
  have all := follows_foldlM id items each start
  rwa [List.map_id] at all

/-- Counted steps follow each other when those for each item do. -/
theorem follows_count (change : α → β) {step : α → Cleanup Bool} {step' : β → Cleanup Bool}
    (items : List α) (each : ∀ a, Follows f id (step a) (step' (change a))) :
    Follows f id (count items step) (count (items.map change) step') := by
  refine follows_foldlM change items (fun total a => (each a).bind fun changed => ?_) 0
  cases changed <;> exact follows_pure id _

/-- Counted steps are blind when each of them is. -/
theorem isBlind_count {step : α → Cleanup Bool} (items : List α) (each : ∀ a, IsBlind f (step a)) :
    IsBlind f (count items step) := by
  have all := follows_count id items each
  rwa [List.map_id] at all

/-- A test along a list is blind when that of each item is. -/
theorem isBlind_anyM {test : α → Cleanup Bool} (items : List α) (each : ∀ a, IsBlind f (test a)) :
    IsBlind f (items.anyM test) := by
  induction items with
  | nil => exact follows_pure id false
  | cons item rest ih =>
    refine (each item).bind fun found => ?_
    cases found with
    | true => exact follows_pure id true
    | false => exact ih

/-- The name of a port stays. -/
@[simp] theorem portName?_mapDoubles (graph : Graph) (id : Nat) :
    portName? (graph.mapDoubles f) id = portName? graph id := by
  unfold portName?
  rw [Graph.node?_mapDoubles]
  cases graph.node? id <;> simp

/-- Taking a node away is blind. -/
theorem isBlind_removeNode (id : Nat) : IsBlind f (removeNode id) := by
  refine follows_edit fun graph => ?_
  rw [Graph.removeNode_mapDoubles]
  cases graph.removeNode id <;> rfl

/-- Taking a node away if a test of the graph says so is blind when the test is. -/
theorem isBlind_removeIf (test : Graph → Bool)
    (same : ∀ graph : Graph, test (graph.mapDoubles f) = test graph) (id : Nat) :
    IsBlind f (do
      if test (← graph) then
        removeNode id
        return true
      else return false) := by
  refine follows_graph.bind fun graph => ?_
  rw [same]
  split
  · exact (isBlind_removeNode id).bind fun _ => follows_pure _ true
  · exact follows_pure _ false

/-- Taking a link away is blind. -/
theorem isBlind_disconnect (number : Nat) :
    IsBlind f (edit fun graph => (graph.disconnect number).map Prod.snd) := by
  refine follows_edit fun graph => ?_
  rw [Graph.disconnect_mapDoubles]
  cases graph.disconnect number <;> rfl

/-- Looking for what leads to a node is blind. -/
theorem isBlind_feeds (node : Nat) (socket : Socket) : IsBlind f (feeds node socket) := by
  unfold feeds
  split
  · exact follows_pure _ true
  · refine follows_graph.bind fun graph => ?_
    rw [Graph.reaches_mapDoubles]
    cases graph.reaches socket.node node with
    | ok answer => exact follows_pure id answer
    | error fault => exact isBlind_throw _

/-- Relinking an output is blind. -/
theorem isBlind_relinkOutput (output : Nat) : IsBlind f (relinkOutput output) := by
  refine follows_graph.bind fun graph => ?_
  rw [portName?_mapDoubles]
  cases portName? graph output with
  | none => exact follows_pure id false
  | some name =>
    dsimp only
    rw [Graph.input?_mapDoubles, Graph.source?_mapDoubles]
    cases graph.input? name with
    | none => exact follows_pure id false
    | some input =>
      cases graph.source? ⟨output, 0⟩ with
      | none => exact follows_pure id false
      | some source =>
        dsimp only
        rw [Graph.consumers_mapDoubles]
        split
        · exact follows_pure id false
        · refine (isBlind_anyM _ fun reader => isBlind_feeds source.node reader).bind fun found => ?_
          dsimp only [id]
          split
          · exact isBlind_throw _
          · refine (isBlind_forM _ fun reader => ?_).bind fun _ => follows_pure _ true
            exact follows_edit fun graph => Graph.connect_mapDoubles graph source reader

/-- Relinking outputs is blind. -/
theorem isBlind_relinkOutputs : IsBlind f relinkOutputs :=
  follows_graph.bind fun _ => isBlind_count _ isBlind_relinkOutput

/-- Taking unused inputs away is blind. -/
theorem isBlind_removeUnusedInputs : IsBlind f removeUnusedInputs :=
  follows_graph.bind fun _ => isBlind_count _ fun id =>
    isBlind_removeIf (fun graph => (graph.outgoing id).isEmpty) (fun graph => by simp) id

/-- Taking unused outputs away is blind. -/
theorem isBlind_removeUnusedOutputs : IsBlind f removeUnusedOutputs :=
  follows_graph.bind fun _ => isBlind_count _ fun id =>
    isBlind_removeIf (fun graph => (graph.incoming id).isEmpty) (fun graph => by simp) id

/-- Which ports are to be hidden stays. -/
theorem portsToHide_mapDoubles (declarations : Declarations) (graph : Graph) :
    portsToHide (declarations.mapDoubles f) (graph.mapDoubles f) =
      portsToHide declarations graph := by
  simp [portsToHide, Declarations.mapDoubles]

/-- Hiding ports does not depend on the defaults that are declared. -/
theorem follows_hidePorts (declarations : Declarations) :
    Follows f id (hidePorts declarations) (hidePorts (declarations.mapDoubles f)) := by
  refine follows_graph.bind fun graph => ?_
  rw [portsToHide_mapDoubles]
  refine isBlind_count _ fun port => follows_graph.bind fun graph => ?_
  rw [Graph.isExposed_mapDoubles]
  split
  · refine Follows.bind (follows_edit fun graph => ?_) fun _ => follows_pure _ true
    exact Graph.setExposed_mapDoubles graph port false
  · exact follows_pure _ false

/-- Taking an input socket of a node away is blind. -/
theorem isBlind_removeInputSocket (id place : Nat) : IsBlind f (removeInputSocket id place) := by
  refine follows_graph.bind fun graph => ?_
  rw [Graph.incoming_mapDoubles]
  refine (isBlind_forM _ fun (link : Link) => isBlind_disconnect link.number).bind fun _ => ?_
  refine Follows.bind (follows_edit fun graph => ?_) fun _ => isBlind_forM _ fun link =>
    follows_edit fun graph => Graph.connect_mapDoubles graph _ _
  rw [Graph.node_mapDoubles, map_bind_eq, bind_map_eq]
  refine bind_congr fun node => congrArg Except.ok ?_
  rw [← Graph.setNode_mapDoubles]
  congr 1
  simp [Node.mapDoubles, List.eraseIdx_map]

/-- Merging inputs of a definition is blind. -/
theorem isBlind_mergeInputs (group : String) (kept dropped : Nat) :
    IsBlind f (mergeInputs group kept dropped) := by
  refine follows_get.bind fun site => ?_
  rw [Site.get?_mapDoubles]
  cases site.library.get? group with
  | none => exact follows_pure id ()
  | some definition =>
    dsimp only [Option.map_some]
    rw [Graph.consumers_mapDoubles]
    refine (isBlind_forM _ fun reader => ?_).bind fun _ => ?_
    · exact isBlind_editDefinition group fun graph => Graph.connect_mapDoubles graph _ _
    · refine isBlind_editDefinition group fun graph => ?_
      rw [Graph.removeNode_mapDoubles]
      cases graph.removeNode dropped <;> rfl

/-- Merging an input of an instance into another one is blind. -/
theorem isBlind_mergePlaces (id : Nat) (group : String) (places : Nat × Nat) :
    IsBlind f (mergePlaces id group places) := by
  refine follows_get.bind fun site => ?_
  have inputs : ((site.mapDoubles f).library.get? group).map (fun definition : Graph =>
      definition.exposedInputs.map Prod.snd) =
        (site.library.get? group).map fun definition => definition.exposedInputs.map Prod.snd := by
    rw [Site.get?_mapDoubles, Option.map_map]
    simp [Function.comp_def]
  dsimp only
  rw [inputs]
  split
  · refine (isBlind_mergeInputs _ _ _).bind fun _ => ?_
    exact (isBlind_removeInputSocket _ _).bind fun _ => follows_pure _ true
  · exact follows_pure _ false

/-- How often a group is used stays. -/
theorem useCount_mapDoubles (site : Site) (group : String) :
    useCount (site.mapDoubles f) group = useCount site group := by
  have instances (graph : Graph) :
      instanceCount (graph.mapDoubles f) group = instanceCount graph group := by
    simp [instanceCount, Graph.countNodes, Slots.entries_map, List.filter_map, Function.comp_def]
  simp [useCount, Site.mapDoubles, Library.mapDoubles, Table.values_mapValues, List.foldl_map,
    instances]

/-- Merging the inputs of an instance is blind. -/
theorem isBlind_mergeInstance (id : Nat) (group : String) : IsBlind f (mergeInstance id group) := by
  refine follows_get.bind fun site => ?_
  rw [useCount_mapDoubles, Site.contains_mapDoubles]
  split
  · exact follows_pure _ 0
  · rw [Site.graph_mapDoubles, Graph.incoming_mapDoubles]
    exact isBlind_count _ (isBlind_mergePlaces id group)

/-- The instances of a graph stay. -/
theorem instances_mapDoubles (graph : Graph) : instances (graph.mapDoubles f) = instances graph := by
  unfold instances
  rw [Graph.nodes_mapDoubles, Slots.entries_map, List.filterMap_map]
  refine List.filterMap_congr fun entry _ => ?_
  simp only [Function.comp_apply, Node.op_mapDoubles]
  cases entry.2.op <;> rfl

/-- Merging inputs of instances is blind. -/
theorem isBlind_mergeDuplicateInputs : IsBlind f mergeDuplicateInputs := by
  refine follows_graph.bind fun graph => ?_
  rw [instances_mapDoubles]
  refine isBlind_foldlM _ (fun total entry => ?_) 0
  exact (isBlind_mergeInstance entry.1 entry.2).bind fun _ => follows_pure _ _

/-- The constants of a graph are changed. -/
theorem constants_mapDoubles (graph : Graph) :
    constants (graph.mapDoubles f) =
      (constants graph).map fun constant => (constant.1, f constant.2) := by
  unfold constants
  rw [Graph.nodes_mapDoubles, Slots.entries_map, List.filterMap_map, List.map_filterMap]
  refine List.filterMap_congr fun entry _ => ?_
  simp only [Function.comp_apply, Node.op_mapDoubles]
  cases entry.2.op <;> rfl

/-- A constant is made a default before or after it is changed. -/
theorem follows_foldLink (value : Float) (link : Link) :
    Follows f id (foldLink value link) (foldLink (f value) link) := by
  refine follows_graph.bind fun graph => ?_
  have boundary : ((graph.mapDoubles f).node? link.target.node).any (fun node => node.op.isBoundary) =
      (graph.node? link.target.node).any fun node => node.op.isBoundary := by
    rw [Graph.node?_mapDoubles]
    cases graph.node? link.target.node <;> simp
  rw [boundary]
  split
  · exact follows_pure _ ()
  · refine Follows.bind (follows_edit fun graph => ?_) fun _ => isBlind_disconnect link.number
    exact Graph.setSocketDefault_mapDoubles graph _ _

/-- A constant is made the default of what it feeds before or after it is changed. -/
theorem follows_foldConstant (constant : Nat × Float) :
    Follows f id (foldConstant constant) (foldConstant (constant.1, f constant.2)) := by
  refine follows_graph.bind fun graph => ?_
  rw [Graph.outgoing_mapDoubles]
  have links := follows_forM id (graph.outgoing constant.1) (follows_foldLink (f := f) constant.2)
  rw [List.map_id] at links
  refine links.bind fun _ => ?_
  exact isBlind_removeIf (fun graph => (graph.outgoing constant.1).isEmpty)
    (fun graph => by simp) constant.1

/-- Making constants defaults is blind. -/
theorem isBlind_foldConstants : IsBlind f foldConstants := by
  refine follows_graph.bind fun graph => ?_
  rw [constants_mapDoubles]
  exact follows_count _ _ follows_foldConstant

/-- Defaults are set before or after they are changed. -/
theorem follows_applyDefaults (defaults : Table String Float) :
    Follows f id (applyDefaults defaults) (applyDefaults (defaults.mapValues f)) := by
  refine follows_forM _ defaults.entries fun entry => follows_graph.bind fun graph => ?_
  rw [Graph.input?_mapDoubles]
  cases graph.input? entry.1 with
  | none => exact follows_pure id ()
  | some id => exact follows_edit fun graph => Graph.setInputDefault_mapDoubles graph id entry.2

/-- All steps of a cleanup are carried out before or after doubles are changed. -/
theorem follows_all (declarations : Declarations) (options : BuildOptions) :
    Follows f id (all declarations options) (all (declarations.mapDoubles f) options) := by
  have choose {step : Cleanup Nat} {next next' : Nat → Cleanup CleanupReport} (blind : IsBlind f step)
      (late : ∀ total, Follows f id (next total) (next' total)) (chosen : Bool) :
      Follows f id (if chosen = true then step >>= next else pure 0 >>= next)
        (if chosen = true then step >>= next' else pure 0 >>= next') := by
    cases chosen
    · exact late 0
    · exact blind.bind late
  unfold all
  dsimp only
  refine isBlind_relinkOutputs.bind fun _ => ?_
  refine choose isBlind_removeUnusedInputs (fun _ => ?_) _
  refine choose isBlind_removeUnusedOutputs (fun _ => ?_) _
  refine (follows_hidePorts declarations).bind fun _ => ?_
  refine isBlind_mergeDuplicateInputs.bind fun _ => ?_
  refine choose isBlind_foldConstants (fun _ => ?_) _
  refine (follows_applyDefaults declarations.defaults).bind fun _ => ?_
  split
  · refine follows_graph.bind fun graph => ?_
    exact (follows_setGraph (graph.sortInputs shortNamesFirst)).bind fun _ => follows_pure _ _
  · exact follows_pure _ _

end Cleanup

/-- A cleanup with changed doubles gives the same report or refusal, and what it leaves is the same
but for the change. -/
theorem cleanUp_mapDoubles (declarations : Declarations) (options : BuildOptions) (site : Site) :
    cleanUp (declarations.mapDoubles f) options (site.mapDoubles f) =
      ((cleanUp declarations options site).1, (cleanUp declarations options site).2.mapDoubles f) := by
  have follows := Cleanup.follows_all (f := f) declarations options site
  unfold cleanUp EStateM.run
  rw [follows]
  cases Cleanup.all declarations options site <;> rfl

end Shadeloom
