import Mathlib
import Shadeloom.Build.Statements
import Shadeloom.Proofs.Build.Lowering
import Shadeloom.Proofs.Build.Planning
import Shadeloom.Proofs.Build.Requests
/-!
# Builds of trees that match

Trees that are the same, with the same names in quotes, are built in step: whether a tree has been
built before, which node is made for it and where this is linked are the same for both, and what is
built for them differs at most in which of the two zeros stands where. So it makes no difference
which of them is kept as the key of what has been built.
-/
namespace Shadeloom

open Shadeloom.Expr

/-- Trees that match are alike with one zero for both. -/
theorem likeness_matches : Likeness oneZero Matches where
  toIsPartwise := isPartwise_matches
  number matched := Literal.number?_of_same matched.same
  names matched := matched.names
  variadic found role nonempty matched := by
    have chains := matches_chain matched
    refine ⟨by simpa [Expr.same] using chains.same, ?_⟩
    rw [quotes_call, quotes_call, names_of_isNameless (isNameless_math found role _),
      names_of_isNameless (isNameless_math found role _), chains.quotes]

variable {f : Float → Float} {alike : Expr → Expr → Prop} {library library' : Library}

namespace Scope

/-- Whether scopes are the same but for a change of doubles and for which of the trees that are the
same are the keys of what has been built. -/
structure Alike (f : Float → Float) (scope scope' : Scope) : Prop where
  graph : scope.graph.mapDoubles f = scope'.graph.mapDoubles f
  built : List.Forall₂ (fun entry entry' => entry.1.same entry'.1 = true ∧ entry.2 = entry'.2)
    scope.built scope'.built
  splits : scope.splits = scope'.splits
  defaults : scope.defaults = scope'.defaults
  declaredInputs : scope.declaredInputs = scope'.declaredInputs
  declaredOutputs : scope.declaredOutputs = scope'.declaredOutputs
  instances : scope.instances = scope'.instances

/-- Whether results are the same and the scopes with them are alike. -/
abbrev GivesAlike {α : Type} (f : Float → Float) (a b : α × Scope) : Prop :=
  a.1 = b.1 ∧ a.2.Alike f b.2

/-- An empty scope is alike to itself. -/
theorem alike_empty (f : Float → Float) (name : String) : (empty name).Alike f (empty name) :=
  ⟨rfl, .nil, rfl, rfl, rfl, rfl, rfl⟩

namespace Alike

variable {scope scope' : Scope} (here : scope.Alike f scope')
include here

/-- Other graphs that are the same but for the change keep scopes alike. -/
theorem withGraph {graph graph' : Graph} (same : graph.mapDoubles f = graph'.mapDoubles f) :
    Alike f { scope with graph } { scope' with graph := graph' } :=
  { here with graph := same }

/-- Forgetting what has been built keeps scopes alike. -/
theorem forget : scope.forget.Alike f scope'.forget :=
  { here with built := .nil, splits := rfl }

/-- The next node gets the same number in both scopes. -/
theorem nextNode : scope.graph.nextNode = scope'.graph.nextNode := by
  rw [← Graph.nextNode_mapDoubles (f := f), here.graph, Graph.nextNode_mapDoubles]

/-- Trees that are the same have both been built, into the same socket, or neither has. -/
theorem remembered? (reuse : Bool) {e e' : Expr} (same : e.same e' = true) :
    scope.remembered? reuse e = scope'.remembered? reuse e' := by
  have found {built built' : List (Expr × Socket)}
      (keys : List.Forall₂ (fun entry entry' => entry.1.same entry'.1 = true ∧ entry.2 = entry'.2)
        built built') :
      (built.find? fun entry => entry.1.same e).map Prod.snd =
        (built'.find? fun entry => entry.1.same e').map Prod.snd := by
    induction keys with
    | nil => rfl
    | cons head tail ih =>
      rw [List.find?_cons, List.find?_cons, same_congr head.1 same]
      split
      · exact congrArg some head.2
      · exact ih
  unfold Scope.remembered?
  rw [found here.built]

/-- Keeping the same socket for trees that are the same keeps scopes alike. -/
theorem remember (reuse : Bool) {e e' : Expr} (same : e.same e' = true) (socket : Socket) :
    (scope.remember reuse e socket).Alike f (scope'.remember reuse e' socket) := by
  unfold Scope.remember
  split
  · exact { here with built := .cons ⟨same, rfl⟩ here.built }
  · exact here

/-- Nodes that are the same but for the change are added alike. -/
theorem addNode {node node' : Node} (same : node.mapDoubles f = node'.mapDoubles f) :
    (scope.addNode node).Alike f (scope'.addNode node') :=
  here.withGraph (by
    rw [← Graph.addNode_mapDoubles, here.graph, same, Graph.addNode_mapDoubles])

/-- Sockets are linked alike. -/
theorem connect (source target : Socket) :
    Concur (Alike f) (scope.connect source target) (scope'.connect source target) := by
  have linked : (scope.graph.connect source target).map (Graph.mapDoubles f) =
      (scope'.graph.connect source target).map (Graph.mapDoubles f) := by
    rw [← Graph.connect_mapDoubles, here.graph, Graph.connect_mapDoubles]
  exact ((Concur.of_map_eq linked).mapError _ _).bind fun _ _ same => .done (here.withGraph same)

/-- The input of a name is the same node in both scopes, and is made alike. -/
theorem addInput (keeps : KeepsDefaults f) (name : String) (type : SocketType) :
    GivesAlike f (scope.addInput name type) (scope'.addInput name type) := by
  have added := Graph.addInput_mapDoubles scope.graph keeps name type
  rw [here.graph, Graph.addInput_mapDoubles scope'.graph keeps] at added
  obtain ⟨number, graph⟩ := Prod.mk.inj added
  exact ⟨number.symm, here.withGraph graph.symm⟩

/-- A default is kept alike. -/
theorem noteDefault (v : Variable) :
    Concur (Alike f) (scope.noteDefault v) (scope'.noteDefault v) := by
  unfold Scope.noteDefault
  cases v.fallback with
  | none => exact .done here
  | some text =>
    dsimp only
    cases readDefault text with
    | error error => exact .refused _ _
    | ok number => exact .done { here with defaults := by rw [here.defaults] }

/-- A reference reads the same socket of an instance. -/
theorem instanceOutput (name : String) (subscript : Option String) :
    scope.instanceOutput name subscript = scope'.instanceOutput name subscript := by
  have place (id : Nat) (socket : String) :
      ((scope.graph.node? id).bind fun node => node.outputIndex? socket) =
        (scope'.graph.node? id).bind fun node => node.outputIndex? socket := by
    have nodes : (scope.graph.node? id).map (Node.mapDoubles f) =
        (scope'.graph.node? id).map (Node.mapDoubles f) := by
      rw [← Graph.node?_mapDoubles, here.graph, Graph.node?_mapDoubles]
    have outputs := congrArg (Option.bind · fun node => node.outputIndex? socket) nodes
    simpa only [Option.bind_map, Function.comp_def, Node.outputIndex?_mapDoubles] using outputs
  unfold Scope.instanceOutput
  simp only [here.instances, place]

/-- The vector of a variable is split alike. -/
theorem split (name : String) (input : Nat) :
    Concur (GivesAlike f) (scope.split name input) (scope'.split name input) := by
  unfold Scope.split
  rw [here.splits]
  cases scope'.splits.get? name with
  | some id => exact .done ⟨rfl, here⟩
  | none =>
    have added := here.addNode (rfl : (Node.ofOp .separateXyz).mapDoubles f = _)
    dsimp only
    rw [here.nextNode]
    refine (added.connect _ _).bind fun _ _ linked => .done ⟨rfl, ?_⟩
    exact { linked with
      splits := congrArg (Table.insert · name scope'.graph.nextNode) linked.splits }

/-- A variable is read from the same socket in both scopes. -/
theorem readVariable (keeps : KeepsDefaults f) (v : Variable) :
    Concur (GivesAlike f) (scope.readVariable v) (scope'.readVariable v) := by
  unfold Scope.readVariable
  cases Text.afterStart? Function.instanceMark v.name with
  | some name =>
    dsimp only
    rw [here.instanceOutput]
    cases scope'.instanceOutput name v.subscript with
    | error error => exact .refused _ _
    | ok socket => exact .done ⟨rfl, here⟩
  | none =>
    refine (here.noteDefault v).bind fun noted noted' here => ?_
    have scalar := here.addInput keeps v.name .scalar
    have vector := here.addInput keeps v.name .vector
    generalize noted.addInput v.name .scalar = first at scalar
    generalize noted'.addInput v.name .scalar = first' at scalar
    generalize noted.addInput v.name .vector = second at vector
    generalize noted'.addInput v.name .vector = second' at vector
    split
    · exact .done ⟨by rw [scalar.1], scalar.2⟩
    · exact .done ⟨by rw [vector.1], vector.2⟩
    · cases Variable.component? _ with
      | none => exact .refused _ _
      | some place =>
        dsimp only
        rw [vector.1]
        exact (vector.2.split v.name second'.1).bind fun _ _ same =>
          .done ⟨by rw [same.1], same.2⟩

end Alike

end Scope

/-- Whether trees that are alike to a tree are built into scopes that are alike to a scope into the
same socket, or refused when it is. -/
def LowersAlike (f : Float → Float) (alike : Expr → Expr → Prop) (library library' : Library)
    (reuse : Bool) (e : Expr) (scope : Scope) : Prop :=
  ∀ e' scope', alike e e' → scope.Alike f scope' →
    Concur (Scope.GivesAlike f) (lower library reuse e scope) (lower library' reuse e' scope')

/-- Whether operands that are alike to others are fed to the same node alike. -/
def FeedsAlike (f : Float → Float) (alike : Expr → Expr → Prop) (library library' : Library)
    (reuse : Bool) (operands : List (Nat × Expr)) (id : Nat) (scope : Scope) : Prop :=
  ∀ operands' scope', Recipe.OperandsAlike alike operands operands' → scope.Alike f scope' →
    Concur (Scope.Alike f) (feed library reuse operands id scope)
      (feed library' reuse operands' id scope')

section

variable (harmless : Harmless f) (likeness : Likeness f alike)
  (libraries : Library.mapDoubles f library = Library.mapDoubles f library') (reuse : Bool)
include harmless likeness libraries

/-- Trees that are alike are built alike, and so are operands of nodes. -/
theorem lower_alike :
    (∀ e scope, LowersAlike f alike library library' reuse e scope) ∧
      ∀ operands id scope, FeedsAlike f alike library library' reuse operands id scope := by
  -- The induction follows the first build. The second one takes the same step each time: the
  -- scopes answer alike whether a tree has been built, and the plans are alike.
  apply lower.mutual_induct library reuse (LowersAlike f alike library library' reuse)
    (FeedsAlike f alike library library' reuse)
  case case1 =>
    intro e scope socket found e' scope' here scopes
    have found' := (scopes.remembered? reuse (likeness.same here)).symm.trans found
    rw [lower_of_remembered found, lower_of_remembered found']
    exact .done ⟨rfl, scopes⟩
  case case2 =>
    intro e scope fresh error planned e' scope' here scopes
    have fresh' := (scopes.remembered? reuse (likeness.same here)).symm.trans fresh
    have plans := Plan.concurs harmless likeness libraries here
    rw [planned] at plans
    cases planned' : Plan.of library' e' with
    | ok plan' => rw [planned'] at plans; cases plans
    | error error' =>
      rw [lower_of_refused fresh planned, lower_of_refused fresh' planned']
      exact .refused _ _
  case case3 =>
    intro e scope fresh v planned e' scope' here scopes
    have same := likeness.same here
    have fresh' := (scopes.remembered? reuse same).symm.trans fresh
    have plans := Plan.concurs harmless likeness libraries here
    rw [planned] at plans
    obtain ⟨plan', planned', plans⟩ := plans.exists_of_ok
    cases plans
    rw [lower_of_read fresh planned, lower_of_read fresh' planned']
    refine (scopes.readVariable harmless.keeps v).bind fun a b read => ?_
    exact .done ⟨read.1, read.1 ▸ read.2.remember reuse same a.1⟩
  case case4 =>
    intro e scope fresh recipe planned id fed e' scope' here scopes
    have same := likeness.same here
    have fresh' := (scopes.remembered? reuse same).symm.trans fresh
    have plans := Plan.concurs harmless likeness libraries here
    rw [planned] at plans
    obtain ⟨plan', planned', plans⟩ := plans.exists_of_ok
    cases plans with
    | @make _ recipe' made =>
      rw [lower_of_make fresh planned, lower_of_make fresh' planned', ← scopes.nextNode,
        ← made.output]
      exact (fed _ _ made.operands (scopes.addNode made.node)).bind fun a b scopes =>
        .done ⟨rfl, scopes.remember reuse same _⟩
  case case5 =>
    intro id scope operands' scope' here scopes
    cases here
    rw [feed, feed]
    exact .done scopes
  case case6 =>
    intro id scope place e rest first others operands' scope' here scopes
    cases here with
    | @cons _ operand' _ rest' head tail =>
      obtain ⟨place', e'⟩ := operand'
      obtain ⟨rfl, head⟩ := head
      rw [feed, feed]
      refine (first e' scope' head scopes).bind fun a b built => ?_
      obtain ⟨source, scope⟩ := a
      obtain ⟨source', scope'⟩ := b
      obtain ⟨rfl, scopes⟩ := built
      exact (scopes.connect source ⟨id, place⟩).bind fun linked linked' scopes =>
        others linked _ _ tail scopes

/-- Trees that are alike are built and linked alike. -/
theorem lowerInto_alike {e e' : Expr} (here : alike e e') {scope scope' : Scope}
    (scopes : scope.Alike f scope') (target : Socket) :
    Concur (Scope.Alike f) (lowerInto library reuse e target scope)
      (lowerInto library' reuse e' target scope') := by
  unfold lowerInto
  have built := (lower_alike harmless likeness libraries reuse).1 e scope e' scope' here scopes
  refine built.bind fun a b built => ?_
  obtain ⟨source, scope⟩ := a
  obtain ⟨source', scope'⟩ := b
  obtain ⟨rfl, scopes⟩ := built
  exact scopes.connect source target

end

/-- Whether groups that are open have the same name and scopes that are alike. -/
structure OpenGroup.Alike (f : Float → Float) (group group' : OpenGroup) : Prop where
  name : group.name = group'.name
  scope : group.scope.Alike f group'.scope

namespace Builder

/-- Whether builds are the same but for a change of doubles and for which of the trees that are the
same are the keys of what has been built. -/
structure Alike (f : Float → Float) (builder builder' : Builder) : Prop where
  options : builder.options = builder'.options
  root : builder.root.Alike f builder'.root
  opened : List.Forall₂ (OpenGroup.Alike f) builder.opened builder'.opened
  library : Library.mapDoubles f builder.library = Library.mapDoubles f builder'.library

/-- A build that starts is alike to itself. -/
theorem alike_start (f : Float → Float) (options : BuildOptions) :
    (start options).Alike f (start options) :=
  ⟨rfl, Scope.alike_empty f rootName, .nil, rfl⟩

/-- Arguments that are the same are the same name, or both none. -/
theorem plainName_concurs {e e' : Expr} (same : e.same e' = true) (directive : String) :
    Concur Eq (plainName directive e) (plainName directive e') := by
  cases e with
  | var v =>
    cases e' with
    | var v' =>
      simp only [Expr.same, decide_eq_true_eq] at same
      subst same
      cases plainName directive (.var v) with
      | error error => exact .refused _ _
      | ok name => exact .done rfl
    | _ => cases same
  | _ => cases e' <;> first | exact .refused _ _ | cases same

/-- Arguments that are the same one by one are the same names, or not all of them are. -/
theorem mapM_plainName_concurs {es es' : List Expr} (same : SameAll es es') (directive : String) :
    Concur Eq (es.mapM (plainName directive)) (es'.mapM (plainName directive)) := by
  induction same with
  | nil => exact .done rfl
  | cons head tail ih =>
    rw [List.mapM_cons, List.mapM_cons]
    refine (plainName_concurs head directive).bind fun _ _ same => ?_
    exact ih.bind fun _ _ rest => .done (by rw [same, rest])

/-- Targets that are the same name the same output, or both none. -/
theorem outputTarget_concurs {e e' : Expr} (same : e.same e' = true) :
    Concur Eq (outputTarget e) (outputTarget e') := by
  cases e with
  | var v =>
    cases e' with
    | var v' =>
      simp only [Expr.same, decide_eq_true_eq] at same
      subst same
      cases outputTarget (.var v) with
      | error error => exact .refused _ _
      | ok target => exact .done rfl
    | _ => cases same
  | _ => cases e' <;> first | exact .refused _ _ | cases same

/-- Declarations that are the same declare the same input, or both none. -/
theorem declareInput_concurs (keeps : KeepsDefaults f) {e e' : Expr} (same : e.same e' = true)
    (directive : String) {scope scope' : Scope} (here : scope.Alike f scope') :
    Concur (Scope.Alike f) (declareInput directive scope e) (declareInput directive scope' e') := by
  cases e with
  | var v =>
    cases e' with
    | var v' =>
      simp only [Expr.same, decide_eq_true_eq] at same
      subst same
      unfold declareInput
      dsimp only
      cases declaredType directive v with
      | error error => exact .refused _ _
      | ok type =>
        exact (here.noteDefault v).bind fun _ _ here => .done (here.addInput keeps v.name type).2
    | _ => cases same
  | _ => cases e' <;> first | exact .refused _ _ | cases same

namespace Alike

variable {builder builder' : Builder} (here : builder.Alike f builder')
include here

/-- No group is open in either build, or the innermost ones are alike. -/
theorem opened_cases : (builder.opened = [] ∧ builder'.opened = []) ∨
    ∃ group rest group' rest', builder.opened = group :: rest ∧ builder'.opened = group' :: rest' ∧
      group.Alike f group' ∧ List.Forall₂ (OpenGroup.Alike f) rest rest' := by
  have opened := here.opened
  cases first : builder.opened <;> cases second : builder'.opened <;> rw [first, second] at opened
  · exact .inl ⟨rfl, rfl⟩
  · cases opened
  · cases opened
  · obtain ⟨innermost, others⟩ := List.forall₂_cons.1 opened
    exact .inr ⟨_, _, _, _, rfl, rfl, innermost, others⟩

/-- The innermost scopes are alike. -/
theorem scope : builder.scope.Alike f builder'.scope := by
  unfold Builder.scope
  rcases here.opened_cases with ⟨none, none'⟩ | ⟨group, rest, group', rest', first, second, both, -⟩
  · rw [none, none']
    exact here.root
  · rw [first, second]
    exact both.scope

/-- Other scopes that are alike keep builds alike. -/
theorem setScope {scope scope' : Scope} (scopes : scope.Alike f scope') :
    (builder.setScope scope).Alike f (builder'.setScope scope') := by
  unfold Builder.setScope
  rcases here.opened_cases with ⟨none, none'⟩ |
    ⟨group, rest, group', rest', first, second, both, others⟩
  · rw [none, none']
    exact { here with root := scopes, opened := .nil }
  · rw [first, second]
    exact { here with opened := .cons ⟨both.name, scopes⟩ others }

/-- Expressions that are alike are built into outputs alike. -/
theorem output (harmless : Harmless f) (likeness : Likeness f alike) {e e' : Expr}
    (value : alike e e') (name : String) (type : SocketType) :
    Concur (Alike f) (builder.output name type e) (builder'.output name type e') := by
  unfold Builder.output
  rw [isEmpty_of_same (likeness.same value)]
  cases e'.isEmpty with
  | true => exact .refused _ _
  | false =>
    have scopes := here.scope
    have added := Graph.addOutput_mapDoubles builder.scope.graph harmless.keeps name type
    rw [scopes.graph, Graph.addOutput_mapDoubles builder'.scope.graph harmless.keeps] at added
    rw [here.options]
    dsimp only [Bool.false_eq_true, if_false]
    generalize builder.scope.graph.addOutput name type = made at added
    generalize builder'.scope.graph.addOutput name type = made' at added
    obtain ⟨id, graph⟩ := made
    obtain ⟨id', graph'⟩ := made'
    obtain ⟨rfl, same⟩ := Prod.mk.inj added
    have built := lowerInto_alike harmless likeness here.library builder'.options.optimize value
      (scopes.withGraph same.symm) ⟨id', 0⟩
    exact built.bind fun _ _ scopes => .done (here.setScope scopes)

/-- Groups with inputs that are the same are started alike. -/
theorem startGroup (keeps : KeepsDefaults f) (directive : String) {es es' : List Expr}
    (same : SameAll es es') :
    Concur (Alike f) (builder.startGroup directive es) (builder'.startGroup directive es') := by
  cases same with
  | nil => exact .refused _ _
  | cons head tail =>
    refine (plainName_concurs head directive).bind fun name _ same => ?_
    subst same
    have each (scope scope' : Scope) (e e' : Expr) (here : scope.Alike f scope')
        (same : e.same e' = true) := declareInput_concurs keeps same directive here
    exact (Concur.foldlM each tail (Scope.alike_empty f name)).bind fun _ _ scopes =>
      .done { here with opened := .cons ⟨rfl, scopes⟩ here.opened }

/-- Scopes that are alike are closed alike. -/
theorem close {scope scope' : Scope} (scopes : scope.Alike f scope') :
    Concur (fun site site' => site.mapDoubles f = site'.mapDoubles f) (builder.close scope)
      (builder'.close scope') := by
  have declarations : scope.declarations = scope'.declarations := by
    unfold Scope.declarations
    rw [scopes.defaults, scopes.declaredInputs, scopes.declaredOutputs]
  have sites : (⟨scope.graph, builder.library⟩ : Site).mapDoubles f =
      Site.mapDoubles f ⟨scope'.graph, builder'.library⟩ := by
    unfold Site.mapDoubles
    rw [scopes.graph, here.library]
  have cleaned := cleanUp_mapDoubles (f := f) scope.declarations builder.options
    ⟨scope.graph, builder.library⟩
  rw [sites, declarations, here.options, cleanUp_mapDoubles] at cleaned
  obtain ⟨result, site⟩ := Prod.mk.inj cleaned
  unfold Builder.close
  rw [declarations, here.options]
  dsimp only
  rw [result]
  cases (cleanUp scope'.declarations builder'.options ⟨scope.graph, builder.library⟩).1 with
  | error error => exact .refused _ _
  | ok report => exact .done site.symm

/-- Groups of names that are the same are ended alike. -/
theorem endGroup (directive : String) {es es' : List Expr} (same : SameAll es es') :
    Concur (Alike f) (builder.endGroup directive es) (builder'.endGroup directive es') := by
  cases same with
  | nil => exact .refused _ _
  | cons head tail =>
    cases tail with
    | cons next more => exact .refused _ _
    | nil =>
      refine (plainName_concurs head directive).bind fun name _ same => ?_
      subst same
      rcases here.opened_cases with ⟨none, none'⟩ |
        ⟨group, rest, group', rest', first, second, both, others⟩
      · rw [none, none']
        exact .refused _ _
      · rw [first, second]
        dsimp only
        rw [both.name]
        split
        · exact .refused _ _
        · refine (here.close both.scope).bind fun site site' same => .done ?_
          have graphs : site.graph.mapDoubles f = site'.graph.mapDoubles f :=
            congrArg Site.graph same
          have library : Library.mapDoubles f (site.library.insert name site.graph) =
              Library.mapDoubles f (site'.library.insert name site'.graph) := by
            rw [← Site.insert_mapDoubles, same, graphs, Site.insert_mapDoubles]
          exact { here with opened := others, library }

/-- Instances with operands that are alike are added alike. -/
theorem addInstance (harmless : Harmless f) (likeness : Likeness f alike) (directive : String)
    {es es' : List Expr} (operands : List.Forall₂ alike es es') :
    Concur (Alike f) (builder.addInstance directive es) (builder'.addInstance directive es') := by
  cases operands with
  | nil => exact .refused _ _
  | cons first rest =>
    cases rest with
    | nil => exact .refused _ _
    | cons second inputs =>
      refine (plainName_concurs (likeness.same first) directive).bind fun group _ same => ?_
      subst same
      refine (plainName_concurs (likeness.same second) directive).bind fun called _ same => ?_
      subst same
      refine (Recipe.ofGroup_concurs here.library inputs).bind fun recipe recipe' made => ?_
      have scopes := here.scope
      have fed := (lower_alike harmless likeness here.library builder'.options.optimize).2
        recipe.operands builder.scope.graph.nextNode (builder.scope.addNode recipe.node) _ _
        made.operands (scopes.addNode made.node)
      rw [here.options]
      dsimp only
      rw [← scopes.nextNode]
      refine fed.bind fun fed fed' scopes => ?_
      have labelled : (fed.graph.setLabel builder.scope.graph.nextNode (some called)).map
          (Graph.mapDoubles f) =
            (fed'.graph.setLabel builder.scope.graph.nextNode (some called)).map
              (Graph.mapDoubles f) := by
        rw [← Graph.setLabel_mapDoubles, scopes.graph, Graph.setLabel_mapDoubles]
      refine ((Concur.of_map_eq labelled).mapError _ _).bind fun graph graph' same => .done ?_
      exact here.setScope { scopes.withGraph same with instances := by rw [scopes.instances] }

/-- Directives with arguments that are alike are carried out alike. -/
theorem directive (harmless : Harmless f) (likeness : Likeness f alike) (directive : Directive)
    (name : String) {es es' : List Expr} (arguments : List.Forall₂ alike es es') :
    Concur (Alike f) (builder.directive directive name es)
      (builder'.directive directive name es') := by
  have same : SameAll es es' := arguments.imp fun _ _ => likeness.same
  cases directive with
  | groupStart => exact here.startGroup harmless.keeps name same
  | groupEnd => exact here.endGroup name same
  | groupAdd => exact here.addInstance harmless likeness name arguments
  | inputs =>
    refine (mapM_plainName_concurs same name).bind fun names _ same => .done ?_
    exact here.setScope { here.scope with
      declaredInputs := by rw [here.scope.declaredInputs, same] }
  | outputs =>
    refine (mapM_plainName_concurs same name).bind fun names _ same => .done ?_
    exact here.setScope { here.scope with
      declaredOutputs := by rw [here.scope.declaredOutputs, same] }

/-- Statements that are alike are built alike. -/
theorem statement (harmless : Harmless f) (likeness : Likeness f alike) {e e' : Expr}
    (statements : alike e e') :
    Concur (Alike f) (builder.statement e) (builder'.statement e') := by
  have begun : Alike f
      (if builder.options.isolateStatements then builder.setScope builder.scope.forget else builder)
      (if builder'.options.isolateStatements then builder'.setScope builder'.scope.forget
        else builder') := by
    rw [here.options]
    split
    · exact here.setScope here.scope.forget
    · exact here
  have same := likeness.same statements
  have bare := begun.output harmless likeness statements bareOutput .scalar
  unfold Builder.statement
  cases e with
  | empty => cases e' <;> first | exact .done begun | cases same
  | call name args =>
    cases e' with
    | call name' args' =>
      simp only [Expr.same, Bool.and_eq_true, decide_eq_true_eq] at same
      obtain ⟨rfl, -⟩ := same
      dsimp only
      cases directive? name with
      | none => exact bare
      | some directive =>
        exact begun.directive harmless likeness directive name
          (likeness.arguments (likeness.inner statements))
    | _ => cases same
  | binary op lhs rhs =>
    cases e' with
    | binary op' lhs' rhs' =>
      simp only [Expr.same, Bool.and_eq_true, decide_eq_true_eq] at same
      obtain ⟨⟨rfl, target⟩, -⟩ := same
      cases op with
      | assign =>
        refine (outputTarget_concurs target).bind fun named _ same => ?_
        subst same
        exact begun.output harmless likeness (likeness.sides statements).2 named.1 named.2
      | _ => exact bare
    | _ => cases same
  | _ => cases e' <;> first | exact bare | cases same

/-- Builds that are alike end alike. -/
theorem finish :
    Concur (fun site site' => site.mapDoubles f = site'.mapDoubles f) builder.finish
      builder'.finish := by
  unfold Builder.finish
  rcases here.opened_cases with ⟨none, none'⟩ | ⟨group, rest, group', rest', first, second, -⟩
  · rw [none, none']
    exact here.close here.root
  · rw [first, second]
    exact .refused _ _

end Alike

end Builder

/-- Trees that are alike are built alike. -/
theorem Expr.build_alike (harmless : Harmless f) (likeness : Likeness f alike) {e e' : Expr}
    (here : alike e e') (options : BuildOptions) :
    Concur (fun site site' => site.mapDoubles f = site'.mapDoubles f) (e.build options)
      (e'.build options) := by
  have each (builder builder' : Builder) (e e' : Expr) (here : builder.Alike f builder')
      (statements : alike e e') := here.statement harmless likeness statements
  exact (Concur.foldlM each (likeness.arguments here) (Builder.alike_start f options)).bind
    fun _ _ here => here.finish

/-- Trees that are the same, with the same names in quotes, are both refused or both built, and
what they are built into is the same but for which of the two zeros stands where: doubles at the
same place are equal, or are both no numbers (`oneZero_eq_iff`). -/
theorem Expr.build_of_matches {e e' : Expr} (matched : e.Matches e') (options : BuildOptions) :
    Concur (fun site site' => site.mapDoubles oneZero = site'.mapDoubles oneZero)
      (e.build options) (e'.build options) :=
  build_alike harmless_oneZero likeness_matches matched options

/-- The sine of a number. -/
def Expr.sineOf (number : String) : Expr :=
  .call "sin" (.value ⟨number⟩)

/-- The sines of both zeros are built, and are the same with one zero for both. -/
theorem Expr.build_sine_of_either_zero : ∃ site site',
    (sineOf "0").build .standard = .ok site ∧ (sineOf "-0.0").build .standard = .ok site' ∧
      site.mapDoubles oneZero = site'.mapDoubles oneZero := by
  obtain ⟨site, built⟩ := exists_ok_of_isOk
    (show ((sineOf "0").build .standard).isOk = true by decide +kernel)
  have matched : (sineOf "0").Matches (sineOf "-0.0") := ⟨by decide +kernel, by decide +kernel⟩
  have concurs := build_of_matches matched .standard
  rw [built] at concurs
  obtain ⟨site', built', same⟩ := concurs.exists_of_ok
  exact ⟨site, site', built, built', same⟩

/-- A read of an image at `uv`. -/
def Expr.imageOf (name : String) : Expr :=
  .call "image" (chain [.var ⟨"uv", none, some ""⟩, .value ⟨name⟩])

/-- Trees that are the same need not be built alike: a name is read in quotes only, and a constant
that is no number does not equal itself. -/
theorem Expr.build_of_same_differs :
    ((imageOf "\"pi\"").same (imageOf "3.14159265359") = true ∧
      (∃ site, (imageOf "\"pi\"").build .standard = .ok site) ∧
      ∃ error, (imageOf "3.14159265359").build .standard = .error error) ∧
    ∃ (site : Site) (id : Nat) (x : Float), (value ⟨"NaN"⟩).build .literal = .ok site ∧
      site.graph.node? id = some (.ofOp (.constant x)) ∧ (x == x) = false := by
  refine ⟨⟨by decide +kernel, exists_ok_of_isOk (by decide +kernel), ?unquoted⟩, ?constant⟩
  case unquoted =>
    have refused : ((imageOf "3.14159265359").build .standard).isOk = false := by decide +kernel
    cases built : (imageOf "3.14159265359").build .standard with
    | error error => exact ⟨error, rfl⟩
    | ok site =>
      rw [built] at refused
      cases refused
  case constant =>
    have planned : ∃ x, Plan.of .empty (.value ⟨"NaN"⟩) =
        .ok (.make (.inOrder (.constant x) 0 [] 0)) ∧ (x == x) = false :=
      ⟨_, rfl, by decide +kernel⟩
    obtain ⟨x, planned, unequal⟩ := planned
    rw [build_of_bare (isBare_value _) rfl, lowerInto, lower_of_make rfl planned,
      show (Recipe.inOrder (.constant x) 0 [] 0).operands = [] from rfl, feed]
    exact ⟨_, 1, x, rfl, rfl, unequal⟩

end Shadeloom
