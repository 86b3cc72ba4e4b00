import Mathlib
import Shadeloom.Proofs.Build.MergedValues
import Shadeloom.Proofs.Build.ShownInputs
import Shadeloom.Proofs.Build.WrittenDefaults
/-!
# The parameters of groups

A call of a group feeds its arguments in order to the inputs that the definition shows. Which these
are follows from the text of the group: the inputs that are declared at its start and then those that
its statements read, less those that nothing reads or that an output defines, less those that are
hidden, and put in order if that is asked for. So a call is given to the declared inputs by position
exactly as far as all of this leaves them in front.
-/
namespace Shadeloom

open Shadeloom.Expr

namespace Expr

/-- The names of the inputs that a statement reads in its scope, in order. -/
def readNames : Expr → List String
  | .call name args =>
    match Builder.directive? name with
    | some .groupAdd => (args.arguments.drop 2).flatMap inputNames
    | some _ => []
    | none => (call name args).inputNames
  | .binary .assign _ tree => tree.inputNames
  | e => e.inputNames

/-- The names of the inputs that a statement asks to be shown. -/
def listedNames : Expr → List String
  | .call name args =>
    match Builder.directive? name with
    | some .inputs => args.arguments.filterMap soleName?
    | _ => []
  | _ => []

/-- Names that are read off trees are those that stand in them. -/
theorem filterMap_soleName? {directive : String} {arguments : List Expr} {names : List String}
    (named : arguments.mapM (Builder.plainName directive) = .ok names) :
    arguments.filterMap soleName? = names := by
  induction arguments generalizing names with
  | nil =>
    cases named
    rfl
  | cons argument rest ih =>
    rw [List.mapM_cons] at named
    obtain ⟨name, first, named⟩ := bind_eq_ok_iff.1 named
    obtain ⟨others, later, same⟩ := bind_eq_ok_iff.1 named
    cases same
    rw [List.filterMap_cons_some (soleName?_of_plainName first), ih later]

/-- The name of the output that a statement gives. -/
def givenName? (e : Expr) : Option String :=
  match e.mark? with
  | some (.gives output) => some output.1
  | _ => none

/-- What ends a group is a call of the directive for this. -/
theorem eq_call_of_closes {e : Expr} {group : String} (closes : e.mark? = some (.closes group)) :
    ∃ name args, e = .call name args ∧ Builder.directive? name = some .groupEnd := by
  obtain rfl | ⟨name, args, directive, rfl, called⟩ | ⟨target, tree, rfl⟩ | bare :=
    e.statement_cases
  · cases closes
  · refine ⟨name, args, rfl, ?_⟩
    rw [mark?_of_directive called] at closes
    cases directive with
    | groupEnd => exact called
    | groupStart =>
      unfold directiveMark? at closes
      split at closes <;> simp_all
    | _ => cases closes
  · obtain ⟨output, -, closes⟩ := Option.map_eq_some_iff.1 closes
    cases closes
  · rw [bare.mark?_eq] at closes
    cases closes

end Expr

/-- The text of a scope: the names of the inputs that are declared at its start, and the statements
directly in it. -/
structure Body where
  declared : List String
  statements : List Expr
  deriving Repr

namespace Body

/-- A text with one more statement. -/
def add (body : Body) (e : Expr) : Body :=
  { body with statements := body.statements ++ [e] }

/-- The names of the inputs that the statements read, in order. -/
def read (body : Body) : List String :=
  body.statements.flatMap readNames

/-- The names of the inputs that are to be shown; all of them if there are none. -/
def listed (body : Body) : List String :=
  body.statements.flatMap listedNames

/-- The names of the outputs that are given. -/
def given (body : Body) : List String :=
  body.statements.filterMap givenName?

/-- The names of the inputs that a scope shows once it has been closed, in order. -/
def shown (options : BuildOptions) (body : Body) : List String :=
  Cleanup.shownInputs options body.listed (body.declared ++ body.read).eraseDups body.read body.given

/-- An input is shown if it is declared or read and is not hidden, and if what is unused is removed
then only if it is read and is no output. -/
theorem mem_shown {options : BuildOptions} {body : Body} {name : String} :
    name ∈ body.shown options ↔ (name ∈ body.declared ∨ name ∈ body.read) ∧
      (options.pruneUnused = true → name ∈ body.read ∧ name ∉ body.given) ∧
        Cleanup.isHidden body.listed name = false := by
  unfold shown Cleanup.shownInputs
  cases options.pruneUnused <;> cases options.resequenceInputs <;>
    simp [List.mem_eraseDups] <;> tauto

/-- Whether the inputs that are declared stay in front, in order: none is declared twice, inputs are not
put in order and these are not hidden, and if what is unused is removed then each is read and is no
output. -/
structure KeepsDeclared (options : BuildOptions) (body : Body) : Prop where
  distinct : body.declared.Nodup
  ordered : options.resequenceInputs = false
  visible : ∀ name ∈ body.declared, Cleanup.isHidden body.listed name = false
  used : options.pruneUnused = true → ∀ name ∈ body.declared, name ∈ body.read ∧ name ∉ body.given

/-- Without repetitions nothing is erased. -/
theorem eraseDups_of_nodup {α : Type} [DecidableEq α] {items : List α} (distinct : items.Nodup) :
    items.eraseDups = items := by
  induction items with
  | nil => rfl
  | cons a rest ih =>
    obtain ⟨fresh, distinct⟩ := List.nodup_cons.1 distinct
    have kept : (rest.filter fun b => !b == a) = rest :=
      List.filter_eq_self.2 fun b mem => by simpa using fun same : b = a => fresh (same ▸ mem)
    rw [List.eraseDups_cons, kept, ih distinct]

/-- Inputs that stay in front are the first that are shown. -/
theorem KeepsDeclared.prefix_shown {options : BuildOptions} {body : Body}
    (keeps : body.KeepsDeclared options) : body.declared <+: body.shown options := by
  have front : body.declared <+: (body.declared ++ body.read).eraseDups := by
    rw [List.eraseDups_append, eraseDups_of_nodup keeps.distinct]
    exact List.prefix_append _ _
  have filtered {names : List String} {shown : String → Bool} (front : body.declared <+: names)
      (all : ∀ name ∈ body.declared, shown name = true) : body.declared <+: names.filter shown := by
    have kept := front.filter shown
    rwa [List.filter_eq_self.2 all] at kept
  unfold shown Cleanup.shownInputs
  rw [keeps.ordered]
  refine filtered ?_ fun name mem => by rw [keeps.visible name mem]; rfl
  show _ <+: if options.pruneUnused = true then _ else _
  split
  · rename_i prunes
    refine filtered front fun name mem => ?_
    obtain ⟨read, new⟩ := keeps.used prunes name mem
    simp [read, new]
  · exact front

end Body

/-- The texts of the scopes up to some point. -/
structure Bodies where
  /-- The text of the innermost scope. -/
  here : Body
  /-- The groups that are open, the innermost first, each with the text of the scope around it. -/
  around : List (String × Body)
  /-- The text of the last group of each name that has ended. -/
  ended : Table String Body

namespace Bodies

/-- The texts before the first statement. -/
def start : Bodies := ⟨⟨[], []⟩, [], .empty⟩

/-- The texts after one more statement. -/
def step (bodies : Bodies) (e : Expr) : Bodies :=
  match e.mark? with
  | some (.opens name) =>
    ⟨⟨e.declared.map Variable.name, []⟩, (name, bodies.here) :: bodies.around, bodies.ended⟩
  | some (.closes _) =>
    match bodies.around with
    | [] => bodies
    | (name, outer) :: around => ⟨outer, around, bodies.ended.insert name bodies.here⟩
  | _ => { bodies with here := bodies.here.add e }

/-- The texts after some statements. -/
def of (statements : List Expr) : Bodies :=
  statements.foldl step start

end Bodies

/-- New inputs are shown, and inputs that are shown still are when they are made vectors. -/
theorem InputPort.lasts_exposed : Lasts fun port => port.exposed = true where
  new _ _ := rfl
  wider _ shown := shown

namespace Scope

variable {body : Body} {scope before after : Scope}

/-- Whether a scope that is open is what its text says: it asks for the inputs of the text, which are
all shown so far, and gives the outputs of the text. -/
structure Holds (body : Body) (scope : Scope) : Prop where
  asks : scope.Asks body.declared body.read []
  exposed : scope.graph.InputsMeet fun port => port.exposed = true
  listed : scope.declaredInputs = body.listed
  given : scope.graph.namedOutputs.map Prod.fst = body.given

/-- An empty scope has no text. -/
theorem holds_empty (name : String) : (empty name).Holds ⟨[], []⟩ :=
  ⟨asks_empty name, Graph.inputsMeet_empty name, rfl, rfl⟩

/-- Forgetting what has been built changes nothing of the text. -/
theorem Holds.forget (holds : scope.Holds body) : scope.forget.Holds body where
  asks := { holds.asks with
    built := List.forall_mem_nil _
    splits := fun _ _ found => by simp [Scope.forget] at found }
  exposed := holds.exposed
  listed := holds.listed
  given := holds.given

/-- Inputs that are declared at the start of a group are those of its text. -/
theorem holds_declared {library : Library} {directive : String} {inputs : List Expr}
    {declared : List String} (tidy : before.Tidy library []) (holds : before.Holds ⟨declared, []⟩)
    (done : inputs.foldlM (Builder.declareInput directive) before = .ok after) :
    after.Holds ⟨declared ++ (inputs.filterMap asVariable?).map Variable.name, []⟩ := by
  induction inputs generalizing before declared with
  | nil =>
    cases done
    simpa using holds
  | cons argument rest ih =>
    rw [List.foldlM_cons] at done
    obtain ⟨between, first, later⟩ := bind_eq_ok_iff.1 done
    obtain ⟨v, type, defaults, rfl, rfl⟩ := Builder.declareInput_eq_ok first
    have start := (tidy.withDefaults defaults).tidy
    obtain ⟨advances, adds, -, -⟩ := start.addInput v.name type
    have asks := (holds.asks.congr rfl (fun _ => rfl) rfl rfl rfl :
      Asks declared [] [] { before with defaults }).declareInput start v.name type
    have holds' : Holds ⟨declared ++ [v.name], []⟩
        (Scope.addInput { before with defaults } v.name type).2 :=
      ⟨asks, holds.exposed.addInput InputPort.lasts_exposed adds, holds.listed, by
        rw [start.runnable.sound.namedOutputs_of_grows advances.grows advances.outputs]
        exact holds.given⟩
    have final := ih advances.tidy holds' later
    simpa [asVariable?] using final

/-- Whether scopes, the root and the groups that are open in it, are what their texts say, that of
the innermost scope and those of the scopes around it. -/
inductive Layered (root : Scope) : List OpenGroup → Body → List (String × Body) → Prop
  | root {body : Body} (holds : root.Holds body) : Layered root [] body []
  | group {group : OpenGroup} {opened : List OpenGroup} {inner outer : Body}
    {around : List (String × Body)} (holds : group.scope.Holds inner)
    (rest : Layered root opened outer around) :
    Layered root (group :: opened) inner ((group.name, outer) :: around)

end Scope

namespace Builder

variable {builder after : Builder} {options : BuildOptions} {bodies : Bodies} {nest : Nest} {e : Expr}

/-- Whether a build between two statements is what the statements before say: the scopes are what
their texts say, and each definition shows the inputs that follow from the text of the last group of
its name, but for inputs that have been merged since. -/
structure Unfolds (options : BuildOptions) (bodies : Bodies) (builder : Builder) : Prop where
  chosen : builder.options = options
  layered : builder.root.Layered builder.opened bodies.here bodies.around
  library : ∀ name definition, builder.library.get? name = some definition →
    ∃ (body : Body) (original : Graph), bodies.ended.get? name = some body ∧
      original.exposedInputs.map Prod.fst = body.shown options ∧ original.MergesInputs definition

/-- A build starts without text. -/
theorem unfolds_start (options : BuildOptions) : (start options).Unfolds options .start where
  chosen := rfl
  layered := .root (Scope.holds_empty rootName)
  library name definition found := by simp [start] at found

/-- A scope that is closed shows the inputs that follow from its text. -/
theorem shows_close {scope : Scope} {body : Body} {outputs : List NamedOutput} {site : Site}
    (library : builder.library.Runnable) (tidy : scope.Tidy builder.library [])
    (fulfils : scope.graph.Fulfils outputs) (holds : scope.Holds body)
    (closed : builder.close scope = .ok site) :
    site.graph.exposedInputs.map Prod.fst = body.shown builder.options := by
  obtain ⟨report, cleaned⟩ := close_eq_ok closed
  have runs : Site.Runs ⟨scope.graph, builder.library⟩ := ⟨tidy.runnable, library⟩
  rw [Cleanup.all_shows runs fulfils holds.exposed (fun name id listed => ⟨fun idle mem => ?_,
    holds.asks.unread name id listed⟩) cleaned, ← fulfils.named, holds.given]
  · show Cleanup.shownInputs _ scope.declaredInputs scope.graph.inputs.keys _ _ = _
    rw [holds.listed, holds.asks.keys]
    rfl
  · cases holds.asks.fed name id listed mem idle

namespace Unfolds

section

variable (unfolds : builder.Unfolds options bodies)
include unfolds

/-- The innermost scope is what its text says. -/
theorem scope : builder.scope.Holds bodies.here := by
  obtain ⟨options', root, opened, library⟩ := builder
  obtain ⟨here, around, ended⟩ := bodies
  have layered := unfolds.layered
  cases layered with
  | root holds => exact holds
  | group holds rest => exact holds

/-- Another innermost scope is what another text says. -/
theorem setScope {new : Scope} {body : Body} (holds : new.Holds body) :
    (builder.setScope new).Unfolds options { bodies with here := body } := by
  refine ⟨(options_setScope new).trans unfolds.chosen, ?_, by
    rw [library_setScope]; exact unfolds.library⟩
  obtain ⟨options', root, opened, library⟩ := builder
  obtain ⟨here, around, ended⟩ := bodies
  have layered := unfolds.layered
  cases layered with
  | root _ => exact .root holds
  | @group group _ _ _ _ _ rest =>
    exact @Scope.Layered.group _ { group with scope := new } _ _ _ _ holds rest

/-- The start of a statement changes nothing of the text. -/
theorem atStatement : builder.atStatement.Unfolds options bodies := by
  unfold Builder.atStatement
  split
  · exact unfolds.setScope unfolds.scope.forget
  · exact unfolds

/-- An output reads what its expression reads. -/
theorem output (follows : builder.Follows nest) {name : String} {type : SocketType} {tree : Expr}
    (reads : e.readNames = tree.inputNames) (unlisted : e.listedNames = [])
    (gives : e.givenName? = some name)
    (done : builder.output name type tree = .ok after) :
    after.Unfolds options { bodies with here := bodies.here.add e } := by
  have holds := unfolds.scope
  have later := follows.output done
  obtain ⟨scope, lowered, rfl⟩ := output_eq_ok done
  have named := later.scope.named
  rw [scope_setScope] at named
  have tidy := follows.tidy
  have sound := tidy.scope.runnable.sound
  have adds := sound.addOutput name type
  have start := tidy.scope.addOutput adds
  obtain ⟨advances, -⟩ := lowerInto_keeps tidy.library start lowered
  have begun : Scope.Asks bodies.here.declared bodies.here.read []
      { builder.scope with graph := (builder.scope.graph.addOutput name type).2 } :=
    holds.asks.congr adds.inputs adds.source? rfl rfl rfl
  have asks := lowerInto_asks tidy.library start (adds.source?_eq_none sound 0) begun lowered
  refine unfolds.setScope ⟨?_, lowerInto_meets InputPort.lasts_exposed tidy.library start
    (holds.exposed.addOutput adds) lowered, ?_, ?_⟩
  · simpa [Body.read, Body.add, reads] using asks
  · rw [advances.declaredInputs]
    simpa [Body.listed, Body.add, unlisted] using holds.listed
  · rw [named, List.map_append, ← follows.scope.named, holds.given]
    simp [Body.given, Body.add, gives]

/-- An instance that is added reads what its inputs read. -/
theorem addInstance (follows : builder.Follows nest) {directive : String} {arguments : List Expr}
    (reads : e.readNames = (arguments.drop 2).flatMap inputNames) (unlisted : e.listedNames = [])
    (gives : e.givenName? = none) (done : builder.addInstance directive arguments = .ok after) :
    after.Unfolds options { bodies with here := bodies.here.add e } := by
  have holds := unfolds.scope
  have later := follows.addInstance done
  obtain ⟨group, recipe, fed, called, graph, made, feeds, labels, rfl⟩ := addInstance_eq_ok done
  have named := later.scope.named
  rw [scope_setScope] at named
  have tidy := follows.tidy
  have sound := tidy.scope.runnable.sound
  obtain ⟨other, added⟩ := tidy.addInstanceNode made
  -- The node is no input, so that only its operands ask for inputs.
  have new (name : String) :
      (builder.scope.addNode recipe.node).graph.input? name ≠ some builder.scope.graph.nextNode :=
    fun listed => added.tidy.inputs name _ listed List.mem_cons_self
  obtain ⟨asks, apart⟩ := (lower_asks tidy.library builder.options.optimize).2 _ _ _ _ _ added.tidy
    (Recipe.nodup_places_ofGroup made) (fun operand _ => source?_nextNode tidy.scope _ operand.1)
    feeds _ (holds.asks.addNode tidy.scope recipe.node) new
  have exposed := (lower_meets InputPort.lasts_exposed tidy.library builder.options.optimize).2 _ _ _
    _ _ added.tidy feeds (holds.exposed.addNode sound other)
  obtain ⟨advances, -⟩ := tidy.feedInstance made feeds
  rw [Recipe.map_operands_ofGroup made] at asks
  have labeled := (asks.callInstance apart called).setLabel advances.tidy.runnable.sound labels
  refine unfolds.setScope ⟨?_, exposed.setLabel labels, ?_, ?_⟩
  · have read : (bodies.here.add e).read =
        bodies.here.read ++ (arguments.drop 2).flatMap inputNames := by
      simp [Body.read, Body.add, reads]
    rw [read]
    exact labeled
  · show fed.declaredInputs = _
    rw [advances.declaredInputs]
    simpa [Body.listed, Body.add, unlisted] using holds.listed
  · rw [named, ← follows.scope.named, holds.given]
    simp [Body.given, Body.add, gives]

/-- The start of a group declares its inputs. -/
theorem startGroup (name : String) {directive : String} {args : Expr}
    (done : builder.startGroup directive args.arguments = .ok after) :
    ∃ group, Expr.directiveMark? .groupStart args.arguments = some (.opens group) ∧
      after.Unfolds options ⟨⟨(Expr.call name args).declared.map Variable.name, []⟩,
        (group, bodies.here) :: bodies.around, bodies.ended⟩ := by
  obtain ⟨argument, inputs, group, scope, listed, named, declared, rfl⟩ := startGroup_eq_ok done
  have holds := Scope.holds_declared (Scope.tidy_empty builder.library group)
    (Scope.holds_empty group) declared
  rw [Expr.declared_call name listed]
  refine ⟨group, ?_, unfolds.chosen, .group holds unfolds.layered, unfolds.library⟩
  simp [Expr.directiveMark?, listed, Expr.soleName?_of_plainName named]

/-- A group that ends shows the inputs that follow from its text, and other definitions show what
they did but for inputs that are merged. -/
theorem endGroup (follows : builder.Follows nest) {directive : String} {arguments : List Expr}
    (done : builder.endGroup directive arguments = .ok after) : ∃ name outer around,
      Expr.directiveMark? .groupEnd arguments = some (.closes name) ∧
        bodies.around = (name, outer) :: around ∧
          after.Unfolds options ⟨outer, around, bodies.ended.insert name bodies.here⟩ ∧
            ∃ definition, after.library.get? name = some definition ∧
              definition.exposedInputs.map Prod.fst = bodies.here.shown options := by
  obtain ⟨argument, group, rest, site, rfl, named, opened, closed, rfl⟩ := endGroup_eq_ok done
  obtain ⟨here, around, ended⟩ := bodies
  have layered := unfolds.layered
  rw [opened] at layered
  cases layered with
  | @group _ _ _ outer around holds rest =>
    obtain ⟨-, -, -, -, -, merges⟩ := follows.closeInnermost opened closed
    obtain ⟨tidy, -⟩ := follows.tidy.opened group (by simp [opened])
    have fulfils := follows.scope
    rw [show builder.scope = group.scope by unfold Builder.scope; rw [opened]] at fulfils
    have shows := shows_close follows.tidy.library tidy fulfils holds closed
    rw [unfolds.chosen] at shows
    refine ⟨group.name, outer, around, ?_, rfl, ⟨unfolds.chosen, rest, fun name definition found => ?_⟩,
      site.graph, by rw [Table.get?_insert, if_pos rfl], shows⟩
    · simp [Expr.directiveMark?, Expr.soleName?_of_plainName named]
    · rw [Table.get?_insert] at found ⊢
      -- The definition of this name is new; any other one is as before but for inputs that are merged.
      split at found
      · cases found
        rename_i same
        rw [if_pos same]
        exact ⟨here, site.graph, rfl, shows, .refl⟩
      · rename_i other
        rw [if_neg other]
        obtain ⟨old, found', merged⟩ := merges.exists_of_get? found
        obtain ⟨body, original, ended', shows', merged'⟩ := unfolds.library name old found'
        exact ⟨body, original, ended', shows', merged'.trans merged⟩

/-- A statement that changes no more than what is to be shown is one more of the text. -/
theorem readNothing {new : Scope} (reads : e.readNames = []) (gives : e.givenName? = none)
    (graph : new.graph = builder.scope.graph) (built : new.built = builder.scope.built)
    (splits : new.splits = builder.scope.splits) (instances : new.instances = builder.scope.instances)
    (listed : new.declaredInputs = builder.scope.declaredInputs ++ e.listedNames) :
    (builder.setScope new).Unfolds options { bodies with here := bodies.here.add e } := by
  have holds := unfolds.scope
  refine unfolds.setScope ⟨?_, by rw [graph]; exact holds.exposed, ?_, ?_⟩
  · have asks : new.Asks bodies.here.declared bodies.here.read [] :=
      holds.asks.congr (by rw [graph]) (fun _ => by rw [graph]) built splits instances
    simpa [Body.read, Body.add, reads] using asks
  · rw [listed, holds.listed]
    simp [Body.listed, Body.add]
  · rw [graph, holds.given]
    simp [Body.given, Body.add, gives]

/-- A statement that is carried out is one more of the text, or it starts or ends a scope. -/
theorem statement (follows : builder.Follows nest) (done : builder.statement e = .ok after) :
    after.Unfolds options (bodies.step e) := by
  have unfolds := unfolds.atStatement
  have follows := follows.atStatement
  obtain rfl | ⟨name, args, directive, rfl, called⟩ | ⟨target, tree, rfl⟩ | bare :=
    e.statement_cases
  · cases done
    -- An empty statement is one that replaces the scope by itself.
    have nothing : Expr.empty.readNames = [] := by
      show Expr.empty.inputNames = []
      rw [Expr.inputNames_eq fun _ => Expr.noConfusion]
      rfl
    have silent := unfolds.readNothing (e := .empty) nothing rfl rfl rfl rfl rfl
      (List.append_nil _).symm
    rw [setScope_scope] at silent
    exact silent
  · rw [statement_of_directive called] at done
    have mark := Expr.mark?_of_directive called args
    cases directive with
    | groupStart =>
      obtain ⟨group, opens, unfolds'⟩ := unfolds.startGroup name done
      rwa [Bodies.step, mark, opens]
    | groupEnd =>
      obtain ⟨group, outer, around, closes, inside, unfolds', -⟩ := unfolds.endGroup follows done
      rw [Bodies.step, mark, closes]
      simp only [inside]
      exact unfolds'
    | groupAdd =>
      rw [Bodies.step, mark]
      exact unfolds.addInstance follows (by simp only [Expr.readNames, called])
        (by simp only [Expr.listedNames, called])
        (by simp only [Expr.givenName?, mark, Expr.directiveMark?]) done
    | inputs =>
      obtain ⟨names, named, same⟩ := bind_eq_ok_iff.1 done
      cases same
      rw [Bodies.step, mark]
      refine unfolds.readNothing (by simp only [Expr.readNames, called])
        (by simp only [Expr.givenName?, mark, Expr.directiveMark?]) rfl rfl rfl rfl ?_
      simp only [Expr.listedNames, called, Expr.filterMap_soleName? named]
    | outputs =>
      obtain ⟨names, -, same⟩ := bind_eq_ok_iff.1 done
      cases same
      rw [Bodies.step, mark]
      refine unfolds.readNothing (by simp only [Expr.readNames, called])
        (by simp only [Expr.givenName?, mark, Expr.directiveMark?]) rfl rfl rfl rfl ?_
      simp only [Expr.listedNames, called, List.append_nil]
  · rw [statement_of_assign] at done
    obtain ⟨output, named, done⟩ := bind_eq_ok_iff.1 done
    have mark : (Expr.binary .assign target tree).mark? = some (.gives output) := by
      simp [Expr.mark?, Expr.assigned?_of_outputTarget named]
    rw [Bodies.step, mark]
    exact unfolds.output follows rfl rfl (by simp only [Expr.givenName?, mark]) done
  · rw [statement_of_bare bare] at done
    rw [Bodies.step, bare.mark?_eq]
    have read : e.readNames = e.inputNames ∧ e.listedNames = [] := by
      cases e with
      | call name args =>
        simp only [Expr.readNames, Expr.listedNames, bare.call name args rfl, and_self]
      | binary op lhs rhs =>
        cases op with
        | assign => exact absurd rfl (bare.unnamed lhs rhs)
        | _ => exact ⟨rfl, rfl⟩
      | _ => exact ⟨rfl, rfl⟩
    exact unfolds.output follows read.1 read.2 (by simp only [Expr.givenName?, bare.mark?_eq]; rfl) done

end

/-- Statements that are carried out are what they say, scope by scope. -/
theorem statements {statements : List Expr} (unfolds : builder.Unfolds options bodies)
    (follows : builder.Follows nest)
    (done : statements.foldlM Builder.statement builder = .ok after) :
    after.Unfolds options (statements.foldl Bodies.step bodies) := by
  induction statements generalizing builder bodies nest with
  | nil =>
    cases done
    exact unfolds
  | cons e rest ih =>
    rw [List.foldlM_cons] at done
    obtain ⟨between, first, later⟩ := bind_eq_ok_iff.1 done
    have unfolds' := unfolds.statement follows first
    rcases follows.statement first with ⟨-, -, follows'⟩ | ⟨-, next, -, -, follows'⟩
    · exact ih unfolds' follows' later
    · exact ih unfolds' follows' later

/-- A call of a group that has just ended is made with as many arguments as the text of the group shows
inputs, and no more. Its node has a socket for each of these, in order, and the arguments feed the
first ones. -/
theorem ofGroup_eq (unfolds : builder.Unfolds options bodies) (follows : builder.Follows nest)
    (done : builder.statement e = .ok after) {group : String}
    (closes : e.mark? = some (.closes group)) (function : String) (operands : List Expr) :
    if (bodies.here.shown options).length < operands.length then
      Recipe.ofGroup after.library function group operands =
        .error (.tooManyArguments function (bodies.here.shown options).length)
    else ∃ node, Recipe.ofGroup after.library function group operands =
        .ok ⟨node, (operands.zipIdx 0).map Prod.swap, 0⟩ ∧
      node.inputs.map InputSocket.name = bodies.here.shown options := by
  have later := follows.statement done
  replace later : after.library.Runnable := by
    rcases later with ⟨-, -, later⟩ | ⟨-, next, -, -, later⟩
    · exact later.tidy.library
    · exact later.tidy.library
  obtain ⟨name, args, rfl, called⟩ := Expr.eq_call_of_closes closes
  rw [statement_of_directive called] at done
  obtain ⟨group', -, -, closes', -, -, definition, found, shows⟩ :=
    unfolds.atStatement.endGroup follows.atStatement done
  have same := (Expr.mark?_of_directive called args).symm.trans closes
  rw [closes'] at same
  cases same
  -- Nothing has been merged in a definition that has just been made.
  have fits : definition.instanceNode.MatchesInputs definition := rfl
  have names := (later group definition found).2.sound.names_of_matchesInputs fits
  rw [shows] at names
  have counted : definition.instanceNode.inputs.length = (bodies.here.shown options).length := by
    rw [← names, List.length_map]
  unfold Recipe.ofGroup
  simp only [found, counted]
  split
  · rfl
  · exact ⟨_, rfl, names⟩

end Unfolds

end Builder

/-- After a group has ended whose declared inputs stay in front, a call is made with as many arguments
as there are of these or fewer, and each argument feeds the socket of the input that is declared at
its place. -/
theorem Recipe.ofGroup_binds_by_position {options : BuildOptions} {statements : List Expr} {e : Expr}
    {before after : Builder} {group : String}
    (stated : statements.foldlM Builder.statement (Builder.start options) = .ok before)
    (ended : before.statement e = .ok after) (closes : e.mark? = some (.closes group))
    (keeps : (Bodies.of statements).here.KeepsDeclared options) (function : String)
    {operands : List Expr} (few : operands.length ≤ (Bodies.of statements).here.declared.length) :
    ∃ recipe, Recipe.ofGroup after.library function group operands = .ok recipe ∧
      ∀ place operand, (place, operand) ∈ recipe.operands → operands[place]? = some operand ∧
        recipe.node.inputs[place]?.map InputSocket.name =
          (Bodies.of statements).here.declared[place]? := by
  obtain ⟨⟨nest, -, follows⟩, -⟩ := (Builder.follows_start options).statements stated
  have unfolds := (Builder.unfolds_start options).statements (Builder.follows_start options) stated
  change before.Unfolds options (Bodies.of statements) at unfolds
  generalize Bodies.of statements = bodies at keeps few unfolds ⊢
  have front := keeps.prefix_shown
  have made := unfolds.ofGroup_eq follows ended closes function operands
  rw [if_neg (Nat.not_lt.2 (few.trans front.length_le))] at made
  obtain ⟨node, made, names⟩ := made
  refine ⟨_, made, fun place operand fed => ?_⟩
  have listed : (operand, place) ∈ operands.zipIdx := by simpa using fed
  have here := List.mk_mem_zipIdx_iff_getElem?.1 listed
  have inside : place < bodies.here.declared.length :=
    (List.getElem?_eq_some_iff.1 here).1.trans_le few
  refine ⟨here, ?_⟩
  rw [← List.getElem?_map, names, List.prefix_iff_getElem?.1 front place inside,
    List.getElem?_eq_getElem inside]

/-- The start of a group with two inputs of which its text reads only the second one. -/
def Expr.skipsFirst : List Expr :=
  let name (text : String) : Expr := .var ⟨text, none, none⟩
  [.call "group:start" (.binary .comma (.binary .comma (name "g") (name "a")) (name "b")),
    .binary .assign (name "out") (.binary .add (name "b") (name "b"))]

/-- Where nothing is removed both inputs stay in front, and otherwise the input that is not read is
not shown, so that the first argument of a call feeds the second input. -/
example : (Bodies.of Expr.skipsFirst).here.KeepsDeclared .literal ∧
    (Bodies.of Expr.skipsFirst).here.shown .standard = ["b"] :=
  ⟨⟨by decide +kernel, rfl, by decide +kernel, fun prunes => by cases prunes⟩, by decide +kernel⟩

/-- A build shows the inputs that follow from its text, and so does each definition for the text of
the last group of its name, but for inputs that have been merged into others. -/
theorem Expr.build_shows_inputs {e : Expr} {options : BuildOptions} {site : Site}
    (built : e.build options = .ok site) :
    site.graph.exposedInputs.map Prod.fst = (Bodies.of e.arguments).here.shown options ∧
      ∀ name definition, site.library.get? name = some definition → ∃ body,
        (Bodies.of e.arguments).ended.get? name = some body ∧
          (definition.exposedInputs.map Prod.fst).Sublist (body.shown options) := by
  obtain ⟨builder, stated, finished⟩ := bind_eq_ok_iff.1 built
  obtain ⟨⟨nest, -, follows⟩, -⟩ := (Builder.follows_start options).statements stated
  have unfolds := (Builder.unfolds_start options).statements (Builder.follows_start options) stated
  change builder.Unfolds options (Bodies.of e.arguments) at unfolds
  generalize Bodies.of e.arguments = bodies at unfolds ⊢
  unfold Builder.finish at finished
  split at finished
  · cases finished
  · rename_i settled
    obtain ⟨here, around, ended⟩ := bodies
    have layered := unfolds.layered
    have stacked := follows.stacked
    rw [settled] at layered stacked
    cases layered with
    | root holds =>
      cases stacked' : nest.around with
      | cons first rest =>
        rw [stacked'] at stacked
        cases stacked
      | nil =>
        rw [stacked'] at stacked
        obtain ⟨fulfils⟩ := stacked
        obtain ⟨-, merges⟩ := follows.close follows.tidy.root fulfils finished
        have shows := Builder.shows_close follows.tidy.library follows.tidy.root fulfils holds finished
        rw [unfolds.chosen] at shows
        refine ⟨shows, fun name definition found => ?_⟩
        obtain ⟨old, found', merged⟩ := merges.exists_of_get? found
        obtain ⟨body, original, ended', shows', merged'⟩ := unfolds.library name old found'
        refine ⟨body, ended', shows' ▸ ?_⟩
        exact (Graph.MergesInputs.sublist_exposedInputs (merged'.trans merged)).map Prod.fst

end Shadeloom
