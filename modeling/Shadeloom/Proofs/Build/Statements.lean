import Mathlib
import Shadeloom.Build.Statements
import Shadeloom.Proofs.Build.Closing
import Shadeloom.Proofs.Build.Lowering
/-!
# Builds of runnable graphs

Between two statements the root and all open groups are tidy and the library is runnable. Every
statement keeps this, so a build gives a graph and definitions that can be evaluated.
-/
namespace Shadeloom

namespace Scope

variable {library : Library} {before after : Scope}

/-- An empty scope is tidy. -/
theorem tidy_empty (library : Library) (name : String) : Tidy library [] (empty name) where
  runnable := Graph.runnable_empty library name
  idle id mem := by cases mem
  inputs name id listed := by simp [empty, Graph.empty, Graph.input?] at listed
  built entry mem := by cases mem
  splits name id found := by simp [empty] at found
  instances name id found := by simp [empty] at found

/-- A scope stays tidy with a library of more names. -/
theorem Tidy.mono {library' : Library} {held : List Nat} (tidy : before.Tidy library held)
    (more : ∀ name, library.contains name = true → library'.contains name = true) :
    before.Tidy library' held :=
  { tidy with runnable := tidy.runnable.mono more }

/-- Forgetting what has been built keeps a scope tidy. -/
theorem Tidy.forget (tidy : before.Tidy library []) : before.forget.Tidy library [] where
  runnable := tidy.runnable
  idle id mem := by cases mem
  inputs := tidy.inputs
  built entry mem := by cases mem
  splits name id found := by simp [Scope.forget] at found
  instances := tidy.instances

/-- Another runnable graph with no fewer nodes keeps a scope tidy. -/
theorem Tidy.withGraph (tidy : before.Tidy library []) {graph : Graph}
    (runnable : graph.Runnable library)
    (stays : ∀ id, (before.graph.node? id).isSome = true → (graph.node? id).isSome = true) :
    Tidy library [] { before with graph } where
  runnable := runnable
  idle id mem := by cases mem
  inputs name id listed := by simp
  built entry mem := ⟨stays _ (tidy.built entry mem).1, by simp⟩
  splits name id found := ⟨stays _ (tidy.splits name id found).1, by simp⟩
  instances name id found := ⟨stays _ (tidy.instances name id found).1, by simp⟩

/-- Another label keeps a scope tidy. -/
theorem Tidy.setLabel (tidy : before.Tidy library []) {id : Nat} {label : Option String}
    {graph : Graph} (done : before.graph.setLabel id label = .ok graph) :
    Tidy library [] { before with graph } ∧ graph.name = before.graph.name ∧
      ∀ other, (before.graph.node? other).isSome = true → (graph.node? other).isSome = true := by
  obtain ⟨node, found, same⟩ := bind_eq_ok_iff.1 done
  cases same
  rw [Graph.node_eq_ok_iff] at found
  have sound := tidy.runnable.sound
  have fits := Node.replaces_setLabel (sound.inputShaped id node · found) label
  have runnable := tidy.runnable.setNode found fits fun _ same => same
  have stays (other : Nat) (here : (before.graph.node? other).isSome = true) :
      ((before.graph.setNode id { node with label }).node? other).isSome = true := by
    rw [Graph.node?_setNode found]
    split
    · rfl
    · exact here
  exact ⟨tidy.withGraph runnable stays, rfl, stays⟩

/-- Adding an output keeps a scope tidy, and the output is held back. -/
theorem Tidy.addOutput (tidy : before.Tidy library []) {name : String} {type : SocketType}
    {id : Nat} {graph : Graph} (adds : before.graph.AddsOutput graph name type id) :
    Tidy library [id] { before with graph } := by
  have grows := adds.grows
  have apart (other : Nat) (offers : before.Offers [] other) : other ≠ id := by
    rintro rfl
    have here := offers.1
    rw [adds.fresh] at here
    cases here
  have offers (other : Nat) (offers : before.Offers [] other) :
      Offers [id] { before with graph } other :=
    ⟨grows.isSome offers.1, by simpa using apart other offers⟩
  refine {
    runnable := tidy.runnable.addOutput adds
    idle := fun other mem => ?_
    inputs := fun name other listed => ?_
    built := fun entry mem => offers _ (tidy.built entry mem)
    splits := fun name other found => offers _ (tidy.splits name other found)
    instances := fun name other found => offers _ (tidy.instances name other found) }
  · rw [List.mem_singleton.1 mem]
    refine ⟨?_, fun target source linked same => ?_⟩
    · show (graph.node? id).isSome = true
      rw [adds.node?, if_pos rfl]
      rfl
    · have linked : graph.source? target = some source := linked
      rw [adds.source?] at linked
      have here := (tidy.runnable.sound.isSome_of_leads (Graph.leads_of_source? linked)).1
      rw [same, adds.fresh] at here
      cases here
  · have listed : before.graph.input? name = some other := by
      unfold Graph.input? at listed ⊢
      rwa [← adds.inputs]
    obtain ⟨node, port, found, -⟩ := tidy.runnable.sound.input?_spec listed
    have here : before.Offers [] other := ⟨by rw [found]; rfl, by simp⟩
    simpa using apart other here

end Scope

/-- Building a tree into a socket of a node that is held back keeps a scope tidy and links the
socket. -/
theorem lowerInto_keeps {library : Library} (runnable : library.Runnable) {reuse : Bool} {e : Expr}
    {target : Socket} {before after : Scope} (tidy : before.Tidy library [target.node])
    (done : lowerInto library reuse e target before = .ok after) :
    Scope.Advances library [target.node] [target.node] before after ∧
      ∃ source, after.graph.source? target = some source := by
  obtain ⟨⟨source, built⟩, lowered, linked⟩ := bind_eq_ok_iff.1 done
  obtain ⟨advances, offers⟩ := (lower_keeps runnable reuse).1 e before _ _ _ tidy lowered
  obtain ⟨linking, connects, -⟩ := advances.tidy.connect offers.2 (by simp) linked
  exact ⟨(advances.weaken (by simp)).trans linking (by simp), source,
    (connects.source? target).trans (if_pos rfl)⟩

namespace Expr

/-- Whether a statement is an expression without a name. -/
structure IsBare (e : Expr) : Prop where
  present : e ≠ .empty
  unnamed : ∀ target value, e ≠ .binary .assign target value
  call : ∀ name args, e = .call name args → Builder.directive? name = none

/-- Only a missing tree is empty. -/
theorem isEmpty_iff {e : Expr} : e.isEmpty = true ↔ e = .empty := by
  cases e <;> simp [isEmpty]

/-- A bare expression is there. -/
theorem IsBare.isEmpty {e : Expr} (bare : e.IsBare) : e.isEmpty = false :=
  Bool.eq_false_iff.2 fun absent => bare.present (isEmpty_iff.1 absent)

/-- A statement is nothing, a directive, an expression with a name or one without. -/
theorem statement_cases (e : Expr) : e = .empty ∨
    (∃ name args directive, e = .call name args ∧ Builder.directive? name = some directive) ∨
    (∃ target tree, e = .binary .assign target tree) ∨ e.IsBare := by
  cases e with
  | empty => exact .inl rfl
  | call name args =>
    cases called : Builder.directive? name with
    | some directive => exact .inr (.inl ⟨name, args, directive, rfl, called⟩)
    | none =>
      refine .inr (.inr (.inr ⟨nofun, nofun, fun name' args' same => ?_⟩))
      cases same
      exact called
  | binary op lhs rhs =>
    cases op with
    | assign => exact .inr (.inr (.inl ⟨lhs, rhs, rfl⟩))
    | _ => exact .inr (.inr (.inr ⟨nofun, nofun, nofun⟩))
  | _ => exact .inr (.inr (.inr ⟨nofun, nofun, nofun⟩))

end Expr

namespace Builder

/-- A build at the start of a statement. -/
def atStatement (builder : Builder) : Builder :=
  if builder.options.isolateStatements then builder.setScope builder.scope.forget else builder

section

variable {builder : Builder}

/-- A call of a directive is carried out as the directive. -/
theorem statement_of_directive {name : String} {directive : Directive}
    (called : directive? name = some directive) (args : Expr) :
    builder.statement (.call name args) =
      builder.atStatement.directive directive name args.arguments := by
  simp only [statement, called]
  rfl

/-- An expression without a name is an output of the name that all such have. -/
theorem statement_of_bare {e : Expr} (bare : e.IsBare) :
    builder.statement e = builder.atStatement.output bareOutput .scalar e := by
  cases e with
  | empty => exact absurd rfl bare.present
  | call name args =>
    simp only [statement, bare.call name args rfl]
    rfl
  | binary op lhs rhs =>
    cases op with
    | assign => exact absurd rfl (bare.unnamed lhs rhs)
    | _ => rfl
  | _ => rfl

/-- An expression with a name is an output of the name. -/
theorem statement_of_assign (target value : Expr) :
    builder.statement (.binary .assign target value) =
      outputTarget target >>= fun output => builder.atStatement.output output.1 output.2 value :=
  rfl

/-- Another scope leaves the definitions as they are. -/
theorem library_setScope (scope : Scope) :
    (builder.setScope scope).library = builder.library := by
  unfold setScope
  split <;> rfl

/-- Another scope leaves the options as they are. -/
theorem options_setScope (scope : Scope) :
    (builder.setScope scope).options = builder.options := by
  unfold setScope
  split <;> rfl

/-- What holds of the scopes of a build holds of the innermost one. -/
theorem scope_of_forall {P : Scope → Prop} (root : P builder.root)
    (opened : ∀ group ∈ builder.opened, P group.scope) : P builder.scope := by
  unfold scope
  split
  · exact root
  · rename_i group rest innermost
    exact opened group (by simp [innermost])

/-- What holds of the scopes of a build and of another scope holds of the scopes with this one as
the innermost one. -/
theorem forall_setScope {P : Scope → Prop} (root : P builder.root)
    (opened : ∀ group ∈ builder.opened, P group.scope) {scope : Scope} (new : P scope) :
    P (builder.setScope scope).root ∧ ∀ group ∈ (builder.setScope scope).opened, P group.scope := by
  unfold setScope
  split
  · exact ⟨new, opened⟩
  · rename_i group rest innermost
    rw [innermost, List.forall_mem_cons] at opened
    exact ⟨root, List.forall_mem_cons.2 ⟨new, opened.2⟩⟩

/-- At the start of a statement the options are as before. -/
theorem options_atStatement : builder.atStatement.options = builder.options := by
  unfold atStatement
  split
  · exact options_setScope _
  · rfl

/-- At the start of a statement the definitions are as before. -/
theorem library_atStatement : builder.atStatement.library = builder.library := by
  unfold atStatement
  split
  · exact library_setScope _
  · rfl

end

end Builder

namespace Builder

section

variable {builder after : Builder} {directive : String} {arguments : List Expr}

/-- An output that is built gives the innermost scope one more output, and a tree is built into
it. -/
theorem output_eq_ok {name : String} {type : SocketType} {e : Expr}
    (done : builder.output name type e = .ok after) : ∃ scope,
      lowerInto builder.library builder.options.optimize e
        ⟨(builder.scope.graph.addOutput name type).1, 0⟩
        { builder.scope with graph := (builder.scope.graph.addOutput name type).2 } = .ok scope ∧
      after = builder.setScope scope := by
  unfold Builder.output at done
  split at done
  · cases done
  · obtain ⟨scope, lowered, same⟩ := bind_eq_ok_iff.1 done
    cases same
    exact ⟨scope, lowered, rfl⟩

/-- A group that is started is named by the first argument and declares the others as inputs. -/
theorem startGroup_eq_ok (done : builder.startGroup directive arguments = .ok after) :
    ∃ argument inputs name scope, arguments = argument :: inputs ∧
      plainName directive argument = .ok name ∧
      inputs.foldlM (declareInput directive) (.empty name) = .ok scope ∧
      after = { builder with opened := ⟨name, scope⟩ :: builder.opened } := by
  unfold Builder.startGroup at done
  split at done
  · cases done
  · rename_i argument inputs
    obtain ⟨name, named, done⟩ := bind_eq_ok_iff.1 done
    obtain ⟨scope, declared, same⟩ := bind_eq_ok_iff.1 done
    cases same
    exact ⟨argument, inputs, name, scope, rfl, named, declared, rfl⟩

/-- A group that is ended is the innermost one, and what its scope becomes is its definition. -/
theorem endGroup_eq_ok (done : builder.endGroup directive arguments = .ok after) :
    ∃ argument group rest site, arguments = [argument] ∧
      plainName directive argument = .ok group.name ∧ builder.opened = group :: rest ∧
      builder.close group.scope = .ok site ∧
      after = { builder with
        opened := rest, library := site.library.insert group.name site.graph } := by
  unfold Builder.endGroup at done
  split at done
  · rename_i argument
    obtain ⟨name, named, done⟩ := bind_eq_ok_iff.1 done
    split at done
    · cases done
    · rename_i group rest opened
      split at done
      · cases done
      · rename_i same
        obtain ⟨site, closed, result⟩ := bind_eq_ok_iff.1 done
        obtain rfl := not_ne_iff.1 same
        cases result
        exact ⟨argument, group, rest, site, rfl, named, opened, closed, rfl⟩
  · cases done

/-- An instance that is added is fed by the recipe of its group on the later arguments and gets a
label. -/
theorem addInstance_eq_ok (done : builder.addInstance directive arguments = .ok after) :
    ∃ group recipe fed called graph,
      Recipe.ofGroup builder.library directive group (arguments.drop 2) = .ok recipe ∧
      feed builder.library builder.options.optimize recipe.operands builder.scope.graph.nextNode
        (builder.scope.addNode recipe.node) = .ok fed ∧
      fed.graph.setLabel builder.scope.graph.nextNode (some called) = .ok graph ∧
      after = builder.setScope { fed with
        graph, instances := fed.instances.insert called builder.scope.graph.nextNode } := by
  unfold Builder.addInstance at done
  split at done
  · rename_i inputs
    obtain ⟨group, -, done⟩ := bind_eq_ok_iff.1 done
    obtain ⟨called, -, done⟩ := bind_eq_ok_iff.1 done
    obtain ⟨recipe, made, done⟩ := bind_eq_ok_iff.1 done
    obtain ⟨fed, feeds, done⟩ := bind_eq_ok_iff.1 done
    obtain ⟨graph, labels, same⟩ := bind_eq_ok_iff.1 done
    cases same
    exact ⟨group, recipe, fed, called, graph, made, feeds, lift_eq_ok_iff.1 labels, rfl⟩
  · cases done

/-- Only the end of a group changes definitions. -/
theorem library_directive {directive : Directive} {name : String} {arguments : List Expr}
    (done : builder.directive directive name arguments = .ok after)
    (other : directive ≠ .groupEnd) : after.library = builder.library := by
  cases directive with
  | groupStart =>
    obtain ⟨-, -, -, -, -, -, -, rfl⟩ := startGroup_eq_ok done
    rfl
  | groupEnd => exact absurd rfl other
  | groupAdd =>
    obtain ⟨-, -, -, -, -, -, -, -, rfl⟩ := addInstance_eq_ok done
    exact library_setScope _
  | inputs =>
    obtain ⟨names, -, same⟩ := bind_eq_ok_iff.1 done
    cases same
    exact library_setScope _
  | outputs =>
    obtain ⟨names, -, same⟩ := bind_eq_ok_iff.1 done
    cases same
    exact library_setScope _

/-- An output changes no definitions. -/
theorem library_output {name : String} {type : SocketType} {e : Expr}
    (done : builder.output name type e = .ok after) : after.library = builder.library := by
  obtain ⟨scope, -, rfl⟩ := output_eq_ok done
  exact library_setScope _

end

end Builder

namespace Builder

section

variable {error : BuildError}

/-- An argument of a directive is refused for not being a name. -/
theorem plainName_refused {directive : String} {argument : Expr}
    (refused : plainName directive argument = .error error) :
    ∃ fault, error = .invalidDirective directive fault := by
  unfold plainName at refused
  split at refused
  · cases refused
  · cases refused
    exact ⟨_, rfl⟩

/-- Arguments of a directive are refused for not being names. -/
theorem plainNames_refused {directive : String} {arguments : List Expr}
    (refused : arguments.mapM (plainName directive) = .error error) :
    ∃ fault, error = .invalidDirective directive fault := by
  induction arguments with
  | nil => cases refused
  | cons first rest ih =>
    rw [List.mapM_cons] at refused
    rcases bind_eq_error_iff.1 refused with named | ⟨name, -, refused⟩
    · exact plainName_refused named
    · rcases bind_eq_error_iff.1 refused with others | ⟨names, -, impossible⟩
      · exact ih others
      · cases impossible

/-- What an assignment assigns to is refused for not being a name. -/
theorem outputTarget_refused {target : Expr} (refused : outputTarget target = .error error) :
    ∃ fault, error = .invalidDirective "=" fault := by
  unfold outputTarget at refused
  split at refused <;> cases refused
  exact ⟨_, rfl⟩

/-- An input that a group declares is refused for its form or for its default. -/
theorem declareInput_refused {directive : String} {scope : Scope} {argument : Expr}
    (refused : declareInput directive scope argument = .error error) :
    (∃ fault, error = .invalidDirective directive fault) ∨ ∃ text, error = .invalidLiteral text := by
  unfold declareInput at refused
  split at refused
  · rename_i v
    rcases bind_eq_error_iff.1 refused with typed | ⟨type, -, refused⟩
    · unfold declaredType at typed
      split at typed <;> cases typed
      exact .inl ⟨_, rfl⟩
    · rcases bind_eq_error_iff.1 refused with noted | ⟨_, _, impossible⟩
      · exact .inr (Scope.noteDefault_refused noted)
      · cases impossible
  · cases refused
    exact .inl ⟨_, rfl⟩

/-- The start of a group is refused for its name or for an input. -/
theorem startGroup_refused {builder : Builder} {directive : String} {arguments : List Expr}
    (refused : builder.startGroup directive arguments = .error error) :
    (∃ fault, error = .invalidDirective directive fault) ∨ ∃ text, error = .invalidLiteral text := by
  unfold Builder.startGroup at refused
  split at refused
  · cases refused
    exact .inl ⟨_, rfl⟩
  · rcases bind_eq_error_iff.1 refused with named | ⟨name, -, refused⟩
    · exact .inl (plainName_refused named)
    · rcases bind_eq_error_iff.1 refused with declared | ⟨_, _, impossible⟩
      · obtain ⟨scope, input, -, here⟩ := exists_of_foldlM_error declared
        exact declareInput_refused here
      · cases impossible

end

end Builder

namespace Builder

/-- Whether a build is in order between two statements. -/
structure Tidy (builder : Builder) : Prop where
  library : builder.library.Runnable
  root : builder.root.Tidy builder.library []
  opened : ∀ group ∈ builder.opened,
    group.scope.Tidy builder.library [] ∧ group.scope.graph.name = group.name

/-- A build is in order before the first statement. -/
theorem tidy_start (options : BuildOptions) : (start options).Tidy where
  library := Library.runnable_empty
  root := Scope.tidy_empty _ _
  opened group mem := by cases mem

/-- The innermost scope of a build in order is tidy. -/
theorem Tidy.scope {builder : Builder} (tidy : builder.Tidy) :
    builder.scope.Tidy builder.library [] :=
  scope_of_forall tidy.root fun group mem => (tidy.opened group mem).1

/-- Another tidy scope of the same name keeps a build in order. -/
theorem Tidy.setScope {builder : Builder} (tidy : builder.Tidy) {scope : Scope}
    (tidy' : scope.Tidy builder.library []) (name : scope.graph.name = builder.scope.graph.name) :
    (builder.setScope scope).Tidy := by
  unfold Builder.setScope
  split
  · exact ⟨tidy.library, tidy', tidy.opened⟩
  · rename_i group rest opened
    have named : builder.scope.graph.name = group.name := by
      rw [← (tidy.opened group (by simp [opened])).2]
      simp only [Builder.scope, opened]
    refine ⟨tidy.library, tidy.root, fun other mem => ?_⟩
    rcases List.mem_cons.1 mem with rfl | mem
    · exact ⟨tidy', name.trans named⟩
    · exact tidy.opened other (by simp [opened, mem])

section

variable {builder after : Builder}

/-- An output keeps a build in order. -/
theorem Tidy.output (tidy : builder.Tidy) {name : String} {type : SocketType} {e : Expr}
    (done : builder.output name type e = .ok after) : after.Tidy := by
  obtain ⟨scope, lowered, rfl⟩ := output_eq_ok done
  have adds := tidy.scope.runnable.sound.addOutput name type
  obtain ⟨advances, -⟩ := lowerInto_keeps tidy.library (tidy.scope.addOutput adds) lowered
  exact tidy.setScope (advances.tidy.release (by simp)) (advances.name.trans adds.name)

/-- An input that is declared is added, and its default may be noted. -/
theorem declareInput_eq_ok {directive : String} {scope scope' : Scope} {argument : Expr}
    (done : declareInput directive scope argument = .ok scope') : ∃ v type defaults,
      argument = .var v ∧ scope' = (Scope.addInput { scope with defaults } v.name type).2 := by
  unfold declareInput at done
  split at done
  · rename_i v
    obtain ⟨type, -, done⟩ := bind_eq_ok_iff.1 done
    obtain ⟨noted, written, same⟩ := bind_eq_ok_iff.1 done
    cases same
    obtain ⟨defaults, rfl⟩ := Scope.noteDefault_eq written
    exact ⟨v, type, defaults, rfl, rfl⟩
  · cases done

/-- An input that is declared advances the scope of a group. -/
theorem declareInput_keeps {library : Library} {directive : String} {scope scope' : Scope}
    {argument : Expr} (tidy : scope.Tidy library [])
    (done : declareInput directive scope argument = .ok scope') :
    Scope.Advances library [] [] scope scope' := by
  obtain ⟨v, type, defaults, -, rfl⟩ := declareInput_eq_ok done
  have start := tidy.withDefaults defaults
  obtain ⟨advances, -⟩ := start.tidy.addInput v.name type
  exact start.trans advances (by simp)

/-- Inputs that are declared advance the scope of a group. -/
theorem declareInputs_keep {library : Library} {directive : String} {scope scope' : Scope}
    {inputs : List Expr} (tidy : scope.Tidy library [])
    (done : inputs.foldlM (declareInput directive) scope = .ok scope') :
    Scope.Advances library [] [] scope scope' :=
  foldlM_keeps (Scope.Advances library [] [] scope)
    (fun _ _ _ advances declared =>
      advances.trans (declareInput_keeps advances.tidy declared) (by simp)) done tidy.advances

/-- The start of a group keeps a build in order. -/
theorem Tidy.startGroup (tidy : builder.Tidy) {directive : String} {arguments : List Expr}
    (done : builder.startGroup directive arguments = .ok after) : after.Tidy := by
  obtain ⟨-, inputs, name, scope, -, -, declared, rfl⟩ := startGroup_eq_ok done
  have advances := declareInputs_keep (Scope.tidy_empty builder.library name) declared
  refine ⟨tidy.library, tidy.root, fun group mem => ?_⟩
  rcases List.mem_cons.1 mem with rfl | mem
  · exact ⟨advances.tidy, advances.name⟩
  · exact tidy.opened group mem

/-- A scope that is closed is cleaned up. -/
theorem close_eq_ok {scope : Scope} {site : Site} (done : builder.close scope = .ok site) :
    ∃ report, Cleanup.all scope.declarations builder.options ⟨scope.graph, builder.library⟩ =
      .ok report site := by
  unfold Builder.close cleanUp at done
  cases cleaned : (Cleanup.all scope.declarations builder.options).run
      ⟨scope.graph, builder.library⟩ with
  | error error site' => rw [cleaned] at done; cases done
  | ok report site' => rw [cleaned] at done; cases done; exact ⟨report, cleaned⟩

/-- What a scope of a build becomes when it is closed can be evaluated. -/
theorem Tidy.close (tidy : builder.Tidy) {scope : Scope} {site : Site}
    (tidy' : scope.Tidy builder.library []) (done : builder.close scope = .ok site) :
    site.Runs ∧ site.graph.name = scope.graph.name ∧
      ∀ name, builder.library.contains name = true → site.library.contains name = true := by
  have runs : Site.Runs ⟨scope.graph, builder.library⟩ := ⟨tidy'.runnable, tidy.library⟩
  obtain ⟨report, cleaned⟩ := close_eq_ok done
  have keeps := Cleanup.all_runs runs cleaned
  exact ⟨keeps.runs, keeps.name, keeps.names⟩

/-- The end of a group keeps a build in order. -/
theorem Tidy.endGroup (tidy : builder.Tidy) {directive : String} {arguments : List Expr}
    (done : builder.endGroup directive arguments = .ok after) : after.Tidy := by
  obtain ⟨-, group, rest, site, -, -, opened, closed, rfl⟩ := endGroup_eq_ok done
  obtain ⟨tidy', named⟩ := tidy.opened group (by simp [opened])
  obtain ⟨runs, name, more⟩ := tidy.close tidy' closed
  have keeps := runs.withDefinition runs.graph (name.trans named)
  have more' (other : String) (here : builder.library.contains other = true) :=
    keeps.names other (more other here)
  exact ⟨keeps.runs.library, tidy.root.mono more', fun other mem =>
    ⟨(tidy.opened other (by simp [opened, mem])).1.mono more',
      (tidy.opened other (by simp [opened, mem])).2⟩⟩

/-- The node of an instance is no input, and adding it advances the scope that it is added to. -/
theorem Tidy.addInstanceNode (tidy : builder.Tidy) {directive group : String} {inputs : List Expr}
    {recipe : Recipe}
    (made : Recipe.ofGroup builder.library directive group inputs = .ok recipe) :
    (∀ port, recipe.node.op ≠ .input port) ∧
      Scope.Advances builder.library [builder.scope.graph.nextNode] [] builder.scope
        (builder.scope.addNode recipe.node) := by
  obtain ⟨name, definition, found, node⟩ := Recipe.isInstance_ofGroup made
  have other (port : InputPort) : recipe.node.op ≠ .input port := by
    rw [node]
    exact NodeOp.noConfusion
  exact ⟨other, tidy.scope.addNode recipe.node (fun port same => absurd same (other port))
    (node ▸ tidy.library.refers_instanceNode found)⟩

/-- An instance that is added advances the scope that it is added to, and may be read. -/
theorem Tidy.feedInstance (tidy : builder.Tidy) {directive group : String} {inputs : List Expr}
    {recipe : Recipe} {fed : Scope}
    (made : Recipe.ofGroup builder.library directive group inputs = .ok recipe)
    (feeds : feed builder.library builder.options.optimize recipe.operands
      builder.scope.graph.nextNode (builder.scope.addNode recipe.node) = .ok fed) :
    Scope.Advances builder.library [] [] builder.scope fed ∧
      fed.Offers [] builder.scope.graph.nextNode := by
  obtain ⟨name, definition, found, node⟩ := Recipe.isInstance_ofGroup made
  have keeps := (lower_keeps tidy.library builder.options.optimize).2 recipe.operands
    builder.scope.graph.nextNode (builder.scope.addNode recipe.node)
  exact keeps.make tidy.scope (fun port same => by rw [node] at same; cases same)
    (node ▸ tidy.library.refers_instanceNode found) feeds

/-- An instance that is added keeps a build in order. -/
theorem Tidy.addInstance (tidy : builder.Tidy) {directive : String} {arguments : List Expr}
    (done : builder.addInstance directive arguments = .ok after) : after.Tidy := by
  obtain ⟨group, recipe, fed, called, graph, made, feeds, labels, rfl⟩ := addInstance_eq_ok done
  obtain ⟨advances, offers⟩ := tidy.feedInstance made feeds
  obtain ⟨tidy', name, stays⟩ := advances.tidy.setLabel labels
  refine tidy.setScope ⟨tidy'.runnable, tidy'.idle, tidy'.inputs, tidy'.built, tidy'.splits,
    fun other id here => ?_⟩ (name.trans advances.name)
  rw [Table.get?_insert] at here
  split at here
  · cases here
    exact ⟨stays _ offers.1, by simp⟩
  · exact tidy'.instances other id here

/-- A directive keeps a build in order. -/
theorem Tidy.directive (tidy : builder.Tidy) {directive : Directive} {name : String}
    {arguments : List Expr} (done : builder.directive directive name arguments = .ok after) :
    after.Tidy := by
  cases directive with
  | groupStart => exact tidy.startGroup done
  | groupEnd => exact tidy.endGroup done
  | groupAdd => exact tidy.addInstance done
  | inputs =>
    obtain ⟨names, -, same⟩ := bind_eq_ok_iff.1 done
    cases same
    exact tidy.setScope { tidy.scope with } rfl
  | outputs =>
    obtain ⟨names, -, same⟩ := bind_eq_ok_iff.1 done
    cases same
    exact tidy.setScope { tidy.scope with } rfl

/-- The start of a statement keeps a build in order. -/
theorem Tidy.atStatement (tidy : builder.Tidy) : builder.atStatement.Tidy := by
  unfold Builder.atStatement
  split
  · exact tidy.setScope tidy.scope.forget rfl
  · exact tidy

/-- A statement keeps a build in order. -/
theorem Tidy.statement (tidy : builder.Tidy) {e : Expr} (done : builder.statement e = .ok after) :
    after.Tidy := by
  have ready := tidy.atStatement
  obtain rfl | ⟨name, args, directive, rfl, called⟩ | ⟨target, tree, rfl⟩ | bare :=
    e.statement_cases
  · cases done
    exact ready
  · rw [statement_of_directive called] at done
    exact ready.directive done
  · obtain ⟨⟨name, type⟩, -, done⟩ := bind_eq_ok_iff.1 done
    exact ready.output done
  · rw [statement_of_bare bare] at done
    exact ready.output done

/-- Statements keep a build in order. -/
theorem Tidy.statements (tidy : builder.Tidy) {statements : List Expr}
    (done : statements.foldlM Builder.statement builder = .ok after) : after.Tidy :=
  foldlM_keeps Tidy (fun _ _ _ tidy stated => tidy.statement stated) done tidy

/-- What a build in order ends with can be evaluated. -/
theorem Tidy.finish (tidy : builder.Tidy) {site : Site} (done : builder.finish = .ok site) :
    site.Runs := by
  unfold Builder.finish at done
  split at done
  · cases done
  · exact (tidy.close tidy.root done).1

end

end Builder

/-- What is built from a tree can be evaluated. -/
theorem Expr.runs_build {e : Expr} {options : BuildOptions} {site : Site}
    (done : e.build options = .ok site) : site.Runs := by
  obtain ⟨builder, built, finished⟩ := bind_eq_ok_iff.1 done
  exact ((Builder.tidy_start options).statements built).finish finished

/-- A call that is no directive is an expression without a name. -/
theorem Expr.isBare_call {name : String} (free : Builder.directive? name = none) (args : Expr) :
    (call name args).IsBare where
  present := by rintro ⟨⟩
  unnamed := by rintro _ _ ⟨⟩
  call := by
    rintro _ _ ⟨⟩
    exact free

/-- A literal is an expression without a name. -/
theorem Expr.isBare_value (literal : Literal) : (value literal).IsBare where
  present := by rintro ⟨⟩
  unnamed := by rintro _ _ ⟨⟩
  call := by rintro _ _ ⟨⟩

/-- An expression alone and without a name is built into the output that all such have. -/
theorem Expr.build_of_bare {e : Expr} (bare : e.IsBare) (alone : e.arguments = [e])
    (options : BuildOptions) :
    e.build options = (do
      let scope ← lowerInto .empty options.optimize e ⟨0, 0⟩ { Scope.empty Builder.rootName with
        graph := ((Graph.empty Builder.rootName).addOutput Builder.bareOutput .scalar).2 }
      (Builder.start options).close scope) := by
  have begun : (Builder.start options).atStatement = .start options := by
    unfold Builder.atStatement
    split <;> rfl
  unfold build
  rw [alone, List.foldlM_cons, Builder.statement_of_bare bare, begun]
  unfold Builder.output
  rw [bare.isEmpty]
  show ((lowerInto .empty options.optimize e ⟨0, 0⟩ { Scope.empty Builder.rootName with
    graph := ((Graph.empty Builder.rootName).addOutput Builder.bareOutput .scalar).2 } >>= _) >>=
      _) >>= _ = _
  cases lowerInto .empty options.optimize e ⟨0, 0⟩ { Scope.empty Builder.rootName with
    graph := ((Graph.empty Builder.rootName).addOutput Builder.bareOutput .scalar).2 } <;> rfl

end Shadeloom
