import Mathlib
import Shadeloom.Proofs.Build.Outputs
import Shadeloom.Proofs.Build.Refusals
import Shadeloom.Proofs.Build.SelfContained
/-!
# Builds follow blocks

The scopes of a build are the blocks that are open: each has the outputs that are directly in its
block, and the definitions are the groups that have ended. A statement that is carried out does to
the scopes what its mark does to the blocks, and a statement is refused for the nesting of groups
only where its mark does not fit. So a chain that is built is well nested, and one that is refused
for its nesting is not.
-/
namespace Shadeloom

namespace Graph.Fulfils

variable {before between after : Graph} {outputs : List NamedOutput}

/-- A graph without outputs gives none. -/
theorem nil {graph : Graph} (none : graph.outputs = []) : graph.Fulfils [] where
  named := by simp [namedOutputs, none]
  fed id mem := by simp [none] at mem

/-- An output that has been added is given when something has been linked to it. -/
theorem output (fulfils : before.Fulfils outputs) (sound : before.Sound) {name : String}
    {type : SocketType} {id : Nat} (adds : before.AddsOutput between name type id)
    (grows : between.Grows after [id]) (listed : after.outputs = between.outputs) {source : Socket}
    (linked : after.source? ⟨id, 0⟩ = some source) : after.Fulfils (outputs ++ [(name, type)]) where
  named := by
    rw [adds.sound.namedOutputs_of_grows grows listed, adds.namedOutputs sound, fulfils.named]
  fed other mem := by
    rw [listed, adds.outputs, List.mem_append, List.mem_singleton] at mem
    rcases mem with mem | rfl
    · obtain ⟨node, port, found, -⟩ := sound.outputNamed other mem
      have here : (between.node? other).isSome = true :=
        adds.grows.isSome (Option.isSome_iff_exists.2 ⟨node, found⟩)
      have apart : other ∉ [id] := by
        rw [List.mem_singleton]
        rintro rfl
        cases found.symm.trans adds.fresh
      rw [grows.source? ⟨other, 0⟩ here apart, adds.source?]
      exact fulfils.fed other mem
    · exact ⟨source, linked⟩

/-- A graph still gives its outputs when a node gets a label. -/
theorem setLabel (fulfils : before.Fulfils outputs) (sound : before.Sound) {id : Nat}
    {label : Option String} (done : before.setLabel id label = .ok after) : after.Fulfils outputs := by
  obtain ⟨node, found, same⟩ := bind_eq_ok_iff.1 done
  cases same
  rw [node_eq_ok_iff] at found
  have same : ({ node with label } : Node).op.namedOutput? = node.op.namedOutput? := rfl
  refine ⟨(sound.namedOutputs_setNode found same).trans fulfils.named, fun other mem => ?_⟩
  rw [sound.source?_setNode]
  exact fulfils.fed other mem

end Graph.Fulfils

namespace Expr

/-- An argument is a name when it is nothing else. -/
theorem soleName?_of_plainName {directive name : String} {argument : Expr}
    (named : Builder.plainName directive argument = .ok name) : argument.soleName? = some name := by
  unfold Builder.plainName at named
  split at named
  · cases named
    rfl
  · cases named

/-- What an assignment names is the output that it gives. -/
theorem assigned?_of_outputTarget {target : Expr} {output : NamedOutput}
    (named : Builder.outputTarget target = .ok output) : target.assigned? = some output := by
  unfold Builder.outputTarget at named
  split at named <;> cases named <;> rfl

/-- A bare expression gives the output of the name that all such have. -/
theorem IsBare.mark?_eq {e : Expr} (bare : e.IsBare) : e.mark? = some (.gives bareOutput) := by
  cases e with
  | empty => exact absurd rfl bare.present
  | call name args => simp only [mark?, bare.call name args rfl]
  | binary op lhs rhs =>
    cases op with
    | assign => exact absurd rfl (bare.unnamed lhs rhs)
    | _ => rfl
  | _ => rfl

/-- The mark of a directive is that of its arguments. -/
theorem mark?_of_directive {name : String} {directive : Directive}
    (called : Builder.directive? name = some directive) (args : Expr) :
    (call name args).mark? = directiveMark? directive args.arguments := by
  simp only [mark?, called]

end Expr

/-- Whether scopes, the root and the groups that are open in it, have the outputs of blocks, those of
the innermost block and those around it. -/
inductive Scope.Stacked (root : Scope) :
    List OpenGroup → List NamedOutput → List Block → Prop
  | root {outputs : List NamedOutput} (fulfils : root.graph.Fulfils outputs) :
    Stacked root [] outputs []
  | group {group : OpenGroup} {opened : List OpenGroup} {inner outputs : List NamedOutput}
    {around : List Block} (fulfils : group.scope.graph.Fulfils inner)
    (rest : Stacked root opened outputs around) :
    Stacked root (group :: opened) inner ((group.name, outputs) :: around)

namespace Builder

variable {builder after : Builder} {nest : Nest} {e : Expr}

/-- The innermost scope has the outputs of the innermost block. -/
theorem fulfils_of_stacked {outputs : List NamedOutput} {around : List Block}
    (stacked : builder.root.Stacked builder.opened outputs around) :
    builder.scope.graph.Fulfils outputs := by
  obtain ⟨options, root, opened, library⟩ := builder
  cases stacked with
  | root fulfils => exact fulfils
  | group fulfils rest => exact fulfils

/-- Another innermost scope changes the outputs of the innermost block. -/
theorem stacked_setScope {outputs outputs' : List NamedOutput} {around : List Block} {scope : Scope}
    (stacked : builder.root.Stacked builder.opened outputs around)
    (fulfils : scope.graph.Fulfils outputs') :
    (builder.setScope scope).root.Stacked (builder.setScope scope).opened outputs' around := by
  obtain ⟨options, root, opened, library⟩ := builder
  cases stacked with
  | root _ => exact .root fulfils
  | @group group _ _ _ _ _ rest =>
    exact @Scope.Stacked.group _ { group with scope } _ _ _ _ fulfils rest

/-- Whether a build between two statements has come to the blocks of the statements before. -/
structure Follows (builder : Builder) (nest : Nest) : Prop where
  tidy : builder.Tidy
  stacked : builder.root.Stacked builder.opened nest.outputs nest.around
  library : builder.library.mapValues Graph.namedOutputs = .ofList nest.groups

/-- A build starts without blocks. -/
theorem follows_start (options : BuildOptions) : (start options).Follows .start :=
  ⟨tidy_start options, .root (.nil rfl), rfl⟩

namespace Follows

variable (follows : builder.Follows nest)
include follows

/-- The innermost scope has the outputs of the innermost block. -/
theorem scope : builder.scope.graph.Fulfils nest.outputs :=
  fulfils_of_stacked follows.stacked

/-- Another innermost scope changes the outputs of the innermost block. -/
theorem setScope {scope : Scope} {outputs : List NamedOutput} (tidy : (builder.setScope scope).Tidy)
    (fulfils : scope.graph.Fulfils outputs) :
    (builder.setScope scope).Follows { nest with outputs } :=
  ⟨tidy, stacked_setScope follows.stacked fulfils, by rw [library_setScope]; exact follows.library⟩

/-- The start of a statement changes no blocks. -/
theorem atStatement : builder.atStatement.Follows nest := by
  have tidy := follows.tidy.atStatement
  unfold Builder.atStatement at tidy ⊢
  split at tidy
  · rename_i isolate
    rw [if_pos isolate]
    exact follows.setScope tidy follows.scope
  · rename_i together
    rwa [if_neg together]

/-- An output is one more of the innermost block. -/
theorem output {name : String} {type : SocketType}
    (done : builder.output name type e = .ok after) :
    after.Follows { nest with outputs := nest.outputs ++ [(name, type)] } := by
  have tidy := follows.tidy.output done
  obtain ⟨scope, lowered, rfl⟩ := output_eq_ok done
  have sound := follows.tidy.scope.runnable.sound
  have adds := sound.addOutput name type
  obtain ⟨advances, source, linked⟩ :=
    lowerInto_keeps follows.tidy.library (follows.tidy.scope.addOutput adds) lowered
  exact follows.setScope tidy
    (follows.scope.output sound adds advances.grows advances.outputs linked)

/-- A group that is started is a block without outputs. -/
theorem startGroup {directive : String} {arguments : List Expr}
    (done : builder.startGroup directive arguments = .ok after) :
    ∃ name, Expr.directiveMark? .groupStart arguments = some (.opens name) ∧
      after.Follows ⟨[], (name, nest.outputs) :: nest.around, nest.groups⟩ := by
  have tidy := follows.tidy.startGroup done
  obtain ⟨argument, inputs, name, scope, rfl, named, declared, rfl⟩ := startGroup_eq_ok done
  have advances := declareInputs_keep (Scope.tidy_empty builder.library name) declared
  refine ⟨name, ?_, tidy, .group (.nil advances.outputs) follows.stacked, follows.library⟩
  simp [Expr.directiveMark?, Expr.soleName?_of_plainName named]

/-- A scope that is closed keeps its outputs, and inputs of definitions are merged. -/
theorem close {scope : Scope} {outputs : List NamedOutput} {site : Site}
    (tidy : scope.Tidy builder.library []) (fulfils : scope.graph.Fulfils outputs)
    (done : builder.close scope = .ok site) :
    site.graph.namedOutputs = outputs ∧ builder.library.MergesInputs site.library := by
  obtain ⟨report, cleaned⟩ := close_eq_ok done
  have runs : Site.Runs ⟨scope.graph, builder.library⟩ := ⟨tidy.runnable, follows.tidy.library⟩
  exact Cleanup.all_keeps_outputs runs fulfils cleaned

/-- The group that is open is the innermost block; closed, it has the outputs of the block. -/
theorem closeInnermost {group : OpenGroup} {rest : List OpenGroup} {site : Site}
    (opened : builder.opened = group :: rest) (closed : builder.close group.scope = .ok site) :
    ∃ outputs around, nest.around = (group.name, outputs) :: around ∧
      builder.root.Stacked rest outputs around ∧ site.graph.namedOutputs = nest.outputs ∧
      builder.library.MergesInputs site.library := by
  obtain ⟨tidy, -⟩ := follows.tidy.opened group (by simp [opened])
  obtain ⟨inner, around, groups⟩ := nest
  have stacked := follows.stacked
  rw [opened] at stacked
  cases stacked with
  | @group _ _ _ outputs around fulfils stacked =>
    obtain ⟨kept, merges⟩ := follows.close tidy fulfils closed
    exact ⟨outputs, around, rfl, stacked, kept, merges⟩

/-- The group that is ended is the innermost block, and its outputs are those of its definition. -/
theorem endGroup {directive : String} {arguments : List Expr}
    (done : builder.endGroup directive arguments = .ok after) :
    ∃ name next, Expr.directiveMark? .groupEnd arguments = some (.closes name) ∧
      nest.step (.closes name) = some next ∧ after.Follows next := by
  have tidy := follows.tidy.endGroup done
  obtain ⟨argument, group, rest, site, rfl, named, opened, closed, rfl⟩ := endGroup_eq_ok done
  obtain ⟨outputs, around, inside, stacked, kept, merges⟩ := follows.closeInnermost opened closed
  refine ⟨group.name, ⟨outputs, around, nest.groups ++ [(group.name, nest.outputs)]⟩, ?_,
    Nest.step_closes_eq_some_iff.2 ⟨_, _, inside, rfl⟩, tidy, stacked, ?_⟩
  · simp [Expr.directiveMark?, Expr.soleName?_of_plainName named]
  · rw [← Table.insert_mapValues, merges.namedOutputs, kept, follows.library]
    simp [Table.ofList]

/-- An instance that is added changes no blocks. -/
theorem addInstance {directive : String} {arguments : List Expr}
    (done : builder.addInstance directive arguments = .ok after) : after.Follows nest := by
  have tidy := follows.tidy.addInstance done
  obtain ⟨group, recipe, fed, called, graph, made, feeds, labels, rfl⟩ := addInstance_eq_ok done
  obtain ⟨advances, -⟩ := follows.tidy.feedInstance made feeds
  have fulfils := follows.scope.grows follows.tidy.scope.runnable.sound advances.grows (by simp)
    advances.outputs
  exact follows.setScope tidy (fulfils.setLabel advances.tidy.runnable.sound labels)

/-- A statement that is carried out does to the scopes what its mark does to the blocks. -/
theorem statement (done : builder.statement e = .ok after) :
    (e.mark? = none ∧ e.IsAside ∧ after.Follows nest) ∨
      ∃ mark next, e.mark? = some mark ∧ nest.step mark = some next ∧ after.Follows next := by
  have ready := follows.atStatement
  obtain rfl | ⟨name, args, directive, rfl, called⟩ | ⟨target, tree, rfl⟩ | bare :=
    e.statement_cases
  · cases done
    exact .inl ⟨rfl, .inl rfl, ready⟩
  · rw [statement_of_directive called] at done
    rw [Expr.mark?_of_directive called]
    cases directive with
    | groupStart =>
      obtain ⟨group, mark, follows'⟩ := ready.startGroup done
      exact .inr ⟨_, _, mark, rfl, follows'⟩
    | groupEnd =>
      obtain ⟨group, next, mark, stepped, follows'⟩ := ready.endGroup done
      exact .inr ⟨_, _, mark, stepped, follows'⟩
    | groupAdd =>
      exact .inl ⟨rfl, .inr ⟨name, args, _, rfl, called, nofun, nofun⟩, ready.addInstance done⟩
    | inputs | outputs =>
      refine .inl ⟨rfl, .inr ⟨name, args, _, rfl, called, nofun, nofun⟩, ?_⟩
      have tidy := ready.tidy.directive done
      obtain ⟨names, -, same⟩ := bind_eq_ok_iff.1 done
      cases same
      exact ready.setScope tidy ready.scope
  · rw [statement_of_assign] at done
    obtain ⟨output, named, done⟩ := bind_eq_ok_iff.1 done
    refine .inr ⟨.gives output, _, ?_, rfl, ready.output done⟩
    simp [Expr.mark?, Expr.assigned?_of_outputTarget named]
  · rw [statement_of_bare bare] at done
    exact .inr ⟨_, _, bare.mark?_eq, rfl, ready.output done⟩

/-- Statements that are carried out do to the scopes what their marks do to the blocks. -/
theorem statements {statements : List Expr}
    (done : statements.foldlM Builder.statement builder = .ok after) :
    (∃ last, (statements.filterMap Expr.mark?).foldlM Nest.step nest = some last ∧
      after.Follows last) ∧ ∀ e ∈ statements, e.mark? = none → e.IsAside := by
  induction statements generalizing builder nest with
  | nil =>
    cases done
    exact ⟨⟨nest, rfl, follows⟩, nofun⟩
  | cons e rest ih =>
    rw [List.foldlM_cons] at done
    obtain ⟨between, first, later⟩ := bind_eq_ok_iff.1 done
    rcases follows.statement first with ⟨unmarked, aside, follows'⟩ |
      ⟨mark, next, marked, stepped, follows'⟩
    · obtain ⟨run, asides⟩ := ih follows' later
      rw [List.filterMap_cons_none unmarked]
      exact ⟨run, List.forall_mem_cons.2 ⟨fun _ => aside, asides⟩⟩
    · obtain ⟨⟨last, run, follows''⟩, asides⟩ := ih follows' later
      rw [List.filterMap_cons_some marked, List.foldlM_cons, stepped]
      refine ⟨⟨last, run, follows''⟩, List.forall_mem_cons.2 ⟨fun unmarked => ?_, asides⟩⟩
      cases marked.symm.trans unmarked

end Follows

end Builder

/-- Whether an error tells that groups are not well nested. -/
inductive BuildError.Unnested : BuildError → Prop
  /-- A group is ended and none is open. -/
  | unopened (name : String) : Unnested (.missingGroupContext name)
  /-- A group is ended that is not the innermost one. -/
  | mismatched (expected found : String) : Unnested (.groupMismatch expected found)
  /-- A group is not ended. -/
  | unended (name : String) : Unnested (.unterminatedGroup name)

/-- An error of building a tree tells nothing of groups. -/
theorem BuildError.Stops.not_unnested {p : Expr → Prop} {error : BuildError} (stops : error.Stops p) :
    ¬ error.Unnested := by
  intro unnested
  cases unnested <;> cases stops.isLocal

namespace Builder

variable {builder : Builder} {nest : Nest} {e : Expr} {error : BuildError}

/-- A scope is not refused for the nesting of groups when it is closed. -/
theorem Tidy.close_not_unnested (tidy : builder.Tidy) {scope : Scope}
    (tidy' : scope.Tidy builder.library []) (refused : builder.close scope = .error error) :
    ¬ error.Unnested := by
  rcases tidy.close_outcome tidy' with ⟨site, closed, -⟩ | ⟨name, knot⟩
  · cases closed.symm.trans refused
  · cases knot.symm.trans refused
    nofun

/-- The end of a group that is refused for the nesting of groups does not fit the blocks. -/
theorem Follows.endGroup_unnested (follows : builder.Follows nest) {directive : String}
    {arguments : List Expr} (refused : builder.endGroup directive arguments = .error error)
    (unnested : error.Unnested) : ∃ name,
      Expr.directiveMark? .groupEnd arguments = some (.closes name) ∧
        nest.step (.closes name) = none := by
  unfold Builder.endGroup at refused
  split at refused
  · rename_i argument
    rcases bind_eq_error_iff.1 refused with named | ⟨name, named, refused⟩
    · obtain ⟨fault, rfl⟩ := plainName_refused named
      cases unnested
    · refine ⟨name, by simp [Expr.directiveMark?, Expr.soleName?_of_plainName named], ?_⟩
      obtain ⟨options, root, opened, library⟩ := builder
      obtain ⟨inner, around, groups⟩ := nest
      have stacked := follows.stacked
      cases stacked with
      | root => rfl
      | @group group rest _ outputs _ fulfils _ =>
        dsimp only at refused
        split at refused
        · rename_i other
          exact if_neg other
        · rcases bind_eq_error_iff.1 refused with closed | ⟨_, _, impossible⟩
          · have tidy := (follows.tidy.opened group (by simp)).1
            exact absurd unnested (follows.tidy.close_not_unnested tidy closed)
          · cases impossible
  · cases refused
    cases unnested

/-- A statement that is refused for the nesting of groups does not fit the blocks. -/
theorem Follows.statement_unnested (follows : builder.Follows nest)
    (refused : builder.statement e = .error error) (unnested : error.Unnested) :
    ∃ mark, e.mark? = some mark ∧ nest.step mark = none := by
  have hereditary : Expr.IsHereditary fun _ => True := fun _ _ _ _ _ _ _ => trivial
  obtain rfl | ⟨name, args, directive, rfl, called⟩ | ⟨target, tree, rfl⟩ | bare :=
    e.statement_cases
  · cases refused
  · rw [statement_of_directive called] at refused
    rw [Expr.mark?_of_directive called]
    cases directive with
    | groupStart =>
      obtain ⟨fault, rfl⟩ | ⟨text, rfl⟩ := startGroup_refused refused <;> cases unnested
    | groupEnd =>
      obtain ⟨group, mark, unfit⟩ := follows.atStatement.endGroup_unnested refused unnested
      exact ⟨_, mark, unfit⟩
    | groupAdd =>
      obtain ⟨fault, rfl⟩ | ⟨group, inputs, made⟩ | stops :=
        addInstance_refused hereditary (fun _ _ => trivial) refused
      · cases unnested
      · obtain rfl | ⟨limit, rfl⟩ := Recipe.ofGroup_refused made <;> cases unnested
      · exact absurd unnested stops.not_unnested
    | inputs | outputs =>
      rcases bind_eq_error_iff.1 refused with named | ⟨_, _, impossible⟩
      · obtain ⟨fault, rfl⟩ := plainNames_refused named
        cases unnested
      · cases impossible
  · rw [statement_of_assign] at refused
    rcases bind_eq_error_iff.1 refused with named | ⟨⟨name, type⟩, -, refused⟩
    · obtain ⟨fault, rfl⟩ := outputTarget_refused named
      cases unnested
    · cases present : tree.isEmpty with
      | false => exact absurd unnested (output_stops hereditary present trivial refused).not_unnested
      | true =>
        obtain rfl := Expr.isEmpty_iff.1 present
        cases refused
        cases unnested
  · rw [statement_of_bare bare] at refused
    exact absurd unnested (output_stops hereditary bare.isEmpty trivial refused).not_unnested

end Builder

namespace Builder

variable {builder after : Builder} {e : Expr} {options : BuildOptions} {done : List Expr}
  {name : String} {definition : Graph}

/-- Whether a definition is what the last group of a name among statements has become when it was
ended, but for inputs that have been merged since. -/
def EndsLast (options : BuildOptions) (statements : List Expr) (name : String)
    (definition : Graph) : Prop :=
  ∃ early last late before group others site, statements = early ++ last :: late ∧
    early.foldlM statement (start options) = .ok before ∧
    before.opened = group :: others ∧ group.name = name ∧ last.mark? = some (.closes name) ∧
    before.close group.scope = .ok site ∧ site.graph.MergesInputs definition ∧
    ∀ e ∈ late, e.mark? ≠ some (.closes name)

/-- The last group of a name is still the last one after statements that end none of the name, and
more inputs of its definition may be merged. -/
theorem EndsLast.append (ends : EndsLast options done name definition) {later : List Expr}
    (other : ∀ e ∈ later, e.mark? ≠ some (.closes name)) {merged : Graph}
    (merges : definition.MergesInputs merged) : EndsLast options (done ++ later) name merged := by
  obtain ⟨early, last, late, before, group, others, site, rfl, built, opened, named, mark, closed,
    merges', none⟩ := ends
  refine ⟨early, last, late ++ later, before, group, others, site, by simp, built, opened, named,
    mark, closed, merges'.trans merges, fun e mem => ?_⟩
  rcases List.mem_append.1 mem with mem | mem
  · exact none e mem
  · exact other e mem

/-- The group that is open at the start of a statement is closed as it was before. -/
theorem exists_of_opened_atStatement {group : OpenGroup} {rest : List OpenGroup}
    (opened : builder.atStatement.opened = group :: rest) : ∃ group', builder.opened = group' :: rest ∧
      group'.name = group.name ∧
      builder.atStatement.close group.scope = builder.close group'.scope ∧
      builder.atStatement.root = builder.root ∧ builder.atStatement.options = builder.options := by
  obtain ⟨options, root, groups, library⟩ := builder
  unfold Builder.atStatement at opened ⊢
  split
  · rename_i isolate
    rw [if_pos isolate] at opened
    cases groups with
    | nil => cases opened
    | cons first others =>
      cases opened
      exact ⟨first, rfl, rfl, rfl, rfl, rfl⟩
  · rename_i together
    rw [if_neg together] at opened
    exact ⟨group, opened, rfl, rfl, rfl, rfl⟩

/-- A statement changes definitions only where it ends a group, and then it keeps what the group has
become. -/
theorem library_statement (stated : builder.statement e = .ok after) :
    (after.library = builder.library ∧ ∀ name, e.mark? ≠ some (.closes name)) ∨
      ∃ group rest site, builder.opened = group :: rest ∧ e.mark? = some (.closes group.name) ∧
        builder.close group.scope = .ok site ∧ after = { builder with
          opened := rest, library := site.library.insert group.name site.graph } := by
  obtain rfl | ⟨name, args, directive, rfl, called⟩ | ⟨target, tree, rfl⟩ | bare :=
    e.statement_cases
  · cases stated
    exact .inl ⟨library_atStatement, nofun⟩
  · rw [statement_of_directive called] at stated
    rw [Expr.mark?_of_directive called]
    by_cases ends : directive = .groupEnd
    · subst ends
      obtain ⟨argument, group, rest, site, listed, named, opened, closed, rfl⟩ :=
        endGroup_eq_ok stated
      obtain ⟨group', opened', same, closes, root, options⟩ := exists_of_opened_atStatement opened
      refine .inr ⟨group', rest, site, opened', ?_, closes.symm.trans closed,
        by rw [same, root, options]⟩
      simp [listed, Expr.directiveMark?, Expr.soleName?_of_plainName named, same]
    · refine .inl ⟨(library_directive stated ends).trans library_atStatement, fun group => ?_⟩
      unfold Expr.directiveMark?
      split <;> simp_all
  · rw [statement_of_assign] at stated
    obtain ⟨output, -, stated⟩ := bind_eq_ok_iff.1 stated
    refine .inl ⟨(library_output stated).trans library_atStatement, fun name => ?_⟩
    simp [Expr.mark?]
  · rw [statement_of_bare bare] at stated
    refine .inl ⟨(library_output stated).trans library_atStatement, fun name => ?_⟩
    simp [bare.mark?_eq]

/-- A definition is what the last group of its name has become. -/
theorem endsLast_of_get? (built : done.foldlM statement (start options) = .ok builder)
    (found : builder.library.get? name = some definition) :
    EndsLast options done name definition := by
  induction done using List.reverseRecOn generalizing builder definition with
  | nil =>
    cases built
    cases found
  | append_singleton early last ih =>
    rw [List.foldlM_append] at built
    obtain ⟨before, started, ended⟩ := bind_eq_ok_iff.1 built
    obtain ⟨after, stated, same⟩ := bind_eq_ok_iff.1 ended
    cases same
    rcases library_statement stated with ⟨library, unended⟩ |
      ⟨group, others, site, opened, mark, closed, rfl⟩
    · rw [library] at found
      exact (ih started found).append (by simpa using unended name) .refl
    · rw [Table.get?_insert] at found
      split at found
      · rename_i named
        cases found
        exact ⟨early, last, [], before, group, others, site, by simp, started, opened, named,
          named ▸ mark, closed, .refl, List.forall_mem_nil _⟩
      · rename_i other
        obtain ⟨⟨nest, -, follows⟩, -⟩ := (follows_start options).statements started
        obtain ⟨-, -, -, -, -, merges⟩ := follows.closeInnermost opened closed
        obtain ⟨old, found', merged⟩ := merges.exists_of_get? found
        exact (ih started found').append (by simpa [mark] using other) merged

/-- A group that ends has no older definition, if no name is given to two groups. -/
theorem get?_eq_none_of_once
    (once : (((done ++ [e]).filterMap Expr.mark?).filterMap Mark.ended?).Nodup)
    (built : done.foldlM statement (start options) = .ok builder)
    (mark : e.mark? = some (.closes name)) : builder.library.get? name = none := by
  rw [List.filterMap_append, List.filterMap_append, List.nodup_append] at once
  -- A definition of the name would be that of a group that has ended before.
  cases stored : builder.library.get? name with
  | none => rfl
  | some definition =>
    obtain ⟨first, other, later, -, -, -, -, rfl, -, -, -, mark', -⟩ :=
      endsLast_of_get? built stored
    refine absurd rfl (once.2.2 name ?_ name ?_)
    · refine List.mem_filterMap.2 ⟨.closes name, List.mem_filterMap.2 ⟨other, ?_, mark'⟩, rfl⟩
      simp
    · simp [mark, Mark.ended?]

end Builder

/-- A build that is carried out follows the blocks of its statements. The groups are well nested;
the root has the outputs that are in no group, in order; the definitions are the groups that have
ended, each with the outputs directly in the last group of its name, and each is what that group has
become when it was ended, but for inputs merged since; and a statement without a mark has nothing to
do with blocks. A build that is refused for the nesting of groups is one of statements that are not
well nested. -/
theorem Expr.build_follows_blocks (e : Expr) (options : BuildOptions) :
    (∀ site, e.build options = .ok site → ∃ outputs groups, Blocks e.marks outputs groups ∧
      site.graph.namedOutputs = outputs ∧
      site.library.mapValues Graph.namedOutputs = .ofList groups ∧
      (∀ name definition, site.library.get? name = some definition →
        Builder.EndsLast options e.arguments name definition) ∧
      ∀ statement ∈ e.arguments, statement.mark? = none → statement.IsAside) ∧
    ∀ error, e.build options = .error error → error.Unnested →
      ¬ ∃ outputs groups, Blocks e.marks outputs groups := by
  refine ⟨fun site built => ?_, fun error refused unnested => ?_⟩
  · obtain ⟨builder, stated, finished⟩ := bind_eq_ok_iff.1 built
    obtain ⟨⟨nest, run, follows⟩, asides⟩ := (Builder.follows_start options).statements stated
    unfold Builder.finish at finished
    split at finished
    · cases finished
    · rename_i settled
      obtain ⟨outputs, around, groups⟩ := nest
      have stacked := follows.stacked
      rw [settled] at stacked
      cases stacked with
      | root fulfils =>
        obtain ⟨kept, merges⟩ := follows.close follows.tidy.root fulfils finished
        refine ⟨outputs, groups, Nest.run_eq_some_iff.1 run, kept,
          merges.namedOutputs.trans follows.library, fun name definition found => ?_, asides⟩
        obtain ⟨old, found', merged⟩ := merges.exists_of_get? found
        simpa using (Builder.endsLast_of_get? stated found').append (List.forall_mem_nil _) merged
  · rintro ⟨outputs, groups, blocks⟩
    have run := Nest.run_eq_some_iff.2 blocks
    rcases bind_eq_error_iff.1 refused with stopped | ⟨builder, stated, finished⟩
    · obtain ⟨done, statement, rest, builder, listed, stated, stopped⟩ :=
        foldlM_eq_error_iff.1 stopped
      obtain ⟨⟨nest, before, follows⟩, -⟩ := (Builder.follows_start options).statements stated
      obtain ⟨mark, marked, unfit⟩ := follows.statement_unnested stopped unnested
      rw [marks, listed, List.filterMap_append, List.filterMap_cons_some marked,
        List.foldlM_append, before, Option.bind_eq_bind, Option.bind_some, List.foldlM_cons,
        unfit] at run
      cases run
    · obtain ⟨⟨nest, run', follows⟩, -⟩ := (Builder.follows_start options).statements stated
      cases run'.symm.trans run
      obtain ⟨options', root, opened, library⟩ := builder
      have stacked := follows.stacked
      cases stacked with
      | root => exact follows.tidy.close_not_unnested follows.tidy.root finished unnested

/-- A directive with a name as its only argument. -/
def Expr.naming (directive name : String) : Expr :=
  .call directive (.var ⟨name, none, none⟩)

/-- A group with an output in a group without any. -/
def Expr.nestedGroups : Expr :=
  .chain [naming "group:start" "a", naming "function:start" "b",
    .binary .assign (.var ⟨"y", none, none⟩) (.var ⟨"x", none, none⟩), naming "function:end" "b",
    naming "group:end" "a"]

/-- The inner one of two groups is defined with its output and before the outer one, which has none;
and a group is not ended under another name. -/
theorem Expr.build_nested_groups :
    (∃ site, nestedGroups.build .standard = .ok site ∧ site.graph.namedOutputs = [] ∧
      site.library.mapValues Graph.namedOutputs = .ofList [("b", [("y", .scalar)]), ("a", [])]) ∧
      ¬ ∃ outputs groups, Blocks
        (chain [naming "group:start" "a", naming "group:end" "b"]).marks outputs groups := by
  obtain ⟨site, built⟩ := exists_ok_of_isOk
    (show (nestedGroups.build .standard).isOk = true by decide +kernel)
  obtain ⟨outputs, groups, blocks, given, defined, -⟩ :=
    (build_follows_blocks nestedGroups .standard).1 site built
  have run : nestedGroups.marks.foldlM Nest.step .start =
      some ⟨[], [], [("b", [("y", .scalar)]), ("a", [])]⟩ := rfl
  cases run.symm.trans (Nest.run_eq_some_iff.2 blocks)
  exact ⟨⟨site, built, given, defined⟩,
    (build_follows_blocks _ .standard).2 _ rfl (.mismatched "a" "b")⟩

end Shadeloom
