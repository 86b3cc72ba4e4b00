import Mathlib
import Shadeloom.Proofs.Build.GraphErrors
import Shadeloom.Proofs.Build.Instances
import Shadeloom.Proofs.Build.Nesting
/-!
# Instances match their definitions

How often a group is used is counted in the graph that is cleaned up and in the definitions, but not
in the scopes around it, which are still open. So instances match their definitions as long as no
scope around a group that ends has an instance of a group that seems to be used once, and no group is
defined twice. Then an evaluation is refused for names only if those of its own assignment are wrong,
and never for the names that an instance gives its definition.
-/
namespace Shadeloom

open Machine

namespace Builder

/-- Whether no scope around the innermost group has an instance of a group that seems to be used once
when the innermost group is closed. -/
def CountsUses (builder : Builder) : Prop :=
  ∀ group others, builder.opened = group :: others → ∀ used,
    Cleanup.SeemsUsedOnce ⟨group.scope.graph, builder.library⟩ used →
      ¬ builder.root.graph.Uses used ∧ ∀ other ∈ others, ¬ other.scope.graph.Uses used

/-- Whether the instances of a build match their definitions: those of the definitions, and those of
the scopes, which are as they were made. -/
structure Matched (builder : Builder) : Prop where
  definitions : ∀ name definition, builder.library.get? name = some definition →
    definition.InstancesMatch builder.library
  readable : builder.Readable fun group definition => builder.library.get? group = some definition

end Builder

/-- The instances of a scope match their definitions when they are as they were made. -/
theorem Scope.Readable.instancesMatch {scope : Scope} {library : Library}
    (readable : scope.Readable fun group definition => library.get? group = some definition) :
    scope.graph.InstancesMatch library := by
  intro id shown here
  obtain ⟨node, found, same⟩ := Option.bind_eq_some_iff.1 here
  obtain ⟨definition, stored, made⟩ :=
    readable.grouped id node shown.group found (Node.op_of_instance? same)
  exact ⟨definition, stored, by rw [← made, ← same]; rfl⟩

/-- A scope may be read when the definitions of the groups of its instances stay as they are. -/
theorem Scope.Readable.of_library {scope : Scope} {library library' : Library}
    (readable : scope.Readable fun group definition => library.get? group = some definition)
    (same : ∀ group, scope.graph.Uses group → library'.get? group = library.get? group) :
    scope.Readable fun group definition => library'.get? group = some definition :=
  { readable with
    grouped := fun id node group found op => by
      obtain ⟨definition, stored, made⟩ := readable.grouped id node group found op
      exact ⟨definition, (same group ⟨id, node, found, op⟩).trans stored, made⟩ }

namespace Builder

variable {builder after : Builder}

/-- Nothing is to match before the first statement. -/
theorem matched_start (options : BuildOptions) : (start options).Matched where
  definitions name definition stored := by cases stored
  readable := readable_start options

/-- When a scope is closed, instances and definitions stay matched, and only definitions of groups
that seem to be used once are changed. -/
theorem Matched.close (matched : builder.Matched) (tidy : builder.Tidy) {scope : Scope} {site : Site}
    (tidy' : scope.Tidy builder.library [])
    (readable : scope.Readable fun group definition =>
      builder.library.get? group = some definition)
    (closed : builder.close scope = .ok site) : site.Matched ∧
      ∀ group, ¬ Cleanup.SeemsUsedOnce ⟨scope.graph, builder.library⟩ group →
        site.library.get? group = builder.library.get? group := by
  obtain ⟨report, cleaned⟩ := close_eq_ok closed
  have start : Site.Matched ⟨scope.graph, builder.library⟩ := {
    sound := tidy'.runnable.sound
    definitions := fun name definition stored => (tidy.library name definition stored).2.sound
    graph := readable.instancesMatch
    inner := matched.definitions }
  exact Cleanup.all_matched start cleaned

/-- A statement keeps instances matched, if a group that it ends is new and the uses of groups are
counted. -/
theorem Matched.statement (matched : builder.Matched) (tidy : builder.Tidy) {e : Expr}
    (fresh : ∀ name, e.mark? = some (.closes name) → builder.library.get? name = none)
    (counts : ∀ name, e.mark? = some (.closes name) → builder.CountsUses)
    (stated : builder.statement e = .ok after) : after.Matched := by
  rcases library_statement stated with ⟨library, -⟩ |
    ⟨group, rest, site, opened, mark, closed, rfl⟩
  · have readable := (matched.readable.statement tidy (fun _ _ stored => stored) e).done after stated
    rw [← library] at readable
    exact ⟨library ▸ matched.definitions, readable⟩
  · have innermost : group ∈ builder.opened := by simp [opened]
    obtain ⟨matched', stays⟩ := matched.close tidy (tidy.opened group innermost).1
      (matched.readable.opened group innermost) closed
    have unknown := fresh group.name mark
    have unknown' : site.library.get? group.name = none :=
      (stays group.name fun once => (matched.readable.opened group
        innermost).instancesMatch.ne_of_uses unknown once.1 rfl).trans unknown
    -- A name that is new is the name of no instance, so keeping the group changes no other one.
    have keep {graph : Graph} (matching : graph.InstancesMatch site.library) :
        graph.InstancesMatch (site.library.insert group.name site.graph) :=
      matching.of_library fun used uses => by
        rw [Table.get?_insert, if_neg (matching.ne_of_uses unknown' uses)]
    -- Nor has the cleanup changed a definition that a scope around the group uses.
    have around {scope : Scope} (readable : scope.Readable fun group definition =>
          builder.library.get? group = some definition)
        (spared : ∀ used, Cleanup.SeemsUsedOnce ⟨group.scope.graph, builder.library⟩ used →
          ¬ scope.graph.Uses used) :
        scope.Readable fun used definition =>
          (site.library.insert group.name site.graph).get? used = some definition :=
      readable.of_library fun used uses => by
        rw [Table.get?_insert, if_neg (readable.instancesMatch.ne_of_uses unknown uses)]
        exact stays used fun once => spared used once uses
    have counted := counts group.name mark group rest opened
    refine ⟨fun name definition stored => ?_, ?_, fun other mem => ?_⟩
    · rw [Table.get?_insert] at stored
      split at stored
      · cases stored
        exact keep matched'.graph
      · exact keep (matched'.inner name definition stored)
    · exact around matched.readable.root fun used once => (counted used once).1
    · exact around (matched.readable.opened other (by simp [opened, mem])) fun used once =>
        (counted used once).2 other mem

end Builder

namespace Expr

/-- Whether no group of a tree, where it ends, seems to be the only one to use a group that a scope
around it uses too. -/
def CountsUses (e : Expr) (options : BuildOptions) : Prop :=
  ∀ done statement rest name builder, e.arguments = done ++ statement :: rest →
    statement.mark? = some (.closes name) →
      done.foldlM Builder.statement (.start options) = .ok builder → builder.CountsUses

end Expr

/-- Statements keep instances matched, if they give no name to two groups and the uses of groups are
counted where groups end. -/
theorem Builder.matched_of_statements {options : BuildOptions} {statements : List Expr}
    {builder : Builder}
    (once : ((statements.filterMap Expr.mark?).filterMap Mark.ended?).Nodup)
    (counts : ∀ done statement rest name between, statements = done ++ statement :: rest →
      statement.mark? = some (.closes name) →
        done.foldlM Builder.statement (.start options) = .ok between → between.CountsUses)
    (built : statements.foldlM Builder.statement (.start options) = .ok builder) :
    builder.Matched := by
  induction statements using List.reverseRecOn generalizing builder with
  | nil =>
    cases built
    exact matched_start options
  | append_singleton early last ih =>
    rw [List.foldlM_append] at built
    obtain ⟨before, started, ended⟩ := bind_eq_ok_iff.1 built
    obtain ⟨after, stated, same⟩ := bind_eq_ok_iff.1 ended
    cases same
    have once' := once
    rw [List.filterMap_append, List.filterMap_append, List.nodup_append] at once'
    have matched := ih once'.1 (fun done statement rest name between split =>
      counts done statement (rest ++ [last]) name between (by rw [split]; simp)) started
    exact matched.statement ((tidy_start options).statements started)
      (fun name mark => get?_eq_none_of_once once started mark)
      (fun name mark => counts early last [] name before rfl mark started) stated

/-- The refusals that tell of the names of an assignment. -/
inductive EvalError.IsOfNames : EvalError → Prop
  | missingInput (name : String) : IsOfNames (.missingInput name)
  | unknownInput (name : String) : IsOfNames (.unknownInput name)

/-- The nodes that compute their values from their inputs alone are not refused for names. -/
theorem NodeOp.eval_not_ofNames {op : NodeOp} {inputs : List Value} {id : Nat} {error : EvalError}
    (refused : op.eval inputs id = .error error) : ¬ error.IsOfNames := by
  intro names
  unfold NodeOp.eval at refused
  split at refused
  all_goals first
    | (cases refused; done)
    | (cases refused; cases names)
    | (split at refused <;> cases refused <;> cases names)

/-- An evaluation whose instances are not refused for names is refused for names only before it
starts. -/
theorem Setting.prepare_of_names {setting : Setting}
    (instances : ∀ id node group known error, setting.graph.node? id = some node →
      node.op = .group group → evalInstance setting id node group
        (readAll setting.graph known id node) = .error error → ¬ error.IsOfNames)
    {supplied : Assignment} {error : EvalError} (refused : setting.evaluate supplied = .error error)
    (names : error.IsOfNames) : prepare setting supplied = .error error := by
  obtain unready | ⟨-, -, id, -, ⟨-, same⟩ | ⟨node, known, found, stopped⟩⟩ := evaluate_refused refused
  · exact unready
  · rw [same] at names
    cases names
  · unfold evalNode at stopped
    split at stopped
    · cases stopped
    · cases stopped
    · rename_i group op
      exact absurd names (instances id node group known error found op stopped)
    · exact absurd names (NodeOp.eval_not_ofNames stopped)

/-- An assignment that is admitted is not refused. -/
theorem Setting.Admits.prepare_ne {setting : Setting} {supplied : Assignment}
    (admits : setting.Admits supplied) (sound : setting.graph.Sound)
    (acyclic : setting.graph.Acyclic) (error : EvalError) :
    prepare setting supplied ≠ .error error := by
  intro refused
  obtain ⟨order, ready, -⟩ | ⟨name, here, unknown, -⟩ | ⟨name, strict, shown, missing, -⟩ :=
    prepare_spec sound acyclic supplied
  · cases ready.symm.trans refused
  · have listed := admits.known name here
    rw [unknown] at listed
    cases listed
  · rw [admits.given strict name shown] at missing
    cases missing

/-- A definition admits the values that an instance gives which matches it. -/
theorem Graph.Sound.admits {definition : Graph} (sound : definition.Sound) {node : Node}
    (fits : node.MatchesInputs definition) {values : List Value}
    (length : values.length = node.inputs.length) (library : Library) (config : EvalConfig)
    (nested : Option Evaluator) : Setting.Admits ⟨definition, library, config, nested⟩
      (.ofList ((node.inputs.map InputSocket.name).zip values)) := by
  have named : ((node.inputs.map InputSocket.name).zip values).map Prod.fst =
      node.inputs.map InputSocket.name :=
    List.map_fst_zip (by rw [List.length_map, length])
  have given (name : String) : (Table.ofList ((node.inputs.map InputSocket.name).zip
      values)).contains name = true ↔ name ∈ definition.exposedInputs.map Prod.fst := by
    rw [Table.contains_ofList (named.symm ▸ sound.nodup_names fits), named,
      sound.names_of_matchesInputs fits]
  refine ⟨fun name here => ?_, fun _ name shown => (given name).2 shown⟩
  obtain ⟨entry, listed, rfl⟩ := List.mem_map.1 ((given name).1 here)
  rw [Option.isSome_iff_exists]
  exact ⟨entry.2, Table.get?_eq_some_iff.2 (List.mem_filter.1 listed).1⟩

/-- Where instances match their definitions an evaluation is refused for names only before it
starts. -/
theorem Graph.InstancesMatch.prepare_of_names {library : Library}
    (runnable : Library.Runnable library)
    (inner : ∀ name definition, library.get? name = some definition →
      definition.InstancesMatch library) (config : EvalConfig) (depth : Nat) {graph : Graph}
    (matching : graph.InstancesMatch library) {supplied : Assignment} {error : EvalError}
    (refused : Setting.evaluate ⟨graph, library, config, nestedWithin library config depth⟩
      supplied = .error error) (names : error.IsOfNames) :
    prepare ⟨graph, library, config, nestedWithin library config depth⟩ supplied = .error error := by
  induction depth generalizing graph supplied error with
  | zero =>
    refine Setting.prepare_of_names (fun id node group known error found op stopped => ?_) refused
      names
    cases stopped
    rintro ⟨⟩
  | succ depth ih =>
    refine Setting.prepare_of_names (fun id node group known error found op stopped => ?_) refused
      names
    obtain ⟨definition, stored, made⟩ := matching id _
      (Option.bind_eq_some_iff.2 ⟨node, found, Node.instance?_of_group op⟩)
    rw [Node.instance?_of_group rfl, Option.some.injEq, Instance.mk.injEq] at made
    have runs := (runnable group definition stored).2
    simp only [evalInstance, nestedWithin, stored] at stopped
    rcases bind_eq_error_iff.1 stopped with refused | ⟨outputs, -, done⟩
    · intro names
      have unready := ih (inner group definition stored) refused names
      exact (runs.sound.admits made.2.1.symm (by simp [readAll]) library config _).prepare_ne
        runs.sound runs.acyclic error unready
    · cases done

/-- Where no name is given to two groups and all uses of groups are counted, every instance of what is
built, in the root and in the definitions, has the input sockets and the output sockets that its
definition shows, in order, name and type. An evaluation is refused for names only if one of its own
assignment is not that of an input of the root, or one that has to be given is missing. -/
theorem Expr.build_matches (e : Expr) (options : BuildOptions) (once : e.DefinesOnce)
    (counts : e.CountsUses options) (site : Site) (built : e.build options = .ok site) :
    (∀ graph, site.Holds graph → ∀ id node group, graph.node? id = some node →
      node.op = .group group → ∃ definition, site.library.get? group = some definition ∧
        node.MatchesInputs definition ∧ node.outputs = definition.instanceNode.outputs) ∧
    ∀ config supplied error, evaluate site.graph site.library config supplied = .error error →
      (∀ name, error = .unknownInput name →
        supplied.contains name = true ∧ site.graph.input? name = none) ∧
      ∀ name, error = .missingInput name → config.requireInputs = true ∧
        name ∈ site.graph.exposedInputs.map Prod.fst ∧ supplied.contains name = false := by
  obtain ⟨builder, stated, finished⟩ := bind_eq_ok_iff.1 built
  have tidy := (Builder.tidy_start options).statements stated
  have matched := Builder.matched_of_statements once counts stated
  have runs := Expr.runs_build built
  have matched' : site.Matched := by
    unfold Builder.finish at finished
    split at finished
    · cases finished
    · exact (matched.close tidy tidy.root matched.readable.root finished).1
  refine ⟨fun graph holds id node group found op => ?_,
    fun config supplied error refused => ?_⟩
  · have matching : graph.InstancesMatch site.library := by
      cases holds with
      | root => exact matched'.graph
      | definition stored => exact matched'.inner _ graph stored
    obtain ⟨definition, stored, made⟩ := matching id _
      (Option.bind_eq_some_iff.2 ⟨node, found, Node.instance?_of_group op⟩)
    rw [Node.instance?_of_group rfl, Option.some.injEq, Instance.mk.injEq] at made
    exact ⟨definition, stored, made.2.1.symm, made.2.2.symm⟩
  · have unready (names : error.IsOfNames) := matched'.graph.prepare_of_names runs.library
      matched'.inner config config.maxDepth refused names
    refine ⟨fun name same => ?_, fun name same => ?_⟩
    · subst same
      obtain ⟨order, ready, -⟩ | ⟨other, here, unknown, ready⟩ | ⟨other, -, -, -, ready⟩ :=
        @prepare_spec (.outermost site.graph site.library config) runs.graph.sound
          runs.graph.acyclic supplied
      · cases ready.symm.trans (unready (.unknownInput name))
      · cases ready.symm.trans (unready (.unknownInput name))
        exact ⟨here, unknown⟩
      · cases ready.symm.trans (unready (.unknownInput name))
    · subst same
      obtain ⟨order, ready, -⟩ | ⟨other, -, -, ready⟩ | ⟨other, strict, shown, missing, ready⟩ :=
        @prepare_spec (.outermost site.graph site.library config) runs.graph.sound
          runs.graph.acyclic supplied
      · cases ready.symm.trans (unready (.missingInput name))
      · cases ready.symm.trans (unready (.missingInput name))
      · cases ready.symm.trans (unready (.missingInput name))
        exact ⟨strict, shown, missing⟩

/-- Whether uses are counted is decided by the groups that the scopes use. -/
theorem Builder.countsUses_iff {builder : Builder} : builder.CountsUses ↔
    ∀ group ∈ builder.opened.head?, ∀ used ∈ group.scope.graph.usedGroups,
      Cleanup.useCount ⟨group.scope.graph, builder.library⟩ used = 1 →
        used ∉ builder.root.graph.usedGroups ∧
          ∀ other ∈ builder.opened.tail, used ∉ other.scope.graph.usedGroups := by
  simp only [CountsUses, Cleanup.SeemsUsedOnce, Graph.mem_usedGroups, and_imp]
  cases builder.opened with
  | nil => simp
  | cons group others =>
    constructor
    · rintro counts _ ⟨⟩
      exact counts group others rfl
    · rintro counts _ _ ⟨⟩
      exact counts group rfl

instance : DecidablePred Builder.CountsUses := fun _ => decidable_of_iff' _ Builder.countsUses_iff

/-- A group that adds two is used by the root, and twice by another group that is defined after it. -/
def Expr.usedAround : Expr :=
  let read (name : String) : Expr := .var (.plain name)
  .chain [.call "group:start" (.chain [read "h", read "a"]),
    .binary .assign (read "y") (.binary .add (read "a") (.value ⟨"2"⟩)),
    .call "group:end" (read "h"),
    .binary .assign (read "r") (.call "fn:h" (read "x")),
    .call "group:start" (.chain [read "g", read "b"]),
    .binary .assign (read "z") (.binary .mul (.call "fn:h" (read "b"))
      (.call "fn:h" (.binary .mul (read "b") (read "b")))),
    .call "group:end" (read "g"),
    .binary .assign (read "s") (.call "fn:g" (read "x"))]

/-- Groups are defined once and their uses counted where one is used by the root and twice by another
group, and what is built has instances of both in the root. -/
theorem Expr.build_matches_usedAround : usedAround.DefinesOnce ∧ usedAround.CountsUses .standard ∧
    ∃ site, usedAround.build .standard = .ok site ∧ site.library.size = 2 ∧
      site.graph.usedGroups = ["h", "g"] ∧
      ∀ graph, site.Holds graph → ∀ id node group, graph.node? id = some node →
        node.op = .group group → ∃ definition, site.library.get? group = some definition ∧
          node.MatchesInputs definition ∧ node.outputs = definition.instanceNode.outputs := by
  have once : usedAround.DefinesOnce := by
    show (usedAround.marks.filterMap Mark.ended?).Nodup
    decide +kernel
  have counts : usedAround.CountsUses .standard := by
    intro done statement rest name builder split mark stated
    exact of_decide_eq_true
      (holds_before (fun before => before.CountsUses) (by decide +kernel) split stated)
  have parts : (usedAround.build .standard).map (fun site =>
      (site.library.size, site.graph.usedGroups)) = .ok (2, ["h", "g"]) := by decide +kernel
  obtain ⟨site, built, same⟩ := map_eq_ok_iff.1 parts
  rw [Prod.mk.injEq] at same
  exact ⟨once, counts, site, built, same.1, same.2,
    (build_matches usedAround .standard once counts site built).1⟩

end Shadeloom
