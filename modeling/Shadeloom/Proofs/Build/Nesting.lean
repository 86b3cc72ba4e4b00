import Mathlib
import Shadeloom.Proofs.Build.BlockStructure
import Shadeloom.Proofs.Build.Outcomes
/-!
# Groups that are nested in groups

A group can use only groups that have been defined before it, so definitions come to use themselves
only where a name is defined again: by a group that uses what leads to the older definition of the
name. Where no definition does that, groups are nested no deeper than there are definitions, and no
evaluation is cut off by a limit that is not less.
-/
namespace Shadeloom

open Relation Shadeloom.Expr

/-- The definitions of a cleaned up site use no other groups than before. -/
theorem Site.Shrinks.uses {before after : Site} (shrinks : before.Shrinks after)
    {group other : String} (uses : after.library.Uses group other) :
    before.library.Uses group other := by
  obtain ⟨definition, known, used⟩ := uses
  obtain ⟨old, known', narrows⟩ := shrinks.definitions group definition known
  exact ⟨old, known', narrows.uses used⟩

namespace Library

/-- Whether no definition of a library comes to use its own group. -/
def IsAcyclic (library : Library) : Prop :=
  ∀ group, ¬ TransGen library.Uses group group

/-- What uses a group refers to a definition of it. -/
theorem contains_of_reaches {library : Library} (runnable : Runnable library)
    {group other : String} (known : library.contains group = true)
    (path : ReflTransGen library.Uses group other) : library.contains other = true := by
  cases path with
  | refl => exact known
  | tail _ uses =>
    obtain ⟨definition, known, used⟩ := uses
    exact (runnable _ definition known).2.contains_of_uses used

end Library

namespace Builder

/-- Whether the innermost group of a build keeps apart from an older definition of its name: nothing
that it uses leads there. -/
def KeepsApart (builder : Builder) : Prop :=
  ∀ group others, builder.opened = group :: others →
    builder.library.contains group.name = true → ∀ used, group.scope.graph.Uses used →
      ¬ ReflTransGen builder.library.Uses used group.name

section

variable {builder after : Builder}

/-- The end of a group adds no circle to the definitions, if the group keeps apart. -/
theorem isAcyclic_close (tidy : builder.Tidy) (acyclic : builder.library.IsAcyclic)
    (apart : builder.KeepsApart) {group : OpenGroup} {rest : List OpenGroup} {site : Site}
    (opened : builder.opened = group :: rest) (closed : builder.close group.scope = .ok site) :
    Library.IsAcyclic (site.library.insert group.name site.graph) := by
  have tidy' := (tidy.opened group (by simp [opened])).1
  have shrinks : Site.Shrinks ⟨group.scope.graph, builder.library⟩ site := by
    rcases tidy.close_outcome tidy' with ⟨site', closed', shrinks⟩ | ⟨name, refused⟩
    · cases closed.symm.trans closed'
      exact shrinks
    · cases closed.symm.trans refused
  refine acyclic_of_new_edges group.name group.scope.graph.Uses acyclic
    (fun a b uses => ?_) fun used uses path => ?_
  · obtain ⟨definition, known, used⟩ := uses
    rw [Table.get?_insert] at known
    split at known
    · rename_i here
      cases known
      exact .inr ⟨here.symm, shrinks.graph.uses used⟩
    · exact .inl (shrinks.uses ⟨definition, known, used⟩)
  · -- A name that leads nowhere is not led to either.
    have known := tidy'.runnable.contains_of_uses uses
    exact apart group rest opened (Library.contains_of_reaches tidy.library known path) used uses
      path

/-- A statement adds no circle to the definitions, if a group that it ends keeps apart. -/
theorem isAcyclic_statement (tidy : builder.Tidy) (acyclic : builder.library.IsAcyclic) {e : Expr}
    (apart : ∀ name, e.mark? = some (.closes name) → builder.KeepsApart)
    (done : builder.statement e = .ok after) : after.library.IsAcyclic := by
  rcases library_statement done with ⟨library, -⟩ |
    ⟨group, rest, site, opened, mark, closed, rfl⟩
  · rwa [library]
  · exact isAcyclic_close tidy acyclic (apart group.name mark) opened closed

/-- Statements add no circle to the definitions, if the groups that they end keep apart. -/
theorem isAcyclic_statements {statements : List Expr} (tidy : builder.Tidy)
    (acyclic : builder.library.IsAcyclic)
    (apart : ∀ done statement rest name between, statements = done ++ statement :: rest →
      statement.mark? = some (.closes name) →
        done.foldlM Builder.statement builder = .ok between → between.KeepsApart)
    (done : statements.foldlM Builder.statement builder = .ok after) :
    after.library.IsAcyclic := by
  induction statements generalizing builder with
  | nil => cases done; exact acyclic
  | cons e rest ih =>
    rw [List.foldlM_cons] at done
    obtain ⟨between, first, later⟩ := bind_eq_ok_iff.1 done
    refine ih (tidy.statement first)
      (isAcyclic_statement tidy acyclic
        (fun name mark => apart [] e rest name builder rfl mark rfl) first)
      (fun done statement left name middle split mark built => ?_) later
    refine apart (e :: done) statement left name middle (by rw [split, List.cons_append]) mark ?_
    rw [List.foldlM_cons]
    exact bind_eq_ok_iff.2 ⟨between, first, built⟩

end

end Builder

namespace Expr

/-- Whether no group of a tree that is ended under a name which is defined already uses what leads
to the older definition. -/
def RedefinesApart (e : Expr) (options : BuildOptions) : Prop :=
  ∀ done statement rest name builder, e.arguments = done ++ statement :: rest →
    statement.mark? = some (.closes name) →
      done.foldlM Builder.statement (.start options) = .ok builder → builder.KeepsApart

/-- No group uses what leads to an older definition of its name, if no name is given to two
groups. -/
theorem redefinesApart_of_definesOnce {e : Expr} {options : BuildOptions} {site : Site}
    (once : e.DefinesOnce) (built : e.build options = .ok site) : e.RedefinesApart options := by
  intro done statement rest name builder split mark stated group others opened known
  obtain ⟨last, all, -⟩ := bind_eq_ok_iff.1 built
  rw [split, List.foldlM_append, stated, ok_bind, List.foldlM_cons] at all
  obtain ⟨after, ended, -⟩ := bind_eq_ok_iff.1 all
  have mark : statement.mark? = some (.closes group.name) := by
    rcases Builder.library_statement ended with ⟨-, unended⟩ | ⟨other, rest', -, opened', mark', -⟩
    · exact absurd mark (unended name)
    · cases opened.symm.trans opened'
      exact mark'
  have once : (((done ++ [statement]).filterMap mark?).filterMap Mark.ended?).Nodup := by
    unfold DefinesOnce marks at once
    rw [split, List.append_cons, List.filterMap_append, List.filterMap_append] at once
    exact once.of_append_left
  have unknown := Builder.get?_eq_none_of_once once stated mark
  rw [← Table.isSome_get?, unknown] at known
  cases known

/-- Where names are defined again only apart from their older definitions, or not at all, the
definitions that are built form no circle. Then groups are nested no deeper than there are
definitions, and no evaluation is cut off by a limit of nesting that is not less. -/
theorem build_nests (e : Expr) (options : BuildOptions)
    (apart : e.RedefinesApart options ∨ e.DefinesOnce) (site : Site)
    (built : e.build options = .ok site) :
    (∀ group, ¬ TransGen site.library.Uses group group) ∧
      (∀ groups, site.library.Nests groups → groups.length ≤ site.library.size) ∧
      ∀ config supplied node limit, site.library.size ≤ config.maxDepth →
        evaluate site.graph site.library config supplied ≠
          .error (.recursionLimitExceeded node limit) := by
  have apart : e.RedefinesApart options := by
    rcases apart with apart | once
    · exact apart
    · exact redefinesApart_of_definesOnce once built
  obtain ⟨builder, stated, finished⟩ := bind_eq_ok_iff.1 built
  have tidy := (Builder.tidy_start options).statements stated
  have acyclic : builder.library.IsAcyclic := by
    refine Builder.isAcyclic_statements (Builder.tidy_start options) (fun group path => ?_) apart
      stated
    obtain ⟨_, ⟨definition, known, -⟩, -⟩ := TransGen.head'_iff.1 path
    cases known
  have acyclic' : site.library.IsAcyclic := by
    unfold Builder.finish at finished
    split at finished
    · cases finished
    · rcases tidy.close_outcome tidy.root with ⟨site', closed, shrinks⟩ | ⟨name, refused⟩
      · cases finished.symm.trans closed
        exact fun group path => acyclic group (TransGen.mono (fun _ _ => shrinks.uses) _ _ path)
      · cases finished.symm.trans refused
  have runs := Expr.runs_build built
  refine ⟨acyclic', fun groups nests => nests.length_le acyclic',
    fun config supplied node limit deep => ?_⟩
  exact Graph.NestsWithin.evaluate_uncut runs.library config runs.graph
    (fun groups nests _ => (nests.length_le acyclic').trans deep) supplied node limit

end Expr

/-- The groups that the instances of a graph are of. -/
def Graph.usedGroups (graph : Graph) : List String :=
  graph.nodes.entries.filterMap fun entry =>
    match entry.2.op with
    | .group group => some group
    | _ => none

/-- A graph uses the groups that its instances are of. -/
theorem Graph.mem_usedGroups {graph : Graph} {group : String} :
    group ∈ graph.usedGroups ↔ graph.Uses group := by
  unfold Graph.usedGroups
  rw [List.mem_filterMap]
  constructor
  · rintro ⟨⟨id, node⟩, mem, same⟩
    refine ⟨id, node, Slots.mem_entries.1 mem, ?_⟩
    cases op : node.op with
    | group other => simp only [op, Option.some.injEq] at same; rw [same]
    | _ => simp [op] at same
  · rintro ⟨id, node, found, op⟩
    exact ⟨(id, node), Slots.mem_entries.2 found, by simp [op]⟩

/-- Whether all that the innermost group of a build uses is another group that uses none, if its name
is defined already. -/
def Builder.isPlain (builder : Builder) : Bool :=
  builder.opened.head?.all fun group =>
    !builder.library.contains group.name || group.scope.graph.usedGroups.all fun used =>
      used ≠ group.name && (builder.library.get? used).all fun definition =>
        definition.usedGroups.isEmpty

/-- A group that uses only other groups which use none keeps apart from an older definition of its
name. -/
theorem Builder.keepsApart_of_isPlain {builder : Builder} (plain : builder.isPlain = true) :
    builder.KeepsApart := by
  intro group others opened known used uses path
  have plain : ∀ used ∈ group.scope.graph.usedGroups, used ≠ group.name ∧
      ∀ definition, builder.library.get? used = some definition → definition.usedGroups = [] := by
    simpa [isPlain, opened, known, Option.all_eq_true] using plain
  obtain ⟨other, bare⟩ := plain used (Graph.mem_usedGroups.2 uses)
  rcases ReflTransGen.cases_head path with same | ⟨next, ⟨definition, found, leads⟩, -⟩
  · exact other same
  · have mem := Graph.mem_usedGroups.2 leads
    rw [bare definition found] at mem
    cases mem

/-- What is checked of a build before every statement holds before any one of them. -/
theorem Expr.holds_before {e : Expr} {options : BuildOptions} (check : Builder → Bool)
    (each : ∀ count < e.arguments.length,
      ((e.arguments.take count).foldlM Builder.statement (.start options)).toOption.all check = true)
    {done rest : List Expr} {statement : Expr} {builder : Builder}
    (split : e.arguments = done ++ statement :: rest)
    (stated : done.foldlM Builder.statement (.start options) = .ok builder) :
    check builder = true := by
  have here := each done.length (by simp [split])
  rwa [split, List.take_left, stated] at here

/-- A group that adds two, one that has an instance of it, and the second one again in another way. -/
def Expr.renewed : Expr :=
  let read (name : String) : Expr := .var (.plain name)
  .chain [.call "group:start" (.chain [read "h", read "a"]),
    .binary .assign (read "y") (.binary .add (read "a") (.value ⟨"2"⟩)),
    .call "group:end" (read "h"),
    .call "group:start" (.chain [read "g", read "b"]),
    .binary .assign (read "z") (.call "fn:h" (read "b")),
    .call "group:end" (read "g"),
    .call "group:start" (.chain [read "g", read "b"]),
    .binary .assign (read "z") (.binary .mul (.call "fn:h" (read "b")) (read "b")),
    .call "group:end" (read "g"),
    .binary .assign (read "r") (.call "fn:g" (read "x"))]

/-- A group that has an instance of another one may be defined again with an instance of it, and
evaluation is not cut off by a limit of two; nor is it where no name is defined again. -/
theorem Expr.build_renewed_nests :
    (¬ renewed.DefinesOnce ∧ ∃ site, renewed.build .standard = .ok site ∧ site.library.size = 2 ∧
      site.library.Uses "g" "h" ∧ (∀ group, ¬ TransGen site.library.Uses group group) ∧
      ∀ config supplied node limit, 2 ≤ config.maxDepth →
        evaluate site.graph site.library config supplied ≠
          .error (.recursionLimitExceeded node limit)) ∧
      ∃ site, layered.build .standard = .ok site ∧
        ∀ group, ¬ TransGen site.library.Uses group group := by
  constructor
  · have apart : renewed.RedefinesApart .standard := by
      intro done statement rest name builder split mark stated
      exact Builder.keepsApart_of_isPlain
        (holds_before Builder.isPlain (by decide +kernel) split stated)
    have parts : (renewed.build .standard).map (fun site => (site.library.size,
        (site.library.get? "g").map Graph.usedGroups)) = .ok (2, some ["h"]) := by decide +kernel
    obtain ⟨site, built, same⟩ := map_eq_ok_iff.1 parts
    rw [Prod.mk.injEq, Option.map_eq_some_iff] at same
    obtain ⟨size, definition, found, used⟩ := same
    have nests := build_nests renewed .standard (.inl apart) site built
    rw [size] at nests
    have twice : ¬ (renewed.marks.filterMap Mark.ended?).Nodup := by decide +kernel
    exact ⟨twice, site, built, size,
      ⟨definition, found, Graph.mem_usedGroups.1 (by simp [used])⟩, nests.1, nests.2.2⟩
  · obtain ⟨site, built⟩ := exists_ok_of_isOk
      (show (layered.build .standard).isOk = true by decide +kernel)
    have once : layered.DefinesOnce := by
      show (layered.marks.filterMap Mark.ended?).Nodup
      decide +kernel
    exact ⟨site, built, (build_nests layered .standard (.inr once) site built).1⟩

/-- A group is started and ended. -/
def Expr.groupStatements : List Expr :=
  [.call "group:start" (.var ⟨"g", none, none⟩), .call "group:end" (.var ⟨"g", none, none⟩)]

/-- An instance of the group is added under a name. -/
def Expr.instanceStatement (called : String) : Expr :=
  .call "group:add" (.chain [.var ⟨"g", none, none⟩, .var ⟨called, none, none⟩])

/-- A group is defined, then defined again as one that has two instances of what it was, and an
instance of it is added. -/
def Expr.knot : Expr :=
  .chain (groupStatements ++ [.call "group:start" (.var ⟨"g", none, none⟩), instanceStatement "i",
    instanceStatement "j", .call "group:end" (.var ⟨"g", none, none⟩), instanceStatement "k"])

/-- A group that is defined again may come to use itself, and then evaluation is cut off although
its limit is the number of definitions. -/
theorem Expr.build_knot : ∃ site, knot.build .standard = .ok site ∧ site.library.size = 1 ∧
    site.library.Uses "g" "g" ∧
      evaluate site.graph site.library ⟨false, false, 1⟩ .empty =
        .error (.recursionLimitExceeded 1 1) := by
  have parts : (knot.build .standard).map (fun site => (site.library.size,
      (site.library.get? "g").map Graph.usedGroups,
      evaluate site.graph site.library ⟨false, false, 1⟩ .empty)) =
        .ok (1, some ["g", "g"], .error (.recursionLimitExceeded 1 1)) := by decide +kernel
  obtain ⟨site, built, same⟩ := map_eq_ok_iff.1 parts
  rw [Prod.mk.injEq, Prod.mk.injEq, Option.map_eq_some_iff] at same
  obtain ⟨size, ⟨definition, found, used⟩, refused⟩ := same
  exact ⟨site, built, size, ⟨definition, found, Graph.mem_usedGroups.1 (by simp [used])⟩, refused⟩

end Shadeloom
