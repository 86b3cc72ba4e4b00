import Mathlib
import Shadeloom.Proofs.Build.Statements
import Shadeloom.Proofs.Evaluation.Refusals
/-!
# Built graphs are acyclic and self-contained

Whatever tree a build is given, and whatever it is asked to do: no links of the root or of a
definition form a cycle, no instance names a group that is not in the library, and so no evaluation
comes upon either.
-/
namespace Shadeloom

open Relation

/-- Whether a link of a graph goes from one node to another one. -/
def Graph.Joins (graph : Graph) (a b : Nat) : Prop :=
  ∃ link ∈ graph.links, link.source.node = a ∧ link.target.node = b

/-- In a sound graph a link goes to a node exactly when a socket of it is linked. -/
theorem Graph.Sound.joins_iff {graph : Graph} (sound : graph.Sound) {a b : Nat} :
    graph.Joins a b ↔ graph.Leads a b :=
  sound.leads_iff.symm

/-- The links of a runnable graph form no cycle. -/
theorem Graph.Runnable.not_joins_cycle {graph : Graph} {library : Library}
    (runnable : graph.Runnable library) (id : Nat) : ¬ TransGen graph.Joins id id := by
  have same : graph.Joins = graph.Leads :=
    funext fun a => funext fun b => propext runnable.sound.joins_iff
  rw [same]
  exact runnable.acyclic id

/-- Whether a graph is the root of a site or the definition of a group. -/
inductive Site.Holds (site : Site) : Graph → Prop
  | root : site.Holds site.graph
  | definition {name : String} {graph : Graph} (found : site.library.get? name = some graph) :
    site.Holds graph

/-- All graphs of a site that can be evaluated are runnable. -/
theorem Site.Runs.runnable {site : Site} (runs : site.Runs) {graph : Graph}
    (holds : site.Holds graph) : graph.Runnable site.library := by
  cases holds with
  | root => exact runs.graph
  | definition found => exact (runs.library _ graph found).2

/-- Every graph that is built has no cycle and only instances of groups that are defined. So no
evaluation of the root, and none of a definition at any depth, is refused for a cycle, for an
unknown group or for a fault of the evaluation itself. -/
theorem Expr.build_acyclic_and_self_contained (e : Expr) (options : BuildOptions) (site : Site)
    (built : e.build options = .ok site) :
    (∀ graph, site.Holds graph → (∀ id, ¬ TransGen graph.Joins id id) ∧
      ∀ id node group, graph.node? id = some node → node.op = .group group →
        site.library.contains group = true) ∧
    (∀ config supplied error,
      evaluate site.graph site.library config supplied = .error error → ¬ error.IsStructural) ∧
    ∀ graph config depth supplied error, site.Holds graph →
      Setting.evaluate ⟨graph, site.library, config, nestedWithin site.library config depth⟩
        supplied = .error error → ¬ error.IsStructural := by
  have runs := Expr.runs_build built
  refine ⟨fun graph holds => ?_, fun config supplied error refused => ?_,
    fun graph config depth supplied error holds refused => ?_⟩
  · have runnable := runs.runnable holds
    exact ⟨runnable.not_joins_cycle, fun id node group found op =>
      runnable.refers id node found group op⟩
  · exact runs.graph.evaluate_error runs.library refused
  · exact Setting.evaluate_error _ (runs.runnable holds) runs.library
      (isFaultless_nestedWithin runs.library config depth) refused

/-- A group that adds two, one that multiplies what an instance of the first one gives, a name for
what the second one gives, and an output that reads this name. -/
def Expr.layered : Expr :=
  let read (name : String) : Expr := .var (.plain name)
  .chain [.call "group:start" (.chain [read "g", read "a"]),
    .binary .assign (read "y") (.binary .add (read "a") (.value ⟨"2"⟩)),
    .call "group:end" (read "g"),
    .call "group:start" (.chain [read "h", read "b"]),
    .binary .assign (read "z") (.binary .mul (.call "fn:g" (read "b")) (read "b")),
    .call "group:end" (read "h"),
    .binary .assign (read "t") (.call "fn:h" (read "x")),
    .binary .assign (read "u") (.binary .add (read "t") (read "x"))]

/-- Groups with instances in each other and a name that is read are built with links, and what comes
of them is self-contained. -/
theorem Expr.build_instances_self_contained :
    ∃ site, layered.build .standard = .ok site ∧ site.library.keys = ["g", "h"] ∧
      (site.graph.node? 1).map Node.op = some (.group "h") ∧ site.graph.Joins 1 4 ∧
      (∀ graph, site.Holds graph → (∀ id, ¬ TransGen graph.Joins id id) ∧
        ∀ id node group, graph.node? id = some node → node.op = .group group →
          site.library.contains group = true) ∧
      ∀ config supplied error, evaluate site.graph site.library config supplied = .error error →
        ¬ error.IsStructural := by
  have parts : (layered.build .standard).map (fun site => (site.library.keys,
      (site.graph.node? 1).map Node.op, site.graph.links.head?)) =
        .ok (["g", "h"], some (.group "h"), some ⟨2, ⟨1, 0⟩, ⟨4, 0⟩⟩) := by decide +kernel
  obtain ⟨site, built, same⟩ := map_eq_ok_iff.1 parts
  rw [Prod.mk.injEq, Prod.mk.injEq] at same
  obtain ⟨keys, op, first⟩ := same
  have contained := Expr.build_acyclic_and_self_contained _ _ site built
  exact ⟨site, built, keys, op, ⟨_, List.mem_of_mem_head? first, rfl, rfl⟩, contained.1,
    contained.2.1⟩

end Shadeloom
