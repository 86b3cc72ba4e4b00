import Mathlib
import Shadeloom.Proofs.Build.Reading
import Shadeloom.Proofs.Build.Statements
/-!
# Building the trees of a demand

Building a tree of a demand gives a socket that computes it, and feeding a node links every place to
a socket that computes the operand. Whether sockets are used again makes no difference to whether a
tree is refused: it is built exactly when it can be built anywhere.
-/
namespace Shadeloom

open Shadeloom.Expr Scope

section

variable {needed : Expr → Prop} {reuse : Bool}

/-- What building a tree of a demand gives. -/
def LowerRealizes (needed : Expr → Prop) (reuse : Bool) (e : Expr) (scope : Scope) : Prop :=
  ∀ held socket after, scope.Tidy .empty held → scope.Realizes needed held → needed e →
    lower .empty reuse e scope = .ok (socket, after) →
      after.Realizes needed held ∧ after.graph.Computes e socket

/-- What feeding a node with trees of a demand gives. -/
def FeedRealizes (needed : Expr → Prop) (reuse : Bool) (operands : List (Nat × Expr)) (id : Nat)
    (scope : Scope) : Prop :=
  ∀ held after, scope.Tidy .empty (id :: held) → scope.Realizes needed (id :: held) →
    (∀ operand ∈ operands, needed operand.2) → (operands.map Prod.fst).Nodup →
      feed .empty reuse operands id scope = .ok after →
        after.Realizes needed (id :: held) ∧ (∃ sources : Nat → Socket,
          ∀ operand ∈ operands, after.graph.source? ⟨id, operand.1⟩ = some (sources operand.1) ∧
            after.graph.Computes operand.2 (sources operand.1)) ∧
          ∀ place, place ∉ operands.map Prod.fst →
            after.graph.source? ⟨id, place⟩ = scope.graph.source? ⟨id, place⟩

/-- Nothing enters a node that has just been added. -/
theorem source?_nextNode {library : Library} {held : List Nat} {scope : Scope}
    (tidy : scope.Tidy library held) (node : Node) (place : Nat) :
    (scope.addNode node).graph.source? ⟨scope.graph.nextNode, place⟩ = none := by
  have sound := tidy.runnable.sound
  refine (sound.source?_addNode _).trans ?_
  rw [Option.eq_none_iff_forall_not_mem]
  intro source linked
  have here := (sound.isSome_of_leads (Graph.leads_of_source? linked)).2
  rw [sound.node?_nextNode] at here
  cases here

/-- A node that is fed for its recipe computes the tree. -/
theorem FeedRealizes.make {e : Expr} {recipe : Recipe} {scope fed : Scope} {held : List Nat}
    (realizes : FeedRealizes needed reuse recipe.operands scope.graph.nextNode
      (scope.addNode recipe.node))
    (demand : IsDemand needed) (needs : needed e) (tidy : scope.Tidy .empty held)
    (start : scope.Realizes needed held) (planned : Plan.of .empty e = .ok (.make recipe))
    (done : feed .empty reuse recipe.operands scope.graph.nextNode (scope.addNode recipe.node) =
      .ok fed) :
    fed.Realizes needed held ∧
      fed.graph.Computes e ⟨scope.graph.nextNode, recipe.output⟩ := by
  have plain := Recipe.isPlain_of_empty planned
  have refers := Recipe.refers Library.runnable_empty planned
  have added := tidy.addNode recipe.node
    (fun port same => absurd same (Recipe.not_input planned port)) refers
  have fresh := tidy.runnable.sound.node?_nextNode
  obtain ⟨fed_, ⟨sources, linked⟩, others⟩ := realizes held fed added.tidy
    (start.addNode tidy recipe.node) (demand.operands e recipe needs planned) plain.distinct done
  have kept := (lower_keeps Library.runnable_empty reuse).2 recipe.operands scope.graph.nextNode
    (scope.addNode recipe.node) held fed added.tidy done
  have found : fed.graph.node? scope.graph.nextNode = some recipe.node := by
    refine kept.grows.node?_of_not_input ?_ (Recipe.not_input planned)
    exact (tidy.runnable.sound.node?_addNode _ _).trans (if_pos rfl)
  have computes : fed.graph.Computes e ⟨scope.graph.nextNode, recipe.output⟩ := by
    refine .made sources planned found (fun operand mem => (linked operand mem).1)
      (fun operand mem => (linked operand mem).2) fun place none => ?_
    rw [others place none, source?_nextNode tidy]
  exact ⟨fed_.release (.computes needs computes), computes⟩

/-- Building a tree of a demand gives a socket that computes it, and feeding a node links sockets
that compute the operands. -/
theorem lower_realizes (demand : IsDemand needed) (reuse : Bool) :
    (∀ e scope, LowerRealizes needed reuse e scope) ∧
      ∀ operands id scope, FeedRealizes needed reuse operands id scope := by
  have keeps := lower_keeps Library.runnable_empty reuse
  apply lower.mutual_induct .empty reuse (LowerRealizes needed reuse) (FeedRealizes needed reuse)
  case case1 =>
    intro e scope socket found held socket' after tidy realizes needs done
    rw [lower_of_remembered found] at done
    cases done
    exact ⟨realizes, realizes.remembered demand needs found⟩
  case case2 =>
    intro e scope fresh error planned held socket after tidy realizes needs done
    rw [lower_of_refused fresh planned] at done
    cases done
  case case3 =>
    intro e scope fresh v planned held socket after tidy realizes needs done
    obtain rfl := Plan.eq_var_of_read planned
    rw [lower_of_read fresh planned] at done
    obtain ⟨⟨source, last⟩, reads, same⟩ := bind_eq_ok_iff.1 done
    cases same
    obtain ⟨final, computes⟩ := realizes.readVariable tidy needs reads
    obtain ⟨kept, same⟩ := final.remember reuse needs computes
    exact ⟨kept, same ▸ computes⟩
  case case4 =>
    intro e scope fresh recipe planned id feeds held socket after tidy realizes needs done
    rw [lower_of_make fresh planned] at done
    obtain ⟨fed, fills, same⟩ := bind_eq_ok_iff.1 done
    cases same
    obtain ⟨final, computes⟩ := feeds.make demand needs tidy realizes planned fills
    obtain ⟨kept, same⟩ := final.remember reuse needs computes
    exact ⟨kept, same ▸ computes⟩
  case case5 =>
    intro id scope held after tidy realizes needs distinct done
    rw [feed] at done
    cases done
    exact ⟨realizes, ⟨fun _ => ⟨0, 0⟩, by simp⟩, fun _ _ => rfl⟩
  case case6 =>
    intro id scope place e rest first others held after tidy realizes needs distinct done
    rw [feed] at done
    obtain ⟨⟨source, built⟩, builds, done⟩ := bind_eq_ok_iff.1 done
    obtain ⟨linked, links, done⟩ := bind_eq_ok_iff.1 done
    obtain ⟨advances, offers⟩ := keeps.1 e scope (id :: held) source built tidy builds
    obtain ⟨early, computes⟩ := first (id :: held) source built tidy realizes
      (needs (place, e) (by simp)) builds
    obtain ⟨linking, connects, same⟩ := advances.tidy.connect offers.2 (by simp) links
    have joined := early.connect advances.tidy (by simp) connects
    rw [← same] at joined
    rw [List.map_cons, List.nodup_cons] at distinct
    obtain ⟨final, ⟨sources, filled⟩, kept⟩ := others linked held after linking.tidy joined
      (fun operand mem => needs operand (by simp [mem])) distinct.2 done
    have later := keeps.2 rest id linked held after linking.tidy done
    have idle (scope : Scope) (tidy : scope.Tidy .empty (id :: held)) :
        ∀ other ∈ [id], scope.graph.Idle other :=
      fun other mem => (tidy.idle other (by simp [List.mem_singleton.1 mem])).2
    have apart : source.node ∉ [id] := fun mem => offers.2 (by simp [List.mem_singleton.1 mem])
    have here : after.graph.source? ⟨id, place⟩ = some source := by
      rw [kept place distinct.1, connects.source?, if_pos rfl]
    have computed : after.graph.Computes e source :=
      (computes.grow linking.grows (idle _ advances.tidy) apart).grow later.grows
        (idle _ linking.tidy) apart
    refine ⟨final, ⟨fun other => if other = place then source else sources other,
      fun operand mem => ?_⟩, fun other none => ?_⟩
    · rcases List.mem_cons.1 mem with rfl | mem
      · simpa using ⟨here, computed⟩
      · have there : operand.1 ∈ rest.map Prod.fst := List.mem_map_of_mem mem
        have other : operand.1 ≠ place := fun same => distinct.1 (same ▸ there)
        simpa only [if_neg other] using filled operand mem
    · simp only [List.map_cons, List.mem_cons, not_or] at none
      have here := (tidy.idle id (by simp)).1
      rw [kept other none.2, connects.source?, if_neg, advances.grows.source? _ here (by simp)]
      rintro same
      injection same with _ place_eq
      exact none.1 place_eq.symm

/-- Whether a tree of a demand is built if it can be built anywhere. -/
def LowerRuns (needed : Expr → Prop) (reuse : Bool) (e : Expr) (scope : Scope) : Prop :=
  ∀ held, scope.Tidy .empty held → scope.Realizes needed held → needed e → e.Lowerable →
    ∃ socket after, lower .empty reuse e scope = .ok (socket, after)

/-- Whether a node is fed with trees of a demand if they can be built anywhere. -/
def FeedRuns (needed : Expr → Prop) (reuse : Bool) (operands : List (Nat × Expr)) (id : Nat)
    (scope : Scope) : Prop :=
  ∀ held, scope.Tidy .empty (id :: held) → scope.Realizes needed (id :: held) →
    (∀ operand ∈ operands, needed operand.2 ∧ operand.2.Lowerable ∧
      scope.graph.HasInput ⟨id, operand.1⟩) →
      ∃ after, feed .empty reuse operands id scope = .ok after

/-- Building the trees of a demand is refused only for trees that cannot be built anywhere. -/
theorem lower_runs (demand : IsDemand needed) (reuse : Bool) :
    (∀ e scope, LowerRuns needed reuse e scope) ∧
      ∀ operands id scope, FeedRuns needed reuse operands id scope := by
  have keeps := lower_keeps Library.runnable_empty reuse
  have gives := lower_realizes demand reuse
  apply lower.mutual_induct .empty reuse (LowerRuns needed reuse) (FeedRuns needed reuse)
  case case1 =>
    intro e scope socket found held tidy realizes needs lowerable
    exact ⟨socket, scope, lower_of_remembered found⟩
  case case2 =>
    intro e scope fresh error planned held tidy realizes needs lowerable
    cases lowerable with
    | read readable => cases planned
    | make planned' _ => rw [planned] at planned'; cases planned'
  case case3 =>
    intro e scope fresh v planned held tidy realizes needs lowerable
    cases lowerable with
    | read readable =>
      cases planned
      obtain ⟨socket, after, done⟩ := readVariable_ok realizes tidy needs readable
      refine ⟨socket, after.remember reuse (.var v) socket, ?_⟩
      rw [lower_of_read fresh rfl, done]
      rfl
    | make planned' _ => rw [planned] at planned'; cases planned'
  case case4 =>
    intro e scope fresh recipe planned id feeds held tidy realizes needs lowerable
    cases lowerable with
    | read readable => cases planned
    | make planned' operands =>
      rw [planned] at planned'
      cases planned'
      have added := tidy.addNode recipe.node
        (fun port same => absurd same (Recipe.not_input planned port))
        (Recipe.refers Library.runnable_empty planned)
      obtain ⟨after, done⟩ := feeds held added.tidy (realizes.addNode tidy recipe.node)
        fun operand mem => ⟨demand.operands e recipe needs planned operand mem,
          operands operand mem, recipe.node,
          (tidy.runnable.sound.node?_addNode _ _).trans (if_pos rfl),
          (Recipe.isPlain_of_empty planned).places operand mem⟩
      refine ⟨⟨id, recipe.output⟩, after.remember reuse e ⟨id, recipe.output⟩, ?_⟩
      rw [lower_of_make fresh planned, done]
      rfl
  case case5 =>
    intro id scope held tidy realizes operands
    exact ⟨scope, by rw [feed]⟩
  case case6 =>
    intro id scope place e rest first others held tidy realizes operands
    obtain ⟨needs, lowerable, enters⟩ := operands (place, e) (by simp)
    obtain ⟨source, built, builds⟩ := first (id :: held) tidy realizes needs lowerable
    obtain ⟨advances, offers⟩ := keeps.1 e scope (id :: held) source built tidy builds
    obtain ⟨early, computes⟩ := gives.1 e scope (id :: held) source built tidy realizes needs builds
    obtain ⟨graph, links⟩ := advances.tidy.runnable.sound.exists_connect computes.hasOutput
      (advances.grows.hasInput enters)
    have linked : built.connect source ⟨id, place⟩ = .ok { built with graph } :=
      bind_eq_ok_iff.2 ⟨graph, lift_eq_ok_iff.2 links, rfl⟩
    obtain ⟨linking, connects, -⟩ := advances.tidy.connect offers.2 (by simp) linked
    obtain ⟨after, done⟩ := others { built with graph } held linking.tidy
      (early.connect advances.tidy (by simp) connects) fun operand mem => by
        obtain ⟨needs, lowerable, enters⟩ := operands operand (by simp [mem])
        exact ⟨needs, lowerable, linking.grows.hasInput (advances.grows.hasInput enters)⟩
    refine ⟨after, ?_⟩
    rw [feed]
    exact bind_eq_ok_iff.2 ⟨_, builds, bind_eq_ok_iff.2 ⟨_, linked, done⟩⟩

end

end Shadeloom
