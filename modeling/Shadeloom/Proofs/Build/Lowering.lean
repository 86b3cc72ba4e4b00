import Mathlib
import Shadeloom.Proofs.Build.Recipes
import Shadeloom.Proofs.Build.Scopes
/-!
# Building trees into tidy scopes

Building a tree keeps a scope tidy and changes nothing at the nodes that were there; feeding a node
that is held back changes only what is linked into it.
-/
namespace Shadeloom

open Scope

section

variable {library : Library} {reuse : Bool}

/-- A tree that has been built is given again. -/
theorem lower_of_remembered {e : Expr} {scope : Scope} {socket : Socket}
    (found : scope.remembered? reuse e = some socket) :
    lower library reuse e scope = .ok (socket, scope) := by
  rw [lower]
  simp only [found]

/-- A tree without a plan is refused. -/
theorem lower_of_refused {e : Expr} {scope : Scope} {error : BuildError}
    (fresh : scope.remembered? reuse e = none) (planned : Plan.of library e = .error error) :
    lower library reuse e scope = .error error := by
  rw [lower]
  simp only [fresh]
  split
  · rename_i error' planned'
    rw [planned] at planned'
    cases planned'
    rfl
  · rename_i planned'; rw [planned] at planned'; cases planned'
  · rename_i planned'; rw [planned] at planned'; cases planned'

/-- A variable is read. -/
theorem lower_of_read {e : Expr} {scope : Scope} {v : Variable}
    (fresh : scope.remembered? reuse e = none) (planned : Plan.of library e = .ok (.read v)) :
    lower library reuse e scope = (do
      let (socket, scope) ← scope.readVariable v
      .ok (socket, scope.remember reuse e socket)) := by
  rw [lower]
  simp only [fresh]
  split
  · rename_i planned'; rw [planned] at planned'; cases planned'
  · rename_i v' planned'; rw [planned] at planned'; cases planned'; rfl
  · rename_i planned'; rw [planned] at planned'; cases planned'

/-- Any other tree is made by its recipe. -/
theorem lower_of_make {e : Expr} {scope : Scope} {recipe : Recipe}
    (fresh : scope.remembered? reuse e = none)
    (planned : Plan.of library e = .ok (.make recipe)) :
    lower library reuse e scope = (do
      let scope' ← feed library reuse recipe.operands scope.graph.nextNode
        (scope.addNode recipe.node)
      .ok (⟨scope.graph.nextNode, recipe.output⟩,
        scope'.remember reuse e ⟨scope.graph.nextNode, recipe.output⟩)) := by
  rw [lower]
  simp only [fresh]
  split
  · rename_i planned'; rw [planned] at planned'; cases planned'
  · rename_i planned'; rw [planned] at planned'; cases planned'
  · rename_i recipe' planned'; rw [planned] at planned'; cases planned'; rfl

/-- A recipe of a runnable library makes a node that may be added. -/
theorem Recipe.refers (runnable : Library.Runnable library) {e : Expr} {recipe : Recipe}
    (planned : Plan.of library e = .ok (.make recipe)) : recipe.node.Refers library := by
  rcases Recipe.isPlain_or_isInstance planned with plain | ⟨group, definition, found, node⟩
  · obtain ⟨op, node, isPlain⟩ := plain.node
    rw [node]
    intro group same
    exact absurd same (isPlain.2 group)
  · rw [node]
    exact runnable.refers_instanceNode found

/-- What feeding a node keeps of a scope. -/
def FeedKeeps (library : Library) (reuse : Bool) (operands : List (Nat × Expr)) (id : Nat)
    (scope : Scope) : Prop :=
  ∀ held after, scope.Tidy library (id :: held) →
    feed library reuse operands id scope = .ok after →
      Advances library (id :: held) [id] scope after

/-- What building a tree keeps of a scope. -/
def LowerKeeps (library : Library) (reuse : Bool) (e : Expr) (scope : Scope) : Prop :=
  ∀ held socket after, scope.Tidy library held →
    lower library reuse e scope = .ok (socket, after) →
      Advances library held [] scope after ∧ after.Offers held socket.node

/-- Adding a node and feeding it advances a scope, and the node may be read then. -/
theorem FeedKeeps.make {operands : List (Nat × Expr)} {scope fed : Scope} {node : Node}
    {held : List Nat}
    (keeps : FeedKeeps library reuse operands scope.graph.nextNode (scope.addNode node))
    (tidy : scope.Tidy library held) (shaped : ∀ port, node.op ≠ .input port)
    (refers : node.Refers library)
    (done : feed library reuse operands scope.graph.nextNode (scope.addNode node) = .ok fed) :
    Advances library held [] scope fed ∧ fed.Offers held scope.graph.nextNode := by
  have fresh := tidy.runnable.sound.node?_nextNode
  have added := tidy.addNode node (fun port same => absurd same (shaped port)) refers
  have later := keeps held fed added.tidy done
  have both := added.trans later fun id mem => by
    rw [List.mem_singleton] at mem
    exact .inr (mem ▸ fresh)
  refine ⟨{ both with tidy := both.tidy.release fun id mem => List.mem_cons_of_mem _ mem },
    (both.tidy.idle _ (by simp)).1, fun mem => ?_⟩
  have here := (tidy.idle _ mem).1
  rw [fresh] at here
  cases here

/-- Building a tree or the operands of a node keeps a scope tidy. -/
theorem lower_keeps (runnable : Library.Runnable library) (reuse : Bool) :
    (∀ e scope, LowerKeeps library reuse e scope) ∧
      ∀ operands id scope, FeedKeeps library reuse operands id scope := by
  apply lower.mutual_induct library reuse (LowerKeeps library reuse) (FeedKeeps library reuse)
  case case1 =>
    intro e scope socket found held socket' after tidy done
    rw [lower_of_remembered found] at done
    cases done
    exact ⟨tidy.advances, tidy.remembered found⟩
  case case2 =>
    intro e scope fresh error planned held socket after tidy done
    rw [lower_of_refused fresh planned] at done
    cases done
  case case3 =>
    intro e scope fresh v planned held socket after tidy done
    rw [lower_of_read fresh planned] at done
    obtain ⟨⟨source, read⟩, reads, same⟩ := bind_eq_ok_iff.1 done
    cases same
    obtain ⟨advances, offers⟩ := tidy.readVariable reads
    have kept := advances.tidy.remember reuse e socket offers
    exact ⟨advances.trans kept (by simp), offers.grow _ kept.grows⟩
  case case4 =>
    intro e scope fresh recipe planned id keeps held socket after tidy done
    rw [lower_of_make fresh planned] at done
    obtain ⟨fed, feeds, same⟩ := bind_eq_ok_iff.1 done
    cases same
    obtain ⟨advances, offers⟩ := keeps.make tidy (Recipe.not_input planned)
      (Recipe.refers runnable planned) feeds
    have kept := advances.tidy.remember reuse e ⟨id, recipe.output⟩ offers
    exact ⟨advances.trans kept (by simp), offers.grow _ kept.grows⟩
  case case5 =>
    intro id scope held after tidy done
    rw [feed] at done
    cases done
    exact tidy.advances
  case case6 =>
    intro id scope place e rest first others held after tidy done
    rw [feed] at done
    obtain ⟨⟨source, built⟩, builds, done⟩ := bind_eq_ok_iff.1 done
    obtain ⟨linked, links, done⟩ := bind_eq_ok_iff.1 done
    obtain ⟨advances, offers⟩ := first (id :: held) source built tidy builds
    obtain ⟨linking, -, -⟩ := advances.tidy.connect offers.2 (by simp) links
    have later := others linked held after linking.tidy done
    exact ((advances.weaken (by simp)).trans linking (by simp)).trans later (by simp)

/-- What is shown of every step of a build in a tidy scope holds of the trees that are built and of
the nodes that are fed: of a tree that is taken again, of a variable that is read, of a node that is
made and fed, and of the operands that are fed one by one. -/
theorem lower_tidy_induct (runnable : Library.Runnable library)
    {lowers : List Nat → Expr → Scope → Socket → Scope → Prop}
    {feeds : List Nat → List (Nat × Expr) → Nat → Scope → Scope → Prop}
    (remembered : ∀ held e scope socket, scope.Tidy library held →
      scope.remembered? reuse e = some socket → lowers held e scope socket scope)
    (read : ∀ held v scope socket after, scope.Tidy library held →
      scope.remembered? reuse (.var v) = none → scope.readVariable v = .ok (socket, after) →
        lowers held (.var v) scope socket (after.remember reuse (.var v) socket))
    (make : ∀ held e scope recipe fed, scope.Tidy library held →
      scope.remembered? reuse e = none → Plan.of library e = .ok (.make recipe) →
        feeds held recipe.operands scope.graph.nextNode (scope.addNode recipe.node) fed →
          lowers held e scope ⟨scope.graph.nextNode, recipe.output⟩
            (fed.remember reuse e ⟨scope.graph.nextNode, recipe.output⟩))
    (nil : ∀ held id scope, feeds held [] id scope scope)
    (cons : ∀ held place e rest id scope source built linked after, scope.Tidy library (id :: held) →
      Advances library (id :: held) [] scope built → source.node ∉ id :: held →
        built.connect source ⟨id, place⟩ = .ok linked → lowers (id :: held) e scope source built →
          feeds held rest id linked after → feeds held ((place, e) :: rest) id scope after) :
    (∀ held e scope socket after, scope.Tidy library held →
      lower library reuse e scope = .ok (socket, after) → lowers held e scope socket after) ∧
    ∀ held operands id scope after, scope.Tidy library (id :: held) →
      feed library reuse operands id scope = .ok after → feeds held operands id scope after := by
  have keeps := lower_keeps runnable reuse
  have both := lower.mutual_induct library reuse
    (fun e scope => ∀ held socket after, scope.Tidy library held →
      lower library reuse e scope = .ok (socket, after) → lowers held e scope socket after)
    (fun operands id scope => ∀ held after, scope.Tidy library (id :: held) →
      feed library reuse operands id scope = .ok after → feeds held operands id scope after)
    ?_ ?_ ?_ ?_ ?_ ?_
  · exact ⟨fun held e scope => both.1 e scope held,
      fun held operands id scope => both.2 operands id scope held⟩
  · intro e scope socket found held socket' after tidy done
    rw [lower_of_remembered found] at done
    cases done
    exact remembered held e scope socket tidy found
  · intro e scope fresh error planned held socket after tidy done
    rw [lower_of_refused fresh planned] at done
    cases done
  · intro e scope fresh v planned held socket after tidy done
    obtain rfl := Plan.eq_var_of_read planned
    rw [lower_of_read fresh planned] at done
    obtain ⟨⟨source, last⟩, reads, same⟩ := bind_eq_ok_iff.1 done
    cases same
    exact read held v scope socket last tidy fresh reads
  · intro e scope fresh recipe planned id fed held socket after tidy done
    rw [lower_of_make fresh planned] at done
    obtain ⟨last, fills, same⟩ := bind_eq_ok_iff.1 done
    cases same
    have added := tidy.addNode recipe.node
      (fun port same => absurd same (Recipe.not_input planned port)) (Recipe.refers runnable planned)
    exact make held e scope recipe last tidy fresh planned (fed held last added.tidy fills)
  · intro id scope held after tidy done
    rw [feed] at done
    cases done
    exact nil held id scope
  · intro id scope place e rest first others held after tidy done
    rw [feed] at done
    obtain ⟨⟨source, built⟩, builds, done⟩ := bind_eq_ok_iff.1 done
    obtain ⟨linked, links, done⟩ := bind_eq_ok_iff.1 done
    obtain ⟨advances, offers⟩ := keeps.1 e scope (id :: held) source built tidy builds
    obtain ⟨linking, -, -⟩ := advances.tidy.connect offers.2 (by simp) links
    exact cons held place e rest id scope source built linked after tidy advances offers.2 links
      (first (id :: held) source built tidy builds) (others linked held after linking.tidy done)

end

end Shadeloom
