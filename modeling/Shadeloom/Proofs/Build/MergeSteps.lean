import Mathlib
import Shadeloom.Proofs.Build.Duplicates
/-!
# Merges one after the other

Merging the inputs of all instances that are fed by the same output socket comes down to single
merges. Each takes one socket from the only instance of a group and one input from its definition, at
the same place; so what a single merge keeps is kept by all of them.
-/
namespace Shadeloom

open Relation

/-- What a single merge does at the only instance of a group: the later one of two sockets that are
fed by the same output socket goes, and in the definition the input at its place is merged into the
one at the earlier place. -/
structure Site.MergesSockets (before after : Site) (id : Nat) (group : String)
    (places : Nat × Nat) (node : Node) (definition merged : Graph) : Prop where
  found : before.graph.node? id = some node
  op : node.op = .group group
  once : Cleanup.useCount before group = 1
  stored : before.library.get? group = some definition
  order : places.1 < places.2
  fed : ∃ source, before.graph.source? ⟨id, places.1⟩ = some source ∧
    before.graph.source? ⟨id, places.2⟩ = some source
  library : after.library = before.library.insert group merged
  merges : ∃ kept dropped, (definition.exposedInputs.map Prod.snd)[places.1]? = some kept ∧
    (definition.exposedInputs.map Prod.snd)[places.2]? = some dropped ∧
      definition.MergesInput merged kept dropped
  removes : Graph.RemovesSocket before.graph after.graph id places.2

/-- Whether a site becomes another one by a single merge. -/
def Site.MergesOnce (before after : Site) : Prop :=
  ∃ id group places node definition merged,
    before.MergesSockets after id group places node definition merged

namespace Cleanup

variable {site now after : Site} {id : Nat} {group : String}

/-- The inputs at the first places that are left are merged by a single merge, or not at all. -/
theorem Merging.mergesOnce {places : Nat × Nat} {rest : List (Nat × Nat)} {changed : Bool}
    (merging : Merging site id group (places :: rest) now) (once : useCount site group = 1)
    (isInstance : ∃ node, site.graph.node? id = some node ∧ node.op = .group group)
    (done : mergePlaces id group places now = .ok changed after) :
    ReflTransGen Site.MergesOnce now after := by
  obtain ⟨order, fed⟩ := merging.repeated places (by simp)
  obtain ⟨definition, stored, -⟩ := merging.definition
  have thins := merging.merges.thins
  obtain ⟨node, found, op⟩ : ∃ node, now.graph.node? id = some node ∧ node.op = .group group :=
    isInstance.elim fun node here => thins.exists_instance here.1 here.2
  rcases mergePlaces_spec stored (merging.merges.definitions group definition stored) thins.sound
    order done with ⟨-, rfl, -⟩ | ⟨-, merged, kept, dropped, keeps, drops, library, merges, removes⟩
  · exact .refl
  · exact .single ⟨id, group, places, node, definition, merged, found, op,
      (merging.merges.useCount group).trans once, stored, order, fed, library,
      ⟨kept, dropped, keeps, drops, merges⟩, removes⟩

/-- The inputs of an instance are merged by single merges. -/
theorem mergeInstance_mergesOnce {total : Nat} (sound : site.graph.Sound)
    (definitions : ∀ other definition, site.library.get? other = some definition →
      definition.Sound)
    (isInstance : ∃ node, site.graph.node? id = some node ∧ node.op = .group group)
    (done : mergeInstance id group site = .ok total after) :
    ReflTransGen Site.MergesOnce site after := by
  rw [mergeInstance, get_bind] at done
  split at done
  · cases done
    exact .refl
  · rename_i chosen
    rw [Bool.or_eq_true, decide_eq_true_eq, Bool.not_eq_true', not_or, not_not,
      Bool.not_eq_false, ← Table.isSome_get?] at chosen
    obtain ⟨once, present⟩ := chosen
    obtain ⟨definition, stored⟩ := Option.isSome_iff_exists.1 present
    refine (count_carries (mergePlaces id group)
      (fun rest now => Merging site id group rest now ∧ ReflTransGen Site.MergesOnce site now)
      (fun places rest now changed later held merged => ?_) done
      ⟨merging_start sound definitions id stored, .refl⟩).2
    obtain ⟨merging, steps⟩ := held
    exact ⟨merging.step isInstance merged,
      steps.trans (merging.mergesOnce once isInstance merged)⟩

/-- The inputs of all instances are merged by single merges. -/
theorem mergeDuplicateInputs_mergesOnce {total : Nat} (sound : site.graph.Sound)
    (definitions : ∀ other definition, site.library.get? other = some definition →
      definition.Sound)
    (done : mergeDuplicateInputs site = .ok total after) :
    ReflTransGen Site.MergesOnce site after := by
  rw [mergeDuplicateInputs, graph_bind] at done
  refine (sum_carries (fun entry : Nat × String => mergeInstance entry.1 entry.2)
    (fun rest now => MergingAll site rest now ∧ ReflTransGen Site.MergesOnce site now)
    (fun entry rest now changed later held merged => ?_) done
    ⟨mergingAll_start sound definitions, .refl⟩).2
  obtain ⟨merging, steps⟩ := held
  exact ⟨merging.step merged, steps.trans (mergeInstance_mergesOnce merging.thins.sound
    merging.definitions (merging.isInstance entry (by simp)) merged)⟩

/-- What a single merge keeps is kept when the inputs of all instances are merged. -/
theorem mergeDuplicateInputs_carries (holds : Site → Prop) {total : Nat}
    (merging : ∀ before after, holds before → before.MergesOnce after → holds after)
    (sound : site.graph.Sound)
    (definitions : ∀ other definition, site.library.get? other = some definition →
      definition.Sound)
    (done : mergeDuplicateInputs site = .ok total after) (start : holds site) : holds after := by
  have steps := mergeDuplicateInputs_mergesOnce sound definitions done
  clear done
  induction steps with
  | refl => exact start
  | tail _ step held => exact merging _ _ held step

end Cleanup

end Shadeloom
