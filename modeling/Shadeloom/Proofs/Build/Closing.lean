import Mathlib
import Shadeloom.Proofs.Build.Folding
import Shadeloom.Proofs.Build.Merging
import Shadeloom.Proofs.Build.Pruning
import Shadeloom.Proofs.Build.Relinking
/-!
# Cleanups of runnable graphs

Every step of a cleanup keeps a graph and its library runnable: links that are made close no cycle,
no instance is added, and no definition gets another name.
-/
namespace Shadeloom

open Relation

namespace Graph

/-- Folding a constant into a socket closes no cycle. -/
theorem Folds.acyclic {before after : Graph} {target : Socket} {value : Float}
    (folds : Folds before after target value) (acyclic : before.Acyclic) : after.Acyclic :=
  acyclic.mono fun a b leads => by
    obtain ⟨source, target, linked, rfl, rfl⟩ := leads
    rw [folds.source?] at linked
    split at linked
    · cases linked
    · exact leads_of_source? linked

/-- Folding a constant into a socket keeps a graph runnable. -/
theorem Runnable.folds {library : Library} {before after : Graph} {target : Socket} {value : Float}
    (runnable : before.Runnable library) (folds : Folds before after target value) :
    after.Runnable library where
  sound := folds.sound
  acyclic := folds.acyclic runnable.acyclic
  refers := runnable.refers.of_nodes fun id node found => by
    obtain ⟨receiver, here, -, node?⟩ := folds.node?
    rw [node?] at found
    split at found
    · rename_i same
      cases found
      exact .inr ⟨receiver, same ▸ here, fun _ same => same⟩
    · exact .inr ⟨node, found, fun _ same => same⟩

/-- Letting readers read what none of them leads to keeps a graph runnable. -/
theorem Runnable.relinks {library : Library} {before after : Graph} {input source : Socket}
    (runnable : before.Runnable library) (relinks : Relinks before after input source)
    (free : ¬ before.Entangled input source) : after.Runnable library where
  sound := relinks.sound
  acyclic := relinks.acyclic runnable.acyclic fun reader reads path =>
    free (.inr ⟨reader, reads, path⟩)
  refers := runnable.refers.of_nodes fun id node found => by
    rw [relinks.node?] at found
    exact .inr ⟨node, found, fun _ same => same⟩

/-- Hiding ports keeps a graph runnable. -/
theorem Runnable.hides {library : Library} {before after : Graph} {ids : List Nat}
    (runnable : before.Runnable library) (hides : Cleanup.Hides before after ids) :
    after.Runnable library where
  sound := hides.sound
  acyclic := runnable.acyclic.congr hides.source?
  refers := runnable.refers.of_nodes fun id node found => by
    rw [hides.node?] at found
    obtain ⟨old, found', rfl⟩ := Option.map_eq_some_iff.1 found
    refine .inr ⟨old, found', fun group same => ?_⟩
    split at same
    · exact Node.op_of_hidden same
    · exact same

/-- An input keeps a graph runnable when it gets another default. -/
theorem Runnable.setPortDefault {library : Library} {graph : Graph} {id : Nat} {old new : Node}
    {value : Value} (runnable : graph.Runnable library) (found : graph.node? id = some old)
    (changed : old.setPortDefault? value = some new) : (graph.setNode id new).Runnable library :=
  runnable.setNode found
    (Node.replaces_setPortDefault (runnable.sound.inputShaped id old · found) changed)
    fun group same => by
      unfold Node.setPortDefault? at changed
      split at changed
      · cases changed
        cases same
      · cases changed

end Graph

namespace Cleanup

section

variable {site after : Site}

/-- Linking outputs on keeps a site. -/
theorem relinkOutputs_runs {total : Nat} (runs : site.Runs)
    (done : relinkOutputs site = .ok total after) : site.Keeps after := by
  have isSound (graph : Graph)
      (keeps : graph.Runnable site.library ∧ graph.name = site.graph.name) : graph.Sound :=
    keeps.1.sound
  obtain ⟨⟨runnable, name⟩, library⟩ := relinkOutputs_keeps isSound
    (fun before after input source keeps relinks free =>
      ⟨keeps.1.relinks relinks free, relinks.name.trans keeps.2⟩) ⟨runs.graph, rfl⟩ done
  obtain ⟨graph, library'⟩ := after
  cases library
  exact runs.withGraph runnable name

/-- Removing unused inputs keeps a site. -/
theorem removeUnusedInputs_runs {total : Nat} (runs : site.Runs)
    (done : removeUnusedInputs site = .ok total after) : site.Keeps after := by
  have isSound (graph : Graph)
      (keeps : graph.Runnable site.library ∧ graph.name = site.graph.name) : graph.Sound :=
    keeps.1.sound
  obtain ⟨total', graph, done', runnable, name⟩ := removeUnusedInputs_ok isSound
    (fun before after id node port keeps _ _ _ removes =>
      ⟨keeps.1.removeNode removes, removes.name.trans keeps.2⟩) site ⟨runs.graph, rfl⟩
  rw [done'] at done
  cases done
  exact runs.withGraph runnable name

/-- Removing unused outputs keeps a site. -/
theorem removeUnusedOutputs_runs {total : Nat} (runs : site.Runs)
    (done : removeUnusedOutputs site = .ok total after) : site.Keeps after := by
  have isSound (graph : Graph)
      (keeps : graph.Runnable site.library ∧ graph.name = site.graph.name) : graph.Sound :=
    keeps.1.sound
  obtain ⟨total', graph, done', runnable, name⟩ := removeUnusedOutputs_ok isSound
    (fun before after id node port keeps _ _ _ removes =>
      ⟨keeps.1.removeNode removes, removes.name.trans keeps.2⟩) site ⟨runs.graph, rfl⟩
  rw [done'] at done
  cases done
  exact runs.withGraph runnable name

/-- Hiding ports keeps a site. -/
theorem hidePorts_runs {declarations : Declarations} {total : Nat} (runs : site.Runs)
    (done : hidePorts declarations site = .ok total after) : site.Keeps after := by
  obtain ⟨total', graph, done', hides⟩ := hidePorts_ok runs.graph.sound declarations
  rw [done'] at done
  cases done
  exact runs.withGraph (runs.graph.hides hides) hides.name

/-- Folding constants keeps a site. -/
theorem foldConstants_runs {total : Nat} (runs : site.Runs)
    (done : foldConstants site = .ok total after) : site.Keeps after := by
  have isSound (graph : Graph)
      (keeps : graph.Runnable site.library ∧ graph.name = site.graph.name) : graph.Sound :=
    keeps.1.sound
  obtain ⟨total', graph, done', runnable, name⟩ := foldConstants_ok isSound
    (fun before after target value keeps folds =>
      ⟨keeps.1.folds folds, folds.name.trans keeps.2⟩)
    (fun before after id node value keeps _ _ _ removes =>
      ⟨keeps.1.removeNode removes, removes.name.trans keeps.2⟩) site ⟨runs.graph, rfl⟩
  rw [done'] at done
  cases done
  exact runs.withGraph runnable name

/-- Setting defaults keeps a site. -/
theorem applyDefaults_runs {defaults : Table String Float} (runs : site.Runs)
    (done : applyDefaults defaults site = .ok () after) : site.Keeps after := by
  have isSound (graph : Graph)
      (keeps : graph.Runnable site.library ∧ graph.name = site.graph.name) : graph.Sound :=
    keeps.1.sound
  obtain ⟨graph, done', runnable, name⟩ := applyDefaults_ok isSound
    (fun graph id old new value keeps found changed =>
      ⟨keeps.1.setPortDefault found changed, keeps.2⟩) defaults site ⟨runs.graph, rfl⟩
  rw [done'] at done
  cases done
  exact runs.withGraph runnable name

/-- Putting inputs in order keeps a site. -/
theorem orderInputs_runs {chosen : Bool} (runs : site.Runs)
    (done : orderInputs chosen site = .ok () after) : site.Keeps after := by
  rw [orderInputs_eq] at done
  cases done
  exact runs.withGraph (by split; exacts [runs.graph.sortInputs _, runs.graph]) (by split <;> rfl)

/-- A step that is left out keeps a site, and so does one that is taken if it does. -/
theorem ifChosen_runs {chosen : Bool} {step : Cleanup Nat} {total : Nat} (runs : site.Runs)
    (keeps : ∀ after total, step site = .ok total after → site.Keeps after)
    (done : ifChosen chosen step site = .ok total after) : site.Keeps after := by
  rcases ifChosen_eq_ok done with done | rfl
  · exact keeps _ _ done
  · exact runs.keeps

/-- A cleanup keeps a site. -/
theorem all_runs {declarations : Declarations} {options : BuildOptions} {report : CleanupReport}
    (runs : site.Runs) (done : all declarations options site = .ok report after) :
    site.Keeps after := by
  rw [all_eq] at done
  obtain ⟨_, relinked, relinks, done⟩ := bind_eq_ok_iff.1 done
  obtain ⟨_, fewer, inputs, done⟩ := bind_eq_ok_iff.1 done
  obtain ⟨_, fed, outputs, done⟩ := bind_eq_ok_iff.1 done
  obtain ⟨_, hidden, hides, done⟩ := bind_eq_ok_iff.1 done
  obtain ⟨_, merged, merges, done⟩ := bind_eq_ok_iff.1 done
  obtain ⟨_, folded, folds, done⟩ := bind_eq_ok_iff.1 done
  obtain ⟨_, set, sets, done⟩ := bind_eq_ok_iff.1 done
  have keeps := relinkOutputs_runs runs relinks
  have keeps := keeps.trans
    (ifChosen_runs keeps.runs (fun _ _ => removeUnusedInputs_runs keeps.runs) inputs)
  have keeps := keeps.trans
    (ifChosen_runs keeps.runs (fun _ _ => removeUnusedOutputs_runs keeps.runs) outputs)
  have keeps := keeps.trans (hidePorts_runs keeps.runs hides)
  have keeps := keeps.trans (mergeDuplicateInputs_keeps keeps.runs merges)
  have keeps := keeps.trans
    (ifChosen_runs keeps.runs (fun _ _ => foldConstants_runs keeps.runs) folds)
  have keeps := keeps.trans (applyDefaults_runs keeps.runs sets)
  obtain ⟨_, last, orders, same⟩ := bind_eq_ok_iff.1 done
  cases same
  exact keeps.trans (orderInputs_runs keeps.runs orders)

end

end Cleanup

end Shadeloom
