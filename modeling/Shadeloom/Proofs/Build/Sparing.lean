import Mathlib
import Shadeloom.Proofs.Build.Reporting
import Shadeloom.Proofs.Build.Thinning
import Shadeloom.Proofs.Build.Trimming
import Shadeloom.Proofs.Graph.Layouts
/-!
# What folding and removing spare

Folding constants and removing ports that are not used spare what a graph computes, whatever its
library holds and its instances do. A default says what the constant said, and what goes is read by
nothing and can always be evaluated. So a graph evaluates as before when its constants are folded,
and when its ports are removed the outputs that are left have the values that they had.
-/
namespace Shadeloom

open Machine

namespace Graph

variable {shows shows' : String → Bool} {graph before between after : Graph}

/-- An input is shown if the node that is listed under its name is. -/
theorem mem_exposedInputs {name : String} : name ∈ graph.exposedInputs.map Prod.fst ↔
    ∃ id, graph.input? name = some id ∧ graph.isExposed id = true := by
  unfold exposedInputs input?
  simp only [List.mem_map, List.mem_filter, Table.get?_eq_some_iff, Prod.exists, exists_and_right,
    exists_eq_right]

/-- A constant of a standard graph has one output socket. -/
theorem Standard.single_output (standard : graph.Standard) (id : Nat) (node : Node) (value : Float)
    (found : graph.node? id = some node) (op : node.op = .constant value) :
    node.outputs.length = 1 := by
  rw [(standard.layouts id node found).outputs (by rw [op]; exact nofun), op]
  rfl

/-- A standard graph stays so when a constant is folded. -/
theorem Standard.folds (standard : before.Standard) {target : Socket} {value : Float}
    (folds : before.Folds after target value) : after.Standard := by
  obtain ⟨receiver, here, -, node?⟩ := folds.node?
  refine ⟨folds.sound, fun id node found => ?_, fun id node port found op => ?_⟩
  · rw [node?] at found
    split at found
    · cases found
      exact (standard.layouts _ receiver here).setInputDefault _ _
    · exact standard.layouts id node found
  · unfold Graph.input?
    rw [folds.inputs]
    rw [node?] at found
    split at found
    · cases found
      obtain ⟨source, sender, linked, -⟩ := folds.fed
      have unlinked : before.source? target = none :=
        standard.source?_input here op target.place
      rw [unlinked] at linked
      cases linked
    · exact standard.listed id node port found op

/-- What folding constants and removing ports may make of a graph: a standard graph without a cycle
that serves for it whatever is given, and that asks for the inputs it still has if that one did. -/
structure Spares (shows : String → Bool) (before after : Graph) : Prop where
  standard : after.Standard
  acyclic : after.Acyclic
  serves : ∀ setting supplied, before.Serves setting supplied shows after
  asks : ∀ name, name ∈ after.exposedInputs.map Prod.fst ↔
    name ∈ before.exposedInputs.map Prod.fst ∧ (after.input? name).isSome = true

/-- A graph may be left as it is. -/
theorem Spares.refl (standard : graph.Standard) (acyclic : graph.Acyclic) :
    graph.Spares (fun _ => true) graph :=
  ⟨standard, acyclic, fun _ _ => .refl graph,
    fun _ => ⟨fun mem => ⟨mem, isSome_input?_of_exposed mem⟩, fun both => both.1⟩⟩

/-- What may be made of what may be made of a graph may be made of the graph. -/
theorem Spares.trans (early : before.Spares shows between) (late : between.Spares shows' after) :
    before.Spares (fun name => shows name && shows' name) after where
  standard := late.standard
  acyclic := late.acyclic
  serves setting supplied := (early.serves setting supplied).trans (late.serves setting supplied)
  asks name := by
    have listed := (late.serves (.outermost before .empty .standard) .empty).inputs name
    rw [late.asks, early.asks]
    exact ⟨fun ⟨⟨mem, _⟩, here⟩ => ⟨mem, here⟩, fun ⟨mem, here⟩ => ⟨⟨mem, listed here⟩, here⟩⟩

/-- What hides nothing more may be made of what may be made of a graph. -/
theorem Spares.next (early : before.Spares shows between)
    (late : between.Spares (fun _ => true) after) : before.Spares shows after := by
  have spares := early.trans late
  simpa only [Bool.and_true] using spares

/-- Folding a constant spares all outputs. -/
theorem Folds.spares (standard : before.Standard) (acyclic : before.Acyclic) {target : Socket}
    {value : Float} (folds : before.Folds after target value) :
    before.Spares (fun _ => true) after where
  standard := standard.folds folds
  acyclic := folds.acyclic acyclic
  serves _ _ := serves_of_folds standard.toSound standard.single_output folds
  asks name := by
    have input? (name : String) : after.input? name = before.input? name := by
      unfold Graph.input?
      rw [folds.inputs]
    have shown {id : Nat} (listed : before.input? name = some id) :
        after.isExposed id = before.isExposed id := by
      obtain ⟨node, port, found, -⟩ := standard.input?_spec listed
      obtain ⟨node', found', op⟩ := folds.op found
      simp [isExposed, found, found', op]
    rw [mem_exposedInputs, mem_exposedInputs, input?]
    constructor
    · rintro ⟨id, listed, exposed⟩
      exact ⟨⟨id, listed, shown listed ▸ exposed⟩, Option.isSome_iff_exists.2 ⟨id, listed⟩⟩
    · rintro ⟨⟨id, listed, exposed⟩, -⟩
      exact ⟨id, listed, (shown listed).trans exposed⟩

/-- Taking a port or a constant away that leads nowhere spares all outputs but this one. -/
theorem Removes.spares (standard : before.Standard) (acyclic : before.Acyclic) {id : Nat}
    {node : Node} (found : before.node? id = some node) (idle : before.Idle id)
    (removes : Removes before after id)
    (unshown : ∀ port, node.op = .output port → port.exposed = true → shows port.name = false)
    (shown : ∀ other node' port, id ≠ other → before.shownOutput? other = some (node', port) →
      shows port.name = true)
    (steady : node.op.isPort = true ∨ node.op.kind = .constant) : before.Spares shows after where
  standard := standard.removes removes
  acyclic := acyclic.removeNode removes
  serves setting supplied := serves_of_removes_unshown found idle removes unshown shown
    (exists_evalNode steady setting supplied id)
  asks name := by
    obtain ⟨-, -, input?⟩ := removes.stays idle
    have kept {other : Nat} (apart : other ≠ id) : after.isExposed other = before.isExposed other := by
      unfold isExposed
      rw [removes.node?, if_neg apart.symm]
    rw [mem_exposedInputs, mem_exposedInputs, Option.isSome_iff_exists]
    simp only [input?]
    constructor
    · rintro ⟨other, ⟨listed, apart⟩, exposed⟩
      exact ⟨⟨other, listed, kept apart ▸ exposed⟩, other, listed, apart⟩
    · rintro ⟨⟨other, listed, exposed⟩, other', listed', apart⟩
      rw [listed, Option.some.injEq] at listed'
      subst listed'
      exact ⟨other, ⟨listed, apart⟩, (kept apart).trans exposed⟩

/-- What spares outputs without removing inputs admits the same assignments. -/
theorem Spares.admits_iff (spares : before.Spares shows after)
    (input? : ∀ name, after.input? name = before.input? name) (setting : Setting)
    (supplied : Assignment) : Setting.Admits { setting with graph := before } supplied ↔
      Setting.Admits { setting with graph := after } supplied := by
  have asks (name : String) : name ∈ after.exposedInputs.map Prod.fst ↔
      name ∈ before.exposedInputs.map Prod.fst := by
    rw [spares.asks, input?]
    exact and_iff_left_of_imp isSome_input?_of_exposed
  constructor
  · rintro ⟨known, given⟩
    exact ⟨fun name here => (input? name).symm ▸ known name here,
      fun strict name mem => given strict name ((asks name).1 mem)⟩
  · rintro ⟨known, given⟩
    exact ⟨fun name here => input? name ▸ known name here,
      fun strict name mem => given strict name ((asks name).2 mem)⟩

end Graph

namespace Cleanup

open Shadeloom.Graph

variable {site : Site}

/-- Folding constants spares all outputs and lists the same inputs. -/
theorem foldConstants_spares (standard : site.graph.Standard) (acyclic : site.graph.Acyclic) :
    ∃ total graph, foldConstants site = .ok total { site with graph } ∧
      site.graph.Spares (fun _ => true) graph ∧
        ∀ name, graph.input? name = site.graph.input? name := by
  refine foldConstants_ok (fun _ spares => spares.1.standard.toSound)
    (fun before after target value ⟨spares, input?⟩ folds =>
      ⟨spares.next (folds.spares spares.standard spares.acyclic), fun name => ?_⟩)
    (fun before after id node value ⟨spares, input?⟩ found op idle removes =>
      ⟨spares.next (removes.spares spares.standard spares.acyclic found idle ?_ ?_ ?_),
        fun name => ?_⟩)
    site ⟨.refl standard acyclic, fun _ => rfl⟩
  · rw [← input?]
    unfold Graph.input?
    rw [folds.inputs]
  · intro port op'
    rw [op] at op'
    cases op'
  · exact fun _ _ _ _ _ => rfl
  · exact .inr (by rw [op]; rfl)
  · rw [← input?]
    refine Option.ext fun other => ((removes.stays idle).2.2 name other).trans
      (and_iff_left_of_imp ?_)
    rintro listed rfl
    obtain ⟨node', port, found', op', -⟩ := spares.standard.input?_spec listed
    rw [found, Option.some.injEq] at found'
    rw [← found', op] at op'
    cases op'

/-- Removing unused inputs spares all outputs and links. -/
theorem removeUnusedInputs_spares (standard : site.graph.Standard) (acyclic : site.graph.Acyclic) :
    ∃ total graph, removeUnusedInputs site = .ok total { site with graph } ∧
      site.graph.Spares (fun _ => true) graph ∧
        ∀ target, graph.source? target = site.graph.source? target := by
  refine removeUnusedInputs_ok (fun _ spares => spares.1.standard.toSound)
    (fun before after id node port ⟨spares, source?⟩ found op idle removes =>
      ⟨spares.next (removes.spares spares.standard spares.acyclic found idle ?_ ?_ ?_),
        fun target => ?_⟩)
    site ⟨.refl standard acyclic, fun _ => rfl⟩
  · intro port' op'
    rw [op] at op'
    cases op'
  · exact fun _ _ _ _ _ => rfl
  · exact .inl (by rw [op]; rfl)
  · rw [← source?]
    exact removes.source?_of_idle idle (spares.standard.source?_input found op) target

/-- Removing unused outputs spares the others and all links. -/
theorem removeUnusedOutputs_spares (standard : site.graph.Standard) (acyclic : site.graph.Acyclic)
    (apart : site.graph.OutputsApart) :
    ∃ total graph, removeUnusedOutputs site = .ok total { site with graph } ∧
      (∃ shows, site.graph.Spares shows graph) ∧
        ∀ target, graph.source? target = site.graph.source? target := by
  refine removeUnusedOutputs_ok (fun _ spares => spares.1.choose_spec.standard.toSound)
    (fun before after id node port ⟨⟨shows, spares⟩, source?⟩ found op unfed removes => ?_)
    site ⟨⟨_, .refl standard acyclic⟩, fun _ => rfl⟩
  have idle : before.Idle id := spares.standard.shaped.idle_output found (by rw [op]; rfl)
  have distinct :=
    (spares.serves (.outermost site.graph .empty .standard) .empty).outputsApart apart
  -- An output that is hidden may have the name of one that is shown, and does not hide that one.
  have later : before.Spares (fun name => !(port.exposed && decide (name = port.name))) after := by
    refine removes.spares spares.standard spares.acyclic found idle ?_ ?_ ?_
    · intro port' op' exposed
      rw [op, NodeOp.output.injEq] at op'
      simp [op', exposed]
    · intro other node' port' away shown
      by_contra hidden
      simp only [Bool.not_eq_true', Bool.not_eq_false, Bool.and_eq_true, decide_eq_true_eq] at hidden
      exact away (distinct id other _ _ (shownOutput?_eq_some_iff.2 ⟨found, op, hidden.1⟩) shown
        hidden.2.symm)
    · exact .inl (by rw [op]; rfl)
  refine ⟨⟨_, spares.trans later⟩, fun target => ?_⟩
  rw [← source?]
  exact removes.source?_of_idle idle unfed target

/-- Folding constants is never refused, and a graph evaluates as before after it. Removing unused
inputs and outputs is never refused and touches no link, and after it a graph evaluates, from the
values for the inputs that are left, to the values that the outputs that are left had. Where inputs
have to be given, all those that are shown before are taken to be. -/
theorem evaluate_folded_and_removed {graph : Graph} (standard : graph.Standard)
    (acyclic : graph.Acyclic) (apart : graph.OutputsApart) (library : Library) :
    (∃ total after, foldConstants ⟨graph, library⟩ = .ok total ⟨after, library⟩ ∧
      ∀ config supplied, Concur Assignment.Equal (evaluate graph library config supplied)
        (evaluate after library config supplied)) ∧
    ∃ unread between unfed after,
      removeUnusedInputs ⟨graph, library⟩ = .ok unread ⟨between, library⟩ ∧
      removeUnusedOutputs ⟨between, library⟩ = .ok unfed ⟨after, library⟩ ∧
      (∀ target, after.source? target = graph.source? target) ∧
      ∀ config supplied,
        (∀ name, supplied.contains name = true → (graph.input? name).isSome = true) →
        (config.requireInputs = true →
          ∀ name ∈ graph.exposedInputs.map Prod.fst, supplied.contains name = true) →
        Concur (fun outputs outputs' => ∀ name,
            (outputs'.contains name = true ↔ name ∈ after.shownNames) ∧
              (name ∈ after.shownNames → outputs'.get? name = outputs.get? name))
          (evaluate graph library config supplied)
          (evaluate after library config (after.accepted supplied)) := by
  constructor
  · obtain ⟨total, after, done, spares, input?⟩ :=
      @foldConstants_spares ⟨graph, library⟩ standard acyclic
    refine ⟨total, after, done, fun config supplied => ?_⟩
    have concur := (spares.serves (.outermost graph library config) supplied).concur_of_admits
      standard.toSound acyclic spares.standard.toSound spares.acyclic apart
      (spares.admits_iff input? _ supplied) (fun _ => .rfl) fun _ => .rfl
    exact concur.mono fun outputs outputs' same name => by rw [same, filter_true]
  · obtain ⟨unread, between, first, spares, source?⟩ :=
      @removeUnusedInputs_spares ⟨graph, library⟩ standard acyclic
    have distinct :=
      (spares.serves (.outermost graph library .standard) .empty).outputsApart apart
    obtain ⟨unfed, after, second, ⟨shows, spares'⟩, source?'⟩ :=
      @removeUnusedOutputs_spares ⟨between, library⟩ spares.standard spares.acyclic distinct
    have both := spares.trans spares'
    refine ⟨unread, between, unfed, after, first, second,
      fun target => (source?' target).trans (source? target), fun config supplied known given => ?_⟩
    have admits : Setting.Admits (.outermost graph library config) supplied := ⟨known, given⟩
    have admits' : Setting.Admits { Setting.outermost graph library config with graph := after }
        (after.accepted supplied) :=
      admits_accepted fun strict name mem => given strict name ((both.asks name).1 mem).1
    have concur := (both.serves (.outermost graph library config) supplied).concur_of_admits
      standard.toSound acyclic both.standard.toSound both.acyclic apart (iff_of_true admits admits')
      (fun _ => .rfl) fun _ => valued_accepted both.standard.listed
    have reported (outputs' : Assignment)
        (done : evaluate after library config (after.accepted supplied) = .ok outputs')
        (name : String) : outputs'.contains name = true ↔ name ∈ after.shownNames := by
      obtain ⟨ids, valuation, -, order, -, rfl⟩ :=
        Setting.evaluate_reports both.standard.toSound both.acyclic done
      rw [Table.contains_iff_mem, mem_keys_reportAll order]
      rfl
    refine (concur.and reported).mono fun outputs outputs' ⟨same, names⟩ name =>
      ⟨names name, fun shown => ?_⟩
    have here := (names name).2 shown
    rw [← Table.isSome_get?, Option.isSome_iff_exists] at here
    obtain ⟨value, here⟩ := here
    have there := same name
    rw [here, eq_comm, Option.filter_eq_some_iff] at there
    rw [here, there.1]

end Cleanup

/-- A product with a constant that is shown as well, an input that is not read and an output that is
not fed. -/
def Graph.tripled : Graph :=
  Edit.made "root" [.addInput "x" .scalar, .addInput "spare" .scalar, .addNode (.constant 3) rfl,
    .addNode (.math .multiply) rfl, .addOutput "y" .scalar, .addOutput "factor" .vector,
    .addOutput "unfed" .vector, .connect ⟨0, 0⟩ ⟨3, 0⟩, .connect ⟨2, 0⟩ ⟨3, 1⟩,
    .connect ⟨3, 0⟩ ⟨4, 0⟩, .connect ⟨2, 0⟩ ⟨5, 0⟩]

/-- Values for both inputs of the product. -/
def Assignment.ofTripled : Assignment :=
  .ofList [("x", .scalar 2.0), ("spare", .scalar 1.0)]

/-- The product is what it was when its constant is folded, and with the constant when the input and
the output that are not used are removed. -/
theorem Cleanup.evaluate_folded_and_removed_tripled :
    evaluate Graph.tripled .empty .standard .ofTripled =
        .ok (.ofList [("unfed", .vector ⟨0.0, 0.0, 0.0⟩), ("factor", .vector ⟨3.0, 3.0, 3.0⟩),
          ("y", .scalar 6.0)]) ∧
      (∃ total after, foldConstants ⟨Graph.tripled, .empty⟩ = .ok total ⟨after, .empty⟩ ∧
        Concur Assignment.Equal (evaluate Graph.tripled .empty .standard .ofTripled)
          (evaluate after .empty .standard .ofTripled)) ∧
      ∃ unread between unfed after,
        removeUnusedInputs ⟨Graph.tripled, .empty⟩ = .ok unread ⟨between, .empty⟩ ∧
        removeUnusedOutputs ⟨between, .empty⟩ = .ok unfed ⟨after, .empty⟩ ∧
        Concur (fun outputs outputs' => ∀ name,
            (outputs'.contains name = true ↔ name ∈ after.shownNames) ∧
              (name ∈ after.shownNames → outputs'.get? name = outputs.get? name))
          (evaluate Graph.tripled .empty .standard .ofTripled)
          (evaluate after .empty .standard (after.accepted .ofTripled)) := by
  have standard : Graph.tripled.Standard := Edit.made_standard _ _
  have acyclic : Graph.tripled.Acyclic := standard.acyclic_of_ascending (by decide +kernel)
  have apart : Graph.tripled.OutputsApart := Graph.nodup_shownNames_iff.1 (by decide +kernel)
  obtain ⟨⟨total, folded, done, same⟩, unread, between, unfed, after, first, second, -, left⟩ :=
    evaluate_folded_and_removed standard acyclic apart .empty
  refine ⟨by decide +kernel, ⟨total, folded, done, same _ _⟩, unread, between, unfed, after, first,
    second, left _ _ (fun name here => ?_) nofun⟩
  have listed : ∀ name ∈ Assignment.ofTripled.keys, (Graph.tripled.input? name).isSome = true := by
    decide +kernel
  exact listed name (Table.contains_iff_mem.1 here)

end Shadeloom
