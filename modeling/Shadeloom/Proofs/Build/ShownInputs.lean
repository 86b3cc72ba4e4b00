import Mathlib
import Shadeloom.Proofs.Build.BlockStructure
import Shadeloom.Proofs.Build.InputNames
import Shadeloom.Proofs.Build.Redirecting
import Shadeloom.Proofs.Build.Settling
/-!
# The inputs that a cleanup leaves

A cleanup takes away the inputs that nothing reads, those that an output of their name defines
included, hides those that are not to be shown and may put the others in order. It adds none and
changes none of their names. So the inputs that are shown in the end follow from the inputs of a
scope, from the names that are read in it and from the outputs that it gives.
-/
namespace Shadeloom

namespace Graph

variable {before after graph last : Graph} {inputs : Table String Nat} {shown : String → Bool}

/-- After the readers of an input have been linked to the source of an output, the input feeds
nothing, and any other input feeds something if it did. -/
theorem Relinks.idle_iff {source : Socket} {output input id : Nat} {name name' : String}
    (relinks : before.Relinks after ⟨input, 0⟩ source) (sound : before.Sound)
    (free : ¬ before.Entangled ⟨input, 0⟩ source)
    (linked : before.source? ⟨output, 0⟩ = some source)
    (listed : before.input? name = some id) (listed' : before.input? name' = some input) :
    after.Idle id ↔ before.Idle id ∨ name = name' := by
  by_cases same : name = name'
  · subst same
    cases listed.symm.trans listed'
    refine iff_of_true (fun target socket there leaves => ?_) (.inr rfl)
    rw [relinks.source?] at there
    split at there
    · cases there
      exact free (.inl leaves)
    · rename_i other
      exact other (there.trans (congrArg some (sound.eq_of_reads_input listed there leaves)))
  · have apart : id ≠ input := fun equal => same (sound.name_of_input? listed (equal ▸ listed'))
    simp only [same, or_false]
    constructor
    · intro idle target socket there leaves
      refine idle target socket ?_ leaves
      rw [relinks.source?, if_neg]
      · exact there
      · rw [there, Option.some.injEq]
        rintro rfl
        exact apart leaves.symm
    · intro idle target socket there leaves
      rw [relinks.source?] at there
      split at there
      · cases there
        exact idle _ source linked leaves
      · exact idle target socket there leaves

/-- Once outputs that are all fed are relinked, an input feeds nothing if it fed nothing or if one of
the outputs has its name. -/
theorem RelinksAll.idle_iff {outputs : List Nat} (run : graph.RelinksAll outputs last)
    (sound : graph.Sound) (fed : ∀ output ∈ outputs, ∃ source, graph.source? ⟨output, 0⟩ = some source)
    {name : String} {id : Nat} (listed : graph.input? name = some id) :
    last.Idle id ↔
      graph.Idle id ∨ ∃ output ∈ outputs, Cleanup.portName? graph output = some name := by
  induction run with
  | nil graph => simp
  | @cons first second last output rest step run ih =>
    obtain ⟨source, linked⟩ := fed output List.mem_cons_self
    cases step with
    | @linked input source' _ relinkable free relinks =>
      obtain ⟨name', input, named, listed', rfl, linked', -⟩ := relinkable
      have kept (output : Nat) : Cleanup.portName? second output = Cleanup.portName? first output := by
        unfold Cleanup.portName?
        rw [relinks.node?]
      rw [ih relinks.sound (fun other mem => ?_) (by rw [input?, relinks.inputs]; exact listed),
        relinks.idle_iff sound free linked' listed listed', List.exists_mem_cons_iff, named,
        Option.some.injEq, or_assoc, eq_comm (a := name)]
      · simp only [kept]
      · obtain ⟨feeder, there⟩ := fed other (List.mem_cons_of_mem _ mem)
        rw [relinks.source?, there]
        split
        · exact ⟨_, rfl⟩
        · exact ⟨_, rfl⟩
    | left nothing =>
      rw [ih sound (fun other mem => fed other (List.mem_cons_of_mem _ mem)) listed,
        List.exists_mem_cons_iff]
      constructor
      · exact fun either => either.imp_right .inr
      · rintro (idle | named | other)
        · exact .inl idle
        · -- An output of the name of an input that feeds something would be relinked.
          refine .inl fun target socket there leaves => ?_
          obtain rfl := sound.eq_of_reads_input listed there leaves
          exact nothing _ source ⟨name, id, named, listed, rfl, linked, target, there⟩
        · exact .inr other

/-- The names of outputs are those of the named outputs. -/
theorem mem_map_namedOutputs (sound : graph.Sound) {name : String} :
    (∃ output ∈ graph.outputs, Cleanup.portName? graph output = some name) ↔
      name ∈ graph.namedOutputs.map Prod.fst := by
  have named (id : Nat) (mem : id ∈ graph.outputs) : Cleanup.portName? graph id =
      ((graph.node? id).bind fun node => node.op.namedOutput?).map Prod.fst := by
    obtain ⟨node, port, found, op⟩ := sound.outputNamed id mem
    simp [Cleanup.portName?, found, op, NodeOp.portName?, NodeOp.namedOutput?]
  unfold namedOutputs
  rw [List.map_filterMap, List.mem_filterMap]
  exact exists_congr fun id => and_congr_right fun mem => by rw [named id mem]

/-- Taking a node away that is no input leaves the list of inputs. -/
theorem Removes.inputs_eq {id : Nat} (removes : before.Removes after id) (sound : before.Sound)
    {node : Node} (found : before.node? id = some node) (other : ∀ port, node.op ≠ .input port) :
    after.inputs = before.inputs := by
  rw [removes.inputs]
  refine Table.ext (List.filter_eq_self.2 fun entry mem => decide_eq_true fun same => ?_)
  obtain ⟨node', port, found', op, -⟩ := sound.inputNamed entry mem
  rw [same, found, Option.some.injEq] at found'
  exact other port (found' ▸ op)

/-- Where an input goes that fed nothing, no other node loses what it feeds. -/
theorem Removes.idle {id other : Nat} (removes : before.Removes after id) (sound : before.Sound)
    {node : Node} {port : InputPort} (found : before.node? id = some node) (op : node.op = .input port)
    (quiet : before.Idle id) (idle : after.Idle other) : before.Idle other := by
  intro target source linked leaves
  refine idle target source ?_ leaves
  rw [removes.source?, if_neg, linked, Option.filter_some_eq_some]
  · exact decide_eq_true (quiet target source linked)
  · intro same
    obtain ⟨entered, place⟩ := target
    obtain rfl : entered = id := same
    cases linked.symm.trans (sound.source?_input found op place)

/-- Whether a graph has certain inputs, and those of some names are shown. -/
structure Shows (inputs : Table String Nat) (shown : String → Bool) (graph : Graph) : Prop where
  sound : graph.Sound
  inputs : graph.inputs = inputs
  exposed : ∀ entry ∈ graph.inputs.entries, graph.isExposed entry.2 = shown entry.1

/-- The inputs that are shown are those of the names. -/
theorem Shows.map_exposedInputs (shows : graph.Shows inputs shown) :
    graph.exposedInputs.map Prod.fst = inputs.keys.filter shown := by
  unfold exposedInputs Table.keys
  rw [List.filter_map, ← shows.inputs]
  exact congrArg _ (List.filter_congr fun entry mem => shows.exposed entry mem)

/-- A graph with the same inputs shows the same ones when these are as exposed as they were. -/
theorem Shows.of_nodes (shows : before.Shows inputs shown) (sound : after.Sound)
    (same : after.inputs = before.inputs)
    (nodes : ∀ id old port, before.node? id = some old → old.op = .input port →
      ∃ new, after.node? id = some new ∧ new.op.isExposed = old.op.isExposed) :
    after.Shows inputs shown where
  sound := sound
  inputs := same.trans shows.inputs
  exposed entry mem := by
    rw [same] at mem
    obtain ⟨old, port, found, op, -⟩ := shows.sound.inputNamed entry mem
    obtain ⟨new, found', exposed⟩ := nodes entry.2 old port found op
    rw [← shows.exposed entry mem]
    simp [isExposed, found, found', exposed]

/-- A graph with its inputs in another order shows the same ones. -/
theorem Shows.sortInputs (shows : graph.Shows inputs shown) (le : String → String → Bool) :
    (graph.sortInputs le).Shows (inputs.sortBy le) shown where
  sound := shows.sound.sortInputs le
  inputs := congrArg (Table.sortBy · le) shows.inputs
  exposed entry mem := shows.exposed entry ((List.mergeSort_perm _ _).mem_iff.1 mem)

end Graph

namespace Cleanup

variable {site after : Site} {inputs : Table String Nat} {shown : String → Bool} {total : Nat}

/-- The inputs that are shown after a cleanup, among those that there are: unless everything is kept
they are read and no output has their name, they are not hidden, and they may be put in order. -/
def shownInputs (options : BuildOptions) (declared inputs read given : List String) : List String :=
  let left :=
    if options.pruneUnused then
      inputs.filter fun name => read.contains name && !given.contains name
    else inputs
  let ordered := if options.resequenceInputs then left.mergeSort shortNamesFirst else left
  ordered.filter fun name => !isHidden declared name

section

variable (shows : site.graph.Shows inputs shown)
include shows

/-- Relinking leaves the inputs that are shown. -/
theorem shows_relinkOutputs (done : relinkOutputs site = .ok total after) :
    after.graph.Shows inputs shown ∧ after.library = site.library :=
  @relinkOutputs_keeps (Graph.Shows inputs shown) (fun _ shows => shows.sound)
    (fun _ _ _ _ shows relinks _ => shows.of_nodes relinks.sound relinks.inputs
      fun id old _ found _ => ⟨old, (relinks.node? id).trans found, rfl⟩) _ _ _ shows done

/-- The inputs that feed nothing go, and no others. -/
theorem shows_removeUnusedInputs {used : String → Bool}
    (uses : ∀ name id, site.graph.input? name = some id → (used name = true ↔ ¬ site.graph.Idle id))
    (done : removeUnusedInputs site = .ok total after) :
    after.library = site.library ∧
      ∃ left, after.graph.Shows left shown ∧ left.keys = inputs.keys.filter used := by
  obtain ⟨library, prunes, isRead⟩ := removeUnusedInputs_spec shows.sound done
  obtain ⟨_, graph, done', kept, quiet, gone, idle, left⟩ := @removeUnusedInputs_ok
    (fun now => now.Shows now.inputs shown ∧ (∀ id, now.Idle id → site.graph.Idle id) ∧
      ∃ gone : List Nat, (∀ id ∈ gone, site.graph.Idle id) ∧
        now.inputs.entries = inputs.entries.filter fun entry => entry.2 ∉ gone)
    (fun _ holds => holds.1.sound)
    (fun before now id node port ⟨kept, quiet, gone, idle, left⟩ found op here removes => by
      refine ⟨⟨removes.sound, rfl, fun entry mem => ?_⟩,
        fun other idle' => quiet other (removes.idle kept.sound found op here idle'), id :: gone,
        List.forall_mem_cons.2 ⟨quiet id here, idle⟩, ?_⟩
      · rw [removes.inputs] at mem
        obtain ⟨mem, apart⟩ := List.mem_filter.1 mem
        rw [← kept.exposed entry mem, Graph.isExposed, Graph.isExposed, removes.node?,
          if_neg fun same => of_decide_eq_true apart same.symm]
      · rw [removes.inputs]
        show before.inputs.entries.filter _ = _
        rw [left, List.filter_filter]
        refine List.filter_congr fun entry _ => ?_
        simp)
    site ⟨⟨shows.sound, rfl, fun entry mem => shows.exposed entry mem⟩, fun _ idle => idle, [],
      List.forall_mem_nil _, by rw [shows.inputs]; simp⟩
  cases done.symm.trans done'
  refine ⟨rfl, graph.inputs, kept, ?_⟩
  unfold Table.keys
  rw [left, List.filter_map]
  refine congrArg _ (List.filter_congr fun entry mem => ?_)
  have listed : site.graph.input? entry.1 = some entry.2 :=
    Table.get?_eq_some_iff.2 (shows.inputs ▸ mem)
  rw [Bool.eq_iff_iff, decide_eq_true_eq, Function.comp_apply, uses entry.1 entry.2 listed]
  constructor
  · intro stays quiet
    have there : graph.input? entry.1 = some entry.2 := by
      refine Table.get?_eq_some_iff.2 ?_
      rw [left]
      exact List.mem_filter.2 ⟨mem, decide_eq_true stays⟩
    exact isRead entry.1 entry.2 there fun target source linked =>
      quiet target source (prunes.kept target source linked)
  · exact fun busy goes => busy (idle entry.2 goes)

/-- Taking outputs away leaves the inputs that are shown. -/
theorem shows_removeUnusedOutputs (done : removeUnusedOutputs site = .ok total after) :
    after.graph.Shows inputs shown ∧ after.library = site.library := by
  obtain ⟨_, graph, done', final⟩ := @removeUnusedOutputs_ok (Graph.Shows inputs shown)
    (fun _ shows => shows.sound)
    (fun _ _ _ _ _ shows found output _ removes => by
      refine shows.of_nodes removes.sound
        (removes.inputs_eq shows.sound found fun _ input => by cases output.symm.trans input)
        fun id old _ found' input => ⟨old, ?_, rfl⟩
      rw [removes.node?, if_neg, found']
      rintro rfl
      cases found.symm.trans found'
      cases output.symm.trans input) site shows
  cases done.symm.trans done'
  exact ⟨final, rfl⟩

/-- Merging inputs of definitions leaves the inputs that are shown. -/
theorem shows_mergeDuplicateInputs
    (definitions : ∀ name definition, site.library.get? name = some definition → definition.Sound)
    (done : mergeDuplicateInputs site = .ok total after) : after.graph.Shows inputs shown := by
  refine mergeDuplicateInputs_carries (fun now => now.graph.Shows inputs shown)
    (fun now later shows step => ?_) shows.sound definitions done shows
  obtain ⟨id, group, places, node, definition, merged, step⟩ := step
  obtain ⟨receiver, here, node?⟩ := step.removes.node?
  refine shows.of_nodes step.removes.sound step.removes.inputs fun other old _ found _ => ?_
  rw [node?]
  split
  · rename_i same
    rw [← same, here, Option.some.injEq] at found
    exact ⟨_, rfl, by rw [← found]⟩
  · exact ⟨old, found, rfl⟩

/-- Folding constants leaves the inputs that are shown. -/
theorem shows_foldConstants (done : foldConstants site = .ok total after) :
    after.graph.Shows inputs shown := by
  obtain ⟨_, graph, done', final⟩ := @foldConstants_ok (Graph.Shows inputs shown)
    (fun _ shows => shows.sound)
    (fun _ _ _ _ shows folds => shows.of_nodes folds.sound folds.inputs fun _ _ _ found _ => by
      obtain ⟨new, found', op⟩ := folds.op found
      exact ⟨new, found', by rw [op]⟩)
    (fun _ _ _ _ _ shows found constant _ removes => by
      refine shows.of_nodes removes.sound
        (removes.inputs_eq shows.sound found fun _ input => by cases constant.symm.trans input)
        fun id old _ found' input => ⟨old, ?_, rfl⟩
      rw [removes.node?, if_neg, found']
      rintro rfl
      cases found.symm.trans found'
      cases constant.symm.trans input) site shows
  cases done.symm.trans done'
  exact final

/-- Setting defaults leaves the inputs that are shown. -/
theorem shows_applyDefaults {defaults : Table String Float}
    (done : applyDefaults defaults site = .ok () after) : after.graph.Shows inputs shown := by
  obtain ⟨graph, done', final⟩ := @applyDefaults_ok (Graph.Shows inputs shown)
    (fun _ shows => shows.sound)
    (fun graph id old new value shows found changed => by
      have fits := Node.replaces_setPortDefault (shows.sound.inputShaped id old · found) changed
      refine shows.of_nodes (shows.sound.setNode found fits) rfl fun other node _ here _ => ?_
      rw [Graph.node?_setNode found]
      split
      · rename_i same
        rw [← same, found, Option.some.injEq] at here
        refine ⟨new, rfl, ?_⟩
        unfold Node.setPortDefault? at changed
        split at changed
        · rename_i port op
          cases changed
          rw [← here, op]
          rfl
        · cases changed
      · exact ⟨node, here, rfl⟩) defaults site shows
  cases done.symm.trans done'
  exact final

end

/-- Where all inputs are shown, hiding ports leaves those that are not to be hidden. -/
theorem shows_hidePorts {declarations : Declarations}
    (shows : site.graph.Shows inputs fun _ => true)
    (done : hidePorts declarations site = .ok total after) :
    after.graph.Shows inputs (fun name => !isHidden declarations.inputs name) ∧
      after.library = site.library := by
  obtain ⟨_, graph, done', hides⟩ := hidePorts_ok shows.sound declarations
  cases done.symm.trans done'
  refine ⟨⟨hides.sound, hides.inputs.trans shows.inputs, fun entry mem => ?_⟩, rfl⟩
  rw [hides.inputs] at mem
  obtain ⟨node, port, found, op, named⟩ := shows.sound.inputNamed entry mem
  have exposed : node.op.isExposed = true := by
    have here := shows.exposed entry mem
    simpa [Graph.isExposed, found] using here
  have listed : entry.2 ∈ portsToHide declarations site.graph ↔
      isHidden declarations.inputs entry.1 = true := by
    unfold portsToHide
    rw [List.mem_append]
    constructor
    · rintro (input | output)
      · obtain ⟨other, mem', same⟩ := List.mem_map.1 input
        obtain ⟨mem', hidden⟩ := List.mem_filter.1 mem'
        have equal := shows.sound.name_of_input? (Table.get?_eq_some_iff.2 mem)
          (Table.get?_eq_some_iff.2 (same ▸ mem' : (other.1, entry.2) ∈ site.graph.inputs.entries))
        rwa [equal]
      · exact absurd (List.mem_filter.1 output).1
          (shows.sound.not_mem_outputs found fun _ output => by cases op.symm.trans output)
    · exact fun hidden => .inl (List.mem_map.2 ⟨entry, List.mem_filter.2 ⟨mem, hidden⟩, rfl⟩)
  rw [Graph.isExposed, hides.node?, found, Option.map_some, Option.any_some]
  by_cases hidden : isHidden declarations.inputs entry.1 = true
  · rw [if_pos (listed.2 hidden), Node.isExposed_hidden, hidden]
    rfl
  · rw [if_neg fun mem => hidden (listed.1 mem), exposed, Bool.eq_false_iff.2 hidden]
    rfl

/-- Where all inputs of a graph are shown and feed something exactly if their names are read, and all
outputs are fed, a cleanup leaves the inputs shown that follow from these names. -/
theorem all_shows {declarations : Declarations} {options : BuildOptions} {report : CleanupReport}
    {read : List String} {outputs : List NamedOutput} (runs : site.Runs)
    (fulfils : site.graph.Fulfils outputs)
    (exposed : site.graph.InputsMeet fun port => port.exposed = true)
    (reads : ∀ name id, site.graph.input? name = some id → (site.graph.Idle id ↔ name ∉ read))
    (done : all declarations options site = .ok report after) :
    after.graph.exposedInputs.map Prod.fst = shownInputs options declarations.inputs
      site.graph.inputs.keys read (outputs.map Prod.fst) := by
  rw [all_eq] at done
  obtain ⟨_, relinked, relinks, done⟩ := bind_eq_ok_iff.1 done
  obtain ⟨_, read', pruned, done⟩ := bind_eq_ok_iff.1 done
  obtain ⟨_, fed, unfed, done⟩ := bind_eq_ok_iff.1 done
  obtain ⟨_, hidden, hides, done⟩ := bind_eq_ok_iff.1 done
  obtain ⟨_, merged, merges, done⟩ := bind_eq_ok_iff.1 done
  obtain ⟨_, folded, folds, done⟩ := bind_eq_ok_iff.1 done
  obtain ⟨_, set, sets, done⟩ := bind_eq_ok_iff.1 done
  obtain ⟨_, ordered, orders, done⟩ := bind_eq_ok_iff.1 done
  cases done
  cases (orderInputs_eq options.resequenceInputs set).symm.trans orders
  have sound := runs.graph.sound
  have start : site.graph.Shows site.graph.inputs fun _ => true := by
    refine ⟨sound, rfl, fun entry mem => ?_⟩
    obtain ⟨node, port, found, op, -⟩ := sound.inputNamed entry mem
    have here := exposed entry.2 node port found op
    simp [Graph.isExposed, found, op, NodeOp.isExposed, here]
  obtain ⟨first, library⟩ := shows_relinkOutputs start relinks
  obtain ⟨graph, same, run⟩ := relinksAll_of_ok sound relinks
  -- After relinking the inputs of which outputs have the names feed nothing either.
  have uses (name : String) (id : Nat) (listed : relinked.graph.input? name = some id) :
      (read.contains name && !(outputs.map Prod.fst).contains name) = true ↔
        ¬ relinked.graph.Idle id := by
    have listed' : site.graph.input? name = some id := by
      rwa [Graph.input?, first.inputs] at listed
    rw [show relinked.graph = graph by rw [same],
      run.idle_iff sound fulfils.fed listed', Graph.mem_map_namedOutputs sound, fulfils.named,
      reads name id listed']
    simp
  obtain ⟨left, second, library', keys⟩ : ∃ left, read'.graph.Shows left (fun _ => true) ∧
      read'.library = site.library ∧ left.keys = if options.pruneUnused then
        site.graph.inputs.keys.filter fun name =>
          read.contains name && !(outputs.map Prod.fst).contains name
        else site.graph.inputs.keys := by
    cases chosen : options.pruneUnused with
    | false =>
      rw [chosen] at pruned
      cases pruned
      exact ⟨_, first, library, rfl⟩
    | true =>
      rw [chosen] at pruned
      obtain ⟨library', left, shows, keys⟩ := shows_removeUnusedInputs first uses pruned
      exact ⟨left, shows, library'.trans library, keys⟩
  have third : fed.graph.Shows left (fun _ => true) ∧ fed.library = site.library := by
    rcases ifChosen_eq_ok unfed with removed | rfl
    · obtain ⟨shows, library''⟩ := shows_removeUnusedOutputs second removed
      exact ⟨shows, library''.trans library'⟩
    · exact ⟨second, library'⟩
  obtain ⟨fourth, library''⟩ := shows_hidePorts third.1 hides
  have fifth := shows_mergeDuplicateInputs fourth (fun name definition found =>
    (runs.library name definition (library''.trans third.2 ▸ found)).2.sound) merges
  have sixth : folded.graph.Shows left fun name => !isHidden declarations.inputs name := by
    rcases ifChosen_eq_ok folds with folds | rfl
    · exact shows_foldConstants fifth folds
    · exact fifth
  have seventh := shows_applyDefaults sixth sets
  unfold shownInputs
  rw [← keys]
  dsimp only
  split
  · rw [(seventh.sortInputs shortNamesFirst).map_exposedInputs]
    refine congrArg (List.filter _) ?_
    exact List.map_mergeSort fun _ _ _ _ => rfl
  · exact seventh.map_exposedInputs

end Cleanup

namespace Graph

variable {before after : Graph}

/-- A definition shows no other inputs, and in no other order, when one of them is merged into
another one. -/
theorem MergesInput.sublist_exposedInputs {kept dropped : Nat}
    (merges : before.MergesInput after kept dropped) :
    after.exposedInputs.Sublist before.exposedInputs := by
  obtain ⟨between, relinks, removes⟩ := merges.edits
  have listed : after.inputs.entries.Sublist before.inputs.entries := by
    rw [removes.inputs, relinks.inputs]
    exact List.filter_sublist
  have exposed : ∀ entry ∈ after.inputs.entries,
      after.isExposed entry.2 = before.isExposed entry.2 := fun entry mem => by
    rw [removes.inputs] at mem
    have apart : ¬ dropped = entry.2 :=
      fun same => of_decide_eq_true (List.mem_filter.1 mem).2 same.symm
    rw [isExposed, isExposed, removes.node?, if_neg apart, relinks.node?]
  show (after.inputs.entries.filter _).Sublist (before.inputs.entries.filter _)
  rw [List.filter_congr exposed]
  exact listed.filter _

/-- A definition shows no other inputs, and in no other order, while inputs of it are merged. -/
theorem MergesInputs.sublist_exposedInputs (merges : before.MergesInputs after) :
    after.exposedInputs.Sublist before.exposedInputs := by
  induction merges with
  | refl => exact .refl _
  | tail _ last ih =>
    obtain ⟨kept, dropped, last⟩ := last
    exact last.sublist_exposedInputs.trans ih

end Graph

end Shadeloom
