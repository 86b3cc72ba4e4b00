import Mathlib
import Shadeloom.Proofs.Build.BlockStructure
import Shadeloom.Proofs.Build.Noting
import Shadeloom.Proofs.Build.Repeating
/-!
# Defaults of inputs

The inputs of a graph that is being built have no defaults but zero. The defaults of a scope are set
when it is closed: each input gets the last number that was noted for its name.
-/
namespace Shadeloom

open Shadeloom.Expr

/-- Whether an input has no default but zero. -/
def InputPort.IsUnset (port : InputPort) : Prop :=
  port.default = .zero port.type

/-- Whether new inputs meet a condition, and inputs that meet it still do when they are made
vectors. -/
structure InputPort.Lasts (meets : InputPort → Prop) : Prop where
  new : ∀ name type, meets ⟨name, type, .zero type, true⟩
  wider : ∀ port, meets port →
    meets { port with type := .vector, default := port.default.convert .vector }

/-- New inputs have no default but zero, and zero is zero in every component. -/
theorem InputPort.lasts_isUnset : Lasts IsUnset where
  new _ _ := rfl
  wider port unset := by
    show port.default.convert .vector = _
    rw [unset]
    cases port.type <;> rfl

namespace Graph

variable {before after : Graph} {meets : InputPort → Prop}

/-- Whether all inputs of a graph meet a condition. -/
def InputsMeet (meets : InputPort → Prop) (graph : Graph) : Prop :=
  ∀ id node port, graph.node? id = some node → node.op = .input port → meets port

/-- Whether a graph is sound and none of its inputs has a default but zero. -/
def Unset (graph : Graph) : Prop :=
  graph.Sound ∧ graph.InputsMeet InputPort.IsUnset

/-- An empty graph has no inputs. -/
theorem inputsMeet_empty (name : String) : (empty name).InputsMeet meets := by
  intro id node port found
  simp [empty, node?, Slots.empty, Slots.get?] at found

/-- The inputs of a graph meet a condition when each of them comes from one that does. -/
theorem InputsMeet.of_nodes (inputs : before.InputsMeet meets)
    (nodes : ∀ id node port, after.node? id = some node → node.op = .input port →
      (∃ old port', before.node? id = some old ∧ old.op = .input port' ∧ (meets port' → meets port)) ∨
        meets port) : after.InputsMeet meets := by
  intro id node port found input
  rcases nodes id node port found input with ⟨old, port', found', input', keeps⟩ | met
  · exact keeps (inputs id old port' found' input')
  · exact met

/-- Inputs of a graph with the same nodes meet the same conditions. -/
theorem InputsMeet.of_same (inputs : before.InputsMeet meets)
    (same : ∀ id, after.node? id = before.node? id) : after.InputsMeet meets :=
  fun id node port found => inputs id node port (same id ▸ found)

/-- A node that is no input changes nothing about inputs. -/
theorem InputsMeet.addNode (inputs : before.InputsMeet meets) (sound : before.Sound) {node : Node}
    (other : ∀ port, node.op ≠ .input port) : (before.addNode node).InputsMeet meets := by
  intro id node' port found input
  rw [sound.node?_addNode] at found
  split at found
  · cases found
    exact absurd input (other port)
  · exact inputs id node' port found input

/-- An output that is added changes nothing about inputs. -/
theorem InputsMeet.addOutput {name : String} {type : SocketType} {id : Nat}
    (inputs : before.InputsMeet meets) (adds : before.AddsOutput after name type id) :
    after.InputsMeet meets := by
  intro other node port found input
  rw [adds.node?] at found
  split at found
  · cases found
    cases input
  · exact inputs other node port found input

/-- Inputs that are asked for meet the conditions that new ones meet. -/
theorem InputsMeet.addInput (lasts : InputPort.Lasts meets) {name : String} {type : SocketType}
    {id : Nat} (inputs : before.InputsMeet meets) (adds : AddsInput before after name type id) :
    after.InputsMeet meets := by
  refine inputs.of_nodes fun other node port found input => ?_
  by_cases same : other = id
  · subst same
    cases old : before.node? other with
    | none =>
      rw [(adds.fresh old).2] at found
      cases found
      cases input
      exact .inr (lasts.new name type)
    | some known =>
      rw [(adds.known known old).2] at found
      cases found
      by_cases isInput : ∃ port, known.op = .input port
      · obtain ⟨port', input'⟩ := isInput
        refine .inl ⟨known, port', rfl, input', fun met => ?_⟩
        cases type with
        | scalar =>
          cases input'.symm.trans input
          exact met
        | vector =>
          rw [Node.widened_of_input input'] at input
          cases input
          exact lasts.wider port' met
      · rw [Node.widened_of_not_input fun port op => isInput ⟨port, op⟩] at input
        exact absurd ⟨port, input⟩ isInput
  · rw [adds.node? other same] at found
    exact .inl ⟨node, port, found, input, fun met => met⟩

/-- Another label changes nothing about inputs. -/
theorem InputsMeet.setLabel {id : Nat} {label : Option String} (inputs : before.InputsMeet meets)
    (done : before.setLabel id label = .ok after) : after.InputsMeet meets := by
  obtain ⟨node, found, same⟩ := bind_eq_ok_iff.1 done
  cases same
  rw [node_eq_ok_iff] at found
  intro other changed port here input
  rw [node?_setNode found] at here
  split at here
  · cases here
    exact inputs id node port found input
  · exact inputs other changed port here input

end Graph

section

variable {meets : InputPort → Prop} (lasts : InputPort.Lasts meets) {library : Library}
include lasts

/-- An input that is read meets the conditions that new ones meet. -/
theorem Scope.Tidy.meets_readVariable {held : List Nat} {before after : Scope}
    (tidy : before.Tidy library held) (inputs : before.graph.InputsMeet meets) {v : Variable}
    {socket : Socket} (done : before.readVariable v = .ok (socket, after)) :
    after.graph.InputsMeet meets := by
  obtain ⟨name, -, -, rfl⟩ | ⟨-, defaults, -, type, input, asked, asks, read⟩ :=
    readVariable_eq_ok done
  · exact inputs
  · obtain ⟨advances, adds, -, offers⟩ := (tidy.withDefaults defaults).tidy.addInput v.name type
    rw [asks] at advances adds offers
    have start : asked.graph.InputsMeet meets := inputs.addInput lasts adds
    obtain ⟨-, -, -, rfl⟩ | ⟨-, -, -, rfl⟩ | ⟨-, -, id, -, -, -, -, -, split⟩ := read
    · exact start
    · exact start
    · obtain ⟨-, rfl⟩ | ⟨-, -, graph, -, connects, rfl⟩ := advances.tidy.split_eq_ok offers split
      · exact start
      · exact (start.addNode advances.tidy.runnable.sound fun _ same => by cases same).of_same connects.node?

/-- The inputs that trees read meet the conditions that new ones meet. -/
theorem lower_meets (runnable : Library.Runnable library) (reuse : Bool) :
    (∀ held e scope socket after, scope.Tidy library held →
      lower library reuse e scope = .ok (socket, after) →
        scope.graph.InputsMeet meets → after.graph.InputsMeet meets) ∧
    ∀ held operands id scope after, scope.Tidy library (id :: held) →
      feed library reuse operands id scope = .ok after →
        scope.graph.InputsMeet meets → after.graph.InputsMeet meets := by
  refine @lower_tidy_induct library reuse runnable
    (fun _ _ scope _ after => scope.graph.InputsMeet meets → after.graph.InputsMeet meets)
    (fun _ _ _ scope after => scope.graph.InputsMeet meets → after.graph.InputsMeet meets)
    ?remembered ?read ?make ?nil ?cons
  case remembered =>
    intro held e scope socket tidy found inputs
    exact inputs
  case read =>
    intro held v scope socket after tidy fresh reads inputs
    rw [Scope.graph_remember]
    exact tidy.meets_readVariable lasts inputs reads
  case make =>
    intro held e scope recipe fed tidy fresh planned keeps inputs
    rw [Scope.graph_remember]
    exact keeps (inputs.addNode tidy.runnable.sound (Recipe.not_input planned))
  case nil =>
    intro held id scope inputs
    exact inputs
  case cons =>
    intro held place e rest id scope source built linked after tidy advances offers links first
      others inputs
    obtain ⟨-, connects, -⟩ := advances.tidy.connect offers (by simp) links
    exact others ((first inputs).of_same connects.node?)

/-- The inputs that the tree of an output reads meet the conditions that new ones meet. -/
theorem lowerInto_meets (runnable : Library.Runnable library) {reuse : Bool} {e : Expr}
    {target : Socket} {before after : Scope} (tidy : before.Tidy library [target.node])
    (inputs : before.graph.InputsMeet meets)
    (done : lowerInto library reuse e target before = .ok after) :
    after.graph.InputsMeet meets := by
  obtain ⟨⟨source, built⟩, builds, links⟩ := bind_eq_ok_iff.1 done
  obtain ⟨advances, offers⟩ := (lower_keeps runnable reuse).1 e before _ source built tidy builds
  obtain ⟨-, connects, -⟩ := advances.tidy.connect offers.2 (by simp) links
  exact ((lower_meets lasts runnable reuse).1 _ e _ _ _ tidy builds inputs).of_same connects.node?

end

namespace Graph

variable {before after graph : Graph} {vs : List Variable}

/-- Whether each input of a graph has the last number that variables write for its name, in every
component, and zero if there is none. -/
def HasDefaultsOf (vs : List Variable) (graph : Graph) : Prop :=
  ∀ name id, graph.input? name = some id → ∃ node port, graph.node? id = some node ∧
    node.op = .input port ∧ port.default = .splat ((Variable.lastDefault? vs name).getD 0.0) port.type

/-- Inputs keep their defaults while others are merged into them. -/
theorem HasDefaultsOf.mergesInputs (has : before.HasDefaultsOf vs)
    (merges : before.MergesInputs after) : after.HasDefaultsOf vs := by
  induction merges with
  | refl => exact has
  | tail _ last ih =>
    obtain ⟨kept, dropped, merges⟩ := last
    obtain ⟨between, relinks, removes⟩ := merges.edits
    intro name id listed
    rw [input?, removes.inputs, Table.get?_filter, Option.filter_eq_some_iff] at listed
    obtain ⟨node, port, found, input, default⟩ :=
      ih name id (by rw [input?, ← relinks.inputs]; exact listed.1)
    refine ⟨node, port, ?_, input, default⟩
    rw [removes.node?, if_neg fun same => by simp [same] at listed, relinks.node?, found]

end Graph

namespace Cleanup

variable {meets : InputPort → Prop} {site after : Site}

/-- Up to the defaults, a cleanup leaves inputs as they are or hides them, and what is left of them
meets the conditions that all have met. -/
theorem inputsMeet_mergeDuplicateInputs {total : Nat} (sound : site.graph.Sound)
    (definitions : ∀ name definition, site.library.get? name = some definition → definition.Sound)
    (inputs : site.graph.InputsMeet meets)
    (done : mergeDuplicateInputs site = .ok total after) :
    after.graph.Sound ∧ after.graph.InputsMeet meets := by
  have both := mergeDuplicateInputs_carries
    (fun now => (now.graph.Sound ∧ now.graph.InputsMeet meets) ∧
      ∀ name definition, now.library.get? name = some definition → definition.Sound)
    (fun now later holds step => ?_) sound definitions done ⟨⟨sound, inputs⟩, definitions⟩
  · exact both.1
  · obtain ⟨id, group, places, node, definition, merged, step⟩ := step
    obtain ⟨kept, dropped, -, -, merges⟩ := step.merges
    refine ⟨⟨step.removes.sound, ?_⟩, fun name definition' found' => ?_⟩
    · obtain ⟨receiver, here, node?⟩ := step.removes.node?
      intro other node port found input
      rw [node?] at found
      split at found
      · cases found
        exact holds.1.2 id receiver port here input
      · exact holds.1.2 other node port found input
    · rw [step.library, Table.get?_insert] at found'
      split at found'
      · cases found'
        exact merges.sound
      · exact holds.2 name definition' found'

/-- Inputs that are taken away or keep their nodes meet the same conditions. -/
theorem inputsMeet_removes {before graph : Graph} {id : Nat} (inputs : before.InputsMeet meets)
    (removes : before.Removes graph id) : graph.InputsMeet meets := by
  intro other node port found input
  rw [removes.node?] at found
  split at found
  · cases found
  · exact inputs other node port found input

/-- Inputs that are hidden have no defaults if they had none. -/
theorem inputsMeet_hides {before graph : Graph} {ids : List Nat}
    (unset : before.InputsMeet InputPort.IsUnset) (hides : Hides before graph ids) :
    graph.InputsMeet InputPort.IsUnset := by
  intro id node port found input
  rw [hides.node?] at found
  obtain ⟨old, found', rfl⟩ := Option.map_eq_some_iff.1 found
  split at input
  · obtain ⟨op, inputs, outputs, label⟩ := old
    cases op with
    | input port' =>
      cases input
      exact unset id _ port' found' rfl
    | _ => cases input
  · exact unset id old port found' input

/-- Folding a constant leaves inputs as they are. -/
theorem inputsMeet_folds {before graph : Graph} {target : Socket} {value : Float}
    (inputs : before.InputsMeet meets) (folds : before.Folds graph target value) :
    graph.InputsMeet meets := by
  obtain ⟨receiver, here, -, node?⟩ := folds.node?
  intro id node port found input
  rw [node?] at found
  split at found
  · cases found
    exact inputs _ receiver port here input
  · exact inputs id node port found input

/-- Setting the defaults that are written for inputs leaves other inputs as they are. -/
theorem unset_applyDefaults {defaults : Table String Float} (sound : site.graph.Sound)
    (unset : site.graph.InputsMeet InputPort.IsUnset)
    (done : applyDefaults defaults site = .ok () after) : after.graph.Sound ∧
      after.graph.InputsMeet fun port => defaults.get? port.name = none → port.IsUnset := by
  refine forM_keeps applyDefault (fun now => now.graph.Sound ∧
      now.graph.InputsMeet fun port => defaults.get? port.name = none → port.IsUnset)
    (fun entry mem now later ⟨sound, unset⟩ stepped => ?_) done
    ⟨sound, fun id node port found input _ => unset id node port found input⟩
  rcases applyDefault_eq_ok stepped with ⟨-, rfl⟩ | ⟨id, old, new, listed, found, sets, rfl⟩
  · exact ⟨sound, unset⟩
  · refine ⟨sound.setNode found
      (Node.replaces_setPortDefault (sound.inputShaped id old · found) sets), ?_⟩
    intro other node port here input silent
    rw [Graph.node?_setNode found] at here
    split at here
    · -- The input that is set has the name of an entry, so it is not one without a default.
      cases here
      obtain ⟨old', port', found', input', named⟩ := sound.input?_spec listed
      cases found.symm.trans found'
      unfold Node.setPortDefault? at sets
      rw [input'] at sets
      cases sets
      cases input
      have written : defaults.get? entry.1 = some entry.2 := Table.get?_eq_some_iff.2 mem
      rw [show (_ : String) = entry.1 from named, written] at silent
      cases silent
    · exact unset other node port here input silent

/-- A cleanup sets the default of each input that is left: the number written for its name, in every
component, and zero if none is written. -/
theorem all_sets_defaults {declarations : Declarations} {options : BuildOptions}
    {report : CleanupReport} (runs : site.Runs) (unset : site.graph.InputsMeet InputPort.IsUnset)
    (done : all declarations options site = .ok report after) :
    ∀ name id, after.graph.input? name = some id → ∃ node port, after.graph.node? id = some node ∧
      node.op = .input port ∧
        port.default = .splat ((declarations.defaults.get? name).getD 0.0) port.type := by
  rw [all_eq] at done
  obtain ⟨_, relinked, relinks, done⟩ := bind_eq_ok_iff.1 done
  obtain ⟨_, read, inputs, done⟩ := bind_eq_ok_iff.1 done
  obtain ⟨_, fed, outputs, done⟩ := bind_eq_ok_iff.1 done
  obtain ⟨_, hidden, hides, done⟩ := bind_eq_ok_iff.1 done
  obtain ⟨_, merged, merges, done⟩ := bind_eq_ok_iff.1 done
  obtain ⟨_, folded, folds, done⟩ := bind_eq_ok_iff.1 done
  obtain ⟨_, set, sets, done⟩ := bind_eq_ok_iff.1 done
  obtain ⟨_, ordered, orders, done⟩ := bind_eq_ok_iff.1 done
  cases done
  cases (orderInputs_eq options.resequenceInputs set).symm.trans orders
  -- Up to the step that sets them, no input has a default.
  have first : relinked.graph.Unset ∧
      relinked.library = site.library :=
    @relinkOutputs_keeps Graph.Unset (fun _ unset => unset.1)
      (fun _ _ _ _ holds relinks _ => ⟨relinks.sound, holds.2.of_same relinks.node?⟩) _ _ _
      ⟨runs.graph.sound, unset⟩ relinks
  have second : read.graph.Unset ∧
      read.library = site.library := by
    rcases ifChosen_eq_ok inputs with removed | rfl
    · obtain ⟨_, graph, done', holds⟩ := @removeUnusedInputs_ok
        Graph.Unset (fun _ unset => unset.1)
        (fun _ _ _ _ _ holds _ _ _ removes => ⟨removes.sound, inputsMeet_removes holds.2 removes⟩)
        relinked first.1
      cases removed.symm.trans done'
      exact ⟨holds, first.2⟩
    · exact first
  have third : fed.graph.Unset ∧
      fed.library = site.library := by
    rcases ifChosen_eq_ok outputs with removed | rfl
    · obtain ⟨_, graph, done', holds⟩ := @removeUnusedOutputs_ok
        Graph.Unset (fun _ unset => unset.1)
        (fun _ _ _ _ _ holds _ _ _ removes => ⟨removes.sound, inputsMeet_removes holds.2 removes⟩)
        read second.1
      cases removed.symm.trans done'
      exact ⟨holds, second.2⟩
    · exact second
  have fourth : hidden.graph.Unset ∧
      hidden.library = site.library := by
    obtain ⟨_, graph, done', hidden'⟩ := hidePorts_ok third.1.1 declarations
    cases hides.symm.trans done'
    exact ⟨⟨hidden'.sound, inputsMeet_hides third.1.2 hidden'⟩, third.2⟩
  have fifth : merged.graph.Unset := by
    refine inputsMeet_mergeDuplicateInputs fourth.1.1 (fun name definition found => ?_) fourth.1.2
      merges
    exact (runs.library name definition (fourth.2 ▸ found)).2.sound
  have sixth : folded.graph.Unset := by
    rcases ifChosen_eq_ok folds with folded' | rfl
    · obtain ⟨_, graph, done', holds⟩ := @foldConstants_ok
        Graph.Unset (fun _ unset => unset.1)
        (fun _ _ _ _ holds folds => ⟨folds.sound, inputsMeet_folds holds.2 folds⟩)
        (fun _ _ _ _ _ holds _ _ _ removes =>
          ⟨removes.sound, inputsMeet_removes holds.2 removes⟩) merged fifth
      cases folded'.symm.trans done'
      exact holds
    · exact fifth
  obtain ⟨sound, silent⟩ := unset_applyDefaults sixth.1 sixth.2 sets
  obtain ⟨-, -, -, written⟩ := applyDefaults_spec sixth.1 sets
  have final (name : String) (id : Nat) (listed : set.graph.input? name = some id) :
      ∃ node port, set.graph.node? id = some node ∧ node.op = .input port ∧
        port.default = .splat ((declarations.defaults.get? name).getD 0.0) port.type := by
    obtain ⟨node, port, found, input, rfl⟩ := sound.input?_spec listed
    refine ⟨node, port, found, input, ?_⟩
    cases here : declarations.defaults.get? port.name with
    | none => exact silent id node port found input here
    | some number =>
      have has := written (port.name, number) (Table.get?_eq_some_iff.1 here) id node listed found
      unfold Node.setPortDefault? at has
      rw [input] at has
      have op := congrArg Node.op (Option.some.inj has)
      rw [input] at op
      exact (congrArg InputPort.default (NodeOp.input.inj op)).symm
  dsimp only
  intro name id listed
  split at listed
  · rename_i chosen
    rw [if_pos chosen]
    exact final name id ((Table.get?_sortBy set.graph.inputs shortNamesFirst name).symm.trans listed)
  · rename_i spared
    rw [if_neg spared]
    exact final name id listed

end Cleanup

end Shadeloom
