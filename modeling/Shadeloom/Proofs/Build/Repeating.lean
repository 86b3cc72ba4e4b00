import Mathlib
import Shadeloom.Proofs.Build.Settling
/-!
# Cleaning up again

A cleanup that is carried out leaves a site in which no step has anything left to do: what one step
has settled the steps after it keep so. So cleaning up again changes nothing and reports nothing.
-/
namespace Shadeloom

/-- An input that has been given a default keeps it when it is given the default again. -/
theorem Node.setPortDefault?_again {old new : Node} {value : Value}
    (changed : old.setPortDefault? value = some new) : new.setPortDefault? value = some new := by
  unfold setPortDefault? at changed
  split at changed
  · cases changed
    rfl
  · cases changed

namespace Cleanup

variable {site after : Site}

/-- Sets the default that is written for an input, if there is the input. -/
def applyDefault (entry : String × Float) : Cleanup Unit := do
  match (← graph).input? entry.1 with
  | some id => edit fun graph => graph.setInputDefault id (.scalar entry.2)
  | none => pure ()

/-- The default of an input is set, or there is no such input. -/
theorem applyDefault_eq_ok {entry : String × Float}
    (done : applyDefault entry site = .ok () after) :
    site.graph.input? entry.1 = none ∧ after = site ∨
      ∃ id old new, site.graph.input? entry.1 = some id ∧ site.graph.node? id = some old ∧
        old.setPortDefault? (.scalar entry.2) = some new ∧
          after = { site with graph := site.graph.setNode id new } := by
  obtain ⟨_, _, got, done⟩ := bind_eq_ok_iff.1 done
  cases got
  cases listed : site.graph.input? entry.1 with
  | none =>
    rw [listed] at done
    cases done
    exact .inl ⟨rfl, rfl⟩
  | some id =>
    rw [listed] at done
    obtain ⟨changed, edited, rfl⟩ := edit_eq_ok_iff.1 done
    obtain ⟨old, new, found, sets, rfl⟩ := Graph.setInputDefault_eq_ok_iff.1 edited
    exact .inr ⟨id, old, new, rfl, found, sets, rfl⟩

/-- Setting defaults prunes a graph, links all sockets as before, and leaves every input with the
default that is written for it. -/
theorem applyDefaults_spec {defaults : Table String Float} (sound : site.graph.Sound)
    (done : applyDefaults defaults site = .ok () after) :
    after.library = site.library ∧ site.graph.Prunes after.graph ∧
      (∀ target, after.graph.source? target = site.graph.source? target) ∧
      ∀ entry ∈ defaults.entries, after.graph.HasDefault entry := by
  obtain ⟨library, prunes, same, -, settled⟩ := forM_carries applyDefault
    (fun rest now => now.library = site.library ∧ site.graph.Prunes now.graph ∧
      (∀ target, now.graph.source? target = site.graph.source? target) ∧
      (∀ entry ∈ rest, entry ∈ defaults.entries) ∧
      ∀ entry ∈ defaults.entries, entry ∈ rest ∨ now.graph.HasDefault entry)
    (fun entry rest now later ⟨library, prunes, same, sub, settled⟩ stepped => by
      have sub' : ∀ other ∈ rest, other ∈ defaults.entries := fun other mem => sub other (by simp [mem])
      rcases applyDefault_eq_ok stepped with ⟨unlisted, rfl⟩ | ⟨id, old, new, listed, found, sets, rfl⟩
      · refine ⟨library, prunes, same, sub', fun other mem => ?_⟩
        rcases settled other mem with here | done
        · rcases List.mem_cons.1 here with rfl | here
          · exact .inr fun id node listed => nomatch unlisted.symm.trans listed
          · exact .inl here
        · exact .inr done
      · have sound := prunes.sound
        have node? := Graph.node?_setNode found new
        refine ⟨library, prunes.trans (sound.prunes_setPortDefault found sets),
          fun target => (sound.source?_setNode id new target).trans (same target), sub',
          fun other mem => ?_⟩
        by_cases equal : other = entry
        · subst equal
          refine .inr fun id' node listed' found' => ?_
          have here : id' = id := Option.some.inj (listed'.symm.trans listed)
          rw [node?, if_pos here.symm, Option.some.injEq] at found'
          exact found' ▸ Node.setPortDefault?_again sets
        · rcases settled other mem with here | done
          · rcases List.mem_cons.1 here with same | here
            · exact absurd same equal
            · exact .inl here
          · -- An input of another name is another node.
            refine .inr fun id' node listed' found' => ?_
            have apart : id ≠ id' := by
              rintro rfl
              exact equal (List.inj_on_of_nodup_map defaults.distinct mem (sub entry (by simp))
                (sound.name_of_input? listed' listed))
            rw [node?, if_neg apart] at found'
            exact done id' node listed' found')
    done ⟨rfl, sound.prunes, fun _ => rfl, fun _ => id, fun _ mem => .inl mem⟩
  refine ⟨library, prunes, same, fun entry mem => ?_⟩
  rcases settled entry mem with here | done
  · cases here
  · exact done

/-- Of two names one may stand before the other one. -/
theorem shortNamesFirst_total (a b : String) :
    (shortNamesFirst a b || shortNamesFirst b a) = true := by
  unfold shortNamesFirst
  by_cases same : isShort a = isShort b
  · simpa [same] using String.le_total a b
  · cases left : isShort a <;> cases right : isShort b <;> simp_all

/-- A name that may stand before one that may stand before a third one may stand before that. -/
theorem shortNamesFirst_trans (a b c : String) (early : shortNamesFirst a b = true)
    (late : shortNamesFirst b c = true) : shortNamesFirst a c = true := by
  unfold shortNamesFirst at *
  cases left : isShort a <;> cases middle : isShort b <;> cases right : isShort c <;>
    simp_all only [Bool.false_eq_true, if_true, if_false, decide_eq_true_eq, reduceCtorEq]
  all_goals exact String.le_trans early late

/-- Inputs that are in order stay where they are. -/
theorem sortInputs_again (graph : Graph) :
    (graph.sortInputs shortNamesFirst).sortInputs shortNamesFirst =
      graph.sortInputs shortNamesFirst := by
  have ordered : (graph.inputs.entries.mergeSort fun a b => shortNamesFirst a.1 b.1).Pairwise
      fun a b => shortNamesFirst a.1 b.1 = true := by
    refine List.pairwise_mergeSort ?_ ?_ _
    · exact fun a b c => shortNamesFirst_trans a.1 b.1 c.1
    · exact fun a b => shortNamesFirst_total a.1 b.1
  have again : (graph.inputs.sortBy shortNamesFirst).sortBy shortNamesFirst =
      graph.inputs.sortBy shortNamesFirst := Table.ext (List.mergeSort_of_pairwise ordered)
  unfold Graph.sortInputs
  rw [again]

/-- Putting the inputs in order prunes a graph, changes no node and no link, and leaves them in
order. -/
theorem orderInputs_spec {chosen : Bool} (sound : site.graph.Sound)
    (done : orderInputs chosen site = .ok () after) :
    after.library = site.library ∧ site.graph.Prunes after.graph ∧
      (∀ target, after.graph.source? target = site.graph.source? target) ∧
      (∀ entry, site.graph.HasDefault entry → after.graph.HasDefault entry) ∧
      (chosen = true → after.graph.sortInputs shortNamesFirst = after.graph) := by
  rw [orderInputs_eq] at done
  cases done
  cases chosen with
  | false => exact ⟨rfl, sound.prunes, fun _ => rfl, fun _ => id, nofun⟩
  | true =>
    refine ⟨rfl, sound.prunes_sortInputs _, Graph.source?_congr (site.graph.sortInputs _) site.graph
      sound.orderly sound.orderly rfl, fun entry has id node listed found => ?_,
      fun _ => sortInputs_again site.graph⟩
    have listed : (site.graph.sortInputs shortNamesFirst).input? entry.1 = some id := listed
    rw [Graph.input?_sortInputs] at listed
    exact has id node listed found

end Cleanup

/-- A site in which no step of a cleanup has anything left to do. -/
structure Site.Settled (declarations : Declarations) (options : BuildOptions) (site : Site) :
    Prop where
  sound : site.graph.Sound
  relinked : site.graph.Relinked
  inputsRead : options.pruneUnused = true → site.graph.InputsRead
  outputsFed : options.pruneUnused = true → site.graph.OutputsFed
  hidden : site.graph.PortsHidden declarations
  merged : site.Merged
  folded : options.foldConstants = true → site.graph.ConstantsFolded
  defaults : ∀ entry ∈ declarations.defaults.entries, site.graph.HasDefault entry
  ordered : options.resequenceInputs = true →
    site.graph.sortInputs Cleanup.shortNamesFirst = site.graph

namespace Cleanup

variable {site after : Site} {declarations : Declarations} {options : BuildOptions}

/-- Nothing is left to relink in a settled site. -/
theorem relinkOutputs_of_settled (settled : site.Settled declarations options) :
    relinkOutputs site = .ok 0 site := by
  refine bind_eq_ok_iff.2 ⟨site.graph, site, rfl, count_idle fun output mem => ?_⟩
  exact relinkOutput_of_not_relinkable settled.sound (settled.relinked output mem)

/-- Nodes that fail the test are all left. -/
theorem removeAll_of_fails {test : Graph → Nat → Bool} {ids : List Nat}
    (fails : ∀ id ∈ ids, ¬ test site.graph id = true) :
    count ids (removeIf test) site = .ok 0 site := by
  refine count_idle fun id mem => bind_eq_ok_iff.2 ⟨site.graph, site, rfl, ?_⟩
  rw [if_neg (fails id mem)]
  rfl

/-- No input is left to remove in a settled site. -/
theorem removeUnusedInputs_of_settled (settled : site.Settled declarations options) :
    ifChosen options.pruneUnused removeUnusedInputs site = .ok 0 site := by
  unfold ifChosen
  split
  · rename_i chosen
    refine removeAll_of_fails fun id mem empty => ?_
    obtain ⟨entry, listed, rfl⟩ := List.mem_map.1 mem
    exact settled.inputsRead chosen entry.1 entry.2 (Table.get?_eq_some_iff.2 listed)
      ((settled.sound.isEmpty_outgoing entry.2).1 empty)
  · rfl

/-- No output is left to remove in a settled site. -/
theorem removeUnusedOutputs_of_settled (settled : site.Settled declarations options) :
    ifChosen options.pruneUnused removeUnusedOutputs site = .ok 0 site := by
  unfold ifChosen
  split
  · rename_i chosen
    refine removeAll_of_fails fun id mem empty => ?_
    obtain ⟨place, source, linked⟩ := settled.outputsFed chosen id mem
    exact nomatch ((settled.sound.isEmpty_incoming id).1 empty place).symm.trans linked
  · rfl

/-- No port is left to hide in a settled site. -/
theorem hidePorts_of_settled (settled : site.Settled declarations options) :
    hidePorts declarations site = .ok 0 site := by
  refine bind_eq_ok_iff.2 ⟨site.graph, site, rfl, count_idle fun id mem => ?_⟩
  refine bind_eq_ok_iff.2 ⟨site.graph, site, rfl, ?_⟩
  rw [settled.hidden id mem]
  rfl

/-- No inputs of an instance are left to merge when those that are fed by the same output socket
have no inputs in its definition. -/
theorem mergeInstance_of_mergedAt (sound : site.graph.Sound) {id : Nat} {group : String}
    (merged : site.MergedAt id group) : mergeInstance id group site = .ok 0 site := by
  refine bind_eq_ok_iff.2 ⟨site, site, rfl, ?_⟩
  split
  · rfl
  · rename_i chosen
    simp only [Bool.or_eq_true, decide_eq_true_eq, ne_eq, not_or, not_not, Bool.not_eq_true',
      Bool.not_eq_false] at chosen
    obtain ⟨once, present⟩ := chosen
    rw [← Table.isSome_get?] at present
    obtain ⟨definition, stored⟩ := Option.isSome_iff_exists.1 present
    refine count_idle fun places mem => bind_eq_ok_iff.2 ⟨site, site, rfl, ?_⟩
    obtain ⟨order, source, first, second⟩ :=
      (duplicatePlaces_spec sound id).repeated places (List.mem_reverse.1 mem)
    have few := merged once definition stored places.1 places.2 source order first second
    have missing : (definition.exposedInputs.map Prod.snd)[places.2]? = none :=
      List.getElem?_eq_none (by rw [List.length_map]; exact few)
    rw [stored, Option.map_some, Option.getD_some, missing]
    cases (definition.exposedInputs.map Prod.snd)[places.1]? <;> rfl

/-- No inputs of instances are left to merge in a settled site. -/
theorem mergeDuplicateInputs_of_settled (settled : site.Settled declarations options) :
    mergeDuplicateInputs site = .ok 0 site := by
  refine bind_eq_ok_iff.2 ⟨site.graph, site, rfl, ?_⟩
  have each : ∀ entry ∈ instances site.graph, mergeInstance entry.1 entry.2 site = .ok 0 site := by
    intro entry mem
    obtain ⟨node, found, op⟩ := mem_instances.1 mem
    exact mergeInstance_of_mergedAt settled.sound (settled.merged entry.1 node entry.2 found op)
  generalize instances site.graph = entries at each ⊢
  induction entries with
  | nil => rfl
  | cons entry rest ih =>
    rw [List.foldlM_cons]
    exact bind_eq_ok_iff.2 ⟨0, site, bind_eq_ok_iff.2 ⟨0, site, each entry (by simp), rfl⟩,
      ih fun other mem => each other (by simp [mem])⟩

/-- No constant is left to fold in a settled site. -/
theorem foldConstants_of_settled (settled : site.Settled declarations options) :
    ifChosen options.foldConstants foldConstants site = .ok 0 site := by
  unfold ifChosen
  split
  · rename_i chosen
    refine bind_eq_ok_iff.2 ⟨site.graph, site, rfl, count_idle fun constant mem => ?_⟩
    obtain ⟨node, found, op⟩ := mem_constants.1 mem
    obtain ⟨busy, boundary⟩ := settled.folded chosen constant.1 node constant.2 found op
    refine bind_eq_ok_iff.2 ⟨site.graph, site, rfl, bind_eq_ok_iff.2 ⟨(), site, ?_, ?_⟩⟩
    · refine forM_idle fun link mem => bind_eq_ok_iff.2 ⟨site.graph, site, rfl, ?_⟩
      rw [settled.sound.outgoing_eq, List.mem_filter, decide_eq_true_eq] at mem
      obtain ⟨receiver, received, isBoundary⟩ := boundary link.target link.source
        (settled.sound.source?_eq_some_iff.2 ⟨link, mem.1, rfl, rfl⟩) mem.2
      rw [received, Option.any_some, isBoundary]
      rfl
    · refine bind_eq_ok_iff.2 ⟨site.graph, site, rfl, ?_⟩
      rw [if_neg (mt (settled.sound.isEmpty_outgoing constant.1).1 busy)]
      rfl
  · rfl

/-- No default is left to set in a settled site. -/
theorem applyDefaults_of_settled (settled : site.Settled declarations options) :
    applyDefaults declarations.defaults site = .ok () site := by
  refine forM_idle fun entry mem => bind_eq_ok_iff.2 ⟨site.graph, site, rfl, ?_⟩
  cases listed : site.graph.input? entry.1 with
  | none => rfl
  | some id =>
    obtain ⟨node, port, found, input, -⟩ := settled.sound.input?_spec listed
    have sets := settled.defaults entry mem id node listed found
    have edited : site.graph.setInputDefault id (.scalar entry.2) = .ok site.graph :=
      Graph.setInputDefault_eq_ok_iff.2 ⟨node, node, found, sets, (Graph.setNode_self found).symm⟩
    exact edit_eq_ok_iff.2 ⟨site.graph, edited, rfl⟩

/-- A settled site is left as it is by a cleanup. -/
theorem all_of_settled (settled : site.Settled declarations options) :
    all declarations options site = .ok ⟨0, 0, 0, 0, 0, 0⟩ site := by
  have ordered : orderInputs options.resequenceInputs site = .ok () site := by
    rw [orderInputs_eq]
    split
    · rename_i chosen
      rw [settled.ordered chosen]
    · rfl
  rw [all_eq]
  exact bind_eq_ok_iff.2 ⟨0, site, relinkOutputs_of_settled settled,
    bind_eq_ok_iff.2 ⟨0, site, removeUnusedInputs_of_settled settled,
    bind_eq_ok_iff.2 ⟨0, site, removeUnusedOutputs_of_settled settled,
    bind_eq_ok_iff.2 ⟨0, site, hidePorts_of_settled settled,
    bind_eq_ok_iff.2 ⟨0, site, mergeDuplicateInputs_of_settled settled,
    bind_eq_ok_iff.2 ⟨0, site, foldConstants_of_settled settled,
    bind_eq_ok_iff.2 ⟨(), site, applyDefaults_of_settled settled,
    bind_eq_ok_iff.2 ⟨(), site, ordered, rfl⟩⟩⟩⟩⟩⟩⟩⟩

/-- A step that is chosen prunes a graph and settles what it is for, and one that is not chosen
does nothing. -/
theorem ifChosen_spec {chosen : Bool} {step : Cleanup Nat} {total : Nat} {settled : Graph → Prop}
    (sound : site.graph.Sound)
    (spec : ∀ total, step site = .ok total after →
      after.library = site.library ∧ site.graph.Prunes after.graph ∧ settled after.graph)
    (done : ifChosen chosen step site = .ok total after) :
    after.library = site.library ∧ site.graph.Prunes after.graph ∧
      (chosen = true → settled after.graph) := by
  unfold ifChosen at done
  split at done
  · obtain ⟨library, prunes, settled⟩ := spec total done
    exact ⟨library, prunes, fun _ => settled⟩
  · rename_i spared
    cases done
    exact ⟨rfl, sound.prunes, fun chosen => absurd chosen spared⟩

/-- A cleanup that is carried out leaves a settled site. -/
theorem settled_of_all {report : CleanupReport} (shaped : site.graph.Shaped)
    (definitions : ∀ group definition, site.library.get? group = some definition →
      definition.Sound)
    (done : all declarations options site = .ok report after) :
    after.Settled declarations options := by
  rw [all_eq] at done
  obtain ⟨_, relinked, relinks, done⟩ := bind_eq_ok_iff.1 done
  obtain ⟨_, read, inputs, done⟩ := bind_eq_ok_iff.1 done
  obtain ⟨_, fed, outputs, done⟩ := bind_eq_ok_iff.1 done
  obtain ⟨_, hidden, hides, done⟩ := bind_eq_ok_iff.1 done
  obtain ⟨_, merged, merges, done⟩ := bind_eq_ok_iff.1 done
  obtain ⟨_, folded, folds, done⟩ := bind_eq_ok_iff.1 done
  obtain ⟨_, set, sets, done⟩ := bind_eq_ok_iff.1 done
  obtain ⟨_, last, orders, same⟩ := bind_eq_ok_iff.1 done
  cases same
  -- Each step settles something, and what is settled stays so while the graph gets thinner.
  obtain ⟨library₁, shaped₁, isRelinked⟩ := relinkOutputs_spec shaped relinks
  obtain ⟨library₂, prunes₂, isRead⟩ := ifChosen_spec shaped₁.toSound
    (fun _ => removeUnusedInputs_spec shaped₁.toSound) inputs
  have shaped₂ := prunes₂.shaped shaped₁
  obtain ⟨library₃, prunes₃, isFed⟩ := ifChosen_spec shaped₂.toSound
    (fun _ => removeUnusedOutputs_spec shaped₂) outputs
  have shaped₃ := prunes₃.shaped shaped₂
  obtain ⟨library₄, prunes₄, isHidden⟩ := hidePorts_spec shaped₃.toSound hides
  have shaped₄ := prunes₄.shaped shaped₃
  obtain ⟨thins₅, isMerged⟩ := mergeDuplicateInputs_spec shaped₄.toSound (fun group definition found =>
    definitions group definition (by rw [← library₁, ← library₂, ← library₃, ← library₄]; exact found))
    merges
  have shaped₅ := thins₅.shaped shaped₄
  obtain ⟨library₆, prunes₆, isFolded⟩ := ifChosen_spec shaped₅.toSound
    (fun _ => foldConstants_spec shaped₅) folds
  have shaped₆ := prunes₆.shaped shaped₅
  obtain ⟨library₇, prunes₇, same₇, isSet⟩ := applyDefaults_spec shaped₆.toSound sets
  obtain ⟨library₈, prunes₈, same₈, keeps, isOrdered⟩ := orderInputs_spec prunes₇.sound orders
  have late := prunes₆.trans (prunes₇.trans prunes₈)
  have later := thins₅.trans late.toThins
  have latest := prunes₄.toThins.trans later
  exact {
    sound := late.sound
    relinked := (isRelinked.thins prunes₂.toThins).thins (prunes₃.toThins.trans latest)
    inputsRead := fun chosen => (isRead chosen).thins (prunes₃.toThins.trans latest)
    outputsFed := fun chosen => (isFed chosen).thins latest
    hidden := isHidden.thins later
    merged := isMerged.prunes (library₈.trans (library₇.trans library₆)) late
    folded := fun chosen => (isFolded chosen).prunes (prunes₇.trans prunes₈)
      fun target => (same₈ target).trans (same₇ target)
    defaults := fun entry mem => keeps entry (isSet entry mem)
    ordered := isOrdered }

end Cleanup

/-- A site is cleaned up when every step is carried out. -/
theorem cleanUp_eq_ok_iff {declarations : Declarations} {options : BuildOptions}
    {site after : Site} {report : CleanupReport} :
    cleanUp declarations options site = (.ok report, after) ↔
      Cleanup.all declarations options site = .ok report after := by
  simp only [cleanUp, EStateM.run]
  cases Cleanup.all declarations options site with
  | ok report' after' => simp
  | error error after' => simp

/-- A cleanup that has been carried out has nothing left to do: cleaning up again is carried out,
reports nothing and changes nothing. That a graph is shaped is more than that it is in order: its
constants and ports have the sockets that they are made with. -/
theorem cleanUp_again {declarations : Declarations} {options : BuildOptions} {site after : Site}
    {report : CleanupReport} (shaped : site.graph.Shaped)
    (definitions : ∀ group definition, site.library.get? group = some definition →
      definition.Sound)
    (done : cleanUp declarations options site = (.ok report, after)) :
    cleanUp declarations options after = (.ok ⟨0, 0, 0, 0, 0, 0⟩, after) := by
  rw [cleanUp_eq_ok_iff] at done ⊢
  exact Cleanup.all_of_settled (Cleanup.settled_of_all shaped definitions done)

/-- Calls that make a graph in which a constant is added to one input and nothing reads the other. -/
def Edit.shift : List Edit :=
  [.addInput "spare" .scalar, .addInput "x" .scalar, .addNode (.constant 2) rfl,
    .addNode (.math .add) rfl, .addOutput "y" .scalar, .connect ⟨1, 0⟩ ⟨3, 0⟩,
    .connect ⟨2, 0⟩ ⟨3, 1⟩, .connect ⟨3, 0⟩ ⟨4, 0⟩]

/-- A graph with an unread input and a constant to fold is cleaned up at once. -/
theorem cleanUp_again_shift : ∃ after,
    cleanUp ⟨.empty, [], []⟩ .standard ⟨Edit.made "root" Edit.shift, .empty⟩ =
      (.ok ⟨0, 1, 0, 0, 0, 1⟩, after) ∧
    cleanUp ⟨.empty, [], []⟩ .standard after = (.ok ⟨0, 0, 0, 0, 0, 0⟩, after) := by
  have report : (cleanUp ⟨.empty, [], []⟩ .standard ⟨Edit.made "root" Edit.shift, .empty⟩).1 =
      .ok ⟨0, 1, 0, 0, 0, 1⟩ := by rfl
  rcases ran : cleanUp ⟨.empty, [], []⟩ .standard ⟨Edit.made "root" Edit.shift, .empty⟩ with
    ⟨result, after⟩
  rw [ran] at report
  subst report
  refine ⟨after, rfl, cleanUp_again ?_ ?_ ran⟩
  · exact Edit.made_shaped "root" Edit.shift
  · intro group definition found
    cases found

/-- Two nodes, the first of which is linked to the second one. -/
def Graph.pair (source target : Node) (inputs : Table String Nat) (outputs : List Nat) : Graph where
  name := "root"
  nodes := ⟨[some source, some target], []⟩
  links := [⟨0, ⟨0, 0⟩, ⟨1, 0⟩⟩]
  linkNumbers := ⟨1, []⟩
  tangle := none
  inputs
  outputs

/-- A pair is in order if its ports are listed and its sockets are there. -/
theorem Graph.inOrder_pair {source target : Node} {inputs : Table String Nat} {outputs : List Nat}
    (leaves : 0 < source.outputs.length) (enters : 0 < target.inputs.length)
    (inputNamed : ∀ entry ∈ inputs.entries, ∃ node port,
      [source, target][entry.2]? = some node ∧ node.op = .input port ∧ port.name = entry.1)
    (inputsDistinct : inputs.values.Nodup)
    (outputNamed : ∀ id ∈ outputs, ∃ node port,
      [source, target][id]? = some node ∧ node.op = .output port)
    (outputsDistinct : outputs.Nodup)
    (inputTyped : ∀ node ∈ [source, target], ∀ port, node.op = .input port →
      port.default.type = port.type ∧ node.outputs.map OutputSocket.type = [port.type]) :
    (Graph.pair source target inputs outputs).InOrder := by
  have node? (id : Nat) : (Graph.pair source target inputs outputs).node? id =
      [source, target][id]? := by
    match id with
    | 0 => rfl
    | 1 => rfl
    | _ + 2 => rfl
  exact {
    enteredOnce := fun target => (List.length_filter_le _ _).trans (Nat.le_refl 1)
    joined := by
      rintro link (_ | ⟨_, ⟨⟩⟩)
      exact ⟨⟨source, rfl, leaves⟩, target, rfl, enters⟩
    inputNamed := fun entry mem => by rw [node?]; exact inputNamed entry mem
    inputsDistinct
    outputNamed := fun id mem => by rw [node?]; exact outputNamed id mem
    outputsDistinct
    inputTyped := fun id node port found => by
      rw [node?] at found
      exact inputTyped node (List.mem_of_getElem? found) port }

/-- Pairs of a named output, of a constant and of a named input with a socket too many. -/
def Graph.unshaped : List Graph :=
  let o : Node := .ofOp (.output ⟨"o", .scalar, true⟩)
  let p : Node := .ofOp (.output ⟨"p", .scalar, true⟩)
  let x : Node := .ofOp (.input ⟨"x", .scalar, .zero .scalar, true⟩)
  let y : Node := .ofOp (.input ⟨"y", .scalar, .zero .scalar, true⟩)
  let two : Node := .ofOp (.constant 2)
  [.pair { o with outputs := [⟨"o", .scalar⟩] } p .empty [1, 0],
    .pair x { two with inputs := [.scalar "Value" 0] } (.ofList [("x", 0)]) [],
    .pair x { y with inputs := [.scalar "y" 0] } (.ofList [("x", 0), ("y", 1)]) []]

/-- Each of these graphs is in order, and a cleanup leaves something that the next one takes away. -/
theorem cleanUp_unshaped : Graph.unshaped.Forall fun graph => graph.InOrder ∧
    (∃ report, (cleanUp ⟨.empty, [], []⟩ .standard ⟨graph, .empty⟩).1 = .ok report) ∧
      ∃ report, (cleanUp ⟨.empty, [], []⟩ .standard
        (cleanUp ⟨.empty, [], []⟩ .standard ⟨graph, .empty⟩).2).1 = .ok report ∧
          report ≠ ⟨0, 0, 0, 0, 0, 0⟩ := by
  rw [List.forall_iff_forall_mem]
  intro graph mem
  have twice : ∀ graph ∈ Graph.unshaped,
      (cleanUp ⟨.empty, [], []⟩ .standard ⟨graph, .empty⟩).1.isOk = true ∧
        (cleanUp ⟨.empty, [], []⟩ .standard
          (cleanUp ⟨.empty, [], []⟩ .standard ⟨graph, .empty⟩).2).1.isOk = true ∧
        (cleanUp ⟨.empty, [], []⟩ .standard
          (cleanUp ⟨.empty, [], []⟩ .standard ⟨graph, .empty⟩).2).1 ≠ .ok ⟨0, 0, 0, 0, 0, 0⟩ := by
    decide +kernel
  obtain ⟨first, second, other⟩ := twice graph mem
  obtain ⟨report, again⟩ := exists_ok_of_isOk second
  refine ⟨?_, exists_ok_of_isOk first, report, again, fun same => other (same ▸ again)⟩
  rcases mem with _ | ⟨_, _ | ⟨_, _ | ⟨_, ⟨⟩⟩⟩⟩
  · refine Graph.inOrder_pair (by decide) (by decide) nofun (by decide) ?_ (by decide) ?_
    · rintro _ (_ | ⟨_, _ | ⟨_, ⟨⟩⟩⟩)
      · exact ⟨_, _, rfl, rfl⟩
      · exact ⟨_, _, rfl, rfl⟩
    · rintro _ (_ | ⟨_, _ | ⟨_, ⟨⟩⟩⟩) port ⟨⟩
  · refine Graph.inOrder_pair (by decide) (by decide) ?_ (by decide) nofun (by decide) ?_
    · rintro _ (_ | ⟨_, ⟨⟩⟩)
      exact ⟨_, _, rfl, rfl, rfl⟩
    · rintro _ (_ | ⟨_, _ | ⟨_, ⟨⟩⟩⟩) port ⟨⟩
      exact ⟨rfl, rfl⟩
  · refine Graph.inOrder_pair (by decide) (by decide) ?_ (by decide) nofun (by decide) ?_
    · rintro _ (_ | ⟨_, _ | ⟨_, ⟨⟩⟩⟩)
      · exact ⟨_, _, rfl, rfl, rfl⟩
      · exact ⟨_, _, rfl, rfl, rfl⟩
    · rintro _ (_ | ⟨_, _ | ⟨_, ⟨⟩⟩⟩) port ⟨⟩
      · exact ⟨rfl, rfl⟩
      · exact ⟨rfl, rfl⟩

end Shadeloom
