import Mathlib
import Shadeloom.Proofs.Build.Duplicates
import Shadeloom.Proofs.Build.Sparing
import Shadeloom.Proofs.Evaluation.Orders
/-!
# What a definition computes without a merged input

When two inputs of one type are given the same value, the readers of the one may read the other, and
the one may go: the definition computes what it did. This does not depend on how instances inside of
the definition are evaluated.
-/
namespace Shadeloom

open Relation Machine

/-- Two settings come to the same outputs for two assignments if these are admitted together, a
valuation that is valid in the first setting comes with one that is valid in the second and delivers
the same, and a valuation that is valid in the second comes with one in the first. -/
theorem Setting.concur_of_valued {first second : Setting} {early late : Assignment}
    (orderable : first.graph.Orderable) (orderable' : second.graph.Orderable)
    (admits : first.Admits early ↔ second.Admits late)
    (forth : ∀ valuation, Valued first early valuation → ∃ valuation',
      Valued second late valuation' ∧ ∀ name value,
        first.graph.Delivers valuation name value ↔ second.graph.Delivers valuation' name value)
    (back : ∀ valuation', Valued second late valuation' → ∃ valuation, Valued first early valuation) :
    Concur Assignment.Equal (first.evaluate early) (second.evaluate late) := by
  apply Concur.of_forth_back
  · intro outputs done
    have admitted := admits.1 (Setting.admits_of_evaluate done)
    obtain ⟨valuation, valued, delivered⟩ :=
      Setting.evaluate_ok orderable.sound orderable.acyclic orderable.apart done
    obtain ⟨valuation', valued', same⟩ := forth valuation valued
    obtain ⟨outputs', done', delivered'⟩ := Setting.evaluate_of_valued orderable'.sound
      orderable'.acyclic orderable'.apart admitted.known admitted.given valued'
    refine ⟨outputs', done', fun name => Option.ext fun value => ?_⟩
    exact (delivered name value).trans ((same name value).trans (delivered' name value).symm)
  · intro outputs' done'
    have admitted := admits.2 (Setting.admits_of_evaluate done')
    obtain ⟨valuation', valued', -⟩ :=
      Setting.evaluate_ok orderable'.sound orderable'.acyclic orderable'.apart done'
    obtain ⟨valuation, valued⟩ := back valuation' valued'
    obtain ⟨outputs, done, -⟩ := Setting.evaluate_of_valued orderable.sound orderable.acyclic
      orderable.apart admitted.known admitted.given valued
    exact ⟨outputs, done⟩

namespace Graph

/-- Whether a graph has nodes in standard layouts and no cycle, and shows its outputs under different
names. -/
structure WellMade (graph : Graph) : Prop extends graph.Standard where
  acyclic : graph.Acyclic
  apart : graph.OutputsApart

/-- A well-made graph can be evaluated in any order. -/
theorem WellMade.orderable {graph : Graph} (made : graph.WellMade) : graph.Orderable :=
  ⟨made.toSound, made.acyclic, made.apart⟩

/-- Whether two inputs have the same type and are given the same value. -/
structure GivesAlike (graph : Graph) (supplied : Assignment) (kept dropped : Nat)
    (keptPort droppedPort : InputPort) (value : Value) : Prop where
  keptInput : ∃ node, graph.node? kept = some node ∧ node.op = .input keptPort
  droppedInput : ∃ node, graph.node? dropped = some node ∧ node.op = .input droppedPort
  type : keptPort.type = droppedPort.type
  keptValue : supplied.get? keptPort.name = some value
  droppedValue : supplied.get? droppedPort.name = some value

section

variable {before after : Graph} {kept dropped : Nat}

namespace MergesInput

/-- The inputs that are left when one is merged into another one are those that were there, but for
the one. -/
theorem input?_eq_some_iff (merges : before.MergesInput after kept dropped) {name : String}
    {id : Nat} : after.input? name = some id ↔ before.input? name = some id ∧ id ≠ dropped := by
  obtain ⟨between, relinks, removes⟩ := merges.edits
  rw [input?, removes.inputs, Table.get?_filter, Option.filter_eq_some_iff, relinks.inputs]
  simp [input?]

/-- The input that is merged into another one is gone. -/
theorem node?_dropped (merges : before.MergesInput after kept dropped) :
    after.node? dropped = none := by
  obtain ⟨between, -, removes⟩ := merges.edits
  rw [removes.node?, if_pos rfl]

/-- A node that is left is another one than the input that goes, and is as it was. -/
theorem node?_eq_some_iff (merges : before.MergesInput after kept dropped) {id : Nat} {node : Node} :
    after.node? id = some node ↔ before.node? id = some node ∧ id ≠ dropped := by
  by_cases same : id = dropped
  · subst same
    simp [merges.node?_dropped]
  · simp [merges.node? same, same]

/-- A node that is shown as an input is an input. -/
theorem keptInput (merges : before.MergesInput after kept dropped) (sound : before.Sound) :
    ∃ node port, before.node? kept = some node ∧ node.op = .input port := by
  obtain ⟨entry, mem, rfl⟩ := List.mem_map.1 merges.keptShown
  obtain ⟨node, port, found, op, -⟩ := sound.inputNamed entry (List.mem_filter.1 mem).1
  exact ⟨node, port, found, op⟩

/-- Merging an input into another one leads to no cycle, since nothing leads to an input. -/
theorem acyclic (merges : before.MergesInput after kept dropped) (sound : before.Sound)
    (acyclic : before.Acyclic) : after.Acyclic := by
  obtain ⟨node, port, found, op⟩ := merges.keptInput sound
  have unled (id : Nat) : ¬ before.Leads id kept := by
    rintro ⟨source, ⟨_, place⟩, linked, -, rfl⟩
    rw [sound.source?_input found op place] at linked
    cases linked
  refine acyclic_of_new_edges kept (before.Leads dropped) acyclic ?_ fun id led path => ?_
  · rintro a b ⟨source, target, linked, rfl, rfl⟩
    rw [merges.source? sound] at linked
    split at linked
    · rename_i dropped
      cases linked
      exact .inr ⟨rfl, leads_of_source? dropped⟩
    · exact .inl (leads_of_source? linked)
  · rcases path.cases_tail with same | ⟨last, -, leads⟩
    · exact unled dropped (same ▸ led)
    · exact unled last leads

/-- Merging an input into another one leaves all outputs that are shown. -/
theorem shownOutput? (merges : before.MergesInput after kept dropped) (sound : before.Sound)
    (id : Nat) : after.shownOutput? id = before.shownOutput? id := by
  refine Option.ext fun ⟨node, port⟩ => ?_
  rw [shownOutput?_eq_some_iff, shownOutput?_eq_some_iff, merges.node?_eq_some_iff]
  refine ⟨fun shown => ⟨shown.1.1, shown.2⟩, fun shown => ⟨⟨shown.1, ?_⟩, shown.2⟩⟩
  rintro rfl
  obtain ⟨entry, mem, same⟩ := List.mem_map.1 merges.droppedShown
  obtain ⟨node', port', found, op, -⟩ := sound.inputNamed entry (List.mem_filter.1 mem).1
  rw [same, shown.1, Option.some.injEq] at found
  rw [← found, shown.2.1] at op
  cases op

/-- A well-made definition stays so when an input is merged into another one. -/
theorem wellMade (merges : before.MergesInput after kept dropped) (made : before.WellMade) :
    after.WellMade where
  toSound := merges.sound
  layouts id node found := made.layouts id node (merges.node?_eq_some_iff.1 found).1
  listed id node port found op := by
    obtain ⟨found, apart⟩ := merges.node?_eq_some_iff.1 found
    exact merges.input?_eq_some_iff.2 ⟨made.listed id node port found op, apart⟩
  acyclic := merges.acyclic made.toSound made.acyclic
  apart id id' shown shown' here there := by
    rw [merges.shownOutput? made.toSound] at here there
    exact made.apart id id' shown shown' here there

/-- Nodes read the same where both inputs have the same value. -/
theorem reads_eq (merges : before.MergesInput after kept dropped) (sound : before.Sound)
    {valuation : Nat → List Value} (same : valuation kept = valuation dropped) (id : Nat)
    (node : Node) : after.reads valuation id node = before.reads valuation id node := by
  unfold reads
  refine List.map_congr_left fun (socket, place) _ => ?_
  dsimp only
  rw [merges.source? sound]
  split
  · rename_i linked
    rw [linked, Option.bind_some, Option.bind_some, same]
  · rfl

/-- The same is delivered where both inputs have the same value. -/
theorem delivers_iff (merges : before.MergesInput after kept dropped) (sound : before.Sound)
    {valuation : Nat → List Value} (same : valuation kept = valuation dropped) (name : String)
    (value : Value) :
    before.Delivers valuation name value ↔ after.Delivers valuation name value := by
  refine exists_congr fun id => ?_
  simp only [delivery?, merges.shownOutput? sound, merges.reads_eq sound same]

end MergesInput

section

variable {setting : Setting} {early late : Assignment} {keptPort droppedPort : InputPort}
  {value : Value}

/-- In a valid valuation two inputs of one type have the value that they are both given. -/
theorem GivesAlike.valued (alike : before.GivesAlike early kept dropped keptPort droppedPort value)
    {valuation : Nat → List Value} (valued : Valued { setting with graph := before } early valuation) :
    valuation kept = [value.convert droppedPort.type] ∧
      valuation dropped = [value.convert droppedPort.type] := by
  obtain ⟨keptNode, keptFound, keptOp⟩ := alike.keptInput
  obtain ⟨droppedNode, droppedFound, droppedOp⟩ := alike.droppedInput
  have first := valued kept keptNode keptFound
  have second := valued dropped droppedNode droppedFound
  simp only [evalNode, keptOp, alike.keptValue, alike.type, Option.getD_some, Except.ok.injEq] at first
  simp only [evalNode, droppedOp, alike.droppedValue, Option.getD_some, Except.ok.injEq] at second
  exact ⟨first.symm, second.symm⟩

/-- The input that is dropped is listed under its name, and under no other one. -/
theorem GivesAlike.input?_eq_dropped_iff
    (alike : before.GivesAlike early kept dropped keptPort droppedPort value)
    (standard : before.Standard) {name : String} :
    before.input? name = some dropped ↔ name = droppedPort.name := by
  obtain ⟨node, found, op⟩ := alike.droppedInput
  constructor
  · intro listed
    obtain ⟨node', port, found', op', rfl⟩ := standard.input?_spec listed
    rw [found, Option.some.injEq] at found'
    rw [← found', op, NodeOp.input.injEq] at op'
    rw [op']
  · rintro rfl
    exact standard.listed dropped node droppedPort found op

section

variable (merges : before.MergesInput after kept dropped) (made : before.WellMade)
  (alike : before.GivesAlike early kept dropped keptPort droppedPort value)
  (left : ∀ name, late.get? name = if name = droppedPort.name then none else early.get? name)
include merges made alike left

/-- The values that are given are admitted if the others are without the input that goes. -/
theorem MergesInput.admits_iff : Setting.Admits { setting with graph := before } early ↔
    Setting.Admits { setting with graph := after } late := by
  have goes (name : String) : name ≠ droppedPort.name ↔ before.input? name ≠ some dropped :=
    not_congr (alike.input?_eq_dropped_iff made.toStandard).symm
  have listed (name : String) : (after.input? name).isSome = true ↔
      (before.input? name).isSome = true ∧ name ≠ droppedPort.name := by
    simp only [goes, Option.isSome_iff_exists, merges.input?_eq_some_iff]
    constructor
    · rintro ⟨id, here, apart⟩
      exact ⟨⟨id, here⟩, fun same => apart (Option.some.inj (here.symm.trans same))⟩
    · rintro ⟨⟨id, here⟩, apart⟩
      exact ⟨id, here, fun same => apart (same ▸ here)⟩
  have shown (name : String) : name ∈ after.exposedInputs.map Prod.fst ↔
      name ∈ before.exposedInputs.map Prod.fst ∧ name ≠ droppedPort.name := by
    simp only [goes, mem_exposedInputs, merges.input?_eq_some_iff]
    constructor
    · rintro ⟨id, ⟨here, apart⟩, exposed⟩
      rw [isExposed, merges.node? apart] at exposed
      exact ⟨⟨id, here, exposed⟩, fun same => apart (Option.some.inj (here.symm.trans same))⟩
    · rintro ⟨⟨id, here, exposed⟩, apart⟩
      have apart : id ≠ dropped := fun same => apart (same ▸ here)
      exact ⟨id, ⟨here, apart⟩, by rwa [isExposed, merges.node? apart]⟩
  have given (name : String) : late.contains name = true ↔
      early.contains name = true ∧ name ≠ droppedPort.name := by
    rw [← Table.isSome_get?, ← Table.isSome_get?, left]
    by_cases gone : name = droppedPort.name
    · simp [gone]
    · simp [gone]
  have here : early.contains droppedPort.name = true := by
    rw [← Table.isSome_get?, alike.droppedValue]
    rfl
  have input : (before.input? droppedPort.name).isSome = true := by
    rw [(alike.input?_eq_dropped_iff made.toStandard).2 rfl]
    rfl
  constructor
  · rintro ⟨known, all⟩
    refine ⟨fun name mem => ?_, fun strict name mem => ?_⟩
    · obtain ⟨mem, apart⟩ := (given name).1 mem
      exact (listed name).2 ⟨known name mem, apart⟩
    · obtain ⟨mem, apart⟩ := (shown name).1 mem
      exact (given name).2 ⟨all strict name mem, apart⟩
  · rintro ⟨known, all⟩
    refine ⟨fun name mem => ?_, fun strict name mem => ?_⟩
    · by_cases same : name = droppedPort.name
      · rwa [same]
      · exact ((listed name).1 (known name ((given name).2 ⟨mem, same⟩))).1
    · by_cases same : name = droppedPort.name
      · rwa [same]
      · exact ((given name).1 (all strict name ((shown name).2 ⟨mem, same⟩))).1

/-- A node that is left computes the same from the values that are left. -/
theorem MergesInput.evalNode_eq {id : Nat} {node : Node} (found : after.node? id = some node)
    (inputs : List Value) : evalNode { setting with graph := after } late id node inputs =
      evalNode { setting with graph := before } early id node inputs := by
  unfold evalNode
  split
  · rename_i port op
    obtain ⟨found, apart⟩ := merges.node?_eq_some_iff.1 found
    have other : port.name ≠ droppedPort.name := by
      rw [ne_eq, ← alike.input?_eq_dropped_iff made.toStandard, made.listed id node port found op]
      exact fun same => apart (Option.some.inj same)
    rw [left, if_neg other]
  all_goals rfl

variable (setting) in
/-- A definition computes the same when an input is merged into another one of its type, and the
value that both are given is given to this one alone. -/
theorem MergesInput.concur : Concur Assignment.Equal
    (Setting.evaluate { setting with graph := before } early)
    (Setting.evaluate { setting with graph := after } late) := by
  refine Setting.concur_of_valued made.orderable (merges.wellMade made).orderable
    (merges.admits_iff made alike left) (fun valuation valued => ?_) fun valuation' valued' => ?_
  · obtain ⟨keptHas, droppedHas⟩ := alike.valued valued
    have same := keptHas.trans droppedHas.symm
    refine ⟨valuation, fun id node found => ?_, merges.delivers_iff made.toSound same⟩
    rw [merges.evalNode_eq made alike left found]
    exact merges.reads_eq made.toSound same id node ▸
      valued id node (merges.node?_eq_some_iff.1 found).1
  · obtain ⟨keptNode, keptFound, keptOp⟩ := alike.keptInput
    obtain ⟨droppedNode, droppedFound, droppedOp⟩ := alike.droppedInput
    have kept' : after.node? kept = some keptNode :=
      merges.node?_eq_some_iff.2 ⟨keptFound, merges.apart⟩
    have other : keptPort.name ≠ droppedPort.name := by
      rw [ne_eq, ← alike.input?_eq_dropped_iff made.toStandard,
        made.listed kept keptNode keptPort keptFound keptOp]
      exact fun same => merges.apart (Option.some.inj same)
    have keptHas : valuation' kept = [value.convert droppedPort.type] := by
      have computed := valued' kept keptNode kept'
      simp only [evalNode, keptOp, left, if_neg other, alike.keptValue, alike.type, Option.getD_some,
        Except.ok.injEq] at computed
      exact computed.symm
    -- The input that is gone had the value of the one that is kept.
    obtain ⟨valuation, extended⟩ : ∃ valuation : Nat → List Value, valuation = fun id =>
      if id = dropped then valuation' kept else valuation' id := ⟨_, rfl⟩
    have same : valuation kept = valuation dropped := by simp [extended]
    refine ⟨valuation, fun id node found => ?_⟩
    rw [← merges.reads_eq made.toSound same]
    have unread : after.reads valuation id node = after.reads valuation' id node := by
      refine reads_congr node fun place source linked => ?_
      have here := (merges.sound.isSome_of_leads (leads_of_source? linked)).1
      rw [extended]
      refine if_neg fun gone => ?_
      rw [gone, merges.node?_dropped] at here
      cases here
    rw [unread]
    by_cases gone : id = dropped
    · subst gone
      rw [droppedFound, Option.some.injEq] at found
      subst found
      simp only [evalNode, droppedOp, alike.droppedValue, Option.getD_some, extended, if_true, keptHas]
    · have found' := merges.node?_eq_some_iff.2 ⟨found, gone⟩
      rw [← merges.evalNode_eq made alike left found']
      simp only [extended, if_neg gone]
      exact valued' id node found'

end

end

end

end Graph

end Shadeloom
