import Mathlib
import Shadeloom.Proofs.Build.Duplicates
/-!
# What the steps of a cleanup settle

Each step of a cleanup leaves nothing to do for itself: no output is left to relink, every input is
read and every output fed, what is to be hidden is, constants feed only sockets that stay linked, and
the defaults and the order of the inputs are those asked for. Thinning a graph out keeps it so.
-/
namespace Shadeloom

namespace Graph

/-- Whether no output is left to relink. -/
def Relinked (graph : Graph) : Prop :=
  ∀ output ∈ graph.outputs, ∀ input source, ¬ graph.Relinkable output input source

/-- Whether every input is read. -/
def InputsRead (graph : Graph) : Prop :=
  ∀ name id, graph.input? name = some id → ¬ graph.Idle id

/-- Whether every output is fed. -/
def OutputsFed (graph : Graph) : Prop :=
  ∀ id ∈ graph.outputs, ∃ place source, graph.source? ⟨id, place⟩ = some source

/-- Whether every port that is to be hidden is. -/
def PortsHidden (graph : Graph) (declarations : Declarations) : Prop :=
  ∀ id ∈ Cleanup.portsToHide declarations graph, graph.isExposed id = false

/-- Whether a constant feeds something, but only sockets that stay linked. -/
def FoldedAt (graph : Graph) (id : Nat) : Prop :=
  ¬ graph.Idle id ∧ ∀ target source, graph.source? target = some source → source.node = id →
    ∃ receiver, graph.node? target.node = some receiver ∧ receiver.op.isBoundary = true

/-- Whether every constant feeds something, but only sockets that stay linked. -/
def ConstantsFolded (graph : Graph) : Prop :=
  ∀ id node value, graph.node? id = some node → node.op = .constant value → graph.FoldedAt id

/-- Whether the input of a name, if there is one, has a default. -/
def HasDefault (graph : Graph) (entry : String × Float) : Prop :=
  ∀ id node, graph.input? entry.1 = some id → graph.node? id = some node →
    node.setPortDefault? (.scalar entry.2) = some node

variable {before after : Graph}

/-- A port is to be hidden when it is to be hidden as an input or as an output. -/
theorem mem_portsToHide {graph : Graph} {declarations : Declarations} {id : Nat} :
    id ∈ Cleanup.portsToHide declarations graph ↔
      (∃ name, graph.input? name = some id ∧
        Cleanup.isHidden declarations.inputs name = true) ∨
      id ∈ graph.outputs ∧ ∃ name, Cleanup.portName? graph id = some name ∧
        Cleanup.isHidden declarations.outputs name = true := by
  simp only [Cleanup.portsToHide, List.mem_append, List.mem_map, List.mem_filter, Prod.exists,
    exists_eq_right, Option.any_eq_true, input?, Table.get?_eq_some_iff]

/-- No output is left to relink when a graph is thinned out. -/
theorem Relinked.thins (relinked : before.Relinked) (thins : before.Thins after) :
    after.Relinked := by
  rintro output mem input source ⟨name, id, named, listed, rfl, linked, reader, read⟩
  obtain ⟨place, read'⟩ := thins.linked reader _ read
  rw [thins.fed output mem] at linked
  exact relinked output (thins.output output mem) _ source
    ⟨name, id, thins.portName? named, thins.input name id listed, rfl, linked, _, read'⟩

/-- Every input is read when a graph is thinned out. -/
theorem InputsRead.thins (read : before.InputsRead) (thins : before.Thins after) :
    after.InputsRead := fun name id listed idle =>
  read name id (thins.input name id listed) (thins.read name id listed idle)

/-- Every output is fed when a graph is thinned out. -/
theorem OutputsFed.thins (fed : before.OutputsFed) (thins : before.Thins after) :
    after.OutputsFed := fun id mem => by
  obtain ⟨place, source, linked⟩ := fed id (thins.output id mem)
  exact ⟨place, source, (thins.fed id mem place).trans linked⟩

/-- What is to be hidden in a graph that is thinned out was to be hidden before. -/
theorem Thins.portsToHide (thins : before.Thins after) {declarations : Declarations} {id : Nat}
    (mem : id ∈ Cleanup.portsToHide declarations after) :
    id ∈ Cleanup.portsToHide declarations before := by
  rw [mem_portsToHide] at mem ⊢
  rcases mem with ⟨name, listed, hides⟩ | ⟨listed, name, named, hides⟩
  · exact .inl ⟨name, thins.input name id listed, hides⟩
  · exact .inr ⟨thins.output id listed, name, thins.portName? named, hides⟩

/-- Ports stay hidden when a graph is thinned out. -/
theorem PortsHidden.thins {declarations : Declarations} (hidden : before.PortsHidden declarations)
    (thins : before.Thins after) : after.PortsHidden declarations := fun id mem =>
  thins.isExposed (hidden id (thins.portsToHide mem))

/-- A constant that feeds only sockets that stay linked does so in a graph that is pruned, if it
still feeds what it did. -/
theorem FoldedAt.prunes {id : Nat} (folded : before.FoldedAt id) (prunes : before.Prunes after)
    (same : ∀ target source, before.source? target = some source → source.node = id →
      after.source? target = some source) : after.FoldedAt id := by
  refine ⟨fun idle => folded.1 fun target source linked leaves =>
    idle target source (same target source linked leaves) leaves, fun target source linked leaves => ?_⟩
  obtain ⟨receiver, received, boundary⟩ := folded.2 target source (prunes.kept _ _ linked) leaves
  obtain ⟨new, found, -⟩ := prunes.sound.hasInput linked
  obtain ⟨old, found', succeeds⟩ := prunes.node _ new found
  rw [received, Option.some.injEq] at found'
  exact ⟨new, found, by rw [succeeds.isBoundary, ← found', boundary]⟩

/-- Constants stay folded when a graph is pruned and nothing is unlinked. -/
theorem ConstantsFolded.prunes (folded : before.ConstantsFolded) (prunes : before.Prunes after)
    (same : ∀ target, after.source? target = before.source? target) : after.ConstantsFolded := by
  intro id node value found op
  obtain ⟨old, found', succeeds⟩ := prunes.node id node found
  obtain ⟨value', op'⟩ : ∃ value', old.op = .constant value' := by
    have kind := succeeds.kind
    rw [op] at kind
    cases role : old.op with
    | constant value' => exact ⟨value', rfl⟩
    | _ => rw [role] at kind; cases kind
  exact (folded id old value' found' op').prunes prunes fun target source linked _ =>
    (same target).trans linked

/-- An output is not left to relink when others are, and neither is the one that has been. -/
theorem Relinks.not_relinkable {input source : Socket} (relinks : before.Relinks after input source)
    {output : Nat} (relinkable : before.Relinkable output input source)
    (free : ¬ before.Entangled input source) {other : Nat}
    (nothing : other = output ∨ ∀ input source, ¬ before.Relinkable other input source)
    (input' source' : Socket) : ¬ after.Relinkable other input' source' := by
  rintro ⟨name', id', named', listed', rfl, linked', reader, read⟩
  obtain ⟨name, id, named, listed, rfl, linked, -⟩ := relinkable
  have named' : Cleanup.portName? before other = some name' := by
    rwa [Cleanup.portName?, relinks.node?] at named'
  have listed' : before.input? name' = some id' := by rwa [input?, relinks.inputs] at listed'
  rw [relinks.source?] at read
  rcases nothing with rfl | nothing
  · rw [named, Option.some.injEq] at named'
    rw [← named', listed, Option.some.injEq] at listed'
    subst listed'
    split at read
    · exact free (.inl (congrArg Socket.node (Option.some.inj read)))
    · rename_i apart
      exact apart read
  · obtain ⟨old, fed⟩ : ∃ old, before.source? ⟨other, 0⟩ = some old := by
      rw [relinks.source?] at linked'
      split at linked'
      · exact ⟨_, ‹_›⟩
      · exact ⟨_, linked'⟩
    split at read
    · -- The relinked output read what its readers read now.
      exact nothing ⟨id', 0⟩ old ⟨name', id', named', listed', rfl, fed, ⟨output, 0⟩,
        linked.trans read⟩
    · exact nothing ⟨id', 0⟩ old ⟨name', id', named', listed', rfl, fed, reader, read⟩

end Graph

/-- Inputs of instances stay merged when a graph is pruned. -/
theorem Site.Merged.prunes {before after : Site} (merged : before.Merged)
    (library : after.library = before.library) (prunes : before.graph.Prunes after.graph) :
    after.Merged := by
  intro id node group found op once definition stored a b source ab here there
  obtain ⟨old, found', succeeds⟩ := prunes.node id node found
  have isInstance := succeeds.instanceOf group
  rw [NodeOp.isInstanceOf_iff.2 op, eq_comm, NodeOp.isInstanceOf_iff] at isInstance
  rw [Cleanup.useCount_congr (prunes.instanceCount group) (by rw [library])] at once
  rw [library] at stored
  exact merged id old group found' isInstance once definition stored a b source ab
    (prunes.kept _ source here) (prunes.kept _ source there)

namespace Cleanup

variable {site after : Site} {total : Nat}

/-- Relinking leaves no output to relink. -/
theorem relinkOutputs_spec (shaped : site.graph.Shaped)
    (done : relinkOutputs site = .ok total after) :
    after.library = site.library ∧ after.graph.Shaped ∧ after.graph.Relinked := by
  obtain ⟨_, _, got, counted⟩ := bind_eq_ok_iff.1 done
  cases got
  obtain ⟨library, shaped, outputs, relinked⟩ := count_carries relinkOutput
    (fun rest now => now.library = site.library ∧ now.graph.Shaped ∧
      now.graph.outputs = site.graph.outputs ∧ ∀ output ∈ site.graph.outputs, output ∈ rest ∨
        ∀ input source, ¬ now.graph.Relinkable output input source)
    (fun output rest now changed later ⟨library, shaped, outputs, relinked⟩ stepped => by
      by_cases relinkable : ∃ input source, now.graph.Relinkable output input source
      · obtain ⟨input, source, relinkable⟩ := relinkable
        rcases relinkOutput_of_relinkable shaped.toSound relinkable with
          ⟨-, error, -, refused⟩ | ⟨free, graph, done, relinks⟩
        · rw [refused] at stepped
          cases stepped
        · rw [done] at stepped
          cases stepped
          refine ⟨library, ⟨relinks.sound, fun id node found =>
            shaped.nodes id node (relinks.node? id ▸ found)⟩, relinks.outputs.trans outputs,
            fun other mem => ?_⟩
          rcases relinked other mem with here | nothing
          · rcases List.mem_cons.1 here with same | here
            · exact .inr (relinks.not_relinkable relinkable free (.inl same))
            · exact .inl here
          · exact .inr (relinks.not_relinkable relinkable free (.inr nothing))
      · have nothing (input source : Socket) : ¬ now.graph.Relinkable output input source :=
          fun here => relinkable ⟨input, source, here⟩
        rw [relinkOutput_of_not_relinkable shaped.toSound nothing] at stepped
        cases stepped
        refine ⟨library, shaped, outputs, fun other mem => ?_⟩
        rcases relinked other mem with here | done
        · rcases List.mem_cons.1 here with same | here
          · exact .inr (same ▸ nothing)
          · exact .inl here
        · exact .inr done)
    counted ⟨rfl, shaped, rfl, fun output mem => .inl mem⟩
  refine ⟨library, shaped, fun output mem => ?_⟩
  rcases relinked output (outputs ▸ mem) with here | nothing
  · cases here
  · exact nothing

/-- A node is taken away exactly when it passes the test. -/
theorem removeIf_eq_ok {test : Graph → Nat → Bool} {id : Nat} {changed : Bool}
    (sound : site.graph.Sound) (done : removeIf test id site = .ok changed after) :
    test site.graph id = false ∧ after = site ∨
      test site.graph id = true ∧ after.library = site.library ∧
        Graph.Removes site.graph after.graph id := by
  obtain ⟨_, _, got, done⟩ := bind_eq_ok_iff.1 done
  cases got
  cases passes : test site.graph id with
  | false =>
    rw [passes] at done
    cases done
    exact .inl ⟨rfl, rfl⟩
  | true =>
    rw [passes] at done
    obtain ⟨_, removed, removes, same⟩ := bind_eq_ok_iff.1 done
    cases same
    obtain ⟨graph, taken, rfl⟩ := edit_eq_ok_iff.1 removes
    obtain ⟨⟨node, graph⟩, taken', rfl⟩ := map_eq_ok_iff.1 taken
    exact .inr ⟨rfl, rfl, sound.removeNode taken'⟩

/-- Taking away the ports that pass a test prunes a graph and leaves no port that passes it, if
pruning makes no other port pass it. -/
theorem removeAll_spec (test : Graph → Nat → Bool) (listed : Graph → Nat → Prop) {ids : List Nat}
    (sound : site.graph.Sound)
    (fewer : ∀ before after id, before.Prunes after → listed after id → listed before id)
    (removing : ∀ before after id, site.graph.Prunes before → id ∈ ids → test before id = true →
      Graph.Removes before after id → before.Prunes after ∧ ¬ listed after id)
    (stays : ∀ before after id, before.Sound → before.Prunes after → listed after id →
      test before id = false → test after id = false)
    (done : count ids (removeIf test) site = .ok total after) :
    after.library = site.library ∧ site.graph.Prunes after.graph ∧
      ∀ id ∈ ids, listed after.graph id → test after.graph id = false := by
  obtain ⟨library, prunes, -, settled⟩ := count_carries (removeIf test)
    (fun rest now => now.library = site.library ∧ site.graph.Prunes now.graph ∧
      (∀ id ∈ rest, id ∈ ids) ∧
      ∀ id ∈ ids, listed now.graph id → id ∈ rest ∨ test now.graph id = false)
    (fun id rest now changed later ⟨library, prunes, sub, settled⟩ stepped => by
      have sub' : ∀ other ∈ rest, other ∈ ids := fun other mem => sub other (by simp [mem])
      rcases removeIf_eq_ok prunes.sound stepped with ⟨fails, rfl⟩ | ⟨passes, library', removes⟩
      · refine ⟨library, prunes, sub', fun other mem here => ?_⟩
        rcases settled other mem here with there | done
        · rcases List.mem_cons.1 there with same | there
          · exact .inr (same ▸ fails)
          · exact .inl there
        · exact .inr done
      · obtain ⟨step, gone⟩ := removing _ _ id prunes (sub id (by simp)) passes removes
        refine ⟨library'.trans library, prunes.trans step, sub', fun other mem here => ?_⟩
        rcases settled other mem (fewer _ _ other step here) with there | done
        · rcases List.mem_cons.1 there with same | there
          · exact absurd (same ▸ here) gone
          · exact .inl there
        · exact .inr (stays _ _ other prunes.sound step here done))
    done ⟨rfl, sound.prunes, fun _ => id, fun _ mem _ => .inl mem⟩
  refine ⟨library, prunes, fun id mem here => ?_⟩
  rcases settled id mem here with there | fails
  · cases there
  · exact fails

/-- Taking away unused inputs prunes a graph and leaves only inputs that are read. -/
theorem removeUnusedInputs_spec (sound : site.graph.Sound)
    (done : removeUnusedInputs site = .ok total after) :
    after.library = site.library ∧ site.graph.Prunes after.graph ∧ after.graph.InputsRead := by
  obtain ⟨library, prunes, settled⟩ := removeAll_spec
    (fun graph id => (graph.outgoing id).isEmpty) (fun graph id => ∃ name, graph.input? name = some id)
    sound (fun before after id prunes ⟨name, listed⟩ => ⟨name, prunes.input name id listed⟩)
    (fun before after id prunes mem unread removes => by
      obtain ⟨entry, listed, rfl⟩ := List.mem_map.1 mem
      obtain ⟨node, port, found, input, -⟩ := sound.inputNamed entry listed
      obtain ⟨new, found'⟩ := Option.isSome_iff_exists.1 removes.found
      obtain ⟨old, found'', succeeds⟩ := prunes.node _ new found'
      rw [found, Option.some.injEq] at found''
      refine ⟨removes.prunes found' (fun group => ?_)
        ((prunes.sound.isEmpty_outgoing entry.2).1 unread) (fun place => ?_), ?_⟩
      · rw [succeeds.instanceOf, ← found'', input]
        rfl
      · exact Option.eq_none_iff_forall_not_mem.2 fun source linked =>
          nomatch (sound.source?_input found input place).symm.trans (prunes.kept _ source linked)
      · rintro ⟨name, listed⟩
        rw [Graph.input?, removes.inputs, Table.get?_filter, Option.filter_eq_some_iff] at listed
        simp at listed)
    (fun before after id sound prunes ⟨name, listed⟩ read => by
      rw [Bool.eq_false_iff, ne_eq, prunes.sound.isEmpty_outgoing]
      rw [Bool.eq_false_iff, ne_eq, sound.isEmpty_outgoing] at read
      exact fun idle => read (prunes.read name id listed idle))
    done
  refine ⟨library, prunes, fun name id listed idle => ?_⟩
  have mem : id ∈ site.graph.inputs.values :=
    List.mem_map.2 ⟨(name, id), Table.get?_eq_some_iff.1 (prunes.input name id listed), rfl⟩
  have read := settled id mem ⟨name, listed⟩
  rw [(prunes.sound.isEmpty_outgoing id).2 idle] at read
  cases read

/-- Taking away unused outputs prunes a graph and leaves only outputs that are fed. -/
theorem removeUnusedOutputs_spec (shaped : site.graph.Shaped)
    (done : removeUnusedOutputs site = .ok total after) :
    after.library = site.library ∧ site.graph.Prunes after.graph ∧ after.graph.OutputsFed := by
  obtain ⟨library, prunes, settled⟩ := removeAll_spec
    (fun graph id => (graph.incoming id).isEmpty) (fun graph id => id ∈ graph.outputs)
    shaped.toSound (fun before after id prunes => prunes.output id)
    (fun before after id prunes mem unfed removes => by
      obtain ⟨node, port, found, output⟩ := shaped.outputNamed id mem
      obtain ⟨new, found'⟩ := Option.isSome_iff_exists.1 removes.found
      obtain ⟨old, found'', succeeds⟩ := prunes.node _ new found'
      rw [found, Option.some.injEq] at found''
      refine ⟨removes.prunes found' (fun group => ?_) (fun target source linked => ?_)
        ((prunes.sound.isEmpty_incoming id).1 unfed), fun listed => ?_⟩
      · rw [succeeds.instanceOf, ← found'', output]
        rfl
      · exact shaped.idle_output found (by rw [output]; rfl) target source
          (prunes.kept _ source linked)
      · rw [removes.outputs] at listed
        simp at listed)
    (fun before after id sound prunes listed fed => by
      rw [Bool.eq_false_iff, ne_eq, prunes.sound.isEmpty_incoming]
      rw [Bool.eq_false_iff, ne_eq, sound.isEmpty_incoming] at fed
      exact fun unfed => fed fun place => (prunes.fed id listed place).symm.trans (unfed place))
    done
  refine ⟨library, prunes, fun id listed => ?_⟩
  have fed := settled id (prunes.output id listed) listed
  rw [Bool.eq_false_iff, ne_eq, prunes.sound.isEmpty_incoming, not_forall] at fed
  obtain ⟨place, linked⟩ := fed
  exact ⟨place, Option.ne_none_iff_exists'.1 linked⟩

/-- Hiding ports prunes a graph and leaves no port to hide. -/
theorem hidePorts_spec {declarations : Declarations} (sound : site.graph.Sound)
    (done : hidePorts declarations site = .ok total after) :
    after.library = site.library ∧ site.graph.Prunes after.graph ∧
      after.graph.PortsHidden declarations := by
  obtain ⟨total', graph, done', hides⟩ := hidePorts_ok sound declarations
  rw [done'] at done
  cases done
  have prunes := Graph.prunes_of_hides hides
  refine ⟨rfl, prunes, fun id mem => ?_⟩
  have listed := prunes.portsToHide mem
  unfold Graph.isExposed
  rw [hides.node?]
  cases site.graph.node? id with
  | none => rfl
  | some node => simp only [Option.map_some, if_pos listed, Option.any_some, Node.isExposed_hidden]

/-- What is left to do while the links of a constant are folded. -/
structure FoldingLinks (site : Site) (id : Nat) (listed : List Link) (now : Site) : Prop where
  library : now.library = site.library
  prunes : site.graph.Prunes now.graph
  distinct : listed.Nodup
  links : ∀ link ∈ listed, link ∈ now.graph.links ∧ link.source.node = id
  ops : ∀ other node, site.graph.node? other = some node →
    ∃ node', now.graph.node? other = some node' ∧ node'.op = node.op
  left : ∀ target source, now.graph.source? target = some source → source.node = id →
    (∃ link ∈ listed, link.target = target) ∨
      ∃ receiver, now.graph.node? target.node = some receiver ∧ receiver.op.isBoundary = true
  others : ∀ target source, site.graph.source? target = some source → source.node ≠ id →
    now.graph.source? target = some source

/-- Before the first link is folded all links that leave the constant are left. -/
theorem foldingLinks_start (sound : site.graph.Sound) (id : Nat) :
    FoldingLinks site id (site.graph.outgoing id) site where
  library := rfl
  prunes := sound.prunes
  distinct := by
    rw [sound.outgoing_eq]
    exact (List.Nodup.of_map _ sound.numbers.used_distinct).filter _
  links link mem := by
    rw [sound.outgoing_eq] at mem
    simpa using List.mem_filter.1 mem
  ops _ node here := ⟨node, here, rfl⟩
  left target source linked leaves := by
    obtain ⟨link, mem, rfl, rfl⟩ := sound.source?_eq_some_iff.1 linked
    refine .inl ⟨link, ?_, rfl⟩
    rw [sound.outgoing_eq]
    exact List.mem_filter.2 ⟨mem, by simpa using leaves⟩
  others _ _ linked _ := linked

namespace FoldingLinks

variable {now : Site} {id : Nat} {link : Link} {rest : List Link}
  (folding : FoldingLinks site id (link :: rest) now)
include folding

/-- The first link that is left stays when it feeds a socket that stays linked. -/
theorem keep (boundary : ∃ receiver, now.graph.node? link.target.node = some receiver ∧
    receiver.op.isBoundary = true) : FoldingLinks site id rest now := by
  refine { folding with
    distinct := (List.nodup_cons.1 folding.distinct).2
    links := fun other mem => folding.links other (by simp [mem])
    left := fun target source linked leaves => ?_ }
  rcases folding.left target source linked leaves with ⟨other, mem, rfl⟩ | settled
  · rcases List.mem_cons.1 mem with rfl | mem
    · exact .inr boundary
    · exact .inl ⟨other, mem, rfl⟩
  · exact .inr settled

/-- The first link that is left is folded, and the others stay. -/
theorem fold {graph : Graph} {value : Float} (folds : now.graph.Folds graph link.target value)
    (stay : ∀ other ∈ now.graph.links, other ≠ link → other ∈ graph.links) :
    FoldingLinks site id rest { now with graph } := by
  have sound := folding.prunes.sound
  obtain ⟨linked, leaves⟩ := folding.links link (by simp)
  obtain ⟨first, distinct⟩ := List.nodup_cons.1 folding.distinct
  refine ⟨folding.library, folding.prunes.trans (folds.prunes sound), distinct,
    fun other mem => ?_, fun other old here => ?_, fun target source linked' leaves' => ?_,
    fun target source linked' apart => ?_⟩
  · obtain ⟨there, leaves⟩ := folding.links other (by simp [mem])
    exact ⟨stay other there (by rintro rfl; exact first mem), leaves⟩
  · obtain ⟨between, here, op⟩ := folding.ops other old here
    obtain ⟨last, there, op'⟩ := folds.op here
    exact ⟨last, there, op'.trans op⟩
  · rw [folds.source?] at linked'
    split at linked'
    · cases linked'
    · rename_i elsewhere
      rcases folding.left target source linked' leaves' with ⟨other, mem, rfl⟩ | ⟨receiver, here, is⟩
      · rcases List.mem_cons.1 mem with rfl | mem
        · exact absurd rfl elsewhere
        · exact .inl ⟨other, mem, rfl⟩
      · obtain ⟨receiver', there, op'⟩ := folds.op here
        exact .inr ⟨receiver', there, op' ▸ is⟩
  · have before := folding.others target source linked' apart
    rw [folds.source?, if_neg]
    · exact before
    · rintro rfl
      rw [sound.source?_eq_some_iff.2 ⟨link, linked, rfl, rfl⟩, Option.some.injEq] at before
      exact apart (before ▸ leaves)

/-- The first link that is left is folded or stays, and nothing else changes. -/
theorem step {node : Node} {value : Float} (found : site.graph.node? id = some node)
    (constant : node.op = .constant value) (done : foldLink value link now = .ok () after) :
    FoldingLinks site id rest after := by
  obtain ⟨linked, leaves⟩ := folding.links link (by simp)
  obtain ⟨sender, found', op⟩ := folding.ops id node found
  obtain ⟨graph, folded, step, stay⟩ := foldLink_ok folding.prunes.sound linked (leaves ▸ found')
    (op.trans constant)
  rw [folded] at done
  cases done
  rcases step with ⟨rfl, boundary⟩ | folds
  · exact folding.keep boundary
  · exact folding.fold folds stay

end FoldingLinks

/-- Folding the links of a constant prunes a graph, leaves the constant only sockets that stay
linked, and unlinks nothing else. -/
theorem foldLinks_spec {id : Nat} {node : Node} {value : Float} (sound : site.graph.Sound)
    (found : site.graph.node? id = some node) (constant : node.op = .constant value)
    (done : (site.graph.outgoing id).forM (foldLink value) site = .ok () after) :
    after.library = site.library ∧ site.graph.Prunes after.graph ∧
      (∀ target source, after.graph.source? target = some source → source.node = id →
        ∃ receiver, after.graph.node? target.node = some receiver ∧
          receiver.op.isBoundary = true) ∧
      (∀ id node, site.graph.node? id = some node →
        ∃ node', after.graph.node? id = some node' ∧ node'.op = node.op) ∧
      ∀ target source, site.graph.source? target = some source → source.node ≠ id →
        after.graph.source? target = some source := by
  have folded := forM_carries (foldLink value) (FoldingLinks site id)
    (fun link rest now later folding stepped => folding.step found constant stepped) done
    (foldingLinks_start sound id)
  refine ⟨folded.library, folded.prunes, fun target source linked leaves => ?_, folded.ops,
    folded.others⟩
  rcases folded.left target source linked leaves with ⟨link, mem, -⟩ | boundary
  · cases mem
  · exact boundary

/-- What is left to do while constants are folded. -/
structure FoldingAll (site : Site) (listed : List (Nat × Float)) (now : Site) : Prop where
  library : now.library = site.library
  shaped : now.graph.Shaped
  prunes : site.graph.Prunes now.graph
  distinct : (listed.map Prod.fst).Nodup
  isConstant : ∀ constant ∈ listed, ∃ node, now.graph.node? constant.1 = some node ∧
    node.op = .constant constant.2
  rest : ∀ id node value, now.graph.node? id = some node → node.op = .constant value →
    (id, value) ∈ listed ∨ now.graph.FoldedAt id

namespace FoldingAll

variable {now : Site} {constant : Nat × Float} {rest : List (Nat × Float)}
  (folding : FoldingAll site (constant :: rest) now)
include folding

/-- The links of the first constant that is left are folded; it is left still, but feeds only
sockets that stay linked. -/
theorem links {folded : Site}
    (done : (now.graph.outgoing constant.1).forM (foldLink constant.2) now = .ok () folded) :
    FoldingAll site (constant :: rest) folded ∧
      ∀ target source, folded.graph.source? target = some source → source.node = constant.1 →
        ∃ receiver, folded.graph.node? target.node = some receiver ∧
          receiver.op.isBoundary = true := by
  obtain ⟨node, found, op⟩ := folding.isConstant constant (by simp)
  obtain ⟨library, prunes, boundary, ops, others⟩ :=
    foldLinks_spec folding.shaped.toSound found op done
  refine ⟨⟨library.trans folding.library, prunes.toThins.shaped folding.shaped,
    folding.prunes.trans prunes, folding.distinct, fun other mem => ?_,
    fun id new value here isConst => ?_⟩, boundary⟩
  · obtain ⟨node, found, op⟩ := folding.isConstant other mem
    obtain ⟨node', found', op'⟩ := ops other.1 node found
    exact ⟨node', found', op'.trans op⟩
  · obtain ⟨old, there, -⟩ := prunes.node id new here
    obtain ⟨new', here', same⟩ := ops id old there
    rw [here, Option.some.injEq] at here'
    have wasConst : old.op = .constant value := same ▸ here' ▸ isConst
    by_cases equal : id = constant.1
    · subst equal
      rw [found, Option.some.injEq] at there
      rw [← there, op, NodeOp.constant.injEq] at wasConst
      exact .inl (by simp [← wasConst])
    -- Constants that come before this one are not touched by what is done to it.
    · exact (folding.rest id old value there wasConst).imp_right fun settled =>
        settled.prunes prunes fun target source linked leaves =>
          others target source linked fun same => equal (leaves.symm.trans same)

/-- The first constant that is left is done when it feeds only sockets that stay linked. -/
theorem keep (settled : now.graph.FoldedAt constant.1) : FoldingAll site rest now := by
  refine { folding with
    distinct := (List.nodup_cons.1 folding.distinct).2
    isConstant := fun other mem => folding.isConstant other (by simp [mem])
    rest := fun id node value here isConst => ?_ }
  rcases folding.rest id node value here isConst with mem | settled
  · rcases List.mem_cons.1 mem with rfl | mem
    · exact .inr settled
    · exact .inl mem
  · exact .inr settled

/-- The first constant that is left is taken away when it feeds nothing. -/
theorem remove {graph : Graph} {taken : Node} (idle : now.graph.Idle constant.1)
    (taking : now.graph.removeNode constant.1 = .ok (taken, graph)) :
    FoldingAll site rest { now with graph } := by
  obtain ⟨node, found, op⟩ := folding.isConstant constant (by simp)
  obtain ⟨first, distinct⟩ := List.nodup_cons.1 folding.distinct
  have removes := folding.shaped.toSound.removeNode taking
  have unfed (place : Nat) : now.graph.source? ⟨constant.1, place⟩ = none :=
    folding.shaped.source?_constant found (by rw [op]; rfl) place
  have prunes := removes.prunes found (fun group => by rw [op]; rfl) idle unfed
  have same := removes.source?_of_idle idle unfed
  refine ⟨folding.library, prunes.toThins.shaped folding.shaped, folding.prunes.trans prunes,
    distinct, fun other mem => ?_, fun id new value here isConst => ?_⟩
  · obtain ⟨node, here, op⟩ := folding.isConstant other (by simp [mem])
    refine ⟨node, (removes.node? other.1).trans ?_, op⟩
    rw [if_neg]
    · exact here
    · intro same
      exact first (same ▸ List.mem_map_of_mem mem)
  · have here := (removes.node? id).symm.trans here
    split at here
    · cases here
    · rename_i apart
      rcases folding.rest id new value here isConst with mem | settled
      · rcases List.mem_cons.1 mem with equal | mem
        · exact absurd (congrArg Prod.fst equal).symm apart
        · exact .inl mem
      · exact .inr (settled.prunes prunes fun target source linked _ => (same target).trans linked)

/-- The first constant that is left is folded, and the others stay as they are. -/
theorem step {changed : Bool} (done : foldConstant constant now = .ok changed after) :
    FoldingAll site rest after := by
  obtain ⟨_, _, got, done⟩ := bind_eq_ok_iff.1 done
  cases got
  obtain ⟨_, folded, links, done⟩ := bind_eq_ok_iff.1 done
  obtain ⟨folding, boundary⟩ := folding.links links
  obtain ⟨_, _, got, done⟩ := bind_eq_ok_iff.1 done
  cases got
  have unread := folding.shaped.isEmpty_outgoing constant.1
  split at done
  · rename_i empty
    obtain ⟨_, removed, removes, same⟩ := bind_eq_ok_iff.1 done
    cases same
    obtain ⟨graph, taken, rfl⟩ := edit_eq_ok_iff.1 removes
    obtain ⟨⟨taken', graph⟩, takes, rfl⟩ := map_eq_ok_iff.1 taken
    exact folding.remove (unread.1 empty) takes
  · rename_i read
    cases done
    exact folding.keep ⟨fun idle => read (unread.2 idle), boundary⟩

end FoldingAll

/-- The constants of a graph are all of its nodes that are constants. -/
theorem mem_constants {graph : Graph} {id : Nat} {value : Float} :
    (id, value) ∈ constants graph ↔
      ∃ node, graph.node? id = some node ∧ node.op = .constant value := by
  refine ⟨(constants_spec graph).2 (id, value), fun ⟨node, found, op⟩ => ?_⟩
  exact List.mem_filterMap.2 ⟨(id, node), Slots.mem_entries.2 found, by simp only [op]⟩

/-- Folding constants prunes a graph and leaves only constants that feed sockets that stay linked. -/
theorem foldConstants_spec (shaped : site.graph.Shaped)
    (done : foldConstants site = .ok total after) :
    after.library = site.library ∧ site.graph.Prunes after.graph ∧ after.graph.ConstantsFolded := by
  obtain ⟨_, _, got, counted⟩ := bind_eq_ok_iff.1 done
  cases got
  obtain ⟨distinct, isConstant⟩ := constants_spec site.graph
  have folding : FoldingAll site [] after := count_carries foldConstant (FoldingAll site)
    (fun _ _ _ _ _ folding stepped => folding.step stepped) counted
    ⟨rfl, shaped, shaped.toSound.prunes, distinct, isConstant,
      fun id node value found op => .inl (mem_constants.2 ⟨node, found, op⟩)⟩
  refine ⟨folding.library, folding.prunes, fun id node value found op => ?_⟩
  rcases folding.rest id node value found op with mem | settled
  · cases mem
  · exact settled

end Cleanup

end Shadeloom
