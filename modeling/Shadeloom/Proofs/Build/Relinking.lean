import Mathlib
import Shadeloom.Proofs.Build.Steps
import Shadeloom.Proofs.Graph.Order
/-!
# Relinking outputs

The readers of an input that has the name of an output come to read what feeds the output, all of
them at once; this is refused exactly when one of them leads to what they are to read. So a cycle
never comes about.
-/
namespace Shadeloom

open Relation

namespace Graph

/-- What letting the readers of one socket read another one does to a graph. -/
structure Relinks (before after : Graph) (input source : Socket) : Prop where
  sound : after.Sound
  node? : ∀ id, after.node? id = before.node? id
  source? : ∀ target, after.source? target =
    if before.source? target = some input then some source else before.source? target
  inputs : after.inputs = before.inputs
  outputs : after.outputs = before.outputs
  name : after.name = before.name

/-- What linking one socket to several ones does to a graph. -/
structure ConnectsAll (before after : Graph) (source : Socket) (targets : List Socket) : Prop where
  sound : after.Sound
  node? : ∀ id, after.node? id = before.node? id
  source? : ∀ other, after.source? other =
    if other ∈ targets then some source else before.source? other
  inputs : after.inputs = before.inputs
  outputs : after.outputs = before.outputs
  name : after.name = before.name

/-- Linking a socket to none changes nothing. -/
theorem Sound.connectsAll_nil {graph : Graph} (sound : graph.Sound) (source : Socket) :
    ConnectsAll graph graph source [] :=
  ⟨sound, fun _ => rfl, fun _ => by simp, rfl, rfl, rfl⟩

/-- A socket that is linked to one and then to others is linked to all of them. -/
theorem Connects.all {before between after : Graph} {source target : Socket} {targets : List Socket}
    (connects : Connects before between source target)
    (rest : ConnectsAll between after source targets) :
    ConnectsAll before after source (target :: targets) where
  sound := rest.sound
  node? id := (rest.node? id).trans (connects.node? id)
  source? other := by
    rw [rest.source?, connects.source?]
    by_cases later : other ∈ targets
    · simp [later]
    · by_cases same : target = other
      · simp [later, same]
      · simp [later, same, Ne.symm same]
  inputs := rest.inputs.trans connects.inputs
  outputs := rest.outputs.trans connects.outputs
  name := rest.name.trans connects.name

/-- Linking a socket to all readers of another one lets them read it. -/
theorem ConnectsAll.relinks {before after : Graph} {input source : Socket}
    (connects : ConnectsAll before after source (before.consumers input)) (sound : before.Sound) :
    Relinks before after input source where
  sound := connects.sound
  node? := connects.node?
  source? other := by
    rw [connects.source?]
    simp only [sound.mem_consumers]
  inputs := connects.inputs
  outputs := connects.outputs
  name := connects.name

/-- What leads where after the readers of one socket have come to read another one. -/
theorem Relinks.leads {before after : Graph} {input source : Socket}
    (relinks : Relinks before after input source) {a b : Nat} (leads : after.Leads a b) :
    before.Leads a b ∨
      a = source.node ∧ ∃ reader, before.source? reader = some input ∧ reader.node = b := by
  obtain ⟨sender, receiver, linked, rfl, rfl⟩ := leads
  rw [relinks.source?] at linked
  split at linked
  · rename_i reads
    cases linked
    exact .inr ⟨rfl, receiver, reads, rfl⟩
  · exact .inl (leads_of_source? linked)

/-- Letting readers read what none of them leads to keeps a graph acyclic. -/
theorem Relinks.acyclic {before after : Graph} {input source : Socket}
    (relinks : Relinks before after input source) (acyclic : before.Acyclic)
    (apart : ∀ reader, before.source? reader = some input →
      ¬ ReflTransGen before.Leads reader.node source.node) : after.Acyclic :=
  acyclic_of_new_edges source.node
    (fun b => ∃ reader, before.source? reader = some input ∧ reader.node = b) acyclic
    (fun _ _ => relinks.leads) fun _ ⟨reader, reads, same⟩ => same ▸ apart reader reads

end Graph

namespace Cleanup

/-- Whether a socket belongs to a node or to one that leads to it is found out without changing
anything. -/
theorem feeds_ok {site : Site} (sound : site.graph.Sound) {node : Nat} {socket : Socket}
    (here : (site.graph.node? socket.node).isSome = true)
    (there : (site.graph.node? node).isSome = true) :
    ∃ answer, feeds node socket site = .ok answer site ∧
      (answer = true ↔ ReflTransGen site.graph.Leads socket.node node) := by
  unfold feeds
  by_cases same : socket.node = node
  · rw [if_pos same]
    exact ⟨true, rfl, iff_of_true rfl (same ▸ .refl)⟩
  · rw [if_neg same]
    obtain ⟨answer, found, agrees⟩ := sound.reaches_spec here there
    refine ⟨answer, ?_, agrees⟩
    refine bind_eq_ok_iff.2 ⟨site.graph, site, rfl, ?_⟩
    simp only [found]
    rfl

/-- Linking a socket to readers one after the other links all of them. -/
theorem connectAll_ok {source : Socket} (readers : List Socket) (site : Site)
    (sound : site.graph.Sound) (leaves : site.graph.HasOutput source)
    (enters : ∀ reader ∈ readers, site.graph.HasInput reader) :
    ∃ graph, readers.forM (fun reader => edit fun graph => graph.connect source reader) site =
        .ok () { site with graph } ∧ Graph.ConnectsAll site.graph graph source readers := by
  induction readers generalizing site with
  | nil => exact ⟨site.graph, rfl, sound.connectsAll_nil source⟩
  | cons reader rest ih =>
    obtain ⟨linked, links⟩ := sound.exists_connect leaves (enters reader (by simp))
    have connects := sound.connect links
    have kept (id : Nat) (node : Node) (found : site.graph.node? id = some node) :
        linked.node? id = some node := (connects.node? id).trans found
    obtain ⟨graph, done, all⟩ :=
      ih { site with graph := linked } connects.sound
        (leaves.mono fun node found => ⟨node, kept _ node found, rfl⟩) fun other mem =>
        (enters other (by simp [mem])).mono fun node found => ⟨node, kept _ node found, rfl⟩
    exact ⟨graph, bind_eq_ok_iff.2 ⟨(), _, edit_eq_ok_iff.2 ⟨linked, links, rfl⟩, done⟩,
      connects.all all⟩

end Cleanup

namespace Graph

/-- Whether an output has readers of an input of its name, and something feeds it. -/
def Relinkable (graph : Graph) (output : Nat) (input source : Socket) : Prop :=
  ∃ name id, Cleanup.portName? graph output = some name ∧ graph.input? name = some id ∧
    input = ⟨id, 0⟩ ∧ graph.source? ⟨output, 0⟩ = some source ∧
      ∃ reader, graph.source? reader = some input

/-- Whether the readers of an input lead to what they are to read, or it is the input itself. -/
def Entangled (graph : Graph) (input source : Socket) : Prop :=
  source.node = input.node ∨
    ∃ reader, graph.source? reader = some input ∧ ReflTransGen graph.Leads reader.node source.node

end Graph

namespace Cleanup

/-- What relinking an output does when the input of its name is read and something feeds it. -/
theorem relinkOutput_of_relinkable {site : Site} (sound : site.graph.Sound) {output : Nat}
    {input source : Socket} (relinkable : site.graph.Relinkable output input source) :
    site.graph.Entangled input source ∧
        (∃ name, portName? site.graph output = some name ∧
          relinkOutput output site = .error (.cyclicDefinition name) site) ∨
      ¬ site.graph.Entangled input source ∧ ∃ graph,
        relinkOutput output site = .ok true { site with graph } ∧
          site.graph.Relinks graph input source := by
  obtain ⟨name, id, named, listed, rfl, linked, reader, read⟩ := relinkable
  have reads (reader : Socket) : reader ∈ site.graph.consumers ⟨id, 0⟩ ↔
      site.graph.source? reader = some ⟨id, 0⟩ := sound.mem_consumers
  have some_ : (site.graph.consumers ⟨id, 0⟩).isEmpty = false := by
    rw [List.isEmpty_eq_false_iff_exists_mem]
    exact ⟨reader, (reads reader).2 read⟩
  have leaves := sound.hasOutput linked
  have there : (site.graph.node? source.node).isSome = true := by
    obtain ⟨node, found, -⟩ := leaves
    exact Option.isSome_iff_exists.2 ⟨node, found⟩
  obtain ⟨answer, asked, agrees⟩ := anyM_ok (site.graph.consumers ⟨id, 0⟩)
    fun reader mem => feeds_ok sound
      (sound.isSome_of_leads (Graph.leads_of_source? ((reads reader).1 mem))).2 there
  have tangled : (decide (source.node = id) || answer) = true ↔
      site.graph.Entangled ⟨id, 0⟩ source := by
    rw [Bool.or_eq_true, decide_eq_true_eq, agrees]
    simp only [Graph.Entangled, reads]
  have unfolded : relinkOutput output site = (do
      if source.node = id || (← (site.graph.consumers ⟨id, 0⟩).anyM (feeds source.node)) then
        throw (.cyclicDefinition name)
      else
        (site.graph.consumers ⟨id, 0⟩).forM fun reader =>
          edit fun graph => graph.connect source reader
        return true : Cleanup Bool) site := by
    rw [relinkOutput, graph_bind]
    simp only [named, listed, linked, some_]
    rfl
  rw [unfolded]
  by_cases entangled : site.graph.Entangled ⟨id, 0⟩ source
  · refine .inl ⟨entangled, name, named, ?_⟩
    rw [bind_of_ok asked, if_pos (tangled.2 entangled)]
    rfl
  · obtain ⟨graph, done, connects⟩ :=
      connectAll_ok (site.graph.consumers ⟨id, 0⟩) site sound leaves
        fun reader mem => sound.hasInput ((reads reader).1 mem)
    refine .inr ⟨entangled, graph, bind_eq_ok_iff.2 ⟨answer, site, asked, ?_⟩,
      connects.relinks sound⟩
    rw [if_neg (mt tangled.1 entangled)]
    exact bind_eq_ok_iff.2 ⟨(), _, done, rfl⟩

/-- An output is left alone when there is nothing to relink. -/
theorem relinkOutput_of_not_relinkable {site : Site} (sound : site.graph.Sound) {output : Nat}
    (nothing : ∀ input source, ¬ site.graph.Relinkable output input source) :
    relinkOutput output site = .ok false site := by
  rw [relinkOutput, graph_bind]
  cases named : portName? site.graph output with
  | none => rfl
  | some name =>
    dsimp only
    cases listed : site.graph.input? name with
    | none => rfl
    | some id =>
      cases linked : site.graph.source? ⟨output, 0⟩ with
      | none => rfl
      | some source =>
        have none : (site.graph.consumers ⟨id, 0⟩).isEmpty = true := by
          rw [List.isEmpty_iff, List.eq_nil_iff_forall_not_mem]
          intro reader mem
          exact nothing ⟨id, 0⟩ source ⟨name, id, named, listed, rfl, linked, reader,
            sound.mem_consumers.1 mem⟩
        simp only [none, if_true]
        rfl

/-- Outputs are not relinked when the first one is entangled. -/
theorem relinkOutputs_of_entangled {site : Site} (sound : site.graph.Sound) {output : Nat}
    {input source : Socket} (first : site.graph.outputs.head? = some output)
    (relinkable : site.graph.Relinkable output input source)
    (entangled : site.graph.Entangled input source) :
    ∃ name, portName? site.graph output = some name ∧
      relinkOutputs site = .error (.cyclicDefinition name) site := by
  rcases relinkOutput_of_relinkable sound relinkable with ⟨-, name, named, refused⟩ | ⟨free, -⟩
  · refine ⟨name, named, ?_⟩
    rw [relinkOutputs, graph_bind, ← List.cons_head?_tail first]
    unfold count
    rw [List.foldlM_cons]
    exact bind_of_error (bind_of_error refused _) _
  · exact absurd entangled free

/-- Relinking the outputs keeps what letting readers read another socket keeps, wherever they do
not lead to it. -/
theorem relinkOutputs_keeps {holds : Graph → Prop} (isSound : ∀ graph, holds graph → graph.Sound)
    (keeps : ∀ before after input source, holds before → before.Relinks after input source →
      ¬ before.Entangled input source → holds after)
    {site after : Site} {total : Nat} (start : holds site.graph)
    (done : relinkOutputs site = .ok total after) :
    holds after.graph ∧ after.library = site.library := by
  obtain ⟨graph, between, got, counted⟩ := bind_eq_ok_iff.1 done
  cases got
  refine count_keeps _ (fun now => holds now.graph ∧ now.library = site.library)
    (fun output _ now changed later ⟨start, same⟩ stepped => ?_) counted ⟨start, rfl⟩
  by_cases relinkable : ∃ input source, now.graph.Relinkable output input source
  · obtain ⟨input, source, relinkable⟩ := relinkable
    rcases relinkOutput_of_relinkable (isSound _ start) relinkable with
      ⟨-, name, -, refused⟩ | ⟨free, graph, relinked, relinks⟩
    · rw [refused] at stepped
      cases stepped
    · rw [relinked] at stepped
      cases stepped
      exact ⟨keeps _ _ _ _ start relinks free, same⟩
  · have nothing : relinkOutput output now = .ok false now :=
      relinkOutput_of_not_relinkable (isSound _ start)
        fun input source here => relinkable ⟨input, source, here⟩
    rw [nothing] at stepped
    cases stepped
    exact ⟨start, same⟩

end Cleanup

end Shadeloom
