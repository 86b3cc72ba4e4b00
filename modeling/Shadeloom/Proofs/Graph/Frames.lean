import Mathlib
import Shadeloom.Proofs.Graph.Shapes
/-!
# Frames of edits

An edit of a sound graph touches what it names and leaves the rest alone. Linking two sockets and
taking a link away keep all nodes and ports, and change what one input socket is linked to;
removing a node takes its links and its ports with it and keeps everything else as it was.
-/
namespace Shadeloom

namespace Graph

/-- Links that are taken away are missing from the count. -/
theorem Sound.linkCount_dropLinks {graph : Graph} (sound : graph.Sound) {dropped : List Link}
    (linked : ∀ link ∈ dropped, link ∈ graph.links) (distinct : dropped.Nodup) :
    (graph.dropLinks dropped).linkCount + dropped.length = graph.linkCount := by
  have distinctLinks : graph.links.Nodup := List.Nodup.of_map _ sound.numbers.used_distinct
  have same : (graph.links.filter dropped.contains).Perm dropped := by
    refine (List.perm_ext_iff_of_nodup (distinctLinks.filter _) distinct).2 fun link => ?_
    simpa using linked link
  have parts := List.length_eq_length_filter_add (l := graph.links) dropped.contains
  have here : (graph.dropLinks dropped).linkCount =
      (graph.links.filter fun link => !dropped.contains link).length := rfl
  have length := same.length_eq
  unfold linkCount at *
  omega

/-- A socket is entered by one link if it is linked, and by none otherwise. -/
theorem Sound.length_entering {graph : Graph} (sound : graph.Sound) (target : Socket) :
    (graph.links.filter fun link => link.target = target).length =
      if (graph.source? target).isSome then 1 else 0 := by
  have atMost := sound.enteredOnce target
  split
  · rename_i linked
    obtain ⟨source, linked⟩ := Option.isSome_iff_exists.1 linked
    obtain ⟨link, mem, -, enters⟩ := sound.source?_eq_some_iff.1 linked
    have some : 0 < (graph.links.filter fun link => link.target = target).length :=
      List.length_pos_of_mem (List.mem_filter.2 ⟨mem, by simpa using enters⟩)
    omega
  · rename_i unlinked
    have unlinked : graph.source? target = none := by simpa using unlinked
    rw [sound.source?_eq_none_iff] at unlinked
    rw [List.length_eq_zero_iff, List.filter_eq_nil_iff]
    intro link mem
    simpa using unlinked link mem

/-- Graphs that differ in their links at most. -/
structure SameNodes (before after : Graph) : Prop where
  name : after.name = before.name
  nodes : after.nodes = before.nodes
  inputs : after.inputs = before.inputs
  outputs : after.outputs = before.outputs

/-- An input socket is linked to an output socket, in place of the link that entered it if there
was one, and nothing else is changed. -/
structure LinksOnly (before after : Graph) (source target : Socket) : Prop
    extends SameNodes before after where
  linked : after.source? target = some source
  others : ∀ other, other ≠ target → after.source? other = before.source? other
  linkCount : after.linkCount =
    if (before.source? target).isSome then before.linkCount else before.linkCount + 1

/-- A link is taken away, and nothing else is changed. -/
structure UnlinksOnly (before after : Graph) (link : Link) : Prop
    extends SameNodes before after where
  linked : before.source? link.target = some link.source
  unlinked : after.source? link.target = none
  others : ∀ other, other ≠ link.target → after.source? other = before.source? other
  linkCount : after.linkCount + 1 = before.linkCount

/-- A node is taken away with its sockets, its links and the ports that it was, and nothing else
is changed. -/
structure RemovesOnly (before after : Graph) (id : Nat) : Prop where
  name : after.name = before.name
  gone : after.node? id = none
  nodes : ∀ other, other ≠ id → after.node? other = before.node? other
  /-- The node has no sockets left that could be linked. -/
  own : ∀ place, after.source? ⟨id, place⟩ = none
  fed : ∀ target, (∃ place, before.source? target = some ⟨id, place⟩) →
    after.source? target = none
  others : ∀ target, target.node ≠ id → (∀ place, before.source? target ≠ some ⟨id, place⟩) →
    after.source? target = before.source? target
  inputs : after.inputs.entries = before.inputs.entries.filter fun entry => entry.2 ≠ id
  outputs : after.outputs = before.outputs.filter fun port => port ≠ id

section

variable {graph after : Graph}

/-- Linking two sockets changes what the second one is linked to only. -/
theorem Sound.linksOnly (sound : graph.Sound) {source target : Socket}
    (done : graph.connect source target = .ok after) : LinksOnly graph after source target := by
  have connects := sound.connect done
  refine { name := connects.name, nodes := connects.nodes, inputs := connects.inputs,
           outputs := connects.outputs, linked := ?_, others := fun other apart => ?_,
           linkCount := ?_ }
  · rw [connects.source?, if_pos rfl]
  · rw [connects.source?, if_neg (Ne.symm apart)]
  · obtain ⟨-, rfl⟩ := sound.connect_eq_ok_iff.1 done
    obtain ⟨linked, distinct⟩ := sound.replaced_spec target
    have dropped := sound.linkCount_dropLinks linked distinct
    have entering := sound.length_entering target
    show (graph.dropLinks _).linkCount + 1 = _
    split <;> rename_i entered
    · rw [if_pos entered] at entering
      omega
    · rw [if_neg entered] at entering
      omega

/-- Taking a link away changes what the socket it entered is linked to only. -/
theorem Sound.unlinksOnly (sound : graph.Sound) {number : Nat} {link : Link}
    (done : graph.disconnect number = .ok (link, after)) : UnlinksOnly graph after link := by
  obtain ⟨found, rfl⟩ := disconnect_eq_ok_iff.1 done
  have mem := (sound.link?_eq_some_iff.1 found).1
  have linked : ∀ other ∈ [link], other ∈ graph.links := by simpa using mem
  have distinct : [link].Nodup := List.nodup_singleton link
  have source? := sound.source?_dropLinks linked distinct
  refine { name := rfl, nodes := rfl, inputs := rfl, outputs := rfl, linked := ?_,
           unlinked := ?_, others := fun other apart => ?_, linkCount := ?_ }
  · exact sound.source?_eq_some_iff.2 ⟨link, mem, rfl, rfl⟩
  · rw [source?, if_pos (by simp)]
  · rw [source?, if_neg (by simpa using Ne.symm apart)]
  · exact sound.linkCount_dropLinks linked distinct

/-- Removing a node changes what the sockets it fed are linked to only. -/
theorem Sound.removesOnly (sound : graph.Sound) {id : Nat} {node : Node}
    (done : graph.removeNode id = .ok (node, after)) : RemovesOnly graph after id := by
  have removes := sound.removeNode done
  refine { name := removes.name, gone := ?_, nodes := fun other apart => ?_, own := fun place => ?_,
           fed := fun target fed => ?_, others := fun target apart others => ?_,
           inputs := ?_, outputs := removes.outputs }
  · rw [removes.node?, if_pos rfl]
  · rw [removes.node?, if_neg (Ne.symm apart)]
  · rw [removes.source?, if_pos rfl]
  · obtain ⟨place, fed⟩ := fed
    rw [removes.source?, fed]
    split <;> simp [Option.filter]
  · rw [removes.source?, if_neg apart]
    cases linked : graph.source? target with
    | none => rfl
    | some source =>
      have elsewhere : source.node ≠ id := by
        rintro rfl
        exact others source.place linked
      simp [Option.filter, elsewhere]
  · rw [removes.inputs]
    rfl

end

/-- The edits of links and nodes of a sound graph touch only what they name. Linking two sockets
links these, and adds to the links exactly if the second one was not linked; taking a link away
unlinks the socket it entered; removing a node leaves the other nodes as they are, unlinks the
sockets that it fed and takes it out of the tables of ports. -/
theorem Sound.edits_touch_only {graph : Graph} (sound : graph.Sound) :
    (∀ source target after, graph.connect source target = .ok after →
      LinksOnly graph after source target) ∧
    (∀ number link after, graph.disconnect number = .ok (link, after) →
      graph.link? number = some link ∧ UnlinksOnly graph after link) ∧
    ∀ id node after, graph.removeNode id = .ok (node, after) →
      graph.node? id = some node ∧ RemovesOnly graph after id := by
  refine ⟨fun source target after done => sound.linksOnly done,
    fun number link after done => ⟨?_, sound.unlinksOnly done⟩,
    fun id node after done => ⟨?_, sound.removesOnly done⟩⟩
  · exact (disconnect_eq_ok_iff.1 done).1
  · exact (sound.removeNode_eq_ok_iff.1 done).1

/-- An input that an operator hands to an output. -/
def handed : Graph :=
  Edit.made "g" [.addInput "x" .scalar, .addNode (.math .absolute) (NodeOp.isPort_math _),
    .addOutput "y" .scalar,
    .connect ⟨0, 0⟩ ⟨1, 0⟩, .connect ⟨1, 0⟩ ⟨2, 0⟩]

/-- The operator can be linked to itself in place of the input, its link to the output can be taken
away, and it can be removed; each touches only what it names. -/
theorem handed_touches_only :
    handed.Sound ∧
    (∃ after, handed.connect ⟨1, 0⟩ ⟨1, 0⟩ = .ok after ∧
      LinksOnly handed after ⟨1, 0⟩ ⟨1, 0⟩) ∧
    (∃ link after, handed.disconnect 1 = .ok (link, after) ∧ UnlinksOnly handed after link) ∧
    ∃ node after, handed.removeNode 1 = .ok (node, after) ∧ RemovesOnly handed after 1 := by
  have sound : handed.Sound := (Edit.made_shaped _ _).toSound
  obtain ⟨links, unlinks, removes⟩ := sound.edits_touch_only
  have there : (handed.node? 1).isSome = true := by decide +kernel
  obtain ⟨node, there⟩ := Option.isSome_iff_exists.1 there
  refine ⟨sound, ?_, ?_, ?_⟩
  · have places : ∀ node ∈ handed.node? 1, 0 < node.outputs.length ∧ 0 < node.inputs.length := by
      decide +kernel
    have places := places node there
    have leaves : handed.HasOutput ⟨1, 0⟩ := ⟨node, there, places.1⟩
    have enters : handed.HasInput ⟨1, 0⟩ := ⟨node, there, places.2⟩
    obtain ⟨after, done⟩ := sound.exists_connect leaves enters
    exact ⟨after, done, links _ _ after done⟩
  · have linked : (handed.link? 1).isSome = true := by decide +kernel
    obtain ⟨link, linked⟩ := Option.isSome_iff_exists.1 linked
    have done := disconnect_eq_ok_iff.2 ⟨linked, rfl⟩
    exact ⟨link, _, done, (unlinks _ link _ done).2⟩
  · obtain ⟨after, done⟩ := sound.exists_removeNode there
    exact ⟨node, after, done, (removes _ node after done).2⟩

end Graph

end Shadeloom
