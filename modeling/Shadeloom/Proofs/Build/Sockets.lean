import Mathlib
import Shadeloom.Proofs.Build.Steps
import Shadeloom.Proofs.Graph.Edits
/-!
# Taking input sockets away

When an input socket of a node is taken away, the link that enters it goes, and those that enter the
sockets behind it move up by one. Nothing else is linked in another way.
-/
namespace Shadeloom

namespace Graph

/-- What taking an input socket of a node away does to a graph. -/
structure RemovesSocket (before after : Graph) (id place : Nat) : Prop where
  sound : after.Sound
  node? : ∃ node, before.node? id = some node ∧ ∀ other, after.node? other =
    if id = other then some { node with inputs := node.inputs.eraseIdx place }
    else before.node? other
  source? : ∀ target, after.source? target = before.source?
    (if target.node = id ∧ place ≤ target.place then ⟨id, target.place + 1⟩ else target)
  inputs : after.inputs = before.inputs
  outputs : after.outputs = before.outputs
  name : after.name = before.name

/-- What is left of the links to a node without a socket was linked to the node. -/
theorem RemovesSocket.exists_linked {before after : Graph} {id place : Nat}
    (removes : RemovesSocket before after id place) {target source : Socket}
    (linked : after.source? target = some source) :
    ∃ place, before.source? ⟨target.node, place⟩ = some source := by
  rw [removes.source?] at linked
  split at linked
  · rename_i moved
    exact ⟨target.place + 1, by rw [moved.1]; exact linked⟩
  · exact ⟨target.place, linked⟩

/-- A node keeps its operation when an input socket is taken away. -/
theorem RemovesSocket.op {before after : Graph} {id place : Nat}
    (removes : RemovesSocket before after id place) {other : Nat} {new : Node}
    (found : after.node? other = some new) :
    ∃ old, before.node? other = some old ∧ new.op = old.op := by
  obtain ⟨node, here, node?⟩ := removes.node?
  rw [node?] at found
  split at found
  · rename_i same
    cases found
    exact ⟨node, same ▸ here, rfl⟩
  · exact ⟨new, found, rfl⟩

end Graph

namespace Cleanup

/-- Links of a sound graph are taken away one after the other. -/
theorem disconnectAll_ok (links : List Link) (site : Site) (sound : site.graph.Sound)
    (linked : ∀ link ∈ links, link ∈ site.graph.links) (distinct : links.Nodup) :
    ∃ graph, links.forM (fun link => edit fun graph =>
        (graph.disconnect link.number).map Prod.snd) site = .ok () { site with graph } ∧
      graph.Sound ∧ (∀ id, graph.node? id = site.graph.node? id) ∧
        graph.inputs = site.graph.inputs ∧ graph.outputs = site.graph.outputs ∧
        graph.name = site.graph.name ∧
        ∀ link, link ∈ graph.links ↔ link ∈ site.graph.links ∧ link ∉ links := by
  induction links generalizing site with
  | nil => exact ⟨site.graph, rfl, sound, fun _ => rfl, rfl, rfl, rfl, fun _ => by simp⟩
  | cons first rest ih =>
    rw [List.nodup_cons] at distinct
    have here : first ∈ site.graph.links := linked first (by simp)
    have cut : (site.graph.disconnect first.number).map Prod.snd =
        .ok (site.graph.dropLinks [first]) := by
      rw [Graph.disconnect_eq_ok_iff.2 ⟨sound.link?_eq_some_iff.2 ⟨here, rfl⟩, rfl⟩]
      rfl
    have sound' := sound.dropLinks [first] (by simpa using here)
      (List.nodup_singleton first)
    have links' (link : Link) : link ∈ (site.graph.dropLinks [first]).links ↔
        link ∈ site.graph.links ∧ link ≠ first := by
      simp [Graph.dropLinks]
    obtain ⟨graph, done, sound'', node?, inputs, outputs, name, left⟩ :=
      ih { site with graph := site.graph.dropLinks [first] } sound' (fun link mem =>
        (links' link).2 ⟨linked link (by simp [mem]), by rintro rfl; exact distinct.1 mem⟩)
        distinct.2
    refine ⟨graph, bind_eq_ok_iff.2 ⟨(), _, edit_eq_ok_iff.2 ⟨_, cut, rfl⟩, done⟩, sound'', node?,
      inputs, outputs, name, fun link => ?_⟩
    rw [left, links']
    simp only [List.mem_cons, not_or, and_assoc]

/-- What linking pairs of sockets one after the other does to a site, if no socket is entered
twice. -/
theorem connectEach_spec {α : Type} {source target : α → Socket} {items : List α}
    {site after : Site} (sound : site.graph.Sound) (distinct : (items.map target).Nodup)
    (done : items.forM (fun item => edit fun graph => graph.connect (source item) (target item))
      site = .ok () after) :
    after.library = site.library ∧ after.graph.Sound ∧
      (∀ id, after.graph.node? id = site.graph.node? id) ∧
      after.graph.inputs = site.graph.inputs ∧ after.graph.outputs = site.graph.outputs ∧
      after.graph.name = site.graph.name ∧
      (∀ item ∈ items, after.graph.source? (target item) = some (source item)) ∧
      ∀ other ∉ items.map target, after.graph.source? other = site.graph.source? other := by
  induction items generalizing site with
  | nil => cases done; exact ⟨rfl, sound, fun _ => rfl, rfl, rfl, rfl, nofun, fun _ _ => rfl⟩
  | cons item rest ih =>
    rw [List.map_cons, List.nodup_cons] at distinct
    obtain ⟨_, between, first, later⟩ := bind_eq_ok_iff.1 done
    obtain ⟨linked, links, rfl⟩ := edit_eq_ok_iff.1 first
    have connects := sound.connect links
    obtain ⟨library, sound', node?, inputs, outputs, name, made, left⟩ :=
      ih connects.sound distinct.2 later
    refine ⟨library, sound', fun id => (node? id).trans (connects.node? id),
      inputs.trans connects.inputs, outputs.trans connects.outputs, name.trans connects.name,
      fun other mem => ?_, fun other apart => ?_⟩
    · rcases List.mem_cons.1 mem with rfl | mem
      · rw [left _ distinct.1, connects.source?, if_pos rfl]
      · exact made other mem
    · rw [List.map_cons, List.mem_cons, not_or] at apart
      rw [left other apart.2, connects.source?, if_neg (Ne.symm apart.1)]

/-- What a socket is linked to once no link enters a node from a place on. -/
theorem source?_of_cut {before after : Graph} (sound : before.Sound) (sound' : after.Sound)
    {id place : Nat} (links : ∀ link, link ∈ after.links ↔ link ∈ before.links ∧
      ¬ (link.target.node = id ∧ place ≤ link.target.place)) (target : Socket) :
    after.source? target =
      if target.node = id ∧ place ≤ target.place then none else before.source? target := by
  apply Option.ext
  intro source
  rw [sound'.source?_eq_some_iff]
  split
  · rename_i gone
    refine iff_of_false ?_ nofun
    rintro ⟨link, mem, -, rfl⟩
    exact ((links link).1 mem).2 gone
  · rename_i stays
    rw [sound.source?_eq_some_iff]
    constructor
    · rintro ⟨link, mem, ends⟩
      exact ⟨link, ((links link).1 mem).1, ends⟩
    · rintro ⟨link, mem, left, rfl⟩
      exact ⟨link, (links link).2 ⟨mem, stays⟩, left, rfl⟩

/-- A node keeps a graph sound without an input socket from which on no link enters it. -/
theorem sound_eraseInput {graph : Graph} (sound : graph.Sound) (place : Nat) {id : Nat} {node : Node}
    (found : graph.node? id = some node)
    (below : ∀ link ∈ graph.links, link.target.node = id → link.target.place < place) :
    (graph.setNode id { node with inputs := node.inputs.eraseIdx place }).Sound := by
  refine sound.setNode_of_linked found (fun link mem same => ?_) rfl
    (fun port same => ⟨port, same, rfl⟩) (fun port same => ⟨port, same⟩) fun port same => ?_
  · obtain ⟨-, receiver, received, inside⟩ := sound.joined link mem
    rw [same, found, Option.some.injEq] at received
    have early := below link mem same
    rw [← received] at inside
    rw [List.length_eraseIdx]
    split <;> omega
  · obtain ⟨op, inputs, outputs, default⟩ := sound.inputShaped id node port found same
    exact ⟨op, by simp [inputs], outputs, default⟩

/-- What a socket is linked to once the links that entered a node behind a place enter one place
before that, and the one at the place is gone. -/
theorem source?_of_moved {before cut after : Graph} (sound : before.Sound) {id place : Nat}
    {moved : List Link}
    (behind : ∀ link, link ∈ moved ↔
      link ∈ before.links ∧ link.target.node = id ∧ place < link.target.place)
    (cutOff : ∀ target, cut.source? target =
      if target.node = id ∧ place ≤ target.place then none else before.source? target)
    (made : ∀ link ∈ moved, after.source? ⟨id, link.target.place - 1⟩ = some link.source)
    (left : ∀ target ∉ moved.map fun link => (⟨id, link.target.place - 1⟩ : Socket),
      after.source? target = cut.source? target)
    (target : Socket) : after.source? target = before.source?
      (if target.node = id ∧ place ≤ target.place then ⟨id, target.place + 1⟩ else target) := by
  split
  · rename_i late
    have here : target = ⟨id, target.place⟩ := Socket.eq_iff.2 ⟨late.1, rfl⟩
    cases linked : before.source? ⟨id, target.place + 1⟩ with
    | some source =>
      obtain ⟨link, mem, rfl, enters⟩ := sound.source?_eq_some_iff.1 linked
      have entered := Socket.eq_iff.1 enters
      have socket := made link ((behind link).2 ⟨mem, entered.1, by
        rw [entered.2]; exact Nat.lt_succ_of_le late.2⟩)
      rw [entered.2] at socket
      exact (congrArg after.source? here).trans socket
    | none =>
      rw [left, cutOff, if_pos late]
      intro hit
      obtain ⟨link, mem, enters⟩ := List.mem_map.1 hit
      obtain ⟨there, same, behind⟩ := (behind link).1 mem
      have place : link.target.place - 1 = target.place := congrArg Socket.place enters
      exact sound.source?_eq_none_iff.1 linked link there
        (Socket.eq_iff.2 ⟨same, by dsimp only; omega⟩)
  · rename_i early
    rw [left, cutOff, if_neg early]
    intro hit
    obtain ⟨link, mem, rfl⟩ := List.mem_map.1 hit
    obtain ⟨-, -, behind⟩ := (behind link).1 mem
    exact early ⟨rfl, by dsimp only; omega⟩

/-- The links that enter a node of a sound graph from a place on. -/
theorem mem_moved {graph : Graph} (sound : graph.Sound) {id place : Nat} {link : Link} :
    link ∈ ((graph.incoming id).filter fun link => place ≤ link.target.place) ↔
      link ∈ graph.links ∧ link.target.node = id ∧ place ≤ link.target.place := by
  rw [List.mem_filter, sound.incoming_eq, List.mem_filter, decide_eq_true_eq, decide_eq_true_eq,
    and_assoc]

/-- The links that enter a node of a sound graph from a place on are listed once each. -/
theorem nodup_moved {graph : Graph} (sound : graph.Sound) (id place : Nat) :
    ((graph.incoming id).filter fun link => place ≤ link.target.place).Nodup := by
  rw [sound.incoming_eq]
  exact ((List.Nodup.of_map _ sound.numbers.used_distinct).filter _).filter _

/-- The links that enter a node of a sound graph from a place on are taken away. -/
theorem cutInputs_ok (site : Site) (sound : site.graph.Sound) (id place : Nat) :
    ∃ graph, ((site.graph.incoming id).filter fun link => place ≤ link.target.place).forM
        (fun link => edit fun graph => (graph.disconnect link.number).map Prod.snd) site =
          .ok () { site with graph } ∧
      graph.Sound ∧ (∀ other, graph.node? other = site.graph.node? other) ∧
        graph.inputs = site.graph.inputs ∧ graph.outputs = site.graph.outputs ∧
        graph.name = site.graph.name ∧
        ∀ link, link ∈ graph.links ↔ link ∈ site.graph.links ∧
          ¬ (link.target.node = id ∧ place ≤ link.target.place) := by
  obtain ⟨graph, done, sound', node?, inputs, outputs, name, links⟩ := disconnectAll_ok
    ((site.graph.incoming id).filter fun link => place ≤ link.target.place) site sound
    (fun link mem => ((mem_moved sound).1 mem).1) (nodup_moved sound id place)
  refine ⟨graph, done, sound', node?, inputs, outputs, name, fun link => ?_⟩
  rw [links, mem_moved sound]
  tauto

/-- An input socket that is taken away is gone, with the link that enters it. -/
theorem removeInputSocket_spec {site after : Site} (sound : site.graph.Sound) {id place : Nat}
    (done : removeInputSocket id place site = .ok () after) :
    after.library = site.library ∧ Graph.RemovesSocket site.graph after.graph id place := by
  obtain ⟨_, _, got, done⟩ := bind_eq_ok_iff.1 done
  cases got
  obtain ⟨_, cut, disconnected, done⟩ := bind_eq_ok_iff.1 done
  obtain ⟨_, reshaped, edited, relinked⟩ := bind_eq_ok_iff.1 done
  obtain ⟨graph, disconnected', sound', node?, inputs, outputs, name, links⟩ :=
    cutInputs_ok site sound id place
  rw [disconnected'] at disconnected
  cases disconnected
  have cut := source?_of_cut sound sound' links
  obtain ⟨_, reshapes, rfl⟩ := edit_eq_ok_iff.1 edited
  obtain ⟨node, found, same⟩ := Shadeloom.bind_eq_ok_iff.1 reshapes
  cases same
  rw [Graph.node_eq_ok_iff] at found
  have sound'' := sound_eraseInput sound' place found fun link mem same =>
    Nat.lt_of_not_le fun late => ((links link).1 mem).2 ⟨same, late⟩
  -- The links behind the socket, and the sockets that they enter from now on.
  obtain ⟨moved, listed⟩ : ∃ moved, moved = ((site.graph.incoming id).filter fun link =>
    place ≤ link.target.place).filter fun link => place < link.target.place := ⟨_, rfl⟩
  rw [← listed] at relinked
  have behind (link : Link) : link ∈ moved ↔
      link ∈ site.graph.links ∧ link.target.node = id ∧ place < link.target.place := by
    rw [listed, List.mem_filter, mem_moved sound, decide_eq_true_eq]
    constructor
    · rintro ⟨⟨mem, same, -⟩, late⟩
      exact ⟨mem, same, late⟩
    · rintro ⟨mem, same, late⟩
      exact ⟨⟨mem, same, late.le⟩, late⟩
  have apart : (moved.map fun link => (⟨id, link.target.place - 1⟩ : Socket)).Nodup := by
    refine List.Nodup.map_on (fun a here b there same => ?_)
      (listed ▸ (nodup_moved sound id place).filter _)
    obtain ⟨mem, enters, late⟩ := (behind a).1 here
    obtain ⟨mem', enters', late'⟩ := (behind b).1 there
    have place : a.target.place - 1 = b.target.place - 1 := congrArg Socket.place same
    exact sound.single a mem b mem' (Socket.eq_iff.2 ⟨enters.trans enters'.symm, by omega⟩)
  obtain ⟨library, sound''', node?', inputs', outputs', name', made, left⟩ :=
    connectEach_spec sound'' apart relinked
  refine ⟨library, {
    sound := sound'''
    node? := ⟨node, (node? id).symm.trans found, fun other => ?_⟩
    source? := fun target => ?_
    inputs := inputs'.trans inputs
    outputs := outputs'.trans outputs
    name := name'.trans name }⟩
  · rw [node?', Graph.node?_setNode found]
    split
    · rfl
    · exact node? other
  · exact source?_of_moved sound behind
      (fun other => (sound'.source?_setNode id _ other).trans (cut other)) made left target

end Cleanup

end Shadeloom
