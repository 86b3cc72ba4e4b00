import Mathlib
import Shadeloom.Proofs.Build.Pruning
/-!
# Folding constants and setting defaults

Constants become defaults of the sockets that they feed, and the defaults that are written for inputs
are set. None of this is ever refused in a sound graph, and what each single edit keeps is kept by
all of them.
-/
namespace Shadeloom

namespace Graph

/-- What making a constant the default of a socket that it feeds does to a graph. -/
structure Folds (before after : Graph) (target : Socket) (value : Float) : Prop where
  sound : after.Sound
  /-- The socket was fed by the constant. -/
  fed : ∃ source sender, before.source? target = some source ∧
    before.node? source.node = some sender ∧ sender.op = .constant value
  node? : ∃ node, before.node? target.node = some node ∧ node.op.isBoundary = false ∧
    ∀ id, after.node? id =
      if target.node = id then some (node.setInputDefault target.place (.scalar value))
      else before.node? id
  source? : ∀ other, after.source? other = if target = other then none else before.source? other
  inputs : after.inputs = before.inputs
  outputs : after.outputs = before.outputs
  name : after.name = before.name

/-- A node keeps its operation when a constant is folded. -/
theorem Folds.op {before after : Graph} {target : Socket} {value : Float}
    (folds : Folds before after target value) {id : Nat} {node : Node}
    (found : before.node? id = some node) :
    ∃ node', after.node? id = some node' ∧ node'.op = node.op := by
  obtain ⟨receiver, here, -, node?⟩ := folds.node?
  rw [node?]
  split
  · rename_i same
    rw [← same, here, Option.some.injEq] at found
    exact ⟨_, rfl, by rw [← found]; rfl⟩
  · exact ⟨node, found, rfl⟩

end Graph

namespace Cleanup

/-- A constant becomes the default of a socket that it feeds, unless the socket stays linked. -/
theorem foldLink_ok {site : Site} (sound : site.graph.Sound) {link : Link} {value : Float}
    (linked : link ∈ site.graph.links) {sender : Node}
    (found : site.graph.node? link.source.node = some sender) (constant : sender.op = .constant value) :
    ∃ graph, foldLink value link site = .ok () { site with graph } ∧
      ((graph = site.graph ∧ ∃ receiver, site.graph.node? link.target.node = some receiver ∧
          receiver.op.isBoundary = true) ∨ site.graph.Folds graph link.target value) ∧
      ∀ other ∈ site.graph.links, other ≠ link → other ∈ graph.links := by
  obtain ⟨receiver, received, below⟩ := (sound.joined link linked).2
  by_cases boundary : receiver.op.isBoundary = true
  · refine ⟨site.graph, bind_eq_ok_iff.2 ⟨site.graph, site, rfl, ?_⟩,
      .inl ⟨rfl, receiver, received, boundary⟩, fun other mem _ => mem⟩
    simp only [received, Option.any_some, boundary, if_true]
    rfl
  · let changed := site.graph.setNode link.target.node
      (receiver.setInputDefault link.target.place (.scalar value))
    have fits := Node.replaces_setInputDefault (sound.inputShaped _ receiver · received)
      link.target.place (.scalar value)
    have sound' : changed.Sound := sound.setNode received fits
    have linked' : ∀ other ∈ [link], other ∈ changed.links := fun other mem =>
      List.mem_singleton.1 mem ▸ linked
    have single : [link].Nodup := List.nodup_singleton link
    have set_ : site.graph.setSocketDefault link.target (.scalar value) = .ok changed := by
      rw [Graph.setSocketDefault_eq]
      unfold Graph.node
      simp only [received, bind, Except.bind, below, if_true]
      rfl
    have cut : (changed.disconnect link.number).map Prod.snd = .ok (changed.dropLinks [link]) := by
      have number := sound'.link?_eq_some_iff.2 ⟨linked, rfl⟩
      rw [Graph.disconnect_eq_ok_iff.2 ⟨number, rfl⟩]
      rfl
    refine ⟨changed.dropLinks [link], bind_eq_ok_iff.2 ⟨site.graph, site, rfl, ?_⟩, .inr ?_,
      fun other mem apart => List.mem_filter.2 ⟨mem, by simpa using apart⟩⟩
    · simp only [received, Option.any_some, boundary]
      exact bind_eq_ok_iff.2 ⟨(), _, edit_eq_ok_iff.2 ⟨changed, set_, rfl⟩,
        edit_eq_ok_iff.2 ⟨_, cut, rfl⟩⟩
    · refine {
        sound := sound'.dropLinks _ linked' single
        fed := ⟨link.source, sender, sound.source?_eq_some_iff.2 ⟨link, linked, rfl, rfl⟩, found,
          constant⟩
        node? := ⟨receiver, received, Bool.eq_false_iff.2 boundary, Graph.node?_setNode received _⟩
        source? := fun other => ?_
        inputs := rfl
        outputs := rfl
        name := rfl }
      rw [sound'.source?_dropLinks linked' single, sound.source?_setNode]
      simp

section

variable {holds : Graph → Prop}

/-- The links of a constant are folded, and what folding one keeps is kept. -/
theorem foldLinks_ok (isSound : ∀ graph, holds graph → graph.Sound) {value : Float}
    (folding : ∀ before after target, holds before → Graph.Folds before after target value →
      holds after)
    {id : Nat} {site : Site} {node : Node} (found : site.graph.node? id = some node)
    (constant : node.op = .constant value) (start : holds site.graph) :
    ∃ graph, (site.graph.outgoing id).forM (foldLink value) site = .ok () { site with graph } ∧
      holds graph ∧ ∀ id node, site.graph.node? id = some node →
        ∃ node', graph.node? id = some node' ∧ node'.op = node.op := by
  have sound := isSound _ start
  have links : ∀ link ∈ site.graph.outgoing id, link ∈ site.graph.links ∧ link.source.node = id := by
    intro link mem
    rw [sound.outgoing_eq] at mem
    simpa using List.mem_filter.1 mem
  have distinct : (site.graph.outgoing id).Nodup := by
    rw [sound.outgoing_eq]
    exact (List.Nodup.of_map _ sound.numbers.used_distinct).filter _
  obtain ⟨after, done, -, -, final, ops, library⟩ := forM_ok (foldLink value)
    (fun rest now => rest.Nodup ∧
      (∀ link ∈ rest, link ∈ now.graph.links ∧ link.source.node = id) ∧ holds now.graph ∧
      (∀ id node, site.graph.node? id = some node →
        ∃ node', now.graph.node? id = some node' ∧ node'.op = node.op) ∧
      now.library = site.library)
    (fun link rest now ⟨distinct, links, start, ops, library⟩ => by
      rw [List.nodup_cons] at distinct
      obtain ⟨linked, leaves⟩ := links link (by simp)
      obtain ⟨sender, found', op⟩ := ops id node found
      obtain ⟨graph, folded, step, kept⟩ := foldLink_ok (isSound _ start) linked
        (leaves ▸ found') (op.trans constant)
      refine ⟨{ now with graph }, folded, distinct.2, fun other mem => ?_, ?_, ?_, library⟩
      · obtain ⟨there, leaves'⟩ := links other (by simp [mem])
        refine ⟨kept other there ?_, leaves'⟩
        rintro rfl
        exact distinct.1 mem
      · rcases step with ⟨same, -⟩ | folds
        · rw [same]; exact start
        · exact folding _ _ _ start folds
      · intro id node here
        obtain ⟨between, found, op⟩ := ops id node here
        rcases step with ⟨same, -⟩ | folds
        · exact ⟨between, by rw [same]; exact found, op⟩
        · obtain ⟨last, found', op'⟩ := folds.op found
          exact ⟨last, found', op'.trans op⟩)
    (site.graph.outgoing id) site ⟨distinct, links, start, fun id node here => ⟨node, here, rfl⟩, rfl⟩
  refine ⟨after.graph, ?_, final, ops⟩
  rw [← library]
  exact done

/-- A node that is listed as a constant is one. -/
theorem eq_of_listed {entry : Nat × Node} {constant : Nat × Float}
    (listed : (match entry.2.op with
      | .constant value => some (entry.1, value)
      | _ => none) = some constant) :
    constant.1 = entry.1 ∧ entry.2.op = .constant constant.2 := by
  split at listed
  · rename_i value op
    cases listed
    exact ⟨rfl, op⟩
  · cases listed

/-- The constants of a graph are different nodes that are constants. -/
theorem constants_spec (graph : Graph) :
    ((constants graph).map Prod.fst).Nodup ∧ ∀ constant ∈ constants graph, ∃ node,
      graph.node? constant.1 = some node ∧ node.op = .constant constant.2 := by
  constructor
  · have distinct := graph.nodes.nodup_entries
    rw [List.Nodup, List.pairwise_map] at distinct ⊢
    unfold constants
    rw [List.pairwise_filterMap]
    refine distinct.imp fun {a b} apart constant here constant' there same => apart ?_
    rw [← (eq_of_listed here).1, ← (eq_of_listed there).1, same]
  · intro constant mem
    obtain ⟨entry, listed, same⟩ := List.mem_filterMap.1 mem
    obtain ⟨number, op⟩ := eq_of_listed same
    exact ⟨entry.2, by rw [number]; exact Slots.mem_entries.1 listed, op⟩

/-- Constants are folded, and what folding one link and taking one constant away keep is kept. -/
theorem foldConstants_ok (isSound : ∀ graph, holds graph → graph.Sound)
    (folding : ∀ before after target value, holds before →
      Graph.Folds before after target value → holds after)
    (removing : ∀ before after id node value, holds before → before.node? id = some node →
      node.op = .constant value → before.Idle id → Graph.Removes before after id → holds after)
    (site : Site) (start : holds site.graph) :
    ∃ total graph, foldConstants site = .ok total { site with graph } ∧ holds graph := by
  obtain ⟨distinct, spec⟩ := constants_spec site.graph
  obtain ⟨total, after, done, -, -, final, library⟩ := count_ok foldConstant
    (fun rest now => (rest.map Prod.fst).Nodup ∧
      (∀ constant ∈ rest, ∃ node, now.graph.node? constant.1 = some node ∧
        node.op = .constant constant.2) ∧ holds now.graph ∧ now.library = site.library)
    (fun constant rest now ⟨distinct, spec, start, library⟩ => by
      rw [List.map_cons, List.nodup_cons] at distinct
      obtain ⟨node, found, op⟩ := spec constant (by simp)
      obtain ⟨folded, links, holds', ops⟩ :=
        foldLinks_ok isSound (fun before after target => folding before after target _) found op start
      have spec' (other : Nat × Float) (mem : other ∈ rest) : ∃ node,
          folded.node? other.1 = some node ∧ node.op = .constant other.2 := by
        obtain ⟨node, found, op⟩ := spec other (by simp [mem])
        obtain ⟨node', found', op'⟩ := ops other.1 node found
        exact ⟨node', found', op'.trans op⟩
      obtain ⟨node', found', op'⟩ := ops constant.1 node found
      by_cases unread : (folded.outgoing constant.1).isEmpty = true
      · have idle := ((isSound _ holds').isEmpty_outgoing constant.1).1 unread
        obtain ⟨graph, removed, removes⟩ := removeNode_ok { now with graph := folded }
          (isSound _ holds') (Option.isSome_iff_exists.2 ⟨node', found'⟩)
        refine ⟨true, { now with graph }, ?_, distinct.2, fun other mem => ?_,
          removing _ _ _ node' _ holds' found' (op'.trans op) idle removes, library⟩
        · refine bind_eq_ok_iff.2 ⟨now.graph, now, rfl, bind_eq_ok_iff.2 ⟨(), _, links, ?_⟩⟩
          refine bind_eq_ok_iff.2 ⟨folded, _, rfl, ?_⟩
          rw [if_pos unread]
          exact bind_eq_ok_iff.2 ⟨(), _, removed, rfl⟩
        · obtain ⟨node, found, op⟩ := spec' other mem
          refine ⟨node, (removes.node? other.1).trans ?_, op⟩
          rw [if_neg]
          · exact found
          · intro same
            exact distinct.1 (same ▸ List.mem_map_of_mem mem)
      · refine ⟨false, { now with graph := folded }, ?_, distinct.2, spec', holds', library⟩
        refine bind_eq_ok_iff.2 ⟨now.graph, now, rfl, bind_eq_ok_iff.2 ⟨(), _, links, ?_⟩⟩
        refine bind_eq_ok_iff.2 ⟨folded, _, rfl, ?_⟩
        rw [if_neg unread]
        rfl)
    (constants site.graph) site ⟨distinct, spec, start, rfl⟩
  exact ⟨total, after.graph, by rw [← library]; exact done, final⟩

/-- The defaults of inputs are set, and what setting one keeps is kept. -/
theorem applyDefaults_ok (isSound : ∀ graph, holds graph → graph.Sound)
    (keeps : ∀ graph id old new value, holds graph → graph.node? id = some old →
      old.setPortDefault? value = some new → holds (graph.setNode id new))
    (defaults : Table String Float) (site : Site) (start : holds site.graph) :
    ∃ graph, applyDefaults defaults site = .ok () { site with graph } ∧ holds graph := by
  obtain ⟨after, done, final, library⟩ : ∃ after, applyDefaults defaults site = .ok () after ∧
      holds after.graph ∧ after.library = site.library := forM_ok _
    (fun _ now => holds now.graph ∧ now.library = site.library)
    (fun entry rest now ⟨start, library⟩ => by
      cases listed : now.graph.input? entry.1 with
      | none =>
        refine ⟨now, bind_eq_ok_iff.2 ⟨now.graph, now, rfl, ?_⟩, start, library⟩
        simp only [listed]
        rfl
      | some id =>
        obtain ⟨old, port, found, input, -⟩ := (isSound _ start).input?_spec listed
        obtain ⟨new, changed⟩ : ∃ new, old.setPortDefault? (.scalar entry.2) = some new := by
          unfold Node.setPortDefault?
          simp only [input]
          exact ⟨_, rfl⟩
        have edited : now.graph.setInputDefault id (.scalar entry.2) =
            .ok (now.graph.setNode id new) :=
          Graph.setInputDefault_eq_ok_iff.2 ⟨old, new, found, changed, rfl⟩
        refine ⟨{ now with graph := now.graph.setNode id new },
          bind_eq_ok_iff.2 ⟨now.graph, now, rfl, ?_⟩, keeps _ _ _ _ _ start found changed, library⟩
        simp only [listed]
        exact edit_eq_ok_iff.2 ⟨_, edited, rfl⟩)
    defaults.entries site ⟨start, rfl⟩
  exact ⟨after.graph, by rw [← library]; exact done, final⟩

end

end Cleanup

end Shadeloom
