import Mathlib
import Shadeloom.Proofs.Build.Merging
import Shadeloom.Proofs.Build.Thinning
/-!
# Merging all inputs with the same value

The sockets of an instance that are fed by the same output socket are found all at once, and then
taken away one after the other, the last one first, so that the places that are still to come stay
where they are. Afterwards no two sockets of the instance are fed by the same output socket, but for
those that its definition shows no input for.
-/
namespace Shadeloom

namespace Cleanup

/-- Repeated places are places of the links. -/
theorem sublist_repeatedPlaces (seen links : List Link) :
    ((repeatedPlaces seen links).map Prod.snd).Sublist
      (links.map fun link => link.target.place) := by
  induction links generalizing seen with
  | nil => exact List.Sublist.slnil
  | cons link rest ih =>
    unfold repeatedPlaces
    split
    · exact (ih seen).cons_cons _
    · exact (ih (link :: seen)).cons _

/-- A repeated place comes after a place that is fed by the same output socket. -/
theorem of_mem_repeatedPlaces {seen links : List Link} {places : Nat × Nat}
    (ascending : links.Pairwise fun a b => a.target.place < b.target.place)
    (before : ∀ other ∈ seen, ∀ link ∈ links, other.target.place < link.target.place)
    (mem : places ∈ repeatedPlaces seen links) :
    ∃ first ∈ seen ++ links, ∃ link ∈ links, first.source = link.source ∧
      first.target.place < link.target.place ∧
        places = (first.target.place, link.target.place) := by
  induction links generalizing seen with
  | nil => cases mem
  | cons link rest ih =>
    obtain ⟨above, ascending⟩ := List.pairwise_cons.1 ascending
    unfold repeatedPlaces at mem
    split at mem
    · rename_i first found
      have known := List.mem_of_find?_eq_some found
      rcases List.mem_cons.1 mem with rfl | mem
      · exact ⟨first, by simp [known], link, by simp, by simpa using List.find?_some found,
          before first known link (by simp), rfl⟩
      · obtain ⟨first, mem, other, there, facts⟩ := ih ascending
          (fun other here later mem => before other here later (by simp [mem])) mem
        exact ⟨first, by simp only [List.mem_append, List.mem_cons] at mem ⊢; tauto, other,
          by simp [there], facts⟩
    · obtain ⟨first, mem, other, there, facts⟩ := ih ascending (fun other here later after => by
        rcases List.mem_cons.1 here with rfl | here
        · exact above later after
        · exact before other here later (by simp [after])) mem
      exact ⟨first, by simp only [List.mem_append, List.mem_cons] at mem ⊢; tauto, other,
        by simp [there], facts⟩

/-- The place that a repeated one is listed with is not repeated itself. -/
theorem fst_repeatedPlaces_ne_snd {seen links : List Link} {places other : Nat × Nat}
    (ascending : links.Pairwise fun a b => a.target.place < b.target.place)
    (before : ∀ other ∈ seen, ∀ link ∈ links, other.target.place < link.target.place)
    (mem : places ∈ repeatedPlaces seen links) (mem' : other ∈ repeatedPlaces seen links) :
    places.1 ≠ other.2 := by
  induction links generalizing seen with
  | nil => cases mem
  | cons link rest ih =>
    obtain ⟨above, ascending⟩ := List.pairwise_cons.1 ascending
    have seenBefore : ∀ other ∈ seen, ∀ link ∈ rest, other.target.place < link.target.place :=
      fun other here later after => before other here later (by simp [after])
    unfold repeatedPlaces at mem mem'
    split at mem
    · rename_i first found
      rw [found] at mem'
      have known := before first (List.mem_of_find?_eq_some found) link (by simp)
      rcases List.mem_cons.1 mem with rfl | mem <;> rcases List.mem_cons.1 mem' with rfl | mem'
      · exact known.ne
      · obtain ⟨-, -, later, there, -, -, rfl⟩ :=
          of_mem_repeatedPlaces ascending seenBefore mem'
        exact (known.trans (above later there)).ne
      · obtain ⟨early, here, -, -, -, -, rfl⟩ := of_mem_repeatedPlaces ascending seenBefore mem
        rcases List.mem_append.1 here with here | here
        · exact (before early here link (by simp)).ne
        · exact (above early here).ne'
      · exact ih ascending seenBefore mem mem'
    · rename_i none
      rw [none] at mem'
      refine ih ascending (fun other here later after => ?_) mem mem'
      rcases List.mem_cons.1 here with rfl | here
      · exact above later after
      · exact seenBefore other here later after

/-- A place is repeated when a link before is from the same output socket. -/
theorem exists_mem_repeatedPlaces {seen early : List Link} (late : List Link) {first link : Link}
    (known : first ∈ seen ++ early) (same : first.source = link.source) :
    ∃ places ∈ repeatedPlaces seen (early ++ link :: late), places.2 = link.target.place := by
  induction early generalizing seen first with
  | nil =>
    rw [List.append_nil] at known
    rw [List.nil_append, repeatedPlaces]
    split
    · exact ⟨_, List.mem_cons_self, rfl⟩
    · rename_i none
      exact absurd same (by simpa using List.find?_eq_none.1 none first known)
  | cons head rest ih =>
    rw [List.cons_append, repeatedPlaces]
    split
    · rename_i other found
      -- What the head repeats is from the same output socket as the head.
      obtain ⟨places, mem, place⟩ : ∃ places ∈ repeatedPlaces seen (rest ++ link :: late),
          places.2 = link.target.place := by
        rcases List.mem_append.1 known with known | known
        · exact ih (by simp [known]) same
        · rcases List.mem_cons.1 known with rfl | known
          · exact ih (by simp [List.mem_of_find?_eq_some found])
              ((by simpa using List.find?_some found : other.source = first.source).trans same)
          · exact ih (by simp [known]) same
      exact ⟨places, List.mem_cons_of_mem _ mem, place⟩
    · refine ih ?_ same
      simp only [List.mem_append, List.mem_cons] at known ⊢
      tauto

/-- The places of sockets of a node that repeat a place before them. -/
structure ListsRepeats (graph : Graph) (id : Nat) (listed : List (Nat × Nat)) : Prop where
  ascending : listed.Pairwise fun a b => a.2 < b.2
  repeated : ∀ places ∈ listed, places.1 < places.2 ∧ ∃ source,
    graph.source? ⟨id, places.1⟩ = some source ∧ graph.source? ⟨id, places.2⟩ = some source
  complete : ∀ a b source, a < b → graph.source? ⟨id, a⟩ = some source →
    graph.source? ⟨id, b⟩ = some source → ∃ places ∈ listed, places.2 = b
  /-- A place is listed with one that repeats none. -/
  first : ∀ places ∈ listed, ∀ other ∈ listed, places.1 ≠ other.2

/-- The sockets of a node that repeat one before them are found. -/
theorem duplicatePlaces_spec {graph : Graph} (sound : graph.Sound) (id : Nat) :
    ListsRepeats graph id (duplicatePlaces (graph.incoming id)) := by
  obtain ⟨sorted, listed⟩ : ∃ sorted, sorted = (graph.incoming id).mergeSort fun a b =>
    a.target.place ≤ b.target.place := ⟨_, rfl⟩
  have mem (link : Link) : link ∈ sorted ↔ link ∈ graph.links ∧ link.target.node = id := by
    rw [listed, (List.mergeSort_perm _ _).mem_iff, sound.incoming_eq, List.mem_filter,
      decide_eq_true_eq]
  have linked {link : Link} (here : link ∈ sorted) :
      graph.source? ⟨id, link.target.place⟩ = some link.source :=
    sound.source?_eq_some_iff.2 ⟨link, ((mem link).1 here).1, rfl,
      Socket.eq_iff.2 ⟨((mem link).1 here).2, rfl⟩⟩
  have nodup : sorted.Nodup := by
    rw [listed, (List.mergeSort_perm _ _).nodup_iff, sound.incoming_eq]
    exact (List.Nodup.of_map _ sound.numbers.used_distinct).filter _
  have ascending : sorted.Pairwise fun a b => a.target.place < b.target.place := by
    have ordered : sorted.Pairwise fun a b => a.target.place ≤ b.target.place := by
      rw [listed]
      refine (List.pairwise_mergeSort (fun a b c => ?_) (fun a b => ?_) _).imp of_decide_eq_true
      · simpa using Nat.le_trans
      · simpa using Nat.le_total a.target.place b.target.place
    refine (ordered.and nodup).imp_of_mem fun {a b} here there ⟨below, apart⟩ =>
      lt_of_le_of_ne below fun same => apart ?_
    obtain ⟨inside, entered⟩ := (mem a).1 here
    obtain ⟨inside', entered'⟩ := (mem b).1 there
    exact sound.single a inside b inside' (Socket.eq_iff.2 ⟨entered.trans entered'.symm, same⟩)
  unfold duplicatePlaces
  rw [← listed]
  refine ⟨?_, fun places repeats => ?_, fun a b source below left right => ?_,
    fun places here other there => fst_repeatedPlaces_ne_snd ascending (by simp) here there⟩
  · rw [← List.pairwise_map (f := Prod.snd) (R := (· < ·))]
    exact (List.pairwise_map.2 ascending).sublist (sublist_repeatedPlaces [] sorted)
  · obtain ⟨first, here, link, there, same, below, rfl⟩ :=
      of_mem_repeatedPlaces ascending (by simp) repeats
    exact ⟨below, link.source, same ▸ linked here, linked there⟩
  · obtain ⟨first, here, from_, enters⟩ := sound.source?_eq_some_iff.1 left
    obtain ⟨link, there, from', enters'⟩ := sound.source?_eq_some_iff.1 right
    obtain ⟨entered, place⟩ := Socket.eq_iff.1 enters
    obtain ⟨entered', place'⟩ := Socket.eq_iff.1 enters'
    have here := (mem first).2 ⟨here, entered⟩
    obtain ⟨early, late, split⟩ := List.append_of_mem ((mem link).2 ⟨there, entered'⟩)
    rw [split] at here ascending
    have before : first ∈ [] ++ early := by
      rcases List.mem_append.1 here with before | after
      · exact before
      · rcases List.mem_cons.1 after with rfl | after
        · dsimp only at place place'
          omega
        · have above := (List.pairwise_cons.1 (List.pairwise_append.1 ascending).2.1).1 first after
          dsimp only at place place'
          omega
    obtain ⟨places, listed, at_⟩ := exists_mem_repeatedPlaces late before
      (from_.trans from'.symm)
    exact ⟨places, split ▸ listed, at_.trans place'⟩

end Cleanup

/-- A list of distinct items without the one at a place. -/
theorem filter_ne_eq_eraseIdx {α : Type} [DecidableEq α] {items : List α} (distinct : items.Nodup)
    {place : Nat} {item : α} (here : items[place]? = some item) :
    items.filter (fun other => other ≠ item) = items.eraseIdx place := by
  obtain ⟨inside, rfl⟩ := List.getElem?_eq_some_iff.1 here
  rw [← distinct.erase_getElem place inside, distinct.erase_eq_filter]
  refine List.filter_congr fun other _ => ?_
  rw [Bool.eq_iff_iff, decide_eq_true_eq, bne_iff_ne]

namespace Graph

/-- What merging one of the inputs that a definition shows into another one does to the definition:
the readers of the one come to read the other, and the one goes. -/
structure MergesInput (before after : Graph) (kept dropped : Nat) : Prop where
  keptShown : kept ∈ before.exposedInputs.map Prod.snd
  droppedShown : dropped ∈ before.exposedInputs.map Prod.snd
  apart : kept ≠ dropped
  edits : ∃ between, before.Relinks between ⟨dropped, 0⟩ ⟨kept, 0⟩ ∧ between.Removes after dropped

/-- A definition in which an input has been merged into another one is sound. -/
theorem MergesInput.sound {before after : Graph} {kept dropped : Nat}
    (merges : MergesInput before after kept dropped) : after.Sound := by
  obtain ⟨between, -, removes⟩ := merges.edits
  exact removes.sound

section

variable {before after : Graph} {kept dropped : Nat}

/-- The inputs that a definition shows are distinct nodes. -/
theorem Sound.nodup_exposedInputs (sound : before.Sound) :
    (before.exposedInputs.map Prod.snd).Nodup :=
  (List.filter_sublist.map Prod.snd).nodup sound.nodup_inputs

/-- The readers of an input that is merged into another one read this one from then on. -/
theorem MergesInput.source? (merges : before.MergesInput after kept dropped) (sound : before.Sound)
    (target : Socket) : after.source? target =
      if before.source? target = some ⟨dropped, 0⟩ then some ⟨kept, 0⟩
      else before.source? target := by
  obtain ⟨between, relinks, removes⟩ := merges.edits
  obtain ⟨entry, mem, rfl⟩ := List.mem_map.1 merges.droppedShown
  obtain ⟨node, port, found, input, -⟩ := sound.inputNamed entry (List.mem_filter.1 mem).1
  rw [removes.source?, relinks.source?]
  by_cases here : target.node = entry.2
  · have unlinked : before.source? target = none := by
      rw [show target = ⟨entry.2, target.place⟩ from Socket.eq_iff.2 ⟨here, rfl⟩]
      exact sound.source?_input found input target.place
    simp [here, unlinked]
  · rw [if_neg here]
    split
    · simpa [Option.filter] using merges.apart
    · rename_i other
      cases linked : before.source? target with
      | none => rfl
      | some source =>
        rw [Option.filter_some_eq_some]
        refine decide_eq_true fun same => other ?_
        obtain ⟨sender, sent, below⟩ := sound.hasOutput linked
        rw [same, found, Option.some.injEq] at sent
        rw [← sent, (sound.inputShaped _ node port found input).outputs] at below
        rw [linked, Option.some.injEq]
        exact Socket.eq_iff.2 ⟨same, by simpa using below⟩

/-- A definition loses one of the inputs that it shows when this is merged into another one. -/
theorem MergesInput.exposedInputs (merges : before.MergesInput after kept dropped)
    (sound : before.Sound) {place : Nat}
    (here : (before.exposedInputs.map Prod.snd)[place]? = some dropped) :
    after.exposedInputs = before.exposedInputs.eraseIdx place := by
  obtain ⟨between, relinks, removes⟩ := merges.edits
  have fewer : after.exposedInputs =
      before.exposedInputs.filter fun entry => entry.2 ≠ dropped := by
    unfold Graph.exposedInputs
    rw [removes.inputs, relinks.inputs, List.filter_comm]
    refine List.filter_congr fun entry mem => ?_
    have apart : dropped ≠ entry.2 := by
      rintro rfl
      simp [Table.filter] at mem
    simp only [Graph.isExposed, removes.node?, if_neg apart, relinks.node?]
  rw [List.getElem?_map] at here
  obtain ⟨entry, listed, rfl⟩ := Option.map_eq_some_iff.1 here
  have distinct := sound.nodup_exposedInputs
  rw [fewer, ← filter_ne_eq_eraseIdx (List.Nodup.of_map _ distinct) listed]
  refine List.filter_congr fun other mem => ?_
  have same : other.2 = entry.2 ↔ other = entry :=
    ⟨fun equal => List.inj_on_of_nodup_map distinct mem (List.mem_of_getElem? listed) equal,
      congrArg Prod.snd⟩
  simp [same]

/-- A definition keeps its other nodes when an input is merged into another one. -/
theorem MergesInput.node? (merges : before.MergesInput after kept dropped) {id : Nat}
    (apart : id ≠ dropped) : after.node? id = before.node? id := by
  obtain ⟨between, relinks, removes⟩ := merges.edits
  rw [removes.node?, if_neg (Ne.symm apart), relinks.node?]

end

end Graph

namespace Cleanup

/-- What a definition is like without an input that it shows. -/
structure LacksInput (before after : Graph) : Prop where
  sound : after.Sound
  shown : after.exposedInputs.length + 1 = before.exposedInputs.length
  instances : ∀ group, instanceCount after group = instanceCount before group

/-- A definition in which an input has been merged into another one lacks an input. -/
theorem lacksInput_of_merges {before after : Graph} {kept dropped : Nat} (sound : before.Sound)
    (merges : before.MergesInput after kept dropped) : LacksInput before after := by
  have shown := merges.droppedShown
  obtain ⟨between, relinks, removes⟩ := merges.edits
  refine ⟨removes.sound, ?_, fun group => ?_⟩
  · obtain ⟨place, here⟩ := List.mem_iff_getElem?.1 shown
    have inside := (List.getElem?_eq_some_iff.1 here).1
    rw [List.length_map] at inside
    rw [merges.exposedInputs sound here, List.length_eraseIdx_of_lt inside]
    omega
  · obtain ⟨entry, mem, rfl⟩ := List.mem_map.1 shown
    obtain ⟨node, port, found, input, -⟩ := sound.inputNamed entry (List.mem_filter.1 mem).1
    refine instanceCount_congr fun id => ?_
    rw [removes.node?]
    split
    · rename_i same
      rw [← same, found, Option.any_none, Option.any_some, input]
      rfl
    · rw [relinks.node?]

/-- The readers of an input of a definition are linked to another input one after the other. -/
theorem relinkReaders_spec {group : String} {kept : Socket} {readers : List Socket}
    {definition : Graph} {site after : Site} (found : site.library.get? group = some definition)
    (sound : definition.Sound)
    (done : readers.forM (fun reader => editDefinition group fun definition =>
      definition.connect kept reader) site = .ok () after) :
    ∃ relinked, after = { site with library := site.library.insert group relinked } ∧
      Graph.ConnectsAll definition relinked kept readers := by
  induction readers generalizing definition site with
  | nil =>
    cases done
    exact ⟨definition, by rw [Table.insert_of_get? found], sound.connectsAll_nil kept⟩
  | cons reader rest ih =>
    obtain ⟨_, between, first, later⟩ := bind_eq_ok_iff.1 done
    obtain ⟨linked, links, rfl⟩ := editDefinition_of_get? found first
    have connects := sound.connect links
    obtain ⟨relinked, rfl, all⟩ := ih (by rw [Table.get?_insert, if_pos rfl]) connects.sound later
    exact ⟨relinked, by rw [Table.insert_insert], connects.all all⟩

/-- Merging an input of a definition into another one takes one input away. -/
theorem mergeInputs_spec {group : String} {kept dropped : Nat} {definition : Graph}
    {site after : Site} (found : site.library.get? group = some definition)
    (sound : definition.Sound) (shown : kept ∈ definition.exposedInputs.map Prod.snd)
    (shown' : dropped ∈ definition.exposedInputs.map Prod.snd) (apart : kept ≠ dropped)
    (done : mergeInputs group kept dropped site = .ok () after) :
    ∃ merged, after = { site with library := site.library.insert group merged } ∧
      definition.MergesInput merged kept dropped := by
  rw [mergeInputs, get_bind, found] at done
  obtain ⟨_, between, linked, removed⟩ := bind_eq_ok_iff.1 done
  obtain ⟨relinked, rfl, connects⟩ := relinkReaders_spec found sound linked
  obtain ⟨merged, removes, rfl⟩ :=
    editDefinition_of_get? (by rw [Table.get?_insert, if_pos rfl]) removed
  obtain ⟨⟨node, graph⟩, taken, rfl⟩ := map_eq_ok_iff.1 removes
  exact ⟨graph, by rw [Table.insert_insert], shown, shown', apart, relinked, connects.relinks sound,
    connects.sound.removeNode taken⟩

/-- The inputs at two places of an instance are merged, or its definition does not have both and
nothing is changed. -/
theorem mergePlaces_spec {id : Nat} {group : String} {places : Nat × Nat} {definition : Graph}
    {changed : Bool} {site after : Site} (found : site.library.get? group = some definition)
    (sound : definition.Sound) (soundGraph : site.graph.Sound) (order : places.1 < places.2)
    (done : mergePlaces id group places site = .ok changed after) :
    (changed = false ∧ after = site ∧ definition.exposedInputs.length ≤ places.2) ∨
      changed = true ∧ ∃ merged kept dropped,
        (definition.exposedInputs.map Prod.snd)[places.1]? = some kept ∧
        (definition.exposedInputs.map Prod.snd)[places.2]? = some dropped ∧
        after.library = site.library.insert group merged ∧
        definition.MergesInput merged kept dropped ∧
          Graph.RemovesSocket site.graph after.graph id places.2 := by
  obtain ⟨_, _, got, done⟩ := bind_eq_ok_iff.1 done
  cases got
  rw [found, Option.map_some, Option.getD_some] at done
  cases drops : (definition.exposedInputs.map Prod.snd)[places.2]? with
  | none =>
    have beyond := List.getElem?_eq_none_iff.1 drops
    rw [List.length_map] at beyond
    have unchanged : changed = false ∧ after = site := by
      cases keeps : (definition.exposedInputs.map Prod.snd)[places.1]? with
      | none => rw [keeps] at done; cases done; exact ⟨rfl, rfl⟩
      | some kept => rw [keeps, drops] at done; cases done; exact ⟨rfl, rfl⟩
    exact .inl ⟨unchanged.1, unchanged.2, beyond⟩
  | some dropped =>
    obtain ⟨inside, -⟩ := List.getElem?_eq_some_iff.1 drops
    have keeps := List.getElem?_eq_getElem (order.trans inside)
    rw [keeps, drops] at done
    obtain ⟨_, between, merges, done⟩ := bind_eq_ok_iff.1 done
    obtain ⟨_, last, removed, same⟩ := bind_eq_ok_iff.1 done
    cases same
    obtain ⟨merged, rfl, merging⟩ := mergeInputs_spec found sound (List.mem_of_getElem? keeps)
      (List.mem_of_getElem? drops) (fun same => order.ne <|
        sound.nodup_exposedInputs.getElem_inj_iff.1 <|
        same.trans (List.getElem?_eq_some_iff.1 drops).2.symm) merges
    obtain ⟨library, removes⟩ := removeInputSocket_spec (by exact soundGraph) removed
    exact .inr ⟨rfl, merged, _, dropped, keeps, rfl, library, merging, removes⟩

end Cleanup

namespace Graph

/-- Before the place of a socket that is taken away the sockets of the node stay. -/
theorem RemovesSocket.source?_before {before after : Graph} {id place at_ : Nat}
    (removes : RemovesSocket before after id place) (early : at_ < place) :
    after.source? ⟨id, at_⟩ = before.source? ⟨id, at_⟩ := by
  rw [removes.source?, if_neg fun both => Nat.not_le_of_lt early both.2]

/-- From the place of a socket that is taken away on the sockets of the node move up. -/
theorem RemovesSocket.source?_from {before after : Graph} {id place at_ : Nat}
    (removes : RemovesSocket before after id place) (late : place ≤ at_) :
    after.source? ⟨id, at_⟩ = before.source? ⟨id, at_ + 1⟩ := by
  rw [removes.source?, if_pos ⟨rfl, late⟩]

/-- What feeds a node still does without a socket that is fed like another one. -/
theorem RemovesSocket.exists_still_linked {before after : Graph} {id place other : Nat}
    (removes : RemovesSocket before after id place) (earlier : other < place)
    (same : before.source? ⟨id, other⟩ = before.source? ⟨id, place⟩) {target source : Socket}
    (linked : before.source? target = some source) :
    ∃ target', after.source? target' = some source := by
  obtain ⟨node, at_⟩ := target
  by_cases entered : node = id
  · subst entered
    rcases Nat.lt_trichotomy at_ place with below | rfl | above
    · exact ⟨⟨node, at_⟩, (removes.source?_before below).trans linked⟩
    · exact ⟨⟨node, other⟩, (removes.source?_before earlier).trans (same.trans linked)⟩
    · refine ⟨⟨node, at_ - 1⟩, (removes.source?_from (Nat.le_sub_one_of_lt above)).trans ?_⟩
      rwa [Nat.sub_add_cancel (Nat.one_le_of_lt above)]
  · exact ⟨⟨node, at_⟩, by rw [removes.source?, if_neg fun both => entered both.1]; exact linked⟩

/-- Taking away a socket of an instance that is fed by the same output socket as another one thins
a graph. -/
theorem RemovesSocket.thins {before after : Graph} {id place : Nat} (sound : before.Sound)
    (removes : RemovesSocket before after id place) {group : String} {node : Node}
    (found : before.node? id = some node) (op : node.op = .group group) {other : Nat}
    (earlier : other < place) (same : before.source? ⟨id, other⟩ = before.source? ⟨id, place⟩) :
    before.Thins after := by
  obtain ⟨receiver, here, node?⟩ := removes.node?
  rw [found, Option.some.injEq] at here
  subst here
  have succeeds : ({ node with inputs := node.inputs.eraseIdx place } : Node).Succeeds node := by
    refine Node.succeeds_of_op rfl ?_ rfl
    rw [List.length_eraseIdx]
    split <;> omega
  refine {
    sound := removes.sound
    node := fun other new there => ?_
    instances := fun group other => ?_
    input := fun name other listed => by rwa [input?, removes.inputs] at listed
    output := fun other mem => removes.outputs ▸ mem
    linked := fun target source => removes.exists_linked
    read := fun name input _ idle target source linked => ?_
    fed := fun output mem at_ => ?_ }
  · rw [node?] at there
    split at there
    · rename_i equal
      cases there
      exact ⟨node, equal ▸ found, succeeds⟩
    · exact ⟨new, there, .refl new⟩
  · rw [node?]
    split
    · rename_i equal
      rw [← equal, found]
      exact succeeds.instanceOf group
    · rfl
  · obtain ⟨target', linked'⟩ := removes.exists_still_linked earlier same linked
    exact idle target' source linked'
  · rw [removes.source?, if_neg]
    rintro ⟨rfl, -⟩
    rw [removes.outputs] at mem
    exact sound.not_mem_outputs found (by simp [op]) mem

end Graph

namespace Site

/-- Whether no two sockets of an instance for which its definition shows inputs are fed by the same
output socket, unless there are other instances of its group. -/
def MergedAt (site : Site) (id : Nat) (group : String) : Prop :=
  Cleanup.useCount site group = 1 → ∀ definition, site.library.get? group = some definition →
    ∀ a b source, a < b → site.graph.source? ⟨id, a⟩ = some source →
      site.graph.source? ⟨id, b⟩ = some source → definition.exposedInputs.length ≤ b

/-- What merging inputs of an instance does to a site. -/
structure Merges (before after : Site) (id : Nat) (group : String) : Prop where
  thins : before.graph.Thins after.graph
  definitions : ∀ other definition, after.library.get? other = some definition →
    definition.Sound
  others : ∀ other, other ≠ group → after.library.get? other = before.library.get? other
  useCount : ∀ other, Cleanup.useCount after other = Cleanup.useCount before other
  elsewhere : ∀ target : Socket, target.node ≠ id →
    after.graph.source? target = before.graph.source? target

variable {first second third site : Site} {id : Nat} {group : String}

/-- A site from which nothing is merged stays as it is. -/
theorem merges_refl (sound : site.graph.Sound)
    (definitions : ∀ other definition, site.library.get? other = some definition →
      definition.Sound) : site.Merges site id group :=
  ⟨sound.prunes.toThins, definitions, fun _ _ => rfl, fun _ => rfl, fun _ _ => rfl⟩

/-- Merging goes on. -/
theorem Merges.trans (early : first.Merges second id group) (late : second.Merges third id group) :
    first.Merges third id group where
  thins := early.thins.trans late.thins
  definitions := late.definitions
  others other apart := (late.others other apart).trans (early.others other apart)
  useCount other := (late.useCount other).trans (early.useCount other)
  elsewhere target apart := (late.elsewhere target apart).trans (early.elsewhere target apart)

end Site

namespace Cleanup

/-- Groups have as many instances as before when definitions that are stored have as many. -/
theorem useCount_congr {before after : Site} {group : String}
    (graph : instanceCount after.graph group = instanceCount before.graph group)
    (library : after.library.values.map (fun definition => instanceCount definition group) =
      before.library.values.map fun definition => instanceCount definition group) :
    useCount after group = useCount before group := by
  have sums (site : Site) : useCount site group =
      (site.library.values.map fun definition => instanceCount definition group).foldl
        (fun count more => count + more) (instanceCount site.graph group) := by
    rw [List.foldl_map]
    rfl
  rw [sums, sums, graph, library]

/-- What is left to do at an instance while its inputs are merged: the places that are listed. -/
structure Merging (site : Site) (id : Nat) (group : String) (listed : List (Nat × Nat))
    (now : Site) : Prop where
  merges : site.Merges now id group
  definition : ∃ definition, now.library.get? group = some definition ∧
    ∀ a b source, a < b → now.graph.source? ⟨id, a⟩ = some source →
      now.graph.source? ⟨id, b⟩ = some source →
        (∃ places ∈ listed, places.2 = b) ∨ definition.exposedInputs.length ≤ b
  descending : listed.Pairwise fun a b => b.2 < a.2
  repeated : ∀ places ∈ listed, places.1 < places.2 ∧ ∃ source,
    now.graph.source? ⟨id, places.1⟩ = some source ∧
      now.graph.source? ⟨id, places.2⟩ = some source

/-- A site in which the definition of a group has lost an input, and an instance of it the socket for
that, has been merged. -/
theorem Site.merges_of_removes {now after : Site} {id place : Nat} {group : String}
    {definition merged : Graph}
    (definitions : ∀ other definition, now.library.get? other = some definition →
      definition.Sound)
    (stored : now.library.get? group = some definition)
    (library : after.library = now.library.insert group merged)
    (lacks : LacksInput definition merged) (thins : now.graph.Thins after.graph)
    (removes : Graph.RemovesSocket now.graph after.graph id place) :
    now.Merges after id group where
  thins := thins
  definitions other definition' there := by
    rw [library, Table.get?_insert] at there
    split at there
    · cases there
      exact lacks.sound
    · exact definitions other definition' there
  others other apart := by
    rw [library, Table.get?_insert, if_neg (Ne.symm apart)]
  useCount other := useCount_congr (thins.instanceCount other) (by
    rw [library]
    exact Table.map_values_insert stored (lacks.instances other))
  elsewhere target apart := by
    rw [removes.source?, if_neg fun both => apart both.1]

namespace Merging

variable {site now after : Site} {id : Nat} {group : String} {places : Nat × Nat}
  {rest : List (Nat × Nat)} (merging : Merging site id group (places :: rest) now)
include merging

/-- Nothing is merged at the first places that are left when the definition lacks the second. -/
theorem skip {definition : Graph} (stored : now.library.get? group = some definition)
    (few : definition.exposedInputs.length ≤ places.2) : Merging site id group rest now := by
  obtain ⟨definition', stored', left⟩ := merging.definition
  rw [stored, Option.some.injEq] at stored'
  subst stored'
  refine ⟨merging.merges, ⟨definition, stored, fun a b source ab here there => ?_⟩,
    (List.pairwise_cons.1 merging.descending).2, fun other mem => merging.repeated other (by simp [mem])⟩
  rcases left a b source ab here there with ⟨other, mem, rfl⟩ | few'
  · rcases List.mem_cons.1 mem with rfl | mem
    · exact .inr few
    · exact .inl ⟨other, mem, rfl⟩
  · exact .inr few'

/-- When the second of the first places that are left has gone, nothing is left to do behind it, and
the inputs are one fewer. -/
theorem removed {definition merged : Graph} (stored : now.library.get? group = some definition)
    (stored' : after.library.get? group = some merged) (step : now.Merges after id group)
    (shown : merged.exposedInputs.length + 1 = definition.exposedInputs.length)
    (removes : Graph.RemovesSocket now.graph after.graph id places.2) :
    Merging site id group rest after := by
  obtain ⟨definition', stored'', left⟩ := merging.definition
  rw [stored, Option.some.injEq] at stored''
  subst stored''
  obtain ⟨below, descending⟩ := List.pairwise_cons.1 merging.descending
  refine ⟨merging.merges.trans step, ⟨merged, stored', fun a b source ab here there => ?_⟩,
    descending, fun other mem => ?_⟩
  · by_cases early : b < places.2
    · rw [removes.source?_before (ab.trans early)] at here
      rw [removes.source?_before early] at there
      rcases left a b source ab here there with ⟨other, mem, rfl⟩ | few
      · rcases List.mem_cons.1 mem with rfl | mem
        · exact absurd early (Nat.lt_irrefl _)
        · exact .inl ⟨other, mem, rfl⟩
      · exact .inr (by omega)
    · rw [removes.source?_from (Nat.le_of_not_lt early)] at there
      obtain ⟨a', order, here⟩ : ∃ a', a' < b + 1 ∧
          now.graph.source? ⟨id, a'⟩ = some source := by
        by_cases before : a < places.2
        · exact ⟨a, by omega, by rw [← removes.source?_before before]; exact here⟩
        · exact ⟨a + 1, by omega,
            by rw [← removes.source?_from (Nat.le_of_not_lt before)]; exact here⟩
      rcases left a' (b + 1) source order here there with ⟨other, mem, same⟩ | few
      · rcases List.mem_cons.1 mem with rfl | mem
        · omega
        · have := below other mem
          omega
      · exact .inr (by omega)
  · obtain ⟨order, source, first, second⟩ := merging.repeated other (by simp [mem])
    have early := below other mem
    exact ⟨order, source, (removes.source?_before (order.trans early)).trans first,
      (removes.source?_before early).trans second⟩

/-- The inputs at the first places that are left are merged. -/
theorem step {changed : Bool}
    (isInstance : ∃ node, site.graph.node? id = some node ∧ node.op = .group group)
    (done : mergePlaces id group places now = .ok changed after) :
    Merging site id group rest after := by
  obtain ⟨order, source, first, second⟩ := merging.repeated places (by simp)
  obtain ⟨definition, stored, -⟩ := merging.definition
  have definitions := merging.merges.definitions
  have thins := merging.merges.thins
  obtain ⟨node, found, op⟩ : ∃ node, now.graph.node? id = some node ∧ node.op = .group group :=
    isInstance.elim fun node here => thins.exists_instance here.1 here.2
  rcases mergePlaces_spec stored (definitions group definition stored) thins.sound order done with
    ⟨-, rfl, few⟩ | ⟨-, merged, kept, dropped, -, -, library, merges, removes⟩
  · exact merging.skip stored few
  · have lacks := lacksInput_of_merges (definitions group definition stored) merges
    have step := Site.merges_of_removes definitions stored library lacks
      (removes.thins thins.sound found op order (first.trans second.symm)) removes
    exact merging.removed stored (by rw [library, Table.get?_insert, if_pos rfl]) step lacks.shown
      removes

end Merging

/-- At first all places at which an instance is fed like at one above are left. -/
theorem merging_start {site : Site} (sound : site.graph.Sound)
    (definitions : ∀ other definition, site.library.get? other = some definition →
      definition.Sound)
    (id : Nat) {group : String} {definition : Graph}
    (stored : site.library.get? group = some definition) :
    Merging site id group (duplicatePlaces (site.graph.incoming id)).reverse site := by
  obtain ⟨ascending, repeated, complete, -⟩ := duplicatePlaces_spec sound id
  refine ⟨Site.merges_refl sound definitions,
    ⟨definition, stored, fun a b source ab here there => .inl ?_⟩, List.pairwise_reverse.2 ascending,
    fun places mem => repeated places (List.mem_reverse.1 mem)⟩
  obtain ⟨places, mem, at_⟩ := complete a b source ab here there
  exact ⟨places, List.mem_reverse.2 mem, at_⟩

/-- Merging the inputs of an instance leaves it with none to merge. -/
theorem mergeInstance_spec {site after : Site} {id : Nat} {group : String} {total : Nat}
    (sound : site.graph.Sound)
    (definitions : ∀ other definition, site.library.get? other = some definition →
      definition.Sound)
    (isInstance : ∃ node, site.graph.node? id = some node ∧ node.op = .group group)
    (done : mergeInstance id group site = .ok total after) :
    site.Merges after id group ∧ after.MergedAt id group := by
  obtain ⟨_, _, got, done⟩ := bind_eq_ok_iff.1 done
  cases got
  split at done
  · rename_i spared
    cases done
    refine ⟨Site.merges_refl sound definitions, fun once definition stored => ?_⟩
    have present : site.library.contains group = true := by
      rw [← Table.isSome_get?, stored]
      rfl
    simp [once, present] at spared
  · rename_i chosen
    have present : site.library.contains group = true := by
      cases absent : site.library.contains group with
      | true => rfl
      | false => simp [absent] at chosen
    rw [← Table.isSome_get?] at present
    obtain ⟨definition, stored⟩ := Option.isSome_iff_exists.1 present
    have merging : Merging site id group [] after :=
      count_carries (mergePlaces id group) (Merging site id group)
        (fun _ _ _ _ _ merging stepped => merging.step isInstance stepped) done
        (merging_start sound definitions id stored)
    refine ⟨merging.merges, fun _ definition' stored' a b source ab here there => ?_⟩
    obtain ⟨definition, stored, left⟩ := merging.definition
    rw [stored, Option.some.injEq] at stored'
    rcases left a b source ab here there with ⟨places, mem, -⟩ | few
    · cases mem
    · exact stored' ▸ few

/-- A group with two instances in a graph has more than one. -/
theorem one_lt_useCount {site : Site} {group : String} {id id' : Nat} {node node' : Node}
    (apart : id ≠ id') (found : site.graph.node? id = some node) (op : node.op = .group group)
    (found' : site.graph.node? id' = some node') (op' : node'.op = .group group) :
    1 < useCount site group := by
  have two : 1 < instanceCount site.graph group := by
    have sub : [id, id'] ⊆ (site.graph.nodes.entries.filter fun entry =>
        entry.2.op.isInstanceOf group).map Prod.fst := by
      intro other mem
      rw [List.mem_map]
      rcases List.mem_cons.1 mem with rfl | mem
      · exact ⟨(other, node), List.mem_filter.2
          ⟨Slots.mem_entries.2 found, NodeOp.isInstanceOf_iff.2 op⟩, rfl⟩
      · rw [List.mem_singleton] at mem
        subst mem
        exact ⟨(other, node'), List.mem_filter.2
          ⟨Slots.mem_entries.2 found', NodeOp.isInstanceOf_iff.2 op'⟩, rfl⟩
    have longer := (List.subperm_of_subset (by simp [apart]) sub).length_le
    rw [List.length_map] at longer
    exact longer
  have grows (definitions : List Graph) (count : Nat) :
      count ≤ definitions.foldl (fun count definition => count + instanceCount definition group)
        count := by
    induction definitions generalizing count with
    | nil => exact le_rfl
    | cons definition rest ih => exact (Nat.le_add_right _ _).trans (ih _)
  exact two.trans_le (grows _ _)

/-- What is left to do in a graph while the inputs of its instances are merged. -/
structure MergingAll (site : Site) (listed : List (Nat × String)) (now : Site) : Prop where
  thins : site.graph.Thins now.graph
  definitions : ∀ other definition, now.library.get? other = some definition → definition.Sound
  isInstance : ∀ entry ∈ listed, ∃ node, now.graph.node? entry.1 = some node ∧
    node.op = .group entry.2
  rest : ∀ id node group, now.graph.node? id = some node → node.op = .group group →
    (id, group) ∈ listed ∨ now.MergedAt id group

/-- At first all instances of a graph are left. -/
theorem mergingAll_start {site : Site} (sound : site.graph.Sound)
    (definitions : ∀ other definition, site.library.get? other = some definition →
      definition.Sound) : MergingAll site (instances site.graph) site where
  thins := sound.prunes.toThins
  definitions := definitions
  isInstance _ mem := mem_instances.1 mem
  rest _ node _ found op := .inl (mem_instances.2 ⟨node, found, op⟩)

/-- The inputs of the first instance that is left are merged, and no other instance is given any
more to merge. -/
theorem MergingAll.step {site now after : Site} {entry : Nat × String} {rest : List (Nat × String)}
    {total : Nat} (merging : MergingAll site (entry :: rest) now)
    (done : mergeInstance entry.1 entry.2 now = .ok total after) : MergingAll site rest after := by
  obtain ⟨id, group⟩ := entry
  obtain ⟨node, found, op⟩ := merging.isInstance (id, group) (by simp)
  obtain ⟨merges, merged⟩ := mergeInstance_spec merging.thins.sound merging.definitions
    ⟨node, found, op⟩ done
  refine ⟨merging.thins.trans merges.thins, merges.definitions, fun other mem => ?_,
    fun id' new group' found' op' => ?_⟩
  · obtain ⟨old, here, op⟩ := merging.isInstance other (by simp [mem])
    exact merges.thins.exists_instance here op
  · obtain ⟨old, here, succeeds⟩ := merges.thins.node id' new found'
    have isInstance := succeeds.instanceOf group'
    rw [NodeOp.isInstanceOf_iff.2 op', eq_comm, NodeOp.isInstanceOf_iff] at isInstance
    by_cases same : id' = id
    · subst same
      rw [found, Option.some.injEq] at here
      rw [← here, op, NodeOp.group.injEq] at isInstance
      exact .inr (isInstance ▸ merged)
    · rcases merging.rest id' old group' here isInstance with mem | before
      · rcases List.mem_cons.1 mem with equal | mem
        · exact absurd (congrArg Prod.fst equal) same
        · exact .inl mem
      · refine .inr fun once definition stored a b source ab left right => ?_
        rw [merges.useCount] at once
        have apart : group' ≠ group := by
          rintro rfl
          exact absurd once (one_lt_useCount (Ne.symm same) found op here isInstance).ne'
        rw [merges.others group' apart] at stored
        rw [merges.elsewhere _ same] at left right
        exact before once definition stored a b source ab left right

end Cleanup

/-- Whether no two sockets of an instance for which its definition shows inputs are fed by the same
output socket, unless the group has other instances. -/
def Site.Merged (site : Site) : Prop :=
  ∀ id node group, site.graph.node? id = some node → node.op = .group group →
    site.MergedAt id group

namespace Cleanup

/-- Merging the inputs of all instances thins the graph, and leaves no instance with inputs to
merge. -/
theorem mergeDuplicateInputs_spec {site after : Site} {total : Nat} (sound : site.graph.Sound)
    (definitions : ∀ other definition, site.library.get? other = some definition →
      definition.Sound)
    (done : mergeDuplicateInputs site = .ok total after) :
    site.graph.Thins after.graph ∧ after.Merged := by
  rw [mergeDuplicateInputs, graph_bind] at done
  have merging : MergingAll site [] after :=
    sum_carries (fun entry : Nat × String => mergeInstance entry.1 entry.2) (MergingAll site)
      (fun _ _ _ _ _ merging merged => merging.step merged) done (mergingAll_start sound definitions)
  refine ⟨merging.thins, fun id node group found op => ?_⟩
  rcases merging.rest id node group found op with mem | merged
  · cases mem
  · exact merged

end Cleanup

end Shadeloom
