import Mathlib
import Shadeloom.Proofs.Build.Duplicates
import Shadeloom.Proofs.Build.Outcomes
import Shadeloom.Proofs.Graph.Layouts
/-!
# Instances and their definitions while inputs are merged

An instance has a socket for every input that its definition shows, in the same order. Merging the
sockets that are fed by the same output socket takes a socket from the instance and an input from
the definition at the same place, again and again, so that the two still match; and all readers of
an input that goes come to read the first one that was fed alike.
-/
namespace Shadeloom

/-- The places of a list of so many items without those that are gone. -/
def keptPlaces (count : Nat) (gone : List Nat) : List Nat :=
  (List.range count).filter fun place => place ∉ gone

/-- Whether what stands at places in a row is what stood at some places, in the order of these. -/
def Picks {α : Type} (places : List Nat) (all picked : Nat → Option α) : Prop :=
  ∀ place, picked place = places[place]?.bind all

/-- Places before all that are gone stay where they are. -/
theorem getElem?_keptPlaces {count place : Nat} {gone : List Nat} (inside : place < count)
    (behind : ∀ other ∈ gone, place < other) : (keptPlaces count gone)[place]? = some place := by
  obtain ⟨more, rfl⟩ := Nat.exists_eq_add_of_le (Nat.succ_le_of_lt inside)
  have early : (List.range (place + 1)).filter (fun other => other ∉ gone) =
      List.range (place + 1) := by
    rw [List.filter_eq_self]
    intro other mem
    have below := List.mem_range.1 mem
    have stays : other ∉ gone := fun here => absurd (behind other here) (by omega)
    simpa using stays
  unfold keptPlaces
  rw [List.range_add, List.filter_append, early, List.getElem?_append_left (by simp)]
  simp

/-- When one more place is gone, those behind it move up. -/
theorem getElem?_keptPlaces_cons {count gap : Nat} {gone : List Nat} (inside : gap < count)
    (behind : ∀ other ∈ gone, gap < other) (place : Nat) :
    (keptPlaces count (gap :: gone))[place]? =
      if place < gap then (keptPlaces count gone)[place]?
      else (keptPlaces count gone)[place + 1]? := by
  have distinct : (keptPlaces count gone).Nodup := List.nodup_range.filter _
  have fewer : keptPlaces count (gap :: gone) = (keptPlaces count gone).eraseIdx gap := by
    rw [← filter_ne_eq_eraseIdx distinct (getElem?_keptPlaces inside behind)]
    unfold keptPlaces
    rw [List.filter_filter]
    refine List.filter_congr fun other _ => ?_
    simp
  rw [fewer, List.getElem?_eraseIdx]

section

variable {α : Type} {count : Nat} {all picked : Nat → Option α}

/-- All items stand where they stood. -/
theorem picks_all (beyond : ∀ place, count ≤ place → all place = none) :
    Picks (keptPlaces count []) all all := by
  intro place
  by_cases inside : place < count
  · rw [getElem?_keptPlaces inside (by simp), Option.bind_some]
  · rw [beyond place (by omega), List.getElem?_eq_none, Option.bind_none]
    simpa [keptPlaces] using inside

/-- When those behind a gap move up, what stands at places is still what stood there. -/
theorem Picks.gap {gap : Nat} {gone : List Nat} {picked' : Nat → Option α}
    (picks : Picks (keptPlaces count gone) all picked) (inside : gap < count)
    (behind : ∀ other ∈ gone, gap < other)
    (moved : ∀ place, picked' place = if place < gap then picked place else picked (place + 1)) :
    Picks (keptPlaces count (gap :: gone)) all picked' := by
  intro place
  rw [moved, getElem?_keptPlaces_cons inside behind]
  split
  · exact picks place
  · exact picks (place + 1)

/-- Places before all that are gone hold what they held. -/
theorem Picks.before {gone : List Nat} (picks : Picks (keptPlaces count gone) all picked)
    {place : Nat} (inside : place < count) (behind : ∀ other ∈ gone, place < other) :
    picked place = all place := by
  rw [picks, getElem?_keptPlaces inside behind, Option.bind_some]

end

/-- Whether the input sockets of an instance match the inputs that a definition shows, in order,
name and type. -/
def Node.MatchesInputs (node : Node) (definition : Graph) : Prop :=
  node.inputs.map InputSocket.layout = definition.instanceNode.inputs.map InputSocket.layout

namespace Graph

/-- An input that a definition shows has a socket. -/
theorem Sound.isSome_inputSocket? {graph : Graph} (sound : graph.Sound) {entry : String × Nat}
    (mem : entry ∈ graph.exposedInputs) : (graph.inputSocket? entry).isSome = true := by
  obtain ⟨node, port, found, input, -⟩ := sound.inputNamed entry (List.mem_filter.1 mem).1
  simp [inputSocket?, found, input]

/-- An instance has a socket for every input that the definition shows, in the same order. -/
theorem Sound.inputs_instanceNode {graph : Graph} (sound : graph.Sound) :
    graph.instanceNode.inputs =
      graph.exposedInputs.map fun entry => (graph.inputSocket? entry).getD default := by
  show graph.exposedInputs.filterMap graph.inputSocket? = _
  rw [← List.filterMap_eq_map]
  refine List.filterMap_congr fun entry mem => ?_
  obtain ⟨made, here⟩ := Option.isSome_iff_exists.1 (sound.isSome_inputSocket? mem)
  simp [here]

/-- The socket of an instance at a place is that of the input at this place. -/
theorem Sound.getElem?_inputs_instanceNode {graph : Graph} (sound : graph.Sound) (place : Nat) :
    graph.instanceNode.inputs[place]? = graph.exposedInputs[place]?.bind graph.inputSocket? := by
  rw [sound.inputs_instanceNode, List.getElem?_map]
  cases listed : graph.exposedInputs[place]? with
  | none => rfl
  | some entry =>
    obtain ⟨made, here⟩ := Option.isSome_iff_exists.1
      (sound.isSome_inputSocket? (List.mem_of_getElem? listed))
    simp [here]

/-- An instance that matches its definition has as many sockets as the definition shows inputs. -/
theorem Sound.length_of_matchesInputs {graph : Graph} (sound : graph.Sound) {node : Node}
    (fits : node.MatchesInputs graph) : graph.exposedInputs.length = node.inputs.length := by
  have lengths := congrArg List.length fits
  rw [List.length_map, List.length_map, sound.inputs_instanceNode, List.length_map] at lengths
  exact lengths.symm

/-- What merging inputs of a definition at some places, each with the place of the input that it is
merged into, makes of it. -/
structure MergesAt (before after : Graph) (count : Nat) (gone : List (Nat × Nat)) : Prop where
  sound : after.Sound
  shown : Picks (keptPlaces count (gone.map Prod.snd)) (before.exposedInputs[·]?)
    (after.exposedInputs[·]?)
  nodes : ∀ entry ∈ after.exposedInputs, after.node? entry.2 = before.node? entry.2
  /-- The readers of an input that is gone read the one that it was merged into. -/
  moved : ∀ places ∈ gone, ∀ kept dropped, before.exposedInputs[places.1]? = some kept →
    before.exposedInputs[places.2]? = some dropped → ∀ target,
      before.source? target = some ⟨dropped.2, 0⟩ → after.source? target = some ⟨kept.2, 0⟩
  stays : ∀ target, (∀ places ∈ gone, ∀ dropped, before.exposedInputs[places.2]? = some dropped →
    before.source? target ≠ some ⟨dropped.2, 0⟩) → after.source? target = before.source? target

/-- A definition from which no input is gone is as it was. -/
theorem Sound.mergesAt_nil {graph : Graph} (sound : graph.Sound) :
    MergesAt graph graph graph.exposedInputs.length [] where
  sound := sound
  shown := picks_all fun _ beyond => List.getElem?_eq_none beyond
  nodes _ _ := rfl
  moved _ mem := by cases mem
  stays _ _ := rfl

/-- The inputs that a definition shows at different places are different nodes. -/
theorem Sound.ne_of_getElem?_exposedInputs {graph : Graph} (sound : graph.Sound) {a b : Nat}
    {left right : String × Nat} (here : graph.exposedInputs[a]? = some left)
    (there : graph.exposedInputs[b]? = some right) (apart : a ≠ b) : left.2 ≠ right.2 := by
  intro same
  have inside : a < (graph.exposedInputs.map Prod.snd).length := by
    rw [List.length_map]
    exact (List.getElem?_eq_some_iff.1 here).1
  have equal : (graph.exposedInputs.map Prod.snd)[a]? = (graph.exposedInputs.map Prod.snd)[b]? := by
    rw [List.getElem?_map, List.getElem?_map, here, there, Option.map_some, Option.map_some, same]
  exact apart ((List.getElem?_inj inside sound.nodup_exposedInputs).1 equal)

/-- One more input is merged into another one, before all that are gone. -/
theorem MergesAt.cons {before now after : Graph} {count : Nat} {gone : List (Nat × Nat)}
    (merges : MergesAt before now count gone) (sound : before.Sound) {places : Nat × Nat}
    (order : places.1 < places.2) (inside : places.2 < count)
    (behind : ∀ other ∈ gone, places.2 < other.2) (first : ∀ other ∈ gone, other.1 ≠ places.2)
    {kept dropped : Nat} (keeps : (now.exposedInputs.map Prod.snd)[places.1]? = some kept)
    (drops : (now.exposedInputs.map Prod.snd)[places.2]? = some dropped)
    (step : now.MergesInput after kept dropped) :
    MergesAt before after count (places :: gone) := by
  have behind' : ∀ other ∈ gone.map Prod.snd, places.2 < other := by
    rintro _ mem
    obtain ⟨other, here, rfl⟩ := List.mem_map.1 mem
    exact behind other here
  -- Both inputs stand where they stood in the first place.
  have stand (place : Nat) (early : place ≤ places.2) :
      now.exposedInputs[place]? = before.exposedInputs[place]? :=
    merges.shown.before (by omega) fun other mem => Nat.lt_of_le_of_lt early (behind' other mem)
  have exposed := step.exposedInputs merges.sound drops
  have source? := step.source? merges.sound
  rw [List.getElem?_map, stand _ order.le] at keeps
  rw [List.getElem?_map, stand _ le_rfl] at drops
  obtain ⟨keptEntry, keptHere, rfl⟩ := Option.map_eq_some_iff.1 keeps
  obtain ⟨droppedEntry, droppedHere, rfl⟩ := Option.map_eq_some_iff.1 drops
  have unmoved (target : Socket)
      (reads : before.source? target = some ⟨droppedEntry.2, 0⟩) :
      now.source? target = some ⟨droppedEntry.2, 0⟩ := by
    rw [merges.stays target fun other mem entry listed same => ?_, reads]
    rw [reads, Option.some.injEq, Socket.mk.injEq] at same
    exact sound.ne_of_getElem?_exposedInputs droppedHere listed (behind other mem).ne same.1
  refine ⟨step.sound, ?_, fun entry mem => ?_, fun other mem kept dropped listed gone' target reads =>
    ?_, fun target apart => ?_⟩
  · refine merges.shown.gap inside behind' fun place => ?_
    rw [exposed, List.getElem?_eraseIdx]
  · rw [step.node?]
    · exact merges.nodes entry (List.mem_of_mem_eraseIdx (exposed ▸ mem))
    · intro same
      obtain ⟨place, listed⟩ := List.mem_iff_getElem?.1 mem
      rw [exposed, List.getElem?_eraseIdx] at listed
      rw [← stand _ le_rfl] at droppedHere
      split at listed
      · rename_i early
        exact merges.sound.ne_of_getElem?_exposedInputs listed droppedHere early.ne same
      · rename_i late
        have apart : place + 1 ≠ places.2 := by omega
        exact merges.sound.ne_of_getElem?_exposedInputs listed droppedHere apart same
  · rw [source?]
    rcases List.mem_cons.1 mem with rfl | mem
    · rw [keptHere, Option.some.injEq] at listed
      rw [droppedHere, Option.some.injEq] at gone'
      subst listed gone'
      rw [if_pos (unmoved target reads)]
    · have moved := merges.moved other mem kept dropped listed gone' target reads
      rw [moved, if_neg]
      intro same
      rw [Option.some.injEq, Socket.mk.injEq] at same
      exact sound.ne_of_getElem?_exposedInputs listed droppedHere (first other mem) same.1
  · have same := merges.stays target fun other mem => apart other (by simp [mem])
    rw [source?, same, if_neg (apart places (by simp) droppedEntry droppedHere)]

/-- Inputs that a definition has left show what they showed. -/
theorem MergesAt.inputSocket? {before after : Graph} {count : Nat} {gone : List (Nat × Nat)}
    (merges : MergesAt before after count gone) {entry : String × Nat}
    (mem : entry ∈ after.exposedInputs) : after.inputSocket? entry = before.inputSocket? entry := by
  unfold Graph.inputSocket?
  rw [merges.nodes entry mem]

/-- An instance still matches its definition without sockets and inputs at the same places. -/
theorem MergesAt.matchesInputs {before after : Graph} {gone : List (Nat × Nat)} {node node' : Node}
    (merges : MergesAt before after node.inputs.length gone) (sound : before.Sound)
    (picks : Picks (keptPlaces node.inputs.length (gone.map Prod.snd)) (node.inputs[·]?)
      (node'.inputs[·]?))
    (fits : node.MatchesInputs before) : node'.MatchesInputs after := by
  refine List.ext_getElem? fun place => ?_
  have fits (old : Nat) := congrArg (fun layouts => layouts[old]?) fits
  simp only [List.getElem?_map] at fits ⊢
  have shown : after.exposedInputs[place]? = _ := merges.shown place
  have picks : node'.inputs[place]? = _ := picks place
  rw [picks, merges.sound.getElem?_inputs_instanceNode]
  cases kept : (keptPlaces node.inputs.length (gone.map Prod.snd))[place]? with
  | none =>
    rw [kept, Option.bind_none] at shown
    rw [shown]
    rfl
  | some old =>
    rw [kept, Option.bind_some] at shown
    rw [Option.bind_some, fits, sound.getElem?_inputs_instanceNode, ← shown]
    cases listed : after.exposedInputs[place]? with
    | none => rfl
    | some entry =>
      rw [Option.bind_some, Option.bind_some, merges.inputSocket? (List.mem_of_getElem? listed)]

end Graph

namespace Cleanup

/-- An instance and its definition while inputs are merged: those at some places, each with the place
of the input it was merged into, are gone from both. -/
structure Aligning (before now : Site) (id : Nat) (group : String) (node : Node)
    (definition : Graph) (gone : List (Nat × Nat)) : Prop where
  sockets : ∃ inputs, now.graph.node? id = some { node with inputs } ∧
    Picks (keptPlaces node.inputs.length (gone.map Prod.snd)) (node.inputs[·]?) (inputs[·]?)
  links : Picks (keptPlaces node.inputs.length (gone.map Prod.snd))
    (fun place => before.graph.source? ⟨id, place⟩) fun place => now.graph.source? ⟨id, place⟩
  shown : ∃ merged, now.library.get? group = some merged ∧
    definition.MergesAt merged node.inputs.length gone

section

variable {before now after : Site} {id : Nat} {group : String} {node : Node} {definition : Graph}
  {gone rest : List (Nat × Nat)} {places : Nat × Nat}

/-- An instance that matches its definition is aligned with it before anything is merged. -/
theorem aligning_nil (sound : before.graph.Sound) (found : before.graph.node? id = some node)
    (stored : before.library.get? group = some definition) (soundDefinition : definition.Sound)
    (fits : node.MatchesInputs definition) :
    Aligning before before id group node definition [] where
  sockets := ⟨node.inputs, found, picks_all fun _ beyond => List.getElem?_eq_none beyond⟩
  links := by
    refine picks_all fun place beyond => ?_
    cases linked : before.graph.source? ⟨id, place⟩ with
    | none => rfl
    | some source =>
      obtain ⟨receiver, received, below⟩ := sound.hasInput linked
      rw [found, Option.some.injEq] at received
      rw [← received] at below
      exact absurd below (Nat.not_lt_of_le beyond)
  shown := ⟨definition, stored, by
    rw [← soundDefinition.length_of_matchesInputs fits]
    exact soundDefinition.mergesAt_nil⟩

/-- An instance stays aligned with its definition when inputs at two places are merged. -/
theorem Aligning.step (aligning : Aligning before now id group node definition gone)
    (merging : Merging before id group (places :: rest) now)
    (repeats : ListsRepeats before.graph id (rest.reverse ++ places :: gone))
    (sound : before.graph.Sound) (found : before.graph.node? id = some node)
    (soundDefinition : definition.Sound) (fits : node.MatchesInputs definition) {changed : Bool}
    (done : mergePlaces id group places now = .ok changed after) :
    Aligning before after id group node definition (places :: gone) := by
  obtain ⟨order, source, -, fed⟩ := repeats.repeated places (by simp)
  have inside : places.2 < node.inputs.length := by
    obtain ⟨receiver, received, below⟩ := sound.hasInput fed
    rw [found, Option.some.injEq] at received
    rwa [received]
  have behind : ∀ other ∈ gone, places.2 < other.2 :=
    (List.pairwise_cons.1 (List.pairwise_append.1 repeats.ascending).2.1).1
  have behind' : ∀ other ∈ gone.map Prod.snd, places.2 < other := by
    rintro _ mem
    obtain ⟨other, here, rfl⟩ := List.mem_map.1 mem
    exact behind other here
  have first : ∀ other ∈ gone, other.1 ≠ places.2 := fun other mem =>
    repeats.first other (by simp [mem]) places (by simp)
  obtain ⟨merged, stored, merges⟩ := aligning.shown
  rcases mergePlaces_spec stored merges.sound merging.merges.thins.sound order done with
    ⟨-, -, few⟩ | ⟨-, merged', kept, dropped, keeps, drops, library, step, removes⟩
  · -- The definition shows as many inputs as the instance has sockets.
    have here : merged.exposedInputs[places.2]? = definition.exposedInputs[places.2]? :=
      merges.shown.before inside behind'
    have length := soundDefinition.length_of_matchesInputs fits
    rw [List.getElem?_eq_none few, List.getElem?_eq_getElem (by omega)] at here
    cases here
  · obtain ⟨inputs, here, picks⟩ := aligning.sockets
    obtain ⟨node', here', node?⟩ := removes.node?
    rw [here, Option.some.injEq] at here'
    subst here'
    refine ⟨⟨inputs.eraseIdx places.2, by rw [node?, if_pos rfl], ?_⟩, ?_,
      merged', by rw [library, Table.get?_insert, if_pos rfl],
      merges.cons soundDefinition order inside behind first keeps drops step⟩
    · exact picks.gap inside behind' fun place => List.getElem?_eraseIdx
    · refine aligning.links.gap inside behind' fun place => ?_
      split
      · rename_i early
        exact removes.source?_before early
      · rename_i late
        exact removes.source?_from (Nat.le_of_not_lt late)

end

end Cleanup

namespace Graph

/-- Whether a socket of a node is fed by the same output socket as one before it. -/
def repeats (graph : Graph) (id place : Nat) : Bool :=
  (graph.source? ⟨id, place⟩).isSome &&
    (List.range place).any fun earlier => graph.source? ⟨id, earlier⟩ = graph.source? ⟨id, place⟩

/-- The places of the first sockets of a node that are fed by no output socket that feeds one before
them: those that are not linked, and of those that are fed alike the first one. -/
def unrepeated (graph : Graph) (id count : Nat) : List Nat :=
  (List.range count).filter fun place => !graph.repeats id place

section

variable {graph : Graph} {id : Nat}

/-- A socket is fed like one before it when both are linked to the same output socket. -/
theorem repeats_iff {place : Nat} : graph.repeats id place = true ↔ ∃ earlier source,
    earlier < place ∧ graph.source? ⟨id, earlier⟩ = some source ∧
      graph.source? ⟨id, place⟩ = some source := by
  simp only [repeats, Bool.and_eq_true, Option.isSome_iff_exists, List.any_eq_true, List.mem_range,
    decide_eq_true_eq]
  constructor
  · rintro ⟨⟨source, linked⟩, earlier, before, same⟩
    exact ⟨earlier, source, before, same.trans linked, linked⟩
  · rintro ⟨earlier, source, before, here, linked⟩
    exact ⟨⟨source, linked⟩, earlier, before, here.trans linked.symm⟩

/-- The first socket that an output socket feeds is not fed like one before it. -/
theorem repeats_eq_false {place : Nat} {source : Socket}
    (linked : graph.source? ⟨id, place⟩ = some source)
    (first : ∀ earlier, earlier < place → graph.source? ⟨id, earlier⟩ ≠ some source) :
    graph.repeats id place = false := by
  rw [Bool.eq_false_iff]
  intro repeated
  obtain ⟨earlier, other, before, here, linked'⟩ := repeats_iff.1 repeated
  rw [linked, Option.some.injEq] at linked'
  exact first earlier before (linked' ▸ here)

/-- No two places that repeat none are fed alike. -/
theorem eq_of_not_repeats {a b : Nat} {source : Socket} (left : graph.repeats id a = false)
    (right : graph.repeats id b = false) (here : graph.source? ⟨id, a⟩ = some source)
    (there : graph.source? ⟨id, b⟩ = some source) : a = b := by
  rcases Nat.lt_trichotomy a b with below | same | above
  · rw [repeats_iff.2 ⟨a, source, below, here, there⟩] at right
    cases right
  · exact same
  · rw [repeats_iff.2 ⟨b, source, above, there, here⟩] at left
    cases left

end

end Graph

/-- What merging the inputs of an instance that are fed alike makes of the instance and of its
definition, if the two match. -/
structure Site.Aligns (before after : Site) (id : Nat) (group : String) (node node' : Node)
    (definition definition' : Graph) : Prop where
  found : after.graph.node? id = some node'
  stored : after.library.get? group = some definition'
  fits : node'.MatchesInputs definition'
  /-- No two sockets are fed by the same output socket. -/
  apart : ∀ a b source, after.graph.source? ⟨id, a⟩ = some source →
    after.graph.source? ⟨id, b⟩ = some source → a = b
  /-- Nothing of the instance but its sockets is changed. -/
  rest : node' = { node with inputs := node'.inputs }
  /-- The sockets that are left are those that were fed unlike those before them. -/
  sockets : Picks (before.graph.unrepeated id node.inputs.length) (node.inputs[·]?)
    (node'.inputs[·]?)
  links : Picks (before.graph.unrepeated id node.inputs.length)
    (fun place => before.graph.source? ⟨id, place⟩) fun place => after.graph.source? ⟨id, place⟩
  shown : Picks (before.graph.unrepeated id node.inputs.length) (definition.exposedInputs[·]?)
    (definition'.exposedInputs[·]?)
  /-- The readers of an input that is gone read the first input that was fed alike. -/
  merged : ∀ first place source kept dropped, first < place →
    before.graph.source? ⟨id, first⟩ = some source →
    before.graph.source? ⟨id, place⟩ = some source →
    (∀ earlier, earlier < first → before.graph.source? ⟨id, earlier⟩ ≠ some source) →
    definition.exposedInputs[first]? = some kept →
    definition.exposedInputs[place]? = some dropped →
    kept ∈ definition'.exposedInputs ∧ ∀ target,
      definition.source? target = some ⟨dropped.2, 0⟩ →
        definition'.source? target = some ⟨kept.2, 0⟩
  others : ∀ target, (∀ place dropped, before.graph.repeats id place = true →
      definition.exposedInputs[place]? = some dropped →
      definition.source? target ≠ some ⟨dropped.2, 0⟩) →
    definition'.source? target = definition.source? target

namespace Cleanup

section

variable {graph : Graph} {id : Nat} {listed : List (Nat × Nat)}

/-- The sockets that are listed are those that are fed like one before them. -/
theorem ListsRepeats.mem_iff (lists : ListsRepeats graph id listed) {place : Nat} :
    place ∈ listed.map Prod.snd ↔ graph.repeats id place = true := by
  rw [List.mem_map, Graph.repeats_iff]
  constructor
  · rintro ⟨places, mem, rfl⟩
    obtain ⟨order, source, here, there⟩ := lists.repeated places mem
    exact ⟨places.1, source, order, here, there⟩
  · rintro ⟨earlier, source, before, here, there⟩
    exact lists.complete earlier place source before here there

/-- A socket that repeats one is listed with the first one that is fed alike. -/
theorem ListsRepeats.exists_first (lists : ListsRepeats graph id listed) {first place : Nat}
    {source : Socket} (order : first < place) (here : graph.source? ⟨id, first⟩ = some source)
    (there : graph.source? ⟨id, place⟩ = some source)
    (none : ∀ earlier, earlier < first → graph.source? ⟨id, earlier⟩ ≠ some source) :
    (first, place) ∈ listed := by
  obtain ⟨places, mem, rfl⟩ := lists.complete first place source order here there
  obtain ⟨-, other, kept, dropped⟩ := lists.repeated places mem
  rw [there, Option.some.injEq] at dropped
  subst dropped
  have unrepeated : graph.repeats id places.1 = false := by
    rw [Bool.eq_false_iff, ne_eq, ← lists.mem_iff, List.mem_map]
    rintro ⟨other, mem', same⟩
    exact lists.first places mem other mem' same.symm
  have same := Graph.eq_of_not_repeats (Graph.repeats_eq_false here none) unrepeated here kept
  rw [same]
  exact mem

/-- The places that stay are those that repeat none. -/
theorem ListsRepeats.keptPlaces_eq (lists : ListsRepeats graph id listed) (count : Nat) :
    keptPlaces count (listed.map Prod.snd) = graph.unrepeated id count := by
  refine List.filter_congr fun place _ => ?_
  rw [Bool.eq_iff_iff, decide_eq_true_eq, lists.mem_iff]
  simp

end

/-- An instance from which all sockets are gone that are fed like one before is aligned with its
definition. -/
theorem Aligning.aligns {before after : Site} {id : Nat} {group : String} {node : Node}
    {definition : Graph} {listed : List (Nat × Nat)}
    (aligning : Aligning before after id group node definition listed)
    (lists : ListsRepeats before.graph id listed) (soundDefinition : definition.Sound)
    (fits : node.MatchesInputs definition) :
    ∃ node' definition', before.Aligns after id group node node' definition definition' := by
  obtain ⟨inputs, found, sockets⟩ := aligning.sockets
  obtain ⟨definition', stored, merges⟩ := aligning.shown
  have links := aligning.links
  have fits' : ({ node with inputs } : Node).MatchesInputs definition' :=
    merges.matchesInputs soundDefinition sockets fits
  have shown := merges.shown
  rw [lists.keptPlaces_eq] at sockets links shown
  refine ⟨{ node with inputs }, definition', found, stored, fits', fun a b source here there => ?_,
    rfl, sockets, links, shown, fun first place source kept dropped order here there none listed
      listed' => ⟨?_, ?_⟩, fun target apart => ?_⟩
  · -- The two stood at places that repeat none.
    obtain ⟨a', old, here⟩ := Option.bind_eq_some_iff.1 ((links a).symm.trans here)
    obtain ⟨b', old', there⟩ := Option.bind_eq_some_iff.1 ((links b).symm.trans there)
    have unrepeated {place old : Nat}
        (kept : (before.graph.unrepeated id node.inputs.length)[place]? = some old) :
        before.graph.repeats id old = false := by
      simpa using (List.mem_filter.1 (List.mem_of_getElem? kept)).2
    have same := Graph.eq_of_not_repeats (unrepeated old) (unrepeated old') here there
    subst same
    have distinct : (before.graph.unrepeated id node.inputs.length).Nodup :=
      List.nodup_range.filter _
    have inside := (List.getElem?_eq_some_iff.1 old).1
    exact (List.getElem?_inj inside distinct).1 (old.trans old'.symm)
  · have inside : first < node.inputs.length := by
      rw [← soundDefinition.length_of_matchesInputs fits]
      exact (List.getElem?_eq_some_iff.1 listed).1
    have mem : first ∈ before.graph.unrepeated id node.inputs.length :=
      List.mem_filter.2 ⟨List.mem_range.2 inside, by simpa using Graph.repeats_eq_false here none⟩
    obtain ⟨at_, stands⟩ := List.mem_iff_getElem?.1 mem
    have same := shown at_
    rw [stands, Option.bind_some] at same
    exact List.mem_of_getElem? (same.trans listed)
  · exact merges.moved (first, place) (lists.exists_first order here there none) kept dropped listed
      listed'
  · exact merges.stays target fun places mem dropped listed =>
      apart places.2 dropped (lists.mem_iff.1 (List.mem_map_of_mem mem)) listed

end Cleanup

/-- Values that say the same numbers are in use have the same numbers. -/
theorem Slots.numbers_congr {α : Type} {a b : Slots α}
    (same : ∀ number, (a.get? number).isSome = (b.get? number).isSome) : a.numbers = b.numbers := by
  have ordered (slots : Slots α) : slots.numbers.Pairwise (· < ·) :=
    List.pairwise_lt_range.filter _
  refine List.Perm.eq_of_pairwise (fun x y _ _ below above => ?_) (ordered a) (ordered b) ?_
  · exact absurd below (Nat.lt_asymm above)
  · refine (List.perm_ext_iff_of_nodup ((ordered a).imp Nat.ne_of_lt)
      ((ordered b).imp Nat.ne_of_lt)).2 fun number => ?_
    rw [Slots.mem_numbers, Slots.mem_numbers, same]

/-- A sum of numbers of which one is by one greater. -/
theorem sum_map_succ {items : List Nat} (distinct : items.Nodup) {item : Nat} (mem : item ∈ items)
    {f g : Nat → Nat} (more : f item + 1 = g item)
    (same : ∀ other, other ≠ item → f other = g other) :
    (items.map f).sum + 1 = (items.map g).sum := by
  have rest : (items.erase item).map f = (items.erase item).map g :=
    List.map_congr_left fun other here => same other fun equal =>
      (distinct.mem_erase_iff.1 here).1 equal
  have left := List.sum_map_erase f mem
  have right := List.sum_map_erase g mem
  rw [rest] at left
  omega

namespace Graph

/-- The number of input sockets of a node. -/
def inputsAt (graph : Graph) (id : Nat) : Nat :=
  ((graph.node? id).map fun node => node.inputs.length).getD 0

/-- The number of input sockets of all nodes. -/
def inputCount (graph : Graph) : Nat :=
  (graph.nodes.numbers.map graph.inputsAt).sum

/-- A graph has one input socket less when one is taken away. -/
theorem RemovesSocket.inputCount {before after : Graph} {id place : Nat}
    (removes : RemovesSocket before after id place) (has : before.HasInput ⟨id, place⟩) :
    after.inputCount + 1 = before.inputCount := by
  obtain ⟨node, found, node?⟩ := removes.node?
  obtain ⟨node', found', inside⟩ := has
  rw [found, Option.some.injEq] at found'
  subst found'
  have numbers : after.nodes.numbers = before.nodes.numbers := by
    refine Slots.numbers_congr fun other => ?_
    show (after.node? other).isSome = (before.node? other).isSome
    rw [node?]
    split
    · rename_i same
      rw [← same, found]
      rfl
    · rfl
  have distinct : before.nodes.numbers.Nodup := List.nodup_range.filter _
  unfold Graph.inputCount
  rw [numbers]
  refine sum_map_succ distinct (Slots.mem_numbers.2 (Option.isSome_iff_exists.2 ⟨node, found⟩)) ?_
    fun other apart => ?_
  · unfold inputsAt
    rw [node?, if_pos rfl, found, Option.map_some, Option.map_some, Option.getD_some,
      Option.getD_some, List.length_eraseIdx_of_lt inside]
    have positive : 0 < node.inputs.length := Nat.lt_of_le_of_lt (Nat.zero_le _) inside
    omega
  · unfold inputsAt
    rw [node?, if_neg (Ne.symm apart)]

end Graph

namespace Cleanup

/-- The merging of the inputs of an instance, of which so many have been merged. -/
structure Tallying (site : Site) (id : Nat) (group : String) (node : Node)
    (listed : List (Nat × Nat)) (sum : Nat) (rest : List (Nat × Nat)) (now : Site) : Prop
    extends Merging site id group rest now where
  count : now.graph.inputCount + sum = site.graph.inputCount
  nodes : ∀ other, other ≠ id → now.graph.node? other = site.graph.node? other
  aligning : ∀ definition, site.library.get? group = some definition →
    node.MatchesInputs definition → ∃ gone, rest.reverse ++ gone = listed ∧
      Aligning site now id group node definition gone

section

variable {site : Site} {id : Nat} {group : String} {node : Node}

/-- The inputs at the first places that are left are merged, and counted if a socket has gone. -/
theorem Tallying.step {listed rest : List (Nat × Nat)} {places : Nat × Nat} {sum : Nat}
    {now : Site} (tallying : Tallying site id group node listed sum (places :: rest) now)
    (lists : ListsRepeats site.graph id listed) (sound : site.graph.Sound)
    (definitions : ∀ name definition, site.library.get? name = some definition → definition.Sound)
    (found : site.graph.node? id = some node) (op : node.op = .group group) :
    ∃ changed after, mergePlaces id group places now = .ok changed after ∧
      Tallying site id group node listed (if changed then sum + 1 else sum) rest after := by
  have merging := tallying.toMerging
  have thins := merging.merges.thins
  obtain ⟨node', found', -⟩ := thins.exists_instance found op
  obtain ⟨changed, after, done, -⟩ := mergePlaces_narrows thins.sound merging.merges.definitions
    group places (Option.isSome_iff_exists.2 ⟨node', found'⟩)
  obtain ⟨order, source, -, fed⟩ := merging.repeated places (by simp)
  obtain ⟨definition, stored, -⟩ := merging.definition
  refine ⟨changed, after, done, merging.step ⟨node, found, op⟩ done, ?_, fun other apart => ?_,
    fun definition stored fits => ?_⟩
  · rcases mergePlaces_spec stored (merging.merges.definitions group definition stored) thins.sound
      order done with ⟨rfl, rfl, -⟩ | ⟨rfl, -, -, -, -, -, -, -, removes⟩
    · exact tallying.count
    · have fewer := removes.inputCount (thins.sound.hasInput fed)
      have count := tallying.count
      rw [if_pos rfl]
      omega
  · rw [← tallying.nodes other apart]
    rcases mergePlaces_spec stored (merging.merges.definitions group definition stored) thins.sound
      order done with ⟨-, rfl, -⟩ | ⟨-, -, -, -, -, -, -, -, removes⟩
    · rfl
    · obtain ⟨_, -, node?⟩ := removes.node?
      rw [node?, if_neg (Ne.symm apart)]
  · obtain ⟨gone, split, aligning⟩ := tallying.aligning definition stored fits
    rw [List.reverse_cons, List.append_assoc, List.singleton_append] at split
    exact ⟨places :: gone, split, aligning.step merging (split ▸ lists) sound found
      (definitions group definition stored) fits done⟩

/-- Merging the inputs of an instance is carried out. It counts the sockets that go, which are all
sockets of the instance, and leaves it aligned with its definition if the two match and no other
instance uses the group. -/
theorem mergeInstance_aligns (sound : site.graph.Sound)
    (definitions : ∀ name definition, site.library.get? name = some definition → definition.Sound)
    (found : site.graph.node? id = some node) (op : node.op = .group group) :
    ∃ total after, mergeInstance id group site = .ok total after ∧
      after.graph.inputCount + total = site.graph.inputCount ∧
      (∀ other, other ≠ id → after.graph.node? other = site.graph.node? other) ∧
      (useCount site group ≠ 1 → after.library = site.library) ∧
      ∀ definition, useCount site group = 1 → site.library.get? group = some definition →
        node.MatchesInputs definition →
        ∃ node' definition', site.Aligns after id group node node' definition definition' := by
  rw [mergeInstance, get_bind]
  by_cases spared : useCount site group ≠ 1 ∨ site.library.contains group = false
  · rw [if_pos (by simpa using spared)]
    refine ⟨0, site, rfl, rfl, fun _ _ => rfl, fun _ => rfl, fun definition once stored => ?_⟩
    have present : site.library.contains group = true := by
      rw [← Table.isSome_get?, stored]
      rfl
    rcases spared with many | absent
    · exact absurd once many
    · rw [present] at absent
      cases absent
  · rw [if_neg (by simpa using spared)]
    obtain ⟨once, present⟩ := not_or.1 spared
    rw [Bool.not_eq_false, ← Table.isSome_get?] at present
    obtain ⟨stored', stored⟩ := Option.isSome_iff_exists.1 present
    have lists := duplicatePlaces_spec sound id
    obtain ⟨total, after, done, tallying⟩ := count_counts (mergePlaces id group)
      (Tallying site id group node (duplicatePlaces (site.graph.incoming id)))
      (fun sum places rest now tallying => tallying.step lists sound definitions found op)
      (duplicatePlaces (site.graph.incoming id)).reverse site {
        merges := Site.merges_refl sound definitions
        definition := ⟨stored', stored, fun a b source ab here there => .inl (by
          obtain ⟨places, mem, at_⟩ := lists.complete a b source ab here there
          exact ⟨places, List.mem_reverse.2 mem, at_⟩)⟩
        descending := List.pairwise_reverse.2 lists.ascending
        repeated := fun places mem => lists.repeated places (List.mem_reverse.1 mem)
        count := rfl
        nodes := fun _ _ => rfl
        aligning := fun definition stored fits => ⟨[], by simp,
          aligning_nil sound found stored (definitions group definition stored) fits⟩ }
    refine ⟨total, after, done, tallying.count, tallying.nodes, fun many => absurd many once,
      fun definition _ stored fits => ?_⟩
    obtain ⟨gone, split, aligning⟩ := tallying.aligning definition stored fits
    rw [List.reverse_nil, List.nil_append] at split
    subst split
    exact aligning.aligns lists (definitions group definition stored) fits

end

end Cleanup

namespace Site

variable {before after later : Site} {id : Nat} {group : String} {node node' : Node}
  {definition definition' : Graph}

/-- An instance stays aligned with its definition when neither is changed. -/
theorem Aligns.of_same (aligns : before.Aligns after id group node node' definition definition')
    (found : later.graph.node? id = after.graph.node? id)
    (source? : ∀ place, later.graph.source? ⟨id, place⟩ = after.graph.source? ⟨id, place⟩)
    (stored : later.library.get? group = after.library.get? group) :
    before.Aligns later id group node node' definition definition' :=
  { aligns with
    found := found.trans aligns.found
    stored := stored.trans aligns.stored
    apart := fun a b source here there =>
      aligns.apart a b source ((source? a).symm.trans here) ((source? b).symm.trans there)
    links := fun place => (source? place).trans (aligns.links place) }

/-- An instance is aligned like before other instances were changed. -/
theorem Aligns.of_source? (aligns : after.Aligns later id group node node' definition definition')
    (source? : ∀ place, after.graph.source? ⟨id, place⟩ = before.graph.source? ⟨id, place⟩) :
    before.Aligns later id group node node' definition definition' := by
  have repeats (place : Nat) : after.graph.repeats id place = before.graph.repeats id place := by
    simp only [Graph.repeats, source?]
  have unrepeated (count : Nat) :
      after.graph.unrepeated id count = before.graph.unrepeated id count := by
    simp only [Graph.unrepeated, repeats]
  obtain ⟨found, stored, fits, apart, rest, sockets, links, shown, merged, others⟩ := aligns
  simp only [unrepeated, source?] at sockets links shown merged
  refine ⟨found, stored, fits, apart, rest, sockets, links, shown, merged, fun target clear => ?_⟩
  exact others target fun place dropped repeated => clear place dropped (repeats place ▸ repeated)

end Site

namespace Cleanup

/-- What is left to do in a graph while the inputs of its instances are merged, of which so many
have gone. -/
structure AligningAll (site : Site) (sum : Nat) (rest : List (Nat × String)) (now : Site) :
    Prop where
  sound : now.graph.Sound
  definitions : ∀ name definition, now.library.get? name = some definition → definition.Sound
  uses : ∀ group, useCount now group = useCount site group
  count : now.graph.inputCount + sum = site.graph.inputCount
  distinct : (rest.map Prod.fst).Nodup
  /-- Instances that are left are as they were. -/
  waiting : ∀ entry ∈ rest, entry ∈ instances site.graph ∧
    now.graph.node? entry.1 = site.graph.node? entry.1 ∧
    (∀ place, now.graph.source? ⟨entry.1, place⟩ = site.graph.source? ⟨entry.1, place⟩) ∧
    (useCount site entry.2 = 1 →
      now.library.get? entry.2 = site.library.get? entry.2)
  settled : ∀ id node group definition, site.graph.node? id = some node →
    node.op = .group group → useCount site group = 1 →
    site.library.get? group = some definition → node.MatchesInputs definition →
    (id, group) ∈ rest ∨
      ∃ node' definition', site.Aligns now id group node node' definition definition'

/-- Two instances of a group that is used once are the same. -/
theorem eq_of_useCount {site : Site} {group : String} (once : useCount site group = 1) {a b : Nat}
    (left : (a, group) ∈ instances site.graph) (right : (b, group) ∈ instances site.graph) :
    a = b := by
  obtain ⟨node, found, op⟩ := mem_instances.1 left
  obtain ⟨node', found', op'⟩ := mem_instances.1 right
  by_contra apart
  exact absurd once (one_lt_useCount apart found op found' op').ne'

/-- The inputs of the first instance that is left are merged. -/
theorem AligningAll.step {site now : Site} {sum : Nat} {entry : Nat × String}
    {rest : List (Nat × String)} (all : AligningAll site sum (entry :: rest) now) :
    ∃ total after, mergeInstance entry.1 entry.2 now = .ok total after ∧
      AligningAll site (sum + total) rest after := by
  obtain ⟨id, group⟩ := entry
  obtain ⟨listed, same, source?, library⟩ := all.waiting (id, group) (by simp)
  obtain ⟨node, found, op⟩ := mem_instances.1 listed
  rw [← same] at found
  obtain ⟨total, after, done, count, nodes, spared, aligns⟩ :=
    mergeInstance_aligns all.sound all.definitions found op
  obtain ⟨merges, -⟩ := mergeInstance_spec all.sound all.definitions ⟨node, found, op⟩ done
  obtain ⟨fresh, distinct⟩ := List.nodup_cons.1 all.distinct
  -- No other instance is of a definition that has been changed.
  have stays (other : Nat × String) (here : other ∈ instances site.graph) (apart : other.1 ≠ id)
      (once : useCount site other.2 = 1) :
      after.library.get? other.2 = now.library.get? other.2 := by
    refine merges.others other.2 ?_
    rintro rfl
    exact apart (eq_of_useCount once here listed)
  refine ⟨total, after, done, merges.thins.sound, merges.definitions, fun other =>
    (merges.useCount other).trans (all.uses other), ?_, distinct, fun other mem => ?_,
    fun id' node' group' definition found' op' once stored fits => ?_⟩
  · have before := all.count
    omega
  · obtain ⟨here, node?, links, library⟩ := all.waiting other (by simp [mem])
    have apart : other.1 ≠ id := fun equal => fresh (List.mem_map.2 ⟨other, mem, equal⟩)
    exact ⟨here, (nodes other.1 apart).trans node?,
      fun place => (merges.elsewhere ⟨other.1, place⟩ apart).trans (links place),
      fun once => (stays other here apart once).trans (library once)⟩
  · have here : (id', group') ∈ instances site.graph := mem_instances.2 ⟨node', found', op'⟩
    by_cases equal : id' = id
    · subst equal
      rw [same, found', Option.some.injEq] at found
      subst found
      rw [op', NodeOp.group.injEq] at op
      subst op
      obtain ⟨new, definition', aligned⟩ := aligns definition ((all.uses group').trans once)
        ((library once).trans stored) fits
      exact .inr ⟨new, definition', aligned.of_source? source?⟩
    · rcases all.settled id' node' group' definition found' op' once stored fits with
        mem | ⟨new, definition', aligned⟩
      · rcases List.mem_cons.1 mem with first | mem
        · exact absurd (congrArg Prod.fst first) equal
        · exact .inl mem
      · exact .inr ⟨new, definition', aligned.of_same (nodes id' equal)
          (fun place => merges.elsewhere ⟨id', place⟩ equal) (stays (id', group') here equal once)⟩

/-- Every instance of a graph is listed once. -/
theorem nodup_instances (graph : Graph) : ((instances graph).map Prod.fst).Nodup := by
  have distinct := graph.nodes.nodup_entries
  rw [List.Nodup, List.pairwise_map] at distinct ⊢
  unfold instances
  rw [List.pairwise_filterMap]
  refine distinct.imp fun {a b} apart listed here listed' there same => apart ?_
  split at here <;> cases here
  split at there <;> cases there
  exact same

/-- Merging the inputs of all instances of a sound graph with sound definitions is carried out, and
says how many sockets have gone. An instance of a group that is used once still matches its
definition afterwards if it did before. No two of its sockets are fed by the same output socket; the
sockets that are left have kept their names, defaults and links in their order; and the readers of
the inputs that are gone read the first input that was fed alike. -/
theorem mergeDuplicateInputs_aligns {site : Site} (sound : site.graph.Sound)
    (definitions : ∀ name definition, site.library.get? name = some definition →
      definition.Sound) :
    ∃ total after, mergeDuplicateInputs site = .ok total after ∧
      after.graph.inputCount + total = site.graph.inputCount ∧
      ∀ id node group definition, site.graph.node? id = some node → node.op = .group group →
        useCount site group = 1 → site.library.get? group = some definition →
        node.MatchesInputs definition →
        ∃ node' definition', site.Aligns after id group node node' definition definition' := by
  rw [mergeDuplicateInputs, graph_bind]
  obtain ⟨total, after, done, all⟩ := sum_sums
    (fun entry : Nat × String => mergeInstance entry.1 entry.2) (AligningAll site)
    (fun sum entry rest now all => all.step) (instances site.graph) site 0 {
      sound
      definitions
      uses := fun _ => rfl
      count := rfl
      distinct := nodup_instances site.graph
      waiting := fun entry mem => ⟨mem, rfl, fun _ => rfl, fun _ => rfl⟩
      settled := fun id node group definition found op _ _ _ =>
        .inl (mem_instances.2 ⟨node, found, op⟩) }
  refine ⟨total, after, done, all.count, fun id node group definition found op once stored fits => ?_⟩
  rcases all.settled id node group definition found op once stored fits with left | aligned
  · cases left
  · exact aligned

end Cleanup

/-- A definition that multiplies the first and the third one of its inputs. -/
def Graph.outerProduct : Graph :=
  Edit.made "g" [.addInput "a" .scalar, .addInput "b" .scalar, .addInput "c" .scalar,
    .addNode (.math .multiply) (NodeOp.isPort_math _), .addOutput "y" .scalar,
    .connect ⟨0, 0⟩ ⟨3, 0⟩, .connect ⟨2, 0⟩ ⟨3, 1⟩, .connect ⟨3, 0⟩ ⟨4, 0⟩]

/-- A graph with an instance of the definition of which one input feeds the first and the third
socket. -/
def Graph.square : Graph :=
  Edit.made "root" [.addInput "x" .scalar, .addInput "spare" .scalar,
    .addInstance Graph.outerProduct, .addOutput "y" .scalar, .connect ⟨0, 0⟩ ⟨2, 0⟩,
    .connect ⟨1, 0⟩ ⟨2, 1⟩, .connect ⟨0, 0⟩ ⟨2, 2⟩, .connect ⟨2, 0⟩ ⟨3, 0⟩]

/-- The graph with its definition. -/
def Site.square : Site :=
  ⟨.square, .ofList [("g", .outerProduct)]⟩

/-- The third socket of the instance goes, and the readers of the third input of the definition come
to read the first one. -/
theorem Cleanup.mergeDuplicateInputs_aligns_square :
    ∃ total after node node' definition', mergeDuplicateInputs Site.square = .ok total after ∧
      after.graph.inputCount + total = 4 ∧ Graph.square.node? 2 = some node ∧
      Graph.square.unrepeated 2 node.inputs.length = [0, 1] ∧
      Site.square.Aligns after 2 "g" node node' .outerProduct definition' := by
  have shaped : Graph.square.Sound := (Edit.made_shaped _ _).toSound
  have sound : Site.square.graph.Sound := shaped
  have definitions (name : String) (definition : Graph)
      (found : Site.square.library.get? name = some definition) : definition.Sound := by
    unfold Site.square at found
    rw [Table.get?_ofList (by simp)] at found
    simp only [List.mem_singleton, Prod.mk.injEq] at found
    obtain ⟨-, rfl⟩ := found
    exact (Edit.made_shaped _ _).toSound
  have stored : Site.square.library.get? "g" = some Graph.outerProduct := by
    unfold Site.square
    rw [Table.get?_ofList (by simp)]
    exact List.mem_singleton_self _
  have once : useCount Site.square "g" = 1 := by decide +kernel
  obtain ⟨total, after, done, count, aligns⟩ := mergeDuplicateInputs_aligns sound definitions
  have there : (Graph.square.node? 2).isSome = true := by decide +kernel
  obtain ⟨node, found⟩ := Option.isSome_iff_exists.1 there
  have facts : ∀ node ∈ Graph.square.node? 2, node.op = .group "g" ∧
      node.inputs.map InputSocket.layout =
        Graph.outerProduct.instanceNode.inputs.map InputSocket.layout ∧
      Graph.square.unrepeated 2 node.inputs.length = [0, 1] := by decide +kernel
  obtain ⟨op, fits, left⟩ := facts node found
  obtain ⟨node', definition', aligned⟩ := aligns 2 node "g" _ found op once stored fits
  have four : Graph.square.inputCount = 4 := by decide +kernel
  exact ⟨total, after, node, node', definition', done, count.trans four, found, left, aligned⟩

end Shadeloom
