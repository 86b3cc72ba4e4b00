import Mathlib
import Shadeloom.Graph.Stored
import Shadeloom.Proofs.Graph.Sound
import Shadeloom.Proofs.Node.Storing
/-!
# Graphs that can be stored

Reading the stored form of a graph gives its nodes and links under the numbers that they have. The
bookkeeping is made anew: vacant numbers at the end are gone, and links are kept in the order of
their numbers, whatever the order was in which they were made.
-/
namespace Shadeloom

namespace Slots

variable {α : Type}

/-- The numbers of vacant cells, the first cell having the given number. -/
def vacancies : Nat → List (Option α) → List Nat
  | _, [] => []
  | number, none :: cells => number :: vacancies (number + 1) cells
  | number, some _ :: cells => vacancies (number + 1) cells

/-- The numbers of vacant cells are the places that hold no value. -/
theorem vacancies_eq_filter (number : Nat) (cells : List (Option α)) :
    vacancies number cells = (List.range' number cells.length).filter fun other =>
      (cells[other - number]?).join.isNone := by
  induction cells generalizing number with
  | nil => rfl
  | cons cell cells ih =>
    have later : vacancies (number + 1) cells =
        (List.range' (number + 1) cells.length).filter fun other =>
          ((cell :: cells)[other - number]?).join.isNone := by
      rw [ih]
      refine List.filter_congr fun other mem => ?_
      have above := (List.mem_range'_1.1 mem).1
      rw [show other - number = other - (number + 1) + 1 by omega, List.getElem?_cons_succ]
    rw [List.length_cons, List.range'_succ, List.filter_cons]
    cases cell <;> simp [vacancies, later]

/-- Vacant cells have no lower numbers than the first cell. -/
theorem le_of_mem_vacancies {number vacant : Nat} {cells : List (Option α)}
    (mem : vacant ∈ vacancies number cells) : number ≤ vacant := by
  rw [vacancies_eq_filter] at mem
  exact (List.mem_range'_1.1 (List.mem_filter.1 mem).1).1

/-- Cells are vacant or hold a value. -/
theorem length_vacancies (number : Nat) (cells : List (Option α)) :
    (cells.filterMap id).length + (vacancies number cells).length = cells.length := by
  induction cells generalizing number with
  | nil => rfl
  | cons cell cells ih =>
    have rest := ih (number + 1)
    cases cell <;> simp [vacancies] at rest ⊢ <;> omega

/-- The values of slots are those of their cells. -/
theorem map_snd_entries (slots : Slots α) :
    slots.entries.map Prod.snd = slots.cells.filterMap id := by
  have values (cells : List (Option α)) :
      (List.range cells.length).filterMap (fun number => cells[number]?.join) =
        cells.filterMap id := by
    induction cells with
    | nil => rfl
    | cons cell cells ih =>
      rw [List.length_cons, List.range_succ_eq_map, List.filterMap_cons, List.filterMap_map,
        List.filterMap_cons, ← ih]
      cases cell <;> rfl
  rw [← values, entries, List.map_filterMap]
  refine List.filterMap_congr fun number _ => ?_
  simp [get?, Function.comp_def]

/-- The cells from the bound on are vacant. -/
theorem eq_none_of_mem_drop {slots : Slots α} {cell : Option α}
    (mem : cell ∈ slots.cells.drop slots.bound) : cell = none := by
  obtain ⟨place, here, rfl⟩ := List.getElem_of_mem mem
  rw [Option.eq_none_iff_forall_not_mem]
  intro value same
  have used : slots.get? (slots.bound + place) = some value := by
    rw [List.length_drop] at here
    rw [List.getElem_drop] at same
    rw [get?, List.getElem?_eq_getElem (by omega), same]
    rfl
  exact absurd (lt_bound (Option.isSome_iff_exists.2 ⟨value, used⟩)) (by omega)

/-- The cells below the bound hold all values. -/
theorem filterMap_take (slots : Slots α) :
    (slots.cells.take slots.bound).filterMap id = slots.cells.filterMap id := by
  have none : (slots.cells.drop slots.bound).filterMap id = [] :=
    List.filterMap_eq_nil_iff.2 fun cell mem => eq_none_of_mem_drop mem
  conv_rhs => rw [← List.take_append_drop slots.bound slots.cells, List.filterMap_append, none,
    List.append_nil]

/-- The bound is no greater than the number of cells. -/
theorem bound_le (slots : Slots α) : slots.bound ≤ slots.cells.length := by
  unfold bound
  cases last : slots.numbers.getLast? with
  | none => simp
  | some number =>
    have mem := List.mem_of_getLast? last
    exact List.mem_range.1 (List.mem_filter.1 mem).1

/-- The cells below the bound give each number its value. -/
theorem get?_take (slots : Slots α) (number : Nat) :
    ((slots.cells.take slots.bound)[number]?).join = slots.get? number := by
  rw [List.getElem?_take]
  split
  · rfl
  · rename_i beyond
    cases used : slots.get? number with
    | none => rfl
    | some value => exact absurd (lt_bound (Option.isSome_iff_exists.2 ⟨value, used⟩)) beyond

/-- The vacant numbers below the bound are those of vacant cells. -/
theorem holes_eq_vacancies (slots : Slots Node) :
    Graph.holes slots = vacancies 0 (slots.cells.take slots.bound) := by
  rw [vacancies_eq_filter, List.length_take_of_le slots.bound_le, Graph.holes,
    List.range_eq_range']
  refine List.filter_congr fun number _ => ?_
  rw [Nat.sub_zero, get?_take]

/-- Slots of the same cells below the bound have the same values. -/
theorem get?_ofCells_take (slots : Slots α) (number : Nat) :
    (ofCells (slots.cells.take slots.bound)).get? number = slots.get? number :=
  slots.get?_take number

/-- Slots of cells are sound. -/
theorem sound_ofCells (cells : List (Option α)) : (ofCells cells).Sound where
  distinct := List.nodup_reverse.2 (List.nodup_range.filter _)
  vacant number mem := by
    obtain ⟨below, vacant⟩ := List.mem_filter.1 (List.mem_reverse.1 mem)
    exact ⟨List.mem_range.1 below, Option.isNone_iff_eq_none.1 vacant⟩

end Slots

namespace Graph

/-- A number that is no hole takes the next node. -/
theorem cellsFrom_cons {number limit : Nat} {holes : List Nat} (node : Node) (nodes : List Node)
    (later : ∀ hole ∈ holes, number < hole) :
    cellsFrom number limit holes (node :: nodes) =
      (cellsFrom (number + 1) limit holes nodes).map (some node :: ·) := by
  cases holes with
  | nil => rfl
  | cons hole holes =>
    have here := later hole (by simp)
    have gap : hole - number = hole - (number + 1) + 1 := by omega
    have first : hole < number ↔ hole < number + 1 := by omega
    have many : (node :: nodes).length < hole - number ↔ nodes.length < hole - (number + 1) := by
      rw [List.length_cons, gap]
      omega
    rw [cellsFrom, cellsFrom]
    simp only [first, many]
    split
    · rfl
    · split
      · rfl
      · rw [gap, List.drop_succ_cons, List.take_succ_cons]
        cases cellsFrom (hole + 1) limit holes (nodes.drop (hole - (number + 1))) <;> rfl

/-- The cells of nodes and vacant numbers are those that these come from. -/
theorem cellsFrom_vacancies {number limit : Nat} {cells : List (Option Node)}
    (within : number + cells.length ≤ limit) :
    cellsFrom number limit (Slots.vacancies number cells) (cells.filterMap id) = .ok cells := by
  induction cells generalizing number with
  | nil => rfl
  | cons cell cells ih =>
    rw [List.length_cons] at within
    have rest : cellsFrom (number + 1) limit (Slots.vacancies (number + 1) cells)
        (cells.filterMap id) = .ok cells := ih (by omega)
    cases cell with
    | none =>
      have inside : ¬ (number < number ∨ limit ≤ number) := by omega
      have values : (none :: cells).filterMap id = cells.filterMap id := rfl
      rw [values, Slots.vacancies, cellsFrom, if_neg inside, if_neg (by omega), Nat.sub_self,
        List.drop_zero, rest]
      rfl
    | some node =>
      have later : ∀ hole ∈ Slots.vacancies (number + 1) cells, number < hole :=
        fun hole mem => Slots.le_of_mem_vacancies mem
      have values : (some node :: cells).filterMap id = node :: cells.filterMap id := rfl
      rw [values, Slots.vacancies, cellsFrom_cons node _ later, rest]
      rfl

/-- The nodes of a graph and its vacant numbers give its cells up to the bound. -/
theorem cellsFrom_holes (nodes : Slots Node) :
    cellsFrom 0 ((nodes.entries.map Prod.snd).length + (holes nodes).length) (holes nodes)
      (nodes.entries.map Prod.snd) = .ok (nodes.cells.take nodes.bound) := by
  rw [Slots.map_snd_entries, ← Slots.filterMap_take, Slots.holes_eq_vacancies]
  exact cellsFrom_vacancies (by rw [Slots.length_vacancies, Nat.zero_add])

/-- What is stored of links of distinct numbers are the sockets of each link at its number. -/
theorem getElem?_endsByNumber {links : List Link} (distinct : (links.map Link.number).Nodup)
    {number : Nat} {source target : Socket} :
    (endsByNumber links)[number]? = some (some (source, target)) ↔
      Link.mk number source target ∈ links := by
  simp only [endsByNumber, List.getElem?_map, Option.map_eq_some_iff, Prod.mk.injEq]
  constructor
  · rintro ⟨other, here, link, found, rfl, rfl⟩
    obtain ⟨_, rfl⟩ := List.getElem?_eq_some_iff.1 here
    rw [List.getElem_range] at found
    have same := List.find?_some found
    rw [decide_eq_true_eq] at same
    exact same ▸ List.mem_of_find?_eq_some found
  · intro mem
    have below : number + 1 ≤ (links.map fun link => link.number + 1).max?.getD 0 :=
      List.le_max?_getD_of_mem (List.mem_map.2 ⟨_, mem, rfl⟩)
    obtain ⟨link, found⟩ := Option.isSome_iff_exists.1
      (List.find?_isSome (p := fun link : Link => link.number = number) |>.2 ⟨_, mem, by simp⟩)
    have same := List.find?_some found
    rw [decide_eq_true_eq] at same
    have only := List.inj_on_of_nodup_map distinct (List.mem_of_find?_eq_some found) mem same
    exact ⟨number, List.getElem?_range (by omega), link, found, by rw [only], by rw [only]⟩

/-- The links of stored links are these at their numbers. -/
theorem mem_numberedLinks {stored : List (Option (Socket × Socket))} {link : Link} :
    link ∈ numberedLinks stored ↔ stored[link.number]? = some (some (link.source, link.target)) := by
  simp only [numberedLinks, List.mem_reverse, List.mem_filterMap, Prod.exists,
    List.mk_mem_zipIdx_iff_getElem?, Option.map_eq_some_iff]
  constructor
  · rintro ⟨ends, number, here, source, target, rfl, rfl⟩
    exact here
  · intro here
    exact ⟨_, _, here, _, _, rfl, rfl⟩

/-- The links of stored links have distinct numbers. -/
theorem nodup_numberedLinks (stored : List (Option (Socket × Socket))) :
    ((numberedLinks stored).map Link.number).Nodup := by
  have places : stored.zipIdx.Pairwise fun a b => a.2 ≠ b.2 := by
    rw [← List.pairwise_map, List.zipIdx_map_snd]
    exact List.nodup_range'
  rw [numberedLinks, List.map_reverse, List.nodup_reverse, List.Nodup, List.pairwise_map,
    List.pairwise_filterMap]
  refine places.imp fun {a b} apart link here link' there => ?_
  obtain ⟨-, -, rfl⟩ := Option.map_eq_some_iff.1 here
  obtain ⟨-, -, rfl⟩ := Option.map_eq_some_iff.1 there
  exact apart

/-- Links of distinct numbers are read back, in the order of their numbers. -/
theorem numberedLinks_perm {links : List Link} (distinct : (links.map Link.number).Nodup) :
    (numberedLinks (endsByNumber links)).Perm links := by
  refine (List.perm_ext_iff_of_nodup ?_ ?_).2 fun link => ?_
  · exact (nodup_numberedLinks _).of_map
  · exact distinct.of_map
  · rw [mem_numberedLinks, getElem?_endsByNumber distinct]

/-- Whether the numbers and places of the sockets that a link joins can be stored. -/
def IsStorableEnds (ends : Socket × Socket) : Prop :=
  (ends.1.node < numberLimit ∧ ends.2.node < numberLimit) ∧
    ends.1.place < placeLimit ∧ ends.2.place < placeLimit

/-- Whether the nodes and links of a graph can be stored. -/
structure HasStorableStructure (graph : Graph) : Prop where
  nodes : ∀ node ∈ graph.nodes.entries.map Prod.snd, node.IsStorable
  holes : ∀ hole ∈ holes graph.nodes, hole < numberLimit
  links : ∀ ends ∈ endsByNumber graph.links, ∀ joined ∈ ends, IsStorableEnds joined

/-- Sockets that a link joins are kept if their numbers and places are. -/
theorem endsCodec_keeps : endsCodec.Keeps IsStorableEnds 2 where
  decode_iff ends read := by
    have number (bound n m : Nat) :
        (Codec.natBelow bound).decode (Json.ofNat n) = some m ↔ n < bound ∧ n = m :=
      (Codec.natBelow_keeps bound).decode_iff n m
    simp only [endsCodec]
    rw [Json.members?_obj]
    · simp [Option.bind_eq_some_iff, number, IsStorableEnds, and_assoc]
    · rfl
    · decide
  nests ends := by
    simp [endsCodec]

/-- Stored links are kept if their sockets are. -/
theorem endsByNumber_keeps : endsCodec.option.list.Keeps
    (fun stored => ∀ ends ∈ stored, ∀ joined ∈ ends, IsStorableEnds joined) 3 :=
  (endsCodec_keeps.option fun _ => by simp [endsCodec]).list

/-- The mark of directed graphs is kept. -/
theorem directedMark_keeps : directedMark.Keeps (fun _ => True) 0 :=
  Codec.choice_keeps (by simp) (by simp)

/-- The stored form of nodes and links is read as these if they can be stored, and not at all
otherwise. -/
theorem parts?_structureJson (graph : Graph)
    (read : List Node × List Nat × List (Option (Socket × Socket))) :
    parts? graph.structureJson = some read ↔ graph.HasStorableStructure ∧
      (graph.nodes.entries.map Prod.snd, holes graph.nodes, endsByNumber graph.links) = read := by
  have nodes : Json.arr (graph.nodes.entries.map fun entry => Node.codec.encode entry.2) =
      Node.codec.list.encode (graph.nodes.entries.map Prod.snd) := by
    simp [Codec.list]
  have numbers : Json.arr ((holes graph.nodes).map Json.ofNat) =
      (Codec.natBelow numberLimit).list.encode (holes graph.nodes) := rfl
  rw [parts?, structureJson, nodes, numbers, Json.members?_obj]
  · simp only [List.map_cons, List.map_nil, Option.bind_eq_bind, Option.bind_eq_some_iff,
      Node.codec_keeps.list.decode_iff, (Codec.natBelow_keeps numberLimit).list.decode_iff,
      directedMark_keeps.decode_iff, endsByNumber_keeps.decode_iff, Option.some.injEq]
    constructor
    · rintro ⟨_, ⟨nodes, rfl⟩, _, ⟨holes, rfl⟩, _, -, _, ⟨links, rfl⟩, rfl⟩
      exact ⟨⟨nodes, holes, links⟩, rfl⟩
    · rintro ⟨⟨nodes, holes, links⟩, rfl⟩
      exact ⟨_, ⟨nodes, rfl⟩, _, ⟨holes, rfl⟩, (), ⟨trivial, trivial⟩, _, ⟨links, rfl⟩, rfl⟩
  · rfl
  · decide

/-- What is stored of nodes and links is not nested deep. -/
theorem nests_structureJson (graph : Graph) : graph.structureJson.Nests 8 := by
  simp only [structureJson, Json.nests_obj, List.forall_mem_cons, Json.nests_arr,
    List.forall_mem_map, Json.nests_ofNat, implies_true, directedMark_keeps.nests_of_le (Nat.zero_le _),
    endsByNumber_keeps.nests_of_le (by decide : 3 ≤ 7), and_true, List.not_mem_nil, false_imp_iff]
  exact fun entry _ => Node.codec_keeps.nests entry.2

/-- The graph that is read from the stored form of a graph. -/
def reread (graph : Graph) : Graph where
  name := graph.name
  nodes := .ofCells (graph.nodes.cells.take graph.nodes.bound)
  links := numberedLinks (endsByNumber graph.links)
  linkNumbers := linkPool (endsByNumber graph.links)
  tangle := none
  inputs := graph.inputs
  outputs := graph.outputs

/-- A graph is read back with the same nodes and links under the same numbers, and the same
ports. -/
structure Restores (restored graph : Graph) : Prop where
  name : restored.name = graph.name
  node? : ∀ id, restored.node? id = graph.node? id
  links : restored.links.Perm graph.links
  inputs : restored.inputs = graph.inputs
  outputs : restored.outputs = graph.outputs

/-- What is read from the stored form of a sound graph restores it. -/
theorem Sound.restores {graph : Graph} (sound : graph.Sound) : graph.reread.Restores graph where
  name := rfl
  node? := graph.nodes.get?_ofCells_take
  links := numberedLinks_perm sound.numbers.used_distinct
  inputs := rfl
  outputs := rfl

/-- The nodes and links of a sound graph are read from their stored form, if they can be stored. -/
theorem Sound.ofStructure_of_storable {graph : Graph} (sound : graph.Sound)
    (storable : graph.HasStorableStructure) :
    ofStructure graph.structureJson =
      .ok { graph.reread with name := "", inputs := .empty, outputs := [] } := by
  have parts := (parts?_structureJson graph _).2 ⟨storable, rfl⟩
  -- Links join nodes, so that no number of theirs is vacant or above all cells.
  have joins (test : Socket × Socket → Bool)
      (passes : ∀ ends : Socket × Socket, (graph.node? ends.1.node).isSome = true →
        (graph.node? ends.2.node).isSome = true → test ends = true) :
      ((endsByNumber graph.links).all fun ends => ends.all test) = true := by
    simp only [List.all_eq_true, Option.all_eq_true]
    rintro _ mem ends rfl
    obtain ⟨number, found⟩ := List.mem_iff_getElem?.1 mem
    rw [getElem?_endsByNumber sound.numbers.used_distinct] at found
    obtain ⟨⟨sender, sent, -⟩, ⟨receiver, received, -⟩⟩ := sound.joined _ found
    exact passes _ (Option.isSome_iff_exists.2 ⟨sender, sent⟩)
      (Option.isSome_iff_exists.2 ⟨receiver, received⟩)
  have length : (graph.nodes.cells.take graph.nodes.bound).length = graph.nodes.bound :=
    List.length_take_of_le graph.nodes.bound_le
  simp only [ofStructure, parts, orMalformed, bind, Except.bind, cellsFrom_holes, ofCells?]
  rw [if_pos (joins _ fun ends source target => ?below),
    if_pos (joins _ fun ends source target => ?used)]
  case below =>
    simp [length, Slots.lt_bound source, Slots.lt_bound target]
  case used =>
    simp only [Slots.get?_ofCells_take, Bool.and_eq_true]
    exact ⟨source, target⟩
  rfl

/-- What is stored of nodes and links that cannot be stored is refused. -/
theorem ofStructure_of_not_storable {graph : Graph} (lost : ¬ graph.HasStorableStructure) :
    ofStructure graph.structureJson = .error .malformed := by
  have none : parts? graph.structureJson = none := by
    rw [Option.eq_none_iff_forall_ne_some]
    exact fun read found => lost ((parts?_structureJson graph read).1 found).1
  rw [ofStructure, none]
  rfl

/-- The numbers of stored links are in order. -/
theorem sound_linkPool (stored : List (Option (Socket × Socket))) :
    (linkPool stored).Sound ((numberedLinks stored).map Link.number) where
  used_distinct := nodup_numberedLinks stored
  used_below := by
    simp only [List.forall_mem_map, mem_numberedLinks]
    exact fun link here => (List.getElem?_eq_some_iff.1 here).1
  freed_distinct := List.nodup_reverse.2 (List.nodup_range.filter _)
  freed_below number mem := by
    exact List.mem_range.1 (List.mem_filter.1 (List.mem_reverse.1 mem)).1
  apart := by
    simp only [List.forall_mem_map, mem_numberedLinks]
    intro link here freed
    have vacant := (List.mem_filter.1 (List.mem_reverse.1 freed)).2
    rw [here] at vacant
    cases vacant

/-- What is read from the stored form of a sound graph is sound. -/
theorem Sound.reread {graph : Graph} (sound : graph.Sound) : graph.reread.Sound where
  orderly := rfl
  slots := Slots.sound_ofCells _
  numbers := sound_linkPool _
  joined link mem := by
    simp only [HasOutput, HasInput, sound.restores.node?]
    exact sound.joined link (sound.restores.links.mem_iff.1 mem)
  single a here b there :=
    sound.single a (sound.restores.links.mem_iff.1 here) b (sound.restores.links.mem_iff.1 there)
  inputNamed := by
    simp only [sound.restores.node?]
    exact sound.inputNamed
  outputNamed := by
    simp only [sound.restores.node?]
    exact sound.outputNamed
  outputsDistinct := sound.outputsDistinct
  inputShaped := by
    simp only [sound.restores.node?]
    exact sound.inputShaped

end Graph

end Shadeloom
