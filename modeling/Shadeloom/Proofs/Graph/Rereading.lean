import Mathlib
import Shadeloom.Proofs.Graph.Storing
/-!
# Assemblies read back

The stored form of a graph with a library is read as the graph that restores it, with a library of
the definitions that restore those of the library, in the same order. If a number in one of the
graphs cannot be stored, nothing is read at all.
-/
namespace Shadeloom

/-- Entries of new distinct keys are put behind those of a table. -/
theorem Table.entries_foldl_insert {κ β : Type} [DecidableEq κ] {entries : List (κ × β)}
    {table : Table κ β} (distinct : ((table.entries ++ entries).map Prod.fst).Nodup) :
    (entries.foldl (fun table entry => table.insert entry.1 entry.2) table).entries =
      table.entries ++ entries := by
  induction entries generalizing table with
  | nil => simp
  | cons entry rest ih =>
    have absent : table.get? entry.1 = none := by
      cases found : table.get? entry.1 with
      | none => rfl
      | some value =>
        rw [List.map_append, List.nodup_append] at distinct
        exact absurd rfl (distinct.2.2 entry.1
          (List.mem_map.2 ⟨_, get?_eq_some_iff.1 found, rfl⟩) entry.1 (by simp))
    have grown := entries_insert_of_get?_eq_none absent entry.2
    rw [List.foldl_cons, ih (by rw [grown]; simpa using distinct), grown]
    simp

/-- A table is made of its entries. -/
theorem Table.ofList_entries {κ β : Type} [DecidableEq κ] (table : Table κ β) :
    ofList table.entries = table := by
  refine Table.ext ?_
  rw [ofList, entries_foldl_insert] <;> simp [empty, table.distinct]

namespace Graph

/-- Whether a graph can be stored: its nodes and links can, and so can the numbers of its ports. -/
structure IsStorable (graph : Graph) : Prop extends graph.HasStorableStructure where
  inputs : ∀ entry ∈ graph.inputs.entries, entry.2 < numberLimit
  outputs : ∀ id ∈ graph.outputs, id < numberLimit

/-- The graph that is read from its name, its nodes and links, and its ports. -/
def ofParts (name : String) (content inputs outputs : Json) : Except StoredFault Graph := do
  let content ← ofStructure content
  let inputs ← orMalformed (Assembly.inputsOfJson? inputs)
  let outputs ← orMalformed ((Codec.natBelow numberLimit).list.decode outputs)
  .ok { content with name, inputs, outputs }

/-- The stored form of the named inputs of a graph. -/
def inputsJson (graph : Graph) : Json :=
  .obj (graph.inputs.entries.map fun entry => (entry.1, Json.ofNat entry.2))

/-- The stored form of the named outputs of a graph. -/
def outputsJson (graph : Graph) : Json :=
  .arr (graph.outputs.map Json.ofNat)

/-- The named inputs of a graph are read back if their numbers can be stored, and not at all
otherwise. -/
theorem inputsOfJson?_inputsJson (graph : Graph) (read : Table String Nat) :
    Assembly.inputsOfJson? graph.inputsJson = some read ↔
      (∀ entry ∈ graph.inputs.entries, entry.2 < numberLimit) ∧ graph.inputs = read := by
  have entry (entry read : String × Nat) :
      (do some (entry.1, ← (Codec.natBelow numberLimit).decode (Json.ofNat entry.2))) = some read ↔
        entry.2 < numberLimit ∧ entry = read := by
    have number (m : Nat) : (Codec.natBelow numberLimit).decode (Json.ofNat entry.2) = some m ↔
        entry.2 < numberLimit ∧ entry.2 = m :=
      (Codec.natBelow_keeps numberLimit).decode_iff entry.2 m
    simp only [Option.bind_eq_bind, Option.bind_eq_some_iff, number, Option.some.injEq]
    constructor
    · rintro ⟨_, ⟨fits, rfl⟩, rfl⟩
      exact ⟨fits, rfl⟩
    · rintro ⟨fits, rfl⟩
      exact ⟨_, ⟨fits, rfl⟩, rfl⟩
  have entries := Codec.mapM_map_eq_some_iff
    (fun entry : String × Nat => (entry.1, Json.ofNat entry.2))
    (fun member => do some (member.1, ← (Codec.natBelow numberLimit).decode member.2))
    entry graph.inputs.entries
  unfold Assembly.inputsOfJson? inputsJson
  rw [Option.bind_eq_bind, Option.bind_eq_some_iff]
  simp only [entries, Option.some.injEq]
  constructor
  · rintro ⟨_, ⟨fits, rfl⟩, rfl⟩
    exact ⟨fits, (Table.ofList_entries _).symm⟩
  · rintro ⟨fits, rfl⟩
    exact ⟨_, ⟨fits, rfl⟩, Table.ofList_entries _⟩

/-- The named outputs of a graph are read back if their numbers can be stored, and not at all
otherwise. -/
theorem decode_outputsJson (graph : Graph) (read : List Nat) :
    (Codec.natBelow numberLimit).list.decode graph.outputsJson = some read ↔
      (∀ id ∈ graph.outputs, id < numberLimit) ∧ graph.outputs = read :=
  (Codec.natBelow_keeps numberLimit).list.decode_iff graph.outputs read

/-- A sound graph is read from its parts if it can be stored. -/
theorem Sound.ofParts_of_storable {graph : Graph} (sound : graph.Sound)
    (storable : graph.IsStorable) :
    ofParts graph.name graph.structureJson graph.inputsJson graph.outputsJson =
      .ok graph.reread := by
  have inputs := (inputsOfJson?_inputsJson graph _).2 ⟨storable.inputs, rfl⟩
  have outputs := (decode_outputsJson graph _).2 ⟨storable.outputs, rfl⟩
  rw [ofParts, sound.ofStructure_of_storable storable.toHasStorableStructure, inputs, outputs]
  rfl

/-- Nothing is read from the parts of a sound graph that cannot be stored. -/
theorem Sound.ofParts_of_not_storable {graph : Graph} (sound : graph.Sound)
    (lost : ¬ graph.IsStorable) :
    ofParts graph.name graph.structureJson graph.inputsJson graph.outputsJson =
      .error .malformed := by
  rw [ofParts]
  by_cases structured : graph.HasStorableStructure
  · rw [sound.ofStructure_of_storable structured]
    cases inputs : Assembly.inputsOfJson? graph.inputsJson with
    | none => rfl
    | some table =>
      cases outputs : (Codec.natBelow numberLimit).list.decode graph.outputsJson with
      | none => rfl
      | some ids =>
        exact absurd ⟨structured, ((inputsOfJson?_inputsJson graph _).1 inputs).1,
          ((decode_outputsJson graph _).1 outputs).1⟩ lost
  · rw [ofStructure_of_not_storable structured]
    rfl

end Graph

namespace Assembly

/-- The stored form of an assembly shows the parts of its graph, then its definitions. -/
theorem toJson_eq (assembly : Assembly) :
    assembly.toJson = .obj [
      ("name", .str assembly.graph.name),
      ("graph", assembly.graph.structureJson),
      ("inputs", assembly.graph.inputsJson),
      ("outputs", assembly.graph.outputsJson),
      ("groups", .obj (assembly.groups.map fun entry => (entry.1, entry.2.toJson)))] := by
  have groups : (assembly.groups.attach.map fun group => (group.1.1, group.1.2.toJson)) =
      assembly.groups.map fun entry => (entry.1, entry.2.toJson) := by
    conv_rhs => rw [← List.attach_map_subtype_val assembly.groups, List.map_map]
    rfl
  rw [toJson, ← groups]
  rfl

/-- The stored form of an assembly is read as a graph from its parts, then as its definitions. -/
theorem ofJson_toJson (assembly : Assembly) :
    ofJson assembly.toJson = (do
      let graph ← Graph.ofParts assembly.graph.name assembly.graph.structureJson
        assembly.graph.inputsJson assembly.graph.outputsJson
      let groups ← groupsOfMembers (assembly.groups.map fun entry => (entry.1, entry.2.toJson))
      .ok (groups.foldl (fun assembly entry => assembly.setGroup entry.1 entry.2)
        (ofGraph graph))) := by
  rw [toJson_eq, Graph.ofParts]
  simp only [ofJson, addMembers, Draft.add, Draft.once, Draft.empty, groupsOfJson]
  cases Graph.ofStructure assembly.graph.structureJson with
  | error fault => rfl
  | ok content =>
    cases inputsOfJson? assembly.graph.inputsJson with
    | none => rfl
    | some inputs =>
      cases (Codec.natBelow Graph.numberLimit).list.decode assembly.graph.outputsJson with
      | none => rfl
      | some outputs =>
        cases groupsOfMembers (assembly.groups.map fun entry => (entry.1, entry.2.toJson)) <;> rfl

/-- The stored form of a sound graph alone is read as the graph that restores it, if it can be
stored. -/
theorem ofJson_ofGraph_of_storable {graph : Graph} (sound : graph.Sound)
    (storable : graph.IsStorable) : ofJson (ofGraph graph).toJson = .ok (ofGraph graph.reread) := by
  rw [ofJson_toJson]
  simp only [ofGraph, List.map_nil, groupsOfMembers, sound.ofParts_of_storable storable]
  rfl

/-- Nothing is read from the stored form of a sound graph that cannot be stored. -/
theorem ofJson_toJson_of_not_storable {assembly : Assembly} (sound : assembly.graph.Sound)
    (lost : ¬ assembly.graph.IsStorable) : ofJson assembly.toJson = .error .malformed := by
  rw [ofJson_toJson, sound.ofParts_of_not_storable lost]
  rfl

/-- The stored forms of sound graphs that can be stored are read as the graphs that restore
them. -/
theorem groupsOfMembers_of_storable {definitions : List (String × Graph)}
    (sound : ∀ entry ∈ definitions, entry.2.Sound)
    (storable : ∀ entry ∈ definitions, entry.2.IsStorable) :
    groupsOfMembers (definitions.map fun entry => (entry.1, (ofGraph entry.2).toJson)) =
      .ok (definitions.map fun entry => (entry.1, ofGraph entry.2.reread)) := by
  induction definitions with
  | nil => simp [groupsOfMembers]
  | cons entry definitions ih =>
    rw [List.forall_mem_cons] at sound storable
    rw [List.map_cons, groupsOfMembers, ofJson_ofGraph_of_storable sound.1 storable.1,
      ih sound.2 storable.2]
    rfl

/-- Nothing is read from the stored forms of sound graphs of which one cannot be stored. -/
theorem groupsOfMembers_of_not_storable {definitions : List (String × Graph)}
    (sound : ∀ entry ∈ definitions, entry.2.Sound)
    (lost : ¬ ∀ entry ∈ definitions, entry.2.IsStorable) :
    groupsOfMembers (definitions.map fun entry => (entry.1, (ofGraph entry.2).toJson)) =
      .error .malformed := by
  induction definitions with
  | nil => simp at lost
  | cons entry definitions ih =>
    rw [List.forall_mem_cons] at sound lost
    rw [List.map_cons, groupsOfMembers]
    by_cases storable : entry.2.IsStorable
    · rw [ofJson_ofGraph_of_storable sound.1 storable,
        ih sound.2 fun rest => lost ⟨storable, rest⟩]
      rfl
    · have refused : ofJson (ofGraph entry.2).toJson = .error .malformed :=
        ofJson_toJson_of_not_storable sound.1 storable
      rw [refused]
      rfl

/-- Definitions of new distinct names are put behind those of an assembly. -/
theorem foldl_setGroup {definitions : List (String × Assembly)} {assembly : Assembly}
    (distinct : ((assembly.groups ++ definitions).map Prod.fst).Nodup) :
    definitions.foldl (fun assembly entry => assembly.setGroup entry.1 entry.2) assembly =
      ⟨assembly.graph, assembly.groups ++ definitions⟩ := by
  induction definitions generalizing assembly with
  | nil =>
    rw [List.foldl_nil, List.append_nil]
    cases assembly with
    | mk => rfl
  | cons entry rest ih =>
    have absent : (assembly.group? entry.1).isSome = false := by
      rw [List.map_append, List.nodup_append] at distinct
      simp only [group?, Option.isSome_map, List.find?_isSome, decide_eq_true_eq,
        Bool.eq_false_iff, ne_eq]
      rintro ⟨other, mem, same⟩
      exact distinct.2.2 entry.1 (List.mem_map.2 ⟨other, mem, same⟩) entry.1 (by simp) rfl
    have grown : assembly.setGroup entry.1 entry.2 =
        ⟨assembly.graph, assembly.groups ++ [entry]⟩ := by
      rw [setGroup, absent]
      rfl
    rw [List.foldl_cons, grown, ih (by simpa using distinct)]
    simp

end Assembly

/-- Whether a graph and the definitions of a library can be stored. -/
structure Graph.IsStorableWith (library : Library) (graph : Graph) : Prop where
  graph : graph.IsStorable
  definitions : ∀ entry ∈ library.entries, entry.2.IsStorable

section

variable {graph : Graph} {library : Library}

/-- The stored form of a sound graph with sound definitions is read as the graph and the
definitions that restore these, if they can be stored. -/
theorem Assembly.ofJson_ofLibrary_of_storable (sound : graph.Sound)
    (definitions : ∀ entry ∈ library.entries, entry.2.Sound)
    (storable : graph.IsStorableWith library) :
    ofJson (ofLibrary graph library).toJson =
      .ok (ofLibrary graph.reread (library.mapValues Graph.reread)) := by
  have groups := groupsOfMembers_of_storable definitions storable.definitions
  have distinct : (((ofGraph graph.reread).groups ++
      library.entries.map fun entry => (entry.1, ofGraph entry.2.reread)).map Prod.fst).Nodup := by
    simpa [ofGraph, Function.comp_def] using library.distinct
  rw [ofJson_toJson]
  simp only [ofLibrary, List.map_map, Function.comp_def, sound.ofParts_of_storable storable.graph,
    groups, bind, Except.bind]
  rw [foldl_setGroup distinct]
  simp [ofGraph, Table.mapValues]

/-- Nothing is read from the stored form of a sound graph with sound definitions of which one
cannot be stored. -/
theorem Assembly.ofJson_ofLibrary_of_not_storable (sound : graph.Sound)
    (definitions : ∀ entry ∈ library.entries, entry.2.Sound)
    (lost : ¬ graph.IsStorableWith library) :
    ofJson (ofLibrary graph library).toJson = .error .malformed := by
  by_cases storable : graph.IsStorable
  · have groups := groupsOfMembers_of_not_storable definitions fun rest => lost ⟨storable, rest⟩
    rw [ofJson_toJson]
    simp only [ofLibrary, List.map_map, Function.comp_def, sound.ofParts_of_storable storable,
      groups, bind, Except.bind]
  · exact ofJson_toJson_of_not_storable sound storable

/-- What is stored of an assembly is nested deeper than its definitions by two. -/
theorem Assembly.nests_toJson {assembly : Assembly} {depth : Nat} (deep : 8 ≤ depth)
    (definitions : ∀ entry ∈ assembly.groups, entry.2.toJson.Nests depth) :
    assembly.toJson.Nests (depth + 2) := by
  have content := (Graph.nests_structureJson assembly.graph).mono (Nat.le_succ_of_le deep)
  rw [toJson_eq]
  refine .obj ?_
  simp only [List.forall_mem_cons, List.not_mem_nil, false_imp_iff, implies_true, and_true]
  refine ⟨.str _, content, .obj ?_, .arr ?_, .obj ?_⟩
  · exact List.forall_mem_map.2 fun _ _ => .int _
  · exact List.forall_mem_map.2 fun _ _ => .int _
  · exact List.forall_mem_map.2 definitions

/-- What is stored of a graph with a library is not nested deep. -/
theorem Assembly.nests_toJson_ofLibrary : (ofLibrary graph library).toJson.Nests 12 := by
  refine nests_toJson (by decide) fun entry mem => ?_
  obtain ⟨definition, -, rfl⟩ := List.mem_map.1 mem
  exact nests_toJson (Nat.le_refl 8) (by simp [ofGraph])

end

end Shadeloom
