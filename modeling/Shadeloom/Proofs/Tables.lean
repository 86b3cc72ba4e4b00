import Mathlib
import Shadeloom.Table
/-!
# Entries of tables

Lookup said by the entries of a table, so that what changes only the order or the choice of the
entries says what it does to lookup.
-/
namespace Shadeloom

namespace Table

variable {κ β : Type}

/-- The values of a table with changed values are the changed values. -/
theorem values_mapValues {γ : Type} (f : β → γ) (table : Table κ β) :
    (table.mapValues f).values = table.values.map f := by
  simp [mapValues, values]

variable [DecidableEq κ]

/-- A key has a value exactly when the two are an entry. -/
theorem get?_eq_some_iff {table : Table κ β} {key : κ} {value : β} :
    table.get? key = some value ↔ (key, value) ∈ table.entries := by
  unfold get?
  rw [Option.map_eq_some_iff]
  constructor
  · rintro ⟨entry, found, rfl⟩
    have same : entry.1 = key := by simpa using List.find?_some found
    rw [← same]
    exact List.mem_of_find?_eq_some found
  · intro mem
    obtain ⟨entry, found⟩ := Option.isSome_iff_exists.1
      (List.find?_isSome (p := fun entry => entry.1 = key) |>.2 ⟨(key, value), mem, by simp⟩)
    have same : entry.1 = key := by simpa using List.find?_some found
    exact ⟨entry, found, congrArg Prod.snd
      (List.inj_on_of_nodup_map table.distinct (List.mem_of_find?_eq_some found) mem same)⟩

/-- Tables with the same entries in any order have the same values. -/
theorem get?_congr {a b : Table κ β} (same : ∀ entry, entry ∈ a.entries ↔ entry ∈ b.entries)
    (key : κ) : a.get? key = b.get? key := by
  apply Option.ext
  intro value
  rw [get?_eq_some_iff, get?_eq_some_iff, same]

/-- Putting the entries in order changes no value. -/
theorem get?_sortBy (table : Table κ β) (le : κ → κ → Bool) (key : κ) :
    (table.sortBy le).get? key = table.get? key :=
  get?_congr (fun _ => (List.mergeSort_perm _ _).mem_iff) key

/-- The value of a key after entries are left out. -/
theorem get?_filter (table : Table κ β) (keep : κ → β → Bool) (key : κ) :
    (table.filter keep).get? key = (table.get? key).filter (keep key) := by
  apply Option.ext
  intro value
  rw [get?_eq_some_iff, Option.filter_eq_some_iff, get?_eq_some_iff]
  exact List.mem_filter

/-- The entries after a key that is absent is inserted. -/
theorem entries_insert_of_get?_eq_none {table : Table κ β} {key : κ}
    (absent : table.get? key = none) (value : β) :
    (table.insert key value).entries = table.entries ++ [(key, value)] := by
  have absent : ¬ table.contains key = true := by rw [← isSome_get?, absent]; simp
  unfold insert
  rw [dif_neg absent]

/-- The keys after an insertion are those before and the new one. -/
theorem mem_keys_insert {table : Table κ β} {key other : κ} {value : β} :
    other ∈ (table.insert key value).keys ↔ other = key ∨ other ∈ table.keys := by
  rw [keys_insert]
  split
  · rename_i present
    rw [contains_iff_mem] at present
    constructor
    · exact .inr
    · rintro (rfl | mem)
      · exact present
      · exact mem
  · simp [or_comm]

/-- The value at a key of a table with changed values is the changed value. -/
theorem get?_mapValues {γ : Type} (f : β → γ) (table : Table κ β) (key : κ) :
    (table.mapValues f).get? key = (table.get? key).map f := by
  simp only [get?, mapValues, List.find?_map, Option.map_map]
  rfl

/-- The keys of a table with changed values are those of the table. -/
theorem contains_mapValues {γ : Type} (f : β → γ) (table : Table κ β) (key : κ) :
    (table.mapValues f).contains key = table.contains key := by
  simp only [contains, mapValues, List.any_map]
  rfl

/-- A changed value is inserted into a table with changed values. -/
theorem insert_mapValues {γ : Type} (f : β → γ) (table : Table κ β) (key : κ) (value : β) :
    (table.mapValues f).insert key (f value) = (table.insert key value).mapValues f := by
  apply Table.ext
  unfold insert
  simp only [contains_mapValues]
  split
  · simp only [mapValues, replaceIn, List.map_map]
    refine List.map_congr_left fun entry _ => ?_
    by_cases same : entry.1 = key <;> simp [same]
  · simp [mapValues]

/-- Inserting what a key has already changes nothing. -/
theorem insert_of_get? {table : Table κ β} {key : κ} {value : β}
    (found : table.get? key = some value) : table.insert key value = table := by
  have present : table.contains key = true := by rw [← isSome_get?, found]; rfl
  apply Table.ext
  unfold insert
  rw [dif_pos present]
  refine (List.map_congr_left fun entry mem => ?_).trans (List.map_id _)
  split
  · rename_i same
    exact List.inj_on_of_nodup_map table.distinct (get?_eq_some_iff.1 found) mem same.symm
  · rfl

/-- The later one of two insertions at a key is the one that counts. -/
theorem insert_insert (table : Table κ β) (key : κ) (early late : β) :
    (table.insert key early).insert key late = table.insert key late := by
  have present : (table.insert key early).contains key = true := by
    rw [← isSome_get?, get?_insert, if_pos rfl]
    rfl
  have replaced (entries : List (κ × β)) :
      replaceIn key late (replaceIn key early entries) = replaceIn key late entries := by
    simp only [replaceIn, List.map_map]
    refine List.map_congr_left fun entry _ => ?_
    by_cases same : entry.1 = key <;> simp [same]
  apply Table.ext
  rw [insert, dif_pos present]
  by_cases known : table.contains key = true
  · rw [insert, dif_pos known, insert, dif_pos known]
    exact replaced table.entries
  · rw [insert, dif_neg known, insert, dif_neg known]
    have absent : ∀ entry ∈ table.entries, entry.1 ≠ key := fun entry mem same =>
      known (contains_iff_mem.2 (List.mem_map.2 ⟨entry, mem, same⟩))
    have kept : replaceIn key late table.entries = table.entries :=
      (List.map_congr_left fun entry mem => if_neg (absent entry mem)).trans (List.map_id _)
    show replaceIn key late (table.entries ++ [(key, early)]) = _
    rw [replaceIn, List.map_append]
    change replaceIn key late table.entries ++ _ = _
    rw [kept]
    simp

/-- What is the same of the old value of a key and the new one is the same of all values. -/
theorem map_values_insert {γ : Type} {table : Table κ β} {key : κ} {old new : β}
    (found : table.get? key = some old) {f : β → γ} (same : f new = f old) :
    (table.insert key new).values.map f = table.values.map f := by
  have present : table.contains key = true := by rw [← isSome_get?, found]; rfl
  unfold insert values
  rw [dif_pos present]
  simp only [replaceIn, List.map_map]
  refine List.map_congr_left fun entry mem => ?_
  by_cases here : entry.1 = key
  · have entry_eq : (key, old) = entry :=
      List.inj_on_of_nodup_map table.distinct (get?_eq_some_iff.1 found) mem here.symm
    simp [← entry_eq, same]
  · simp [here]

/-- After a list of entries is inserted, a key has the last value that the list gives it. -/
theorem get?_foldl_insert_last (entries : List (κ × β)) (table : Table κ β) (key : κ) :
    (entries.foldl (fun table entry => table.insert entry.1 entry.2) table).get? key =
      ((entries.reverse.find? fun entry => entry.1 = key).map Prod.snd).or (table.get? key) := by
  induction entries using List.reverseRecOn with
  | nil => simp
  | append_singleton early entry ih =>
    rw [List.foldl_append, List.foldl_cons, List.foldl_nil, get?_insert, ih, List.reverse_append]
    by_cases same : entry.1 = key <;> simp [same]

/-- The values after a list of entries with distinct keys is inserted. -/
theorem get?_foldl_insert {entries : List (κ × β)} (distinct : (entries.map Prod.fst).Nodup)
    (table : Table κ β) (key : κ) (value : β) :
    (entries.foldl (fun table entry => table.insert entry.1 entry.2) table).get? key =
        some value ↔
      (key, value) ∈ entries ∨ table.get? key = some value ∧ key ∉ entries.map Prod.fst := by
  induction entries generalizing table with
  | nil => simp
  | cons entry rest ih =>
    obtain ⟨other, old⟩ := entry
    rw [List.map_cons, List.nodup_cons] at distinct
    rw [List.foldl_cons, ih distinct.2, get?_insert]
    by_cases same : other = key
    · subst same
      have absent : (other, value) ∉ rest := fun mem =>
        distinct.1 (List.mem_map.2 ⟨_, mem, rfl⟩)
      simp only [if_true, Option.some.injEq, List.mem_cons, Prod.mk.injEq, true_and, absent,
        or_false, false_or, List.map_cons, true_or, not_true, and_false]
      exact ⟨fun both => both.1.symm, fun equal => ⟨equal.symm, distinct.1⟩⟩
    · simp [same, Ne.symm same]

/-- The values of a list of entries with distinct keys. -/
theorem get?_ofList {entries : List (κ × β)} (distinct : (entries.map Prod.fst).Nodup) (key : κ)
    (value : β) : (ofList entries).get? key = some value ↔ (key, value) ∈ entries := by
  unfold ofList
  rw [get?_foldl_insert distinct]
  simp

/-- The keys of a list of entries with distinct keys. -/
theorem contains_ofList {entries : List (κ × β)} (distinct : (entries.map Prod.fst).Nodup)
    {key : κ} : (ofList entries).contains key = true ↔ key ∈ entries.map Prod.fst := by
  rw [← isSome_get?, Option.isSome_iff_exists, List.mem_map]
  simp only [get?_ofList distinct, Prod.exists, exists_and_right, exists_eq_right]

end Table

end Shadeloom
