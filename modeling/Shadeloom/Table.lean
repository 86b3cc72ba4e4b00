/-!
# Tables

A table maps distinct keys to values and keeps its entries in the order in which their keys were
first inserted: inserting at a key that is present replaces the value in place. Lookup after each
operation is stated as a law, and the keys of every table are distinct by its type.
-/
namespace Shadeloom

/-- Entries with distinct keys, in insertion order. -/
@[ext]
structure Table (κ β : Type) where
  entries : List (κ × β)
  distinct : (entries.map Prod.fst).Nodup

namespace Table

variable {κ β γ : Type}

/-- The table without entries. -/
def empty : Table κ β := ⟨[], List.nodup_nil⟩

instance : Inhabited (Table κ β) := ⟨empty⟩

instance : EmptyCollection (Table κ β) := ⟨empty⟩

instance [DecidableEq κ] [DecidableEq β] : DecidableEq (Table κ β) := fun a b =>
  decidable_of_iff (a.entries = b.entries) Table.ext_iff.symm

instance [Repr κ] [Repr β] : Repr (Table κ β) := ⟨fun table => reprPrec table.entries⟩

/-- The keys in order. -/
def keys (table : Table κ β) : List κ :=
  table.entries.map Prod.fst

/-- The values in order of their keys. -/
def values (table : Table κ β) : List β :=
  table.entries.map Prod.snd

/-- The number of entries. -/
def size (table : Table κ β) : Nat :=
  table.entries.length

/-- The table with every value changed. -/
def mapValues (f : β → γ) (table : Table κ β) : Table κ γ where
  entries := table.entries.map fun entry => (entry.1, f entry.2)
  distinct := by simpa [Function.comp_def] using table.distinct

/-- The entries that a test accepts, in their order. -/
def filter (table : Table κ β) (keep : κ → β → Bool) : Table κ β where
  entries := table.entries.filter fun entry => keep entry.1 entry.2
  distinct := (List.filter_sublist.map Prod.fst).nodup table.distinct

/-- The entries in the order of their keys; entries that the order does not separate stay put. -/
def sortBy (table : Table κ β) (le : κ → κ → Bool) : Table κ β where
  entries := table.entries.mergeSort fun a b => le a.1 b.1
  distinct := ((List.mergeSort_perm table.entries _).map Prod.fst).nodup_iff.2 table.distinct

variable [DecidableEq κ]

/-- The value at a key. -/
def get? (table : Table κ β) (key : κ) : Option β :=
  (table.entries.find? fun entry => entry.1 = key).map Prod.snd

/-- Whether a key has a value. -/
def contains (table : Table κ β) (key : κ) : Bool :=
  table.entries.any fun entry => entry.1 = key

/-- The entries with the value at a key replaced. -/
def replaceIn (key : κ) (value : β) (entries : List (κ × β)) : List (κ × β) :=
  entries.map fun entry => if entry.1 = key then (key, value) else entry

/-- Replacing a value keeps the keys. -/
theorem map_fst_replaceIn (key : κ) (value : β) (entries : List (κ × β)) :
    (replaceIn key value entries).map Prod.fst = entries.map Prod.fst := by
  simp only [replaceIn, List.map_map]
  refine List.map_congr_left fun entry _ => ?_
  by_cases same : entry.1 = key <;> simp [same]

/-- A key is present exactly when it is one of the keys. -/
theorem contains_iff_mem {table : Table κ β} {key : κ} :
    table.contains key = true ↔ key ∈ table.keys := by
  simp [contains, keys]

/-- Sets the value at a key: in place if the key is present, at the end otherwise. -/
def insert (table : Table κ β) (key : κ) (value : β) : Table κ β :=
  if present : table.contains key then
    ⟨replaceIn key value table.entries, by rw [map_fst_replaceIn]; exact table.distinct⟩
  else
    ⟨table.entries ++ [(key, value)], by
      rw [List.map_append, List.nodup_append]
      refine ⟨table.distinct, by simp, fun a mem b last same => present ?_⟩
      simp only [List.map_cons, List.map_nil, List.mem_singleton] at last
      exact contains_iff_mem.2 (last ▸ same ▸ mem)⟩

/-- The table of a list of entries; of equal keys the first gives the place, the last the value. -/
def ofList (entries : List (κ × β)) : Table κ β :=
  entries.foldl (fun table entry => table.insert entry.1 entry.2) empty

/-- The table with the value at a key, if there is one, changed. -/
def modify (table : Table κ β) (key : κ) (f : β → β) : Table κ β :=
  match table.get? key with
  | some value => table.insert key (f value)
  | none => table

/-- Nothing is found in the empty table. -/
@[simp] theorem get?_empty (key : κ) : (empty : Table κ β).get? key = none := rfl

/-- A key is present exactly when it has a value. -/
theorem isSome_get? (table : Table κ β) (key : κ) :
    (table.get? key).isSome = table.contains key := by
  simp only [get?, contains, Option.isSome_map]
  rw [Bool.eq_iff_iff]
  simp

/-- A key that is absent has no value. -/
theorem get?_eq_none_of_not_contains {table : Table κ β} {key : κ}
    (absent : ¬ table.contains key = true) : table.get? key = none := by
  have agree := isSome_get? table key
  cases found : table.get? key with
  | none => rfl
  | some value => rw [found] at agree; exact absurd agree.symm absent

/-- Lookup in a list of entries after a replacement. -/
theorem find?_replaceIn (key other : κ) (value : β) (entries : List (κ × β)) :
    ((replaceIn key value entries).find? fun entry => entry.1 = other).map Prod.snd =
      if key = other then (entries.find? fun entry => entry.1 = other).map fun _ => value
      else (entries.find? fun entry => entry.1 = other).map Prod.snd := by
  induction entries with
  | nil => simp [replaceIn]
  | cons entry rest ih =>
    simp only [replaceIn, List.map_cons, List.find?_cons] at ih ⊢
    by_cases same : entry.1 = key
    · by_cases hit : key = other
      · simp [same, hit]
      · simpa [same, hit] using ih
    · by_cases here : entry.1 = other
      · have apart : ¬ key = other := fun equal => same (here.trans equal.symm)
        simp [here, apart, Ne.symm apart]
      · simpa [same, here] using ih

/-- After an insertion the key has the value and all other keys are as before. -/
theorem get?_insert (table : Table κ β) (key other : κ) (value : β) :
    (table.insert key value).get? other = if key = other then some value else table.get? other := by
  unfold insert
  split
  · rename_i present
    simp only [get?, find?_replaceIn]
    by_cases hit : key = other
    · have found : (table.get? other).isSome = true := by rw [isSome_get?, ← hit]; exact present
      obtain ⟨old, lookup⟩ := Option.isSome_iff_exists.1 found
      obtain ⟨entry, here, _⟩ := Option.map_eq_some_iff.1 lookup
      simp [hit, here]
    · simp [hit]
  · rename_i absent
    simp only [get?, List.find?_append]
    by_cases hit : key = other
    · have none := get?_eq_none_of_not_contains absent
      simp only [get?, Option.map_eq_none_iff, hit] at none
      simp [hit, none]
    · simp [hit]

/-- An insertion adds its key at the end unless it is present. -/
theorem keys_insert (table : Table κ β) (key : κ) (value : β) :
    (table.insert key value).keys =
      if table.contains key then table.keys else table.keys ++ [key] := by
  unfold insert keys
  split
  · simp [map_fst_replaceIn]
  · simp

end Table

end Shadeloom
