import Mathlib
import Shadeloom.Graph.Slots
/-!
# Numbers that are handed out

Slots and pools of numbers are sound when a vacant number is listed once and has no value, so that
a number that is handed out is fresh. Every operation keeps them sound.
-/
namespace Shadeloom

namespace Slots

variable {α : Type}

/-- The vacant numbers are listed once each, and no number with a value is listed. -/
structure Sound (slots : Slots α) : Prop where
  distinct : slots.freed.Nodup
  vacant : ∀ number ∈ slots.freed, number < slots.cells.length ∧ slots.get? number = none

/-- Slots without values are sound. -/
theorem sound_empty : (empty : Slots α).Sound :=
  ⟨List.nodup_nil, by simp [empty]⟩

/-- The next number has no value yet. -/
theorem get?_nextNumber {slots : Slots α} (sound : slots.Sound) :
    slots.get? slots.nextNumber = none := by
  unfold nextNumber
  cases freed : slots.freed with
  | nil => simp [get?]
  | cons number rest => exact (sound.vacant number (by simp [freed])).2

/-- Adding a value gives it the next number and changes no other value. -/
theorem get?_add {slots : Slots α} (sound : slots.Sound) (value : α) (other : Nat) :
    (slots.add value).get? other =
      if slots.nextNumber = other then some value else slots.get? other := by
  cases freed : slots.freed with
  | nil =>
    have next : slots.nextNumber = slots.cells.length := by simp [nextNumber, freed]
    have shape : (slots.add value).cells = slots.cells ++ [some value] := by simp [add, freed]
    rw [next, get?, shape]
    by_cases last : slots.cells.length = other
    · simp [← last]
    · rw [if_neg last, get?]
      by_cases below : other < slots.cells.length
      · rw [List.getElem?_append_left below]
      · rw [List.getElem?_eq_none (by simp; omega), List.getElem?_eq_none (by omega)]
  | cons number rest =>
    have next : slots.nextNumber = number := by simp [nextNumber, freed]
    have shape : (slots.add value).cells = slots.cells.set number (some value) := by
      simp [add, freed]
    have used := (sound.vacant number (by simp [freed])).1
    rw [next, get?, shape]
    by_cases same : number = other
    · subst same; simp [used]
    · rw [if_neg same, List.getElem?_set_ne same, get?]

/-- Adding a value keeps slots sound. -/
theorem Sound.add {slots : Slots α} (sound : slots.Sound) (value : α) : (slots.add value).Sound := by
  cases freed : slots.freed with
  | nil =>
    have shape : slots.add value = ⟨slots.cells ++ [some value], []⟩ := by
      unfold Slots.add
      rw [freed]
    rw [shape]
    exact ⟨List.nodup_nil, by simp⟩
  | cons number rest =>
    have shape : slots.add value = ⟨slots.cells.set number (some value), rest⟩ := by
      unfold Slots.add
      rw [freed]
    have distinct := sound.distinct
    rw [freed, List.nodup_cons] at distinct
    refine ⟨by rw [shape]; exact distinct.2, fun other mem => ?_⟩
    have mem : other ∈ rest := by rw [shape] at mem; exact mem
    have vacant := sound.vacant other (by simp [freed, mem])
    constructor
    · rw [shape, List.length_set]
      exact vacant.1
    · have apart : slots.nextNumber ≠ other := by
        intro same
        rw [nextNumber, freed] at same
        exact distinct.1 (by simpa [← same] using mem)
      rw [get?_add sound, if_neg apart, vacant.2]

/-- Changing the value of a number in use keeps slots sound. -/
theorem Sound.set {slots : Slots α} (sound : slots.Sound) {number : Nat}
    (used : (slots.get? number).isSome = true) (value : α) : (slots.set number value).Sound := by
  obtain ⟨old, found⟩ := Option.isSome_iff_exists.1 used
  refine ⟨sound.distinct, fun other mem => ?_⟩
  have vacant := sound.vacant other mem
  have apart : number ≠ other := by
    intro same
    rw [same, vacant.2] at found
    cases found
  constructor
  · simpa [Slots.set] using vacant.1
  · rw [get?_set (lt_of_get? found), if_neg apart, vacant.2]

/-- Taking the value of a number in use away keeps slots sound. -/
theorem Sound.remove {slots : Slots α} (sound : slots.Sound) {number : Nat}
    (used : (slots.get? number).isSome = true) : (slots.remove number).Sound := by
  obtain ⟨old, found⟩ := Option.isSome_iff_exists.1 used
  have fresh : number ∉ slots.freed := by
    intro mem
    rw [(sound.vacant number mem).2] at found
    cases found
  refine ⟨List.nodup_cons.2 ⟨fresh, sound.distinct⟩, fun other mem => ?_⟩
  rw [get?_remove]
  rcases List.mem_cons.1 mem with same | mem
  · subst same
    exact ⟨by simpa [Slots.remove] using lt_of_get? found, if_pos rfl⟩
  · have vacant := sound.vacant other mem
    refine ⟨by simpa [Slots.remove] using vacant.1, ?_⟩
    by_cases same : number = other
    · rw [if_pos same]
    · rw [if_neg same, vacant.2]

/-- The entries are the numbers in use with their values. -/
theorem mem_entries {slots : Slots α} {number : Nat} {value : α} :
    (number, value) ∈ slots.entries ↔ slots.get? number = some value := by
  simp only [entries, List.mem_filterMap, List.mem_range, Option.map_eq_some_iff, Prod.mk.injEq]
  constructor
  · rintro ⟨other, _, found, here, rfl, rfl⟩
    exact here
  · intro found
    exact ⟨number, lt_of_get? found, value, found, rfl, rfl⟩

/-- The entries have different numbers. -/
theorem nodup_entries (slots : Slots α) : (slots.entries.map Prod.fst).Nodup := by
  rw [List.Nodup, List.pairwise_map, entries, List.pairwise_filterMap]
  refine List.nodup_range.imp fun {a b} apart entry here entry' there same => apart ?_
  obtain ⟨value, -, rfl⟩ := Option.map_eq_some_iff.1 here
  obtain ⟨value', -, rfl⟩ := Option.map_eq_some_iff.1 there
  exact same

/-- Numbers in use are below the bound. -/
theorem lt_bound {slots : Slots α} {number : Nat} (used : (slots.get? number).isSome = true) :
    number < slots.bound := by
  have mem := mem_numbers.2 used
  have ascending : slots.numbers.Pairwise (· < ·) :=
    List.Pairwise.filter _ List.pairwise_lt_range
  unfold bound
  obtain ⟨before, last, split⟩ := List.eq_nil_or_concat slots.numbers |>.resolve_left
    (List.ne_nil_of_mem mem)
  rw [split] at mem ascending ⊢
  rw [List.concat_eq_append] at mem ascending ⊢
  simp only [List.getLast?_append, List.getLast?_singleton, Option.some_or, Option.map_some,
    Option.getD_some]
  rcases List.mem_append.1 mem with early | late
  · exact Nat.lt_succ_of_lt ((List.pairwise_append.1 ascending).2.2 number early last (by simp))
  · rw [List.mem_singleton.1 late]
    exact Nat.lt_succ_self last

end Slots

namespace NumberPool

/-- The numbers in use are distinct numbers that are not vacant, and so are those to come. -/
structure Sound (pool : NumberPool) (used : List Nat) : Prop where
  used_distinct : used.Nodup
  used_below : ∀ number ∈ used, number < pool.next
  freed_distinct : pool.freed.Nodup
  freed_below : ∀ number ∈ pool.freed, number < pool.next
  apart : ∀ number ∈ used, number ∉ pool.freed

/-- A number that is taken into use is fresh. -/
theorem Sound.take {pool : NumberPool} {used : List Nat} (sound : pool.Sound used) :
    pool.take.2.Sound (pool.take.1 :: used) := by
  unfold NumberPool.take
  cases freed : pool.freed with
  | nil =>
    refine ⟨List.nodup_cons.2 ⟨fun mem => ?_, sound.used_distinct⟩, fun number mem => ?_,
      List.nodup_nil, by simp, by simp⟩
    · exact Nat.lt_irrefl _ (sound.used_below _ mem)
    · rcases List.mem_cons.1 mem with same | mem
      · rw [same]; exact Nat.lt_succ_self _
      · exact Nat.lt_succ_of_lt (sound.used_below number mem)
  | cons first rest =>
    have distinct := sound.freed_distinct
    rw [freed, List.nodup_cons] at distinct
    have first_mem : first ∈ pool.freed := by simp [freed]
    have rest_mem : ∀ number ∈ rest, number ∈ pool.freed := fun number mem => by simp [freed, mem]
    refine ⟨List.nodup_cons.2 ⟨fun mem => sound.apart first mem first_mem, sound.used_distinct⟩,
      fun number mem => ?_, distinct.2, fun number mem => sound.freed_below number (rest_mem _ mem),
      fun number mem free => ?_⟩
    · rcases List.mem_cons.1 mem with same | mem
      · rw [same]; exact sound.freed_below first first_mem
      · exact sound.used_below number mem
    · rcases List.mem_cons.1 mem with same | mem
      · subst same; exact distinct.1 free
      · exact sound.apart number mem (rest_mem _ free)

/-- Giving numbers back takes them out of those in use. -/
theorem Sound.release {pool : NumberPool} {used dropped : List Nat} (sound : pool.Sound used)
    (distinct : dropped.Nodup) (inUse : ∀ number ∈ dropped, number ∈ used) :
    (dropped.foldl NumberPool.release pool).Sound
      (used.filter fun number => number ∉ dropped) := by
  induction dropped generalizing pool used with
  | nil => simpa using sound
  | cons number rest ih =>
    rw [List.nodup_cons] at distinct
    have here := inUse number (by simp)
    have released : (pool.release number).Sound (used.filter fun other => other ≠ number) := by
      refine ⟨sound.used_distinct.filter _, fun other mem => ?_,
        List.nodup_cons.2 ⟨sound.apart number here, sound.freed_distinct⟩, fun other mem => ?_,
        fun other mem free => ?_⟩
      · exact sound.used_below other (List.mem_filter.1 mem).1
      · rcases List.mem_cons.1 mem with same | mem
        · rw [same]; exact sound.used_below number here
        · exact sound.freed_below other mem
      · have mem := List.mem_filter.1 mem
        rcases List.mem_cons.1 free with same | free
        · simp [same] at mem
        · exact sound.apart other mem.1 free
    have later := ih released distinct.2 fun other mem => by
      have apart : other ≠ number := fun same => distinct.1 (same ▸ mem)
      simp [inUse other (by simp [mem]), apart]
    have order : (used.filter fun other => other ∉ number :: rest) =
        (used.filter fun other => other ≠ number).filter fun other => other ∉ rest := by
      rw [List.filter_filter]
      refine List.filter_congr fun other _ => ?_
      by_cases same : other = number <;> simp [same]
    rw [List.foldl_cons, order]
    exact later

end NumberPool

end Shadeloom
