import Mathlib
import Shadeloom.Node.Settings
import Shadeloom.Proofs.Arithmetic.Order
/-!
# Stops in order

Where the positions of stops are numbers, inserting stops one after the other is a stable sort: the
stops come in the order of their positions, and those at one position in the order in which they
were inserted. A search for a position in sorted stops ends between those that are at or below it
and those above it.
-/
namespace Shadeloom

section

variable {α β : Type} [LinearOrder β] (key : α → β)

/-- Items in the order of their keys, those with one key in the order given. -/
def sortByKey (items : List α) : List α :=
  items.mergeSort fun a b => decide (key a ≤ key b)

/-- Keys in order are so by way of a third one. -/
theorem decide_key_trans (a b c : α) (left : decide (key a ≤ key b) = true)
    (right : decide (key b ≤ key c) = true) : decide (key a ≤ key c) = true :=
  decide_eq_true ((of_decide_eq_true left).trans (of_decide_eq_true right))

/-- Of two items one has a key that is at most the other one's. -/
theorem decide_key_total (a b : α) : (decide (key a ≤ key b) || decide (key b ≤ key a)) = true := by
  simpa using le_total (key a) (key b)

/-- Sorted items are in order. -/
theorem pairwise_sortByKey (items : List α) :
    (sortByKey key items).Pairwise fun a b => key a ≤ key b :=
  (List.pairwise_mergeSort (decide_key_trans key) (decide_key_total key) items).imp
    of_decide_eq_true

/-- Sorting keeps the order of the items with one key. -/
theorem filter_sortByKey (items : List α) (k : β) :
    (sortByKey key items).filter (fun a => key a = k) = items.filter fun a => key a = k := by
  have tied : (items.filter fun a => key a = k).Pairwise
      fun a b => decide (key a ≤ key b) = true := by
    refine List.pairwise_of_forall_mem_list fun a mem b mem' => ?_
    simp only [List.mem_filter, decide_eq_true_eq] at mem mem' ⊢
    rw [mem.2, mem'.2]
  have kept : (items.filter fun a => key a = k).Sublist (sortByKey key items) :=
    List.sublist_mergeSort (decide_key_trans key) (decide_key_total key) tied List.filter_sublist
  have kept := kept.filter fun a => decide (key a = k)
  rw [List.filter_filter] at kept
  simp only [Bool.and_self] at kept
  exact (kept.eq_of_length (List.Perm.filter _ (List.mergeSort_perm items _)).length_eq.symm).symm

variable {key}

/-- Lists in order that have the same items with each key in the same order are the same. -/
theorem eq_of_ties {xs ys : List α} (left : xs.Pairwise fun a b => key a ≤ key b)
    (right : ys.Pairwise fun a b => key a ≤ key b)
    (ties : ∀ k, (xs.filter fun a => key a = k) = ys.filter fun a => key a = k) : xs = ys := by
  have mem_iff (a : α) : a ∈ xs ↔ a ∈ ys := by
    simpa using congrArg (a ∈ ·) (ties (key a))
  induction xs generalizing ys with
  | nil => exact (List.eq_nil_iff_forall_not_mem.2 fun a mem => by simpa using (mem_iff a).2 mem).symm
  | cons a xs ih =>
    cases ys with
    | nil => simpa using (mem_iff a).1 List.mem_cons_self
    | cons b ys =>
      rw [List.pairwise_cons] at left right
      have level : key a = key b := by
        apply le_antisymm
        · rcases List.mem_cons.1 ((mem_iff b).2 List.mem_cons_self) with rfl | later
          · exact le_rfl
          · exact left.1 b later
        · rcases List.mem_cons.1 ((mem_iff a).1 List.mem_cons_self) with rfl | later
          · exact le_rfl
          · exact right.1 a later
      obtain rfl : a = b := by
        have first := ties (key a)
        rw [List.filter_cons_of_pos (by simp), List.filter_cons_of_pos (by simp [level])] at first
        exact (List.cons.inj first).1
      have rest (k : β) : (xs.filter fun a => key a = k) = ys.filter fun a => key a = k := by
        have all := ties k
        rw [List.filter_cons, List.filter_cons] at all
        split at all
        · exact (List.cons.inj all).2
        · exact all
      refine congrArg (a :: ·) (ih left.2 right.2 rest fun c => ?_)
      simpa using congrArg (c ∈ ·) (rest (key c))

/-- Items in order are sorted as they are. -/
theorem sortByKey_of_pairwise {items : List α} (ordered : items.Pairwise fun a b => key a ≤ key b) :
    sortByKey key items = items :=
  List.mergeSort_of_pairwise (by simpa only [decide_eq_true_eq] using ordered)

/-- An item is inserted behind the items of a first part. -/
theorem insertIdx_length_append (below above : List α) (item : α) :
    (below ++ above).insertIdx below.length item = below ++ item :: above := by
  induction below with
  | nil => rfl
  | cons first rest ih =>
    rw [List.cons_append, List.length_cons, List.insertIdx_succ_cons, ih, List.cons_append]

/-- An item that comes last is put behind the sorted items whose keys are not above its own. -/
theorem sortByKey_concat {items below above : List α} {item : α}
    (split : sortByKey key items = below ++ above) (lower : ∀ a ∈ below, key a ≤ key item)
    (upper : ∀ a ∈ above, key item < key a) :
    sortByKey key (items ++ [item]) = below ++ item :: above := by
  have sorted := pairwise_sortByKey key items
  rw [split, List.pairwise_append] at sorted
  refine eq_of_ties (pairwise_sortByKey key _) ?_ fun k => ?_
  · rw [List.pairwise_append, List.pairwise_cons]
    refine ⟨sorted.1, ⟨fun a mem => (upper a mem).le, sorted.2.1⟩, fun a mem b mem' => ?_⟩
    rcases List.mem_cons.1 mem' with rfl | later
    · exact lower a mem
    · exact sorted.2.2 a mem b later
  · rw [filter_sortByKey, List.filter_append, ← filter_sortByKey key items, split,
      List.filter_append, List.filter_append, List.filter_cons, List.filter_cons]
    by_cases here : key item = k
    · -- No item above has the key of the new one, so that the new one comes last among its ties.
      have none : (above.filter fun a => key a = k) = [] := by
        rw [List.filter_eq_nil_iff]
        intro a mem
        simpa [← here] using (upper a mem).ne'
      simp [here, none]
    · simp [here]

end

namespace RampStop

/-- Whether stops are in the order of their positions, which are numbers. -/
structure InOrder (stops : List RampStop) : Prop where
  numbers : ∀ stop ∈ stops, stop.position.isNaN = false
  ordered : stops.Pairwise fun a b => a.position ≤ b.position

/-- Stops in the order of their positions, those at one position in the order given. -/
def sort (stops : List RampStop) : List RampStop :=
  stops.mergeSort fun a b => decide (a.position ≤ b.position)

/-- Whether stops are the given ones, with none lost or repeated, in the order of their positions,
and those at equal positions in the order given. -/
structure StablySorts (given sorted : List RampStop) : Prop where
  perm : sorted.Perm given
  inOrder : InOrder sorted
  ties : ∀ place : Float,
    (sorted.filter fun stop => stop.position == place) =
      given.filter fun stop => stop.position == place

/-- The sorted stops are the given ones. -/
@[simp] theorem mem_sort {stops : List RampStop} {stop : RampStop} :
    stop ∈ sort stops ↔ stop ∈ stops :=
  List.mem_mergeSort

/-- There are sorted stops when some are given. -/
@[simp] theorem isEmpty_sort (stops : List RampStop) : (sort stops).isEmpty = stops.isEmpty :=
  (List.mergeSort_perm stops _).isEmpty_eq

/-- Where a stop stands in the order. -/
def level (stop : RampStop) : Level :=
  .ofFloat stop.position

/-- Stops at numbers are sorted by their levels. -/
theorem sort_eq_sortByKey {stops : List RampStop}
    (numbers : ∀ stop ∈ stops, stop.position.isNaN = false) : sort stops = sortByKey level stops := by
  have sorted := List.map_mergeSort (f := id) (l := stops)
    (r := fun a b => decide (a.position ≤ b.position))
    (s := fun a b => decide (level a ≤ level b)) fun a mem b mem' => by
      simp only [id, le_iff_level, numbers a mem, numbers b mem', true_and]
      rfl
  simpa only [List.map_id, sort, sortByKey] using sorted

/-- Stops in order have levels in order. -/
theorem InOrder.levels {stops : List RampStop} (inOrder : InOrder stops) :
    stops.Pairwise fun a b => level a ≤ level b :=
  inOrder.ordered.imp fun ordered => (le_iff_level.1 ordered).2.2

/-- Stops with numbers in the order of their levels are in order. -/
theorem inOrder_of_levels {stops : List RampStop}
    (numbers : ∀ stop ∈ stops, stop.position.isNaN = false)
    (levels : stops.Pairwise fun a b => level a ≤ level b) : InOrder stops :=
  ⟨numbers, levels.imp_of_mem fun mem mem' ordered =>
    le_iff_level.2 ⟨numbers _ mem, numbers _ mem', ordered⟩⟩

/-- Sorted stops are in order. -/
theorem inOrder_sort {stops : List RampStop}
    (numbers : ∀ stop ∈ stops, stop.position.isNaN = false) : InOrder (sort stops) := by
  refine inOrder_of_levels (fun stop mem => numbers stop (mem_sort.1 mem)) ?_
  rw [sort_eq_sortByKey numbers]
  exact pairwise_sortByKey level stops

/-- Stops at numbers are stably sorted. -/
theorem stablySorts_sort {stops : List RampStop}
    (numbers : ∀ stop ∈ stops, stop.position.isNaN = false) : StablySorts stops (sort stops) := by
  refine ⟨List.mergeSort_perm _ _, inOrder_sort numbers, fun place => ?_⟩
  cases number : place.isNaN with
  | true =>
    have none (stop : RampStop) : (stop.position == place) = false := by
      rw [← Bool.not_eq_true, beq_iff_level, number]
      simp
    simp [none]
  | false =>
    have tied (stop : RampStop) (mem : stop ∈ stops) :
        (stop.position == place) = decide (level stop = .ofFloat place) := by
      rw [Bool.eq_iff_iff, beq_iff_level, numbers stop mem, number, decide_eq_true_eq]
      simp [level]
    rw [List.filter_congr tied, List.filter_congr fun stop mem => tied stop (mem_sort.1 mem),
      sort_eq_sortByKey numbers, filter_sortByKey]

/-- Stops in order are sorted as they are. -/
theorem InOrder.sort_eq {stops : List RampStop} (inOrder : InOrder stops) : sort stops = stops := by
  rw [sort_eq_sortByKey inOrder.numbers, sortByKey_of_pairwise inOrder.levels]

/-- The search for a number in stops in order ends behind those that are at or below it. -/
theorem InOrder.exists_split {stops : List RampStop} (inOrder : InOrder stops) {place : Float}
    (number : place.isNaN = false) :
    ∃ below above, stops = below ++ above ∧ (∀ stop ∈ below, stop.position ≤ place) ∧
      (∀ stop ∈ above, place < stop.position) ∧
      ColorRamp.countUpTo place stops = below.length := by
  obtain ⟨numbers, ordered⟩ := inOrder
  have cut : ∃ below above, stops = below ++ above ∧ (∀ stop ∈ below, stop.position ≤ place) ∧
      ∀ stop ∈ above, place < stop.position := by
    induction stops with
    | nil => exact ⟨[], [], rfl, nofun, nofun⟩
    | cons first rest ih =>
      rw [List.forall_mem_cons] at numbers
      rw [List.pairwise_cons] at ordered
      by_cases here : first.position ≤ place
      · obtain ⟨below, above, rfl, lower, upper⟩ := ih numbers.2 ordered.2
        exact ⟨first :: below, above, rfl, List.forall_mem_cons.2 ⟨here, lower⟩, upper⟩
      · refine ⟨[], first :: rest, rfl, nofun, List.forall_mem_cons.2 ⟨?_, fun stop mem => ?_⟩⟩
        · exact (not_le_iff_lt numbers.1 number).1 here
        · refine (not_le_iff_lt (numbers.2 stop mem) number).1 fun low => here ?_
          rw [le_iff_level] at low ⊢
          exact ⟨numbers.1, number, (le_iff_level.1 (ordered.1 stop mem)).2.2.trans low.2.2⟩
  obtain ⟨below, above, rfl, lower, upper⟩ := cut
  refine ⟨below, above, rfl, lower, upper, ?_⟩
  refine Bisect.countPassing_append _ below above (fun stop mem => ?_) fun stop mem => ?_
  · exact decide_eq_true (lower stop mem)
  · have high : ¬ stop.position ≤ place :=
      (not_le_iff_lt (numbers stop (by simp [mem])) number).2 (upper stop mem)
    exact decide_eq_false high

end RampStop

namespace ColorRamp

open RampStop

/-- A stop that is inserted into sorted stops is sorted in as the last one given. -/
theorem stops_insertStop {ramp : ColorRamp} {given : List RampStop} {stop : RampStop}
    (numbers : ∀ other ∈ given, other.position.isNaN = false)
    (number : stop.position.isNaN = false) (sorted : ramp.stops = sort given) :
    (ramp.insertStop stop).stops = sort (given ++ [stop]) := by
  have all : ∀ other ∈ given ++ [stop], other.position.isNaN = false :=
    List.forall_mem_append.2 ⟨numbers, List.forall_mem_singleton.2 number⟩
  have inOrder : InOrder ramp.stops := sorted ▸ inOrder_sort numbers
  obtain ⟨below, above, split, lower, upper, count⟩ := inOrder.exists_split number
  have levels : sortByKey level given = below ++ above := by
    rw [← sort_eq_sortByKey numbers, ← sorted, split]
  have concat := sortByKey_concat levels
    (fun other mem => (le_iff_level.1 (lower other mem)).2.2)
    fun other mem => (lt_iff_level.1 (upper other mem)).2.2
  rw [sort_eq_sortByKey all, concat]
  show ramp.stops.insertIdx (countUpTo stop.position ramp.stops) stop = _
  rw [count, split, insertIdx_length_append]

/-- Stops that are inserted one after the other are sorted with those that are there. -/
theorem stops_foldl_insertStop {ramp : ColorRamp} (inOrder : InOrder ramp.stops)
    {stops : List RampStop} (numbers : ∀ stop ∈ stops, stop.position.isNaN = false) :
    (stops.foldl insertStop ramp).stops = sort (ramp.stops ++ stops) := by
  -- The induction is on the stops from the last one, so that what is there stays sorted.
  induction stops using List.reverseRecOn with
  | nil => simp [inOrder.sort_eq]
  | append_singleton stops stop ih =>
    rw [List.forall_mem_append, List.forall_mem_singleton] at numbers
    rw [List.foldl_append, List.foldl_cons, List.foldl_nil, ← List.append_assoc]
    exact stops_insertStop (List.forall_mem_append.2 ⟨inOrder.numbers, numbers.1⟩) numbers.2
      (ih numbers.1)

end ColorRamp

end Shadeloom
