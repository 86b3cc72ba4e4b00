/-!
# Slots

Values under numbers that stay theirs while other values come and go. A number that falls vacant
is used again before a new one is taken, the one that fell vacant last first.
-/
namespace Shadeloom

/-- Numbers for values: those below `next` have been in use, and those in `freed` are vacant. -/
@[ext]
structure NumberPool where
  next : Nat
  /-- The vacant numbers, the one that fell vacant last first. -/
  freed : List Nat
  deriving Repr, DecidableEq, Inhabited

namespace NumberPool

/-- A pool of which no number is in use. -/
def empty : NumberPool := ⟨0, []⟩

/-- Takes a number into use. -/
def take (pool : NumberPool) : Nat × NumberPool :=
  match pool.freed with
  | [] => (pool.next, ⟨pool.next + 1, []⟩)
  | number :: rest => (number, ⟨pool.next, rest⟩)

/-- Gives a number back. -/
def release (pool : NumberPool) (number : Nat) : NumberPool :=
  ⟨pool.next, number :: pool.freed⟩

end NumberPool

/-- Values in numbered cells, some of them vacant. -/
@[ext]
structure Slots (α : Type) where
  cells : List (Option α)
  /-- The vacant numbers, the one that fell vacant last first. -/
  freed : List Nat
  deriving Repr, DecidableEq, Inhabited

namespace Slots

variable {α : Type}

/-- Slots without values. -/
def empty : Slots α := ⟨[], []⟩

/-- The value of a number. -/
def get? (slots : Slots α) (number : Nat) : Option α :=
  slots.cells[number]?.join

/-- The numbers in use, ascending. -/
def numbers (slots : Slots α) : List Nat :=
  (List.range slots.cells.length).filter fun number => (slots.get? number).isSome

/-- One more than the highest number in use, or zero. -/
def bound (slots : Slots α) : Nat :=
  (slots.numbers.getLast?.map Nat.succ).getD 0

/-- The values with their numbers, ascending. -/
def entries (slots : Slots α) : List (Nat × α) :=
  (List.range slots.cells.length).filterMap fun number =>
    (slots.get? number).map fun value => (number, value)

/-- The number that the next value gets. -/
def nextNumber (slots : Slots α) : Nat :=
  slots.freed.head?.getD slots.cells.length

/-- Adds a value under the next number. -/
def add (slots : Slots α) (value : α) : Slots α :=
  match slots.freed with
  | [] => ⟨slots.cells ++ [some value], []⟩
  | number :: rest => ⟨slots.cells.set number (some value), rest⟩

/-- Changes the value of a number in use. -/
def set (slots : Slots α) (number : Nat) (value : α) : Slots α :=
  { slots with cells := slots.cells.set number (some value) }

/-- Takes the value of a number away. -/
def remove (slots : Slots α) (number : Nat) : Slots α :=
  ⟨slots.cells.set number none, number :: slots.freed⟩

/-- The slots of cells, of which the last vacant one is used again first. -/
def ofCells (cells : List (Option α)) : Slots α where
  cells
  freed := ((List.range cells.length).filter fun number => cells[number]?.join.isNone).reverse

/-- A number in use is one of the cells. -/
theorem lt_of_get? {slots : Slots α} {number : Nat} {value : α}
    (found : slots.get? number = some value) : number < slots.cells.length := by
  refine Nat.lt_of_not_le fun beyond => ?_
  simp [get?, List.getElem?_eq_none beyond] at found

/-- Setting a value changes the value of its number and no other. -/
theorem get?_set {slots : Slots α} {number : Nat} (used : number < slots.cells.length)
    (other : Nat) (value : α) :
    (slots.set number value).get? other =
      if number = other then some value else slots.get? other := by
  unfold get? set
  by_cases same : number = other
  · subst same; simp [used]
  · simp [same, List.getElem?_set_ne same]

/-- Taking a value away makes its number vacant and no other. -/
theorem get?_remove (slots : Slots α) (number other : Nat) :
    (slots.remove number).get? other = if number = other then none else slots.get? other := by
  unfold get? remove
  by_cases same : number = other
  · subst same
    by_cases used : number < slots.cells.length
    · simp [used]
    · simp [Nat.le_of_not_lt used]
  · simp [same, List.getElem?_set_ne same]

/-- A number is listed exactly when it is in use. -/
theorem mem_numbers {slots : Slots α} {number : Nat} :
    number ∈ slots.numbers ↔ (slots.get? number).isSome = true := by
  simp only [numbers, List.mem_filter, List.mem_range, and_iff_right_iff_imp]
  intro used
  obtain ⟨value, found⟩ := Option.isSome_iff_exists.1 used
  exact lt_of_get? found

end Slots

end Shadeloom
