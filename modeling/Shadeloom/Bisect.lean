/-!
# Bisection

Where a list changes from items that pass a test to items that fail it, found by halving. The main
statement: in a list of passing items followed by failing ones the answer is the number of passing
ones. For other lists the answer depends on the items that are tested, which are always those in
the middle of the window that is left.
-/
namespace Shadeloom.Bisect

variable {α : Type}

/-- Whether the item at a place passes the test. -/
def passesAt (test : α → Bool) (items : List α) (place : Nat) : Bool :=
  items[place]?.any test

/-- Narrows a window of items down to one item: the upper half is kept if its first item passes. -/
def narrow (passes : Nat → Bool) (base width : Nat) : Nat :=
  if 1 < width then
    let half := width / 2
    narrow passes (if passes (base + half) then base + half else base) (width - half)
  else base
termination_by width

/-- The number of items before the change from passing to failing. -/
def countPassing (test : α → Bool) (items : List α) : Nat :=
  let base := narrow (passesAt test items) 0 items.length
  if passesAt test items base then base + 1 else base

/-- Where all places up to a bound pass and the others fail, the window ends at the last passing
place, or at the first place if none passes. -/
theorem narrow_eq (passes : Nat → Bool) (bound : Nat) (change : ∀ i, passes i = true ↔ i < bound)
    (base width : Nat) (low : base = 0 ∨ base < bound) (high : bound ≤ base + width) :
    narrow passes base width = bound - 1 := by
  fun_induction narrow passes base width with
  | case1 base width wide half ih =>
    by_cases here : passes (base + half) = true
    · have := (change _).1 here
      rw [dif_pos here] at ih
      rw [if_pos here]
      exact ih (Or.inr this) (by omega)
    · have : ¬ base + half < bound := fun lower => here ((change _).2 lower)
      rw [dif_neg here] at ih
      rw [if_neg here]
      exact ih low (by omega)
  | case2 base width narrow =>
    omega

/-- In a list of passing items followed by failing ones the passing ones are counted. -/
theorem countPassing_append (test : α → Bool) (passing failing : List α)
    (pass : ∀ a ∈ passing, test a = true) (fail : ∀ a ∈ failing, test a = false) :
    countPassing test (passing ++ failing) = passing.length := by
  have change : ∀ i, passesAt test (passing ++ failing) i = true ↔ i < passing.length := by
    intro i
    unfold passesAt
    by_cases inside : i < passing.length
    · simp [List.getElem?_append_left inside, inside, pass]
    · rw [List.getElem?_append_right (Nat.le_of_not_lt inside)]
      simp only [inside, iff_false, Bool.not_eq_true]
      cases found : failing[i - passing.length]? with
      | none => rfl
      | some a => exact fail a (List.mem_of_getElem? found)
  unfold countPassing
  rw [narrow_eq _ passing.length change 0 _ (Or.inl rfl) (by simp)]
  by_cases here : passesAt test (passing ++ failing) (passing.length - 1) = true
  · have := (change _).1 here
    simp only [here, if_true]
    omega
  · have : ¬ passing.length - 1 < passing.length := fun lower => here ((change _).2 lower)
    simp only [here]
    simp; omega

end Shadeloom.Bisect
