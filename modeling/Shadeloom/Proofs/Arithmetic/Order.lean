import Mathlib
import Shadeloom.Proofs.Arithmetic.Zeros
/-!
# The order of doubles

The doubles that are numbers are totally preordered, with the two zeros on one level: each has a
level in a linear order, from the negative infinity to the positive one, and comparing numbers is
comparing their levels. What is no number compares with nothing; its level is above all others.
-/
namespace Shadeloom

open Float.Model (UnpackedFloat)
open Float.Model.UnpackedFloat

/-- Levels are ordered by the side of zero first, then by exponent, then by mantissa. -/
abbrev Level : Type := ℤ ×ₗ ℤ ×ₗ ℤ

namespace Level

/-- The level with the three parts. -/
def of (side exponent mantissa : ℤ) : Level :=
  toLex (side, toLex (exponent, mantissa))

/-- Levels compare part by part. -/
theorem compare_of (side side' exponent exponent' mantissa mantissa' : ℤ) :
    compare (of side exponent mantissa) (of side' exponent' mantissa') =
      (compare side side').then
        ((compare exponent exponent').then (compare mantissa mantissa')) :=
  rfl

/-- Natural numbers compare as integers do. -/
theorem compare_cast (m n : ℕ) : compare (m : ℤ) n = compare m n := by
  rcases lt_trichotomy m n with less | rfl | greater
  · rw [compare_lt_iff_lt.2 less, compare_lt_iff_lt.2 (Int.ofNat_lt.2 less)]
  · rw [compare_eq_iff_eq.2 rfl, compare_eq_iff_eq.2 rfl]
  · rw [compare_gt_iff_gt.2 greater, compare_gt_iff_gt.2 (Int.ofNat_lt.2 greater)]

/-- Negative integers compare the other way around. -/
theorem compare_neg (i j : ℤ) : compare (-i) (-j) = (compare i j).swap := by
  rcases lt_trichotomy i j with less | rfl | greater
  · rw [compare_lt_iff_lt.2 less, compare_gt_iff_gt.2 (neg_lt_neg less)]
    rfl
  · rw [compare_eq_iff_eq.2 rfl, compare_eq_iff_eq.2 rfl]
    rfl
  · rw [compare_gt_iff_gt.2 greater, compare_lt_iff_lt.2 (neg_lt_neg greater)]
    rfl

/-- The level of a number taken apart. -/
def ofUnpacked : UnpackedFloat → Level
  | .infinity .negative => of (-2) 0 0
  | .finite .negative mantissa exponent _ => of (-1) (-exponent) (-mantissa)
  | .zero _ => of 0 0 0
  | .finite .positive mantissa exponent _ => of 1 exponent mantissa
  | .infinity .positive => of 2 0 0
  | .notANumber => of 3 0 0

/-- Numbers taken apart compare as their levels do. -/
theorem compare_ofUnpacked {a b : UnpackedFloat} (left : a ≠ .notANumber)
    (right : b ≠ .notANumber) :
    a.compare b = some (compare (ofUnpacked a) (ofUnpacked b)) := by
  cases a with
  | notANumber => exact absurd rfl left
  | infinity s =>
    cases b with
    | notANumber => exact absurd rfl right
    | infinity s' => cases s <;> cases s' <;> rfl
    | zero s' => cases s <;> rfl
    | finite s' m e h => cases s <;> cases s' <;> rfl
  | zero s =>
    cases b with
    | notANumber => exact absurd rfl right
    | infinity s' => cases s' <;> rfl
    | zero s' => rfl
    | finite s' m e h => cases s' <;> rfl
  | finite s m e h =>
    cases b with
    | notANumber => exact absurd rfl right
    | infinity s' => cases s <;> cases s' <;> rfl
    | zero s' => cases s <;> rfl
    | finite s' m' e' h' =>
      cases s <;> cases s'
      · rw [ofUnpacked, ofUnpacked, compare_of, compare_neg e, compare_neg m, compare_cast,
          ← Ordering.swap_then]
        rfl
      · rfl
      · rfl
      · rw [ofUnpacked, ofUnpacked, compare_of, compare_cast]
        rfl

/-- Where a double stands in the order. -/
def ofFloat (x : Float) : Level :=
  ofUnpacked x.toModel.unpack

end Level

/-- What is a number taken apart is a number. -/
theorem unpack_ne_iff {x : Float} : x.toModel.unpack ≠ .notANumber ↔ x.isNaN = false := by
  show _ ↔ x.toModel.unpack.isNaN = false
  rw [← Bool.not_eq_true, isNaN_iff]

/-- Doubles compare when both are numbers, and then as their levels do. -/
theorem compare_unpack_eq_some_iff {x y : Float} {ordering : Ordering} :
    x.toModel.unpack.compare y.toModel.unpack = some ordering ↔
      x.isNaN = false ∧ y.isNaN = false ∧
        compare (Level.ofFloat x) (Level.ofFloat y) = ordering := by
  rw [← unpack_ne_iff, ← unpack_ne_iff]
  by_cases left : x.toModel.unpack = .notANumber
  · simp [left, UnpackedFloat.compare]
  by_cases right : y.toModel.unpack = .notANumber
  · rw [right]
    cases x.toModel.unpack <;> simp [UnpackedFloat.compare]
  rw [Level.compare_ofUnpacked left right, Option.some.injEq]
  exact ⟨fun same => ⟨left, right, same⟩, fun same => same.2.2⟩

/-- Doubles are in order when they are numbers and their levels are in order. -/
theorem le_iff_level {x y : Float} :
    x ≤ y ↔ x.isNaN = false ∧ y.isNaN = false ∧ Level.ofFloat x ≤ Level.ofFloat y := by
  rw [le_iff_unpack, UnpackedFloat.le, Option.any_eq_true]
  simp only [compare_unpack_eq_some_iff, Ordering.isLE_iff_ne_gt, ← compare_le_iff_le]
  constructor
  · rintro ⟨_, ⟨left, right, rfl⟩, ordered⟩
    exact ⟨left, right, ordered⟩
  · rintro ⟨left, right, ordered⟩
    exact ⟨_, ⟨left, right, rfl⟩, ordered⟩

/-- One double is below another one when both are numbers and its level is below the other one. -/
theorem lt_iff_level {x y : Float} :
    x < y ↔ x.isNaN = false ∧ y.isNaN = false ∧ Level.ofFloat x < Level.ofFloat y := by
  have unpacked : x < y ↔ x.toModel.unpack.lt y.toModel.unpack = true := by
    show decide (x.toModel < y.toModel) = true ↔ _
    rw [decide_eq_true_iff]
    exact Iff.rfl
  rw [unpacked, UnpackedFloat.lt, beq_iff_eq, compare_unpack_eq_some_iff, compare_lt_iff_lt]

/-- Doubles are equal when both are numbers on one level. -/
theorem beq_iff_level {x y : Float} :
    (x == y) = true ↔
      x.isNaN = false ∧ y.isNaN = false ∧ Level.ofFloat x = Level.ofFloat y := by
  have unpacked : (x == y) = true ↔ x.toModel.unpack.compare y.toModel.unpack = some .eq := by
    show (x.toModel.unpack.compare y.toModel.unpack == some .eq) = true ↔ _
    rw [beq_iff_eq]
  rw [unpacked, compare_unpack_eq_some_iff, compare_eq_iff_eq]

/-- Of two numbers one is at most the other one or above it. -/
theorem not_le_iff_lt {x y : Float} (left : x.isNaN = false) (right : y.isNaN = false) :
    ¬ x ≤ y ↔ y < x := by
  rw [le_iff_level, lt_iff_level, left, right, ← not_le]
  simp only [true_and]

/-- What is no number is in order with nothing. -/
theorem not_le_of_isNaN {x y : Float} (isNaN : x.isNaN = true ∨ y.isNaN = true) : ¬ x ≤ y := by
  intro ordered
  obtain ⟨left, right, -⟩ := le_iff_level.1 ordered
  rw [left, right] at isNaN
  rcases isNaN with isNaN | isNaN <;> cases isNaN

/-- What is below a double is at most the double. -/
theorem le_of_below {x y : Float} (below : x < y) : x ≤ y := by
  obtain ⟨left, right, levels⟩ := lt_iff_level.1 below
  exact le_iff_level.2 ⟨left, right, levels.le⟩

/-- A double is not at most what is below it. -/
theorem not_le_of_below {x y : Float} (below : x < y) : ¬ y ≤ x := by
  intro ordered
  exact (lt_iff_level.1 below).2.2.not_ge (le_iff_level.1 ordered).2.2

end Shadeloom
