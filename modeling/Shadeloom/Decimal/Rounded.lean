import Shadeloom.Decimal.Magnitude
/-!
# A set number of digits

A magnitude rounded to a number of significant digits: the exact quotient goes to the nearest
natural number, a tie to the even one. Rounding up to the next power of ten takes one digit off.
-/
namespace Shadeloom.Decimal

/-- The quotient rounded to nearest, ties to even. -/
def roundEven (num den : Nat) : Nat :=
  let floor := num / den
  match compare (2 * (num % den)) den with
  | .lt => floor
  | .gt => floor + 1
  | .eq => if floor % 2 = 0 then floor else floor + 1

/-- A positive magnitude rounded to `places + 1` significant digits. -/
def Magnitude.rounded (value : Magnitude) (places : Nat) : Numeral :=
  let unit := value.leadingExponent - places
  let (num, den) := value.ratio unit
  let digits := roundEven num den
  if digits = Nat.pow 10 (places + 1) then ⟨Nat.pow 10 places, unit + 1⟩ else ⟨digits, unit⟩

/-- A rounded quotient is within half a unit of the exact one. -/
theorem roundEven_near (num den : Nat) (positive : 0 < den) :
    2 * num ≤ (2 * roundEven num den + 1) * den ∧ 2 * roundEven num den * den ≤ 2 * num + den := by
  have split := Nat.div_add_mod num den
  have small := Nat.mod_lt num positive
  have expand : 2 * num = 2 * (den * (num / den)) + 2 * (num % den) := by omega
  have comm : num / den * den = den * (num / den) := Nat.mul_comm _ _
  unfold roundEven
  simp only
  split
  · rename_i less
    have less := Nat.compare_eq_lt.mp less
    constructor <;> simp only [Nat.add_mul, Nat.mul_assoc, Nat.one_mul] <;> rw [comm] <;> omega
  · rename_i more
    have more := Nat.compare_eq_gt.mp more
    constructor <;> simp only [Nat.add_mul, Nat.mul_add, Nat.mul_assoc, Nat.one_mul] <;>
      rw [comm] <;> omega
  · rename_i equal
    have equal := Nat.compare_eq_eq.mp equal
    split <;> constructor <;> simp only [Nat.add_mul, Nat.mul_add, Nat.mul_assoc, Nat.one_mul] <;>
      rw [comm] <;> omega

end Shadeloom.Decimal
