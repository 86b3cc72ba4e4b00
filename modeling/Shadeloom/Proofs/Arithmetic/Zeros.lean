import Mathlib
import Shadeloom.Expr.Literal
import Shadeloom.Proofs.Arithmetic.Signs
/-!
# The two zeros

There are two zeros among the doubles, and no comparison tells them apart. With one zero in the
place of both, doubles are the same exactly where the key of a literal does not tell them apart;
they are equal then or are both no numbers.
-/
namespace Shadeloom

open Float.Model (UnpackedFloat)

/-- A number, with the zero without a minus sign for either zero. -/
def oneZero (x : Float) : Float :=
  if x == 0.0 then 0.0 else x

/-- A number that equals zero is one of the two zeros. -/
theorem eq_zero_iff {x : Float} : (x == 0.0) = true ↔ ∃ sign, x.toModel.unpack = .zero sign := by
  show (x.toModel.unpack.compare (.zero .positive) == some .eq) = true ↔ _
  cases x.toModel.unpack with
  | infinity sign => cases sign <;> simp [UnpackedFloat.compare]
  | finite sign mantissa exponent positive => cases sign <;> simp [UnpackedFloat.compare]
  | _ => simp [UnpackedFloat.compare]

/-- Doubles are the same when they are as numbers taken apart. -/
theorem eq_of_unpack {x y : Float} (same : x.toModel.unpack = y.toModel.unpack) : x = y :=
  eq_of_toBits (UInt64.toBitVec_inj.1
    ((UnpackedFloat.unpack_inj_of_valid x.toModel.valid y.toModel.valid).1 same))

/-- Zero equals itself. -/
theorem zero_eq_zero : ((0.0 : Float) == 0.0) = true := by decide +kernel

/-- Doubles are in order when they are as numbers taken apart. -/
theorem le_iff_unpack {x y : Float} : x ≤ y ↔ x.toModel.unpack.le y.toModel.unpack = true := by
  show decide (x.toModel ≤ y.toModel) = true ↔ _
  rw [decide_eq_true_iff]
  exact Iff.rfl

/-- The two zeros compare alike with any number. -/
theorem compare_zero (sign sign' : UnpackedFloat.Sign) (a : UnpackedFloat) :
    (UnpackedFloat.zero sign).compare a = (UnpackedFloat.zero sign').compare a := by
  cases a with
  | infinity other => cases other <;> rfl
  | finite other => cases other <;> rfl
  | _ => rfl

/-- Any number compares alike with the two zeros. -/
theorem compare_zero_right (sign sign' : UnpackedFloat.Sign) (a : UnpackedFloat) :
    a.compare (.zero sign) = a.compare (.zero sign') := by
  cases a with
  | infinity other => cases other <;> rfl
  | finite other => cases other <;> rfl
  | _ => rfl

/-- Either zero is taken for the one without a minus sign. -/
theorem oneZero_of_zero {x : Float} (zero : (x == 0.0) = true) : oneZero x = 0.0 :=
  if_pos zero

/-- Any other number stays. -/
theorem oneZero_of_ne {x : Float} (other : (x == 0.0) = false) : oneZero x = x :=
  if_neg (by simp [other])

/-- A number with one zero for both compares from the left as the number does. -/
theorem oneZero_le_iff {x y : Float} : oneZero x ≤ y ↔ x ≤ y := by
  cases zero : x == 0.0 with
  | false => rw [oneZero_of_ne zero]
  | true =>
    obtain ⟨sign, parts⟩ := eq_zero_iff.1 zero
    obtain ⟨plain, parts'⟩ := eq_zero_iff.1 zero_eq_zero
    rw [oneZero_of_zero zero, le_iff_unpack, le_iff_unpack, parts, parts', UnpackedFloat.le,
      UnpackedFloat.le, compare_zero sign plain]

/-- A number compares from the left with a number with one zero for both as with the number. -/
theorem le_oneZero_iff {x y : Float} : x ≤ oneZero y ↔ x ≤ y := by
  cases zero : y == 0.0 with
  | false => rw [oneZero_of_ne zero]
  | true =>
    obtain ⟨sign, parts⟩ := eq_zero_iff.1 zero
    obtain ⟨plain, parts'⟩ := eq_zero_iff.1 zero_eq_zero
    rw [oneZero_of_zero zero, le_iff_unpack, le_iff_unpack, parts, parts', UnpackedFloat.le,
      UnpackedFloat.le, compare_zero_right sign plain]

/-- Doubles are the same if they are so with one zero for both and neither is but one of these. -/
theorem eq_of_oneZero {zero x y : Float} (left : (x == 0.0) = true → x = zero)
    (right : (y == 0.0) = true → y = zero) (same : oneZero x = oneZero y) : x = y := by
  cases first : x == 0.0 <;> cases second : y == 0.0
  · rwa [oneZero_of_ne first, oneZero_of_ne second] at same
  · rw [oneZero_of_ne first, oneZero_of_zero second] at same
    rw [same, zero_eq_zero] at first
    cases first
  · rw [oneZero_of_zero first, oneZero_of_ne second] at same
    rw [← same, zero_eq_zero] at second
    cases second
  · rw [left first, right second]

/-- Doubles are the same with one zero for both exactly if they are equal or are both no
numbers. -/
theorem oneZero_eq_iff {x y : Float} :
    oneZero x = oneZero y ↔ (x == y) = true ∨ x.isNaN = true ∧ y.isNaN = true := by
  have equal : (x == y) = true ↔ _ := UnpackedFloat.beq_iff_ne_notANumber_and_eq _ _
  constructor
  · intro same
    cases left : x == 0.0 <;> cases right : y == 0.0
    · rw [oneZero_of_ne left, oneZero_of_ne right] at same
      subst same
      by_cases nan : x.toModel.unpack = .notANumber
      · exact .inr ⟨UnpackedFloat.isNaN_iff.2 nan, UnpackedFloat.isNaN_iff.2 nan⟩
      · exact .inl (equal.2 ⟨nan, nan, .inl rfl⟩)
    · rw [oneZero_of_ne left, oneZero_of_zero right] at same
      rw [same, zero_eq_zero] at left
      cases left
    · rw [oneZero_of_zero left, oneZero_of_ne right] at same
      rw [← same, zero_eq_zero] at right
      cases right
    · left
      obtain ⟨sign, parts⟩ := eq_zero_iff.1 left
      obtain ⟨sign', parts'⟩ := eq_zero_iff.1 right
      rw [equal, parts, parts']
      cases sign <;> cases sign' <;> simp
  · rintro (same | ⟨left, right⟩)
    · obtain ⟨-, -, parts | ⟨left, right⟩ | ⟨left, right⟩⟩ := equal.1 same
      · rw [eq_of_unpack parts]
      · rw [oneZero_of_zero (eq_zero_iff.2 ⟨_, left⟩), oneZero_of_zero (eq_zero_iff.2 ⟨_, right⟩)]
      · rw [oneZero_of_zero (eq_zero_iff.2 ⟨_, left⟩), oneZero_of_zero (eq_zero_iff.2 ⟨_, right⟩)]
    · rw [eq_of_isNaN left, eq_of_isNaN right]

/-- The bits that stand for a number in keys are those of the number with one zero for both. -/
theorem toBits_oneZero (x : Float) : (oneZero x).toBits = Literal.keyBits x := by
  unfold Literal.keyBits
  split
  · rename_i nan
    rw [eq_of_isNaN nan]
    decide +kernel
  · unfold oneZero
    split <;> rfl

/-- Literals that are the same both have no number, or the same one with one zero for both. -/
theorem Literal.number?_of_same {a b : Literal} (same : a.same b = true) :
    a.number?.map oneZero = b.number?.map oneZero := by
  have keys : a.key = b.key := by simpa [Literal.same] using same
  unfold key at keys
  cases first : a.number? with
  | none =>
    cases second : b.number? with
    | none => rfl
    | some y => rw [first, second] at keys; cases keys
  | some x =>
    cases second : b.number? with
    | none => rw [first, second] at keys; cases keys
    | some y =>
      rw [first, second] at keys
      injection keys with bits
      rw [← toBits_oneZero, ← toBits_oneZero] at bits
      exact congrArg some (eq_of_toBits bits)

end Shadeloom
