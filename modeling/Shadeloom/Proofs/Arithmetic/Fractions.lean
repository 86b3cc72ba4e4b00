import Mathlib
import Shadeloom.Arithmetic.Basic
import Shadeloom.Decimal.Reader
/-!
# Math on fractions

The scalar operations without rounding errors: fractions have exact sums, products, quotients,
remainders and whole parts, so that what an operation is meant to compute can be told apart from
how doubles round it. The functions that have no exact results are left open. Written numbers are
read as the fractions that they stand for.
-/
namespace Shadeloom

/-- The whole number next to a fraction on the side of zero. -/
def Arithmetic.cut (q : ℚ) : ℤ :=
  if 0 ≤ q then ⌊q⌋ else ⌈q⌉

instance : Arithmetic ℚ where
  decidableLT := inferInstance
  decidableLE := inferInstance
  floor q := ⌊q⌋
  remainder a b := a - b * Arithmetic.cut (a / b)
  abs q := |q|
  minimum := min
  maximum := max

/-- There are functions to leave open. -/
instance : Inhabited (Transcendental ℚ) :=
  ⟨fun _ => 0, fun _ => 0, fun _ => 0, fun _ => 0, fun _ => 0, fun _ => 0, fun _ _ => 0, fun _ => 0⟩

namespace Arithmetic

/-- Cutting a fraction that is not negative takes its floor. -/
theorem cut_of_nonneg {q : ℚ} (nonneg : 0 ≤ q) : cut q = ⌊q⌋ :=
  if_pos nonneg

/-- What is cut off is less than one downward. -/
theorem neg_one_lt_sub_cut (q : ℚ) : -1 < q - cut q := by
  unfold cut
  split
  · linarith [Int.floor_le q]
  · linarith [Int.ceil_lt_add_one q]

/-- The nearest whole number is the floor of the fraction that is one half greater. -/
theorem round_eq_floor (a : ℚ) : Arithmetic.round a = (⌊a + 1 / 2⌋ : ℚ) := by
  show ((⌊a + (0.5 : ℚ)⌋ : ℤ) : ℚ) = _
  norm_num

/-- The remainder for a divisor other than zero. -/
theorem safeRemainder_of_ne {b : ℚ} (nonzero : b ≠ 0) (a : ℚ) :
    safeRemainder a b = a - b * cut (a / b) := by
  show (if (b == (0.0 : ℚ)) = true then (0.0 : ℚ) else a - b * cut (a / b)) = _
  rw [if_neg (by norm_num [nonzero])]

/-- The remainder of a division by zero is zero. -/
theorem safeRemainder_zero (a : ℚ) : safeRemainder a 0 = 0 := by
  show (if ((0 : ℚ) == (0.0 : ℚ)) = true then (0.0 : ℚ) else a - 0 * cut (a / 0)) = _
  norm_num

/-- Half an unit less than a fraction, rounded, is its floor. -/
theorem round_sub_half (a : ℚ) : Arithmetic.round (a - 1 / 2) = (⌊a⌋ : ℚ) := by
  rw [round_eq_floor, sub_add_cancel]

/-- Half an unit more than a fraction, rounded, is the whole number that follows its floor. -/
theorem round_add_half (a : ℚ) : Arithmetic.round (a + 1 / 2) = (⌊a⌋ + 1 : ℚ) := by
  rw [round_eq_floor, add_assoc, add_halves, Int.floor_add_one]
  push_cast
  rfl

/-- The remainder of the remainder put above the divisor is the rest above the floor of the
quotient. Cutting toward zero leaves a quotient above -1, so that one more is positive and its cut
is a floor. -/
theorem safeRemainder_add_divisor {b : ℚ} (nonzero : b ≠ 0) (a : ℚ) :
    safeRemainder (safeRemainder a b + b) b = a - b * ⌊a / b⌋ := by
  have quotient : (safeRemainder a b + b) / b = a / b - cut (a / b) + 1 := by
    rw [safeRemainder_of_ne nonzero]
    field_simp
  have floor : cut ((safeRemainder a b + b) / b) = ⌊a / b⌋ - cut (a / b) + 1 := by
    rw [quotient, cut_of_nonneg (by linarith [neg_one_lt_sub_cut (a / b)]), Int.floor_add_one,
      Int.floor_sub_intCast]
  rw [safeRemainder_of_ne nonzero, floor, safeRemainder_of_ne nonzero]
  push_cast
  ring

/-- The rest above the floor of a quotient lies between zero and a positive divisor. -/
theorem floored_of_pos {b : ℚ} (positive : 0 < b) (a : ℚ) :
    0 ≤ a - b * ⌊a / b⌋ ∧ a - b * ⌊a / b⌋ < b := by
  have split : a - b * ⌊a / b⌋ = b * Int.fract (a / b) := by
    rw [Int.fract, mul_sub, mul_div_cancel₀ a positive.ne']
  rw [split]
  exact ⟨mul_nonneg positive.le (Int.fract_nonneg _),
    mul_lt_of_lt_one_right positive (Int.fract_lt_one _)⟩

/-- The rest above the floor of a quotient lies between a negative divisor and zero. -/
theorem floored_of_neg {b : ℚ} (negative : b < 0) (a : ℚ) :
    b < a - b * ⌊a / b⌋ ∧ a - b * ⌊a / b⌋ ≤ 0 := by
  have mirrored := floored_of_pos (neg_pos.mpr negative) (-a)
  rw [neg_div_neg_eq] at mirrored
  constructor <;> linarith [mirrored.1, mirrored.2]

end Arithmetic

namespace Decimal

/-- The digits of a number without sign as one number, and the power of ten that it is to be
multiplied with. -/
def scientific? (text : List Char) : Option (Nat × Int) :=
  let (whole, rest) := text.span Char.isDigit
  let (fraction, rest) :=
    match rest with
    | '.' :: rest => rest.span Char.isDigit
    | rest => ([], rest)
  if whole = [] && fraction = [] then none
  else (exponent? rest).map fun exponent =>
    (digitsValue (whole ++ fraction), exponent - fraction.length)

/-- The fraction that a number in digits is. -/
def fraction? : List Char → Option ℚ
  | '-' :: text => (scientific? text).map fun (digits, exponent) => -(digits * 10 ^ exponent)
  | '+' :: text => (scientific? text).map fun (digits, exponent) => digits * 10 ^ exponent
  | text => (scientific? text).map fun (digits, exponent) => digits * 10 ^ exponent

/-- The double that digits are read as is the one nearest to what they stand for. -/
theorem unsigned_eq_map (text : List Char) :
    unsigned? text = (scientific? text).map fun (digits, exponent) => nearest digits exponent := by
  unfold unsigned? scientific?
  dsimp only
  rw [apply_ite (Option.map _), Option.map_none, Option.map_map]
  rfl

/-- A text whose first character is neither a digit nor a point is no number in digits. -/
theorem scientific_of_head {c : Char} (digit : c.isDigit = false) (point : c ≠ '.')
    (rest : List Char) : scientific? (c :: rest) = none := by
  simp [scientific?, List.span, List.span.loop, digit, point]

/-- A number in digits starts with none of the letters that the words start with. -/
theorem head_of_scientific {text : List Char} {parts : Nat × Int}
    (read : scientific? text = some parts) {mark : Char} {word : List Char}
    (same : text.map Char.toLower = mark :: word) : mark ≠ 'i' ∧ mark ≠ 'n' := by
  obtain ⟨c, rest, rfl, rfl, -⟩ := List.map_eq_cons_iff.mp same
  by_cases point : c = '.'
  · subst point
    decide
  · have digit : c.isDigit = true := by
      by_contra other
      rw [scientific_of_head (by simpa using other) point] at read
      cases read
    have bounds : 48 ≤ c.toNat ∧ c.toNat ≤ 57 := by
      simpa [Char.isDigit, UInt32.le_iff_toNat_le] using digit
    have small : c.toLower = c := by
      unfold Char.toLower
      rw [dif_neg]
      rintro ⟨above, -⟩
      have : 65 ≤ c.toNat := by simpa [UInt32.le_iff_toNat_le] using above
      omega
    rw [small]
    constructor <;> rintro rfl <;> exact absurd bounds.2 (by decide)

/-- A number in digits is none of the words. -/
theorem magnitude_of_scientific {text : List Char} {digits : Nat} {exponent : Int}
    (read : scientific? text = some (digits, exponent)) :
    magnitude? text = some (nearest digits exponent) := by
  unfold magnitude?
  dsimp only
  rw [if_neg, if_neg, unsigned_eq_map, read]
  · rfl
  · exact fun nan => (head_of_scientific read nan).2 rfl
  · rw [Bool.or_eq_true, decide_eq_true_eq, decide_eq_true_eq]
    rintro (inf | infinity)
    · exact (head_of_scientific read inf).1 rfl
    · exact (head_of_scientific read infinity).1 rfl

/-- Where a text is a fraction, the double that it is read as is the nearest one: that of the same
digits and exponent, with the same sign. -/
theorem read_of_fraction {text : List Char} {q : ℚ} (read : fraction? text = some q) :
    ∃ (digits : Nat) (exponent : Int),
      (q = digits * 10 ^ exponent ∧ read? text = some (nearest digits exponent)) ∨
      (q = -(digits * 10 ^ exponent) ∧ read? text = some (-nearest digits exponent)) := by
  unfold fraction? at read
  split at read
  all_goals
    obtain ⟨⟨digits, exponent⟩, parts, rfl⟩ := Option.map_eq_some_iff.mp read
    have magnitude := magnitude_of_scientific parts
    refine ⟨digits, exponent, ?_⟩
  · exact .inr ⟨rfl, by rw [read?, magnitude]; rfl⟩
  · exact .inl ⟨rfl, by rw [read?, magnitude]⟩
  · exact .inl ⟨rfl, by rw [read?, magnitude] <;> assumption⟩

end Decimal

end Shadeloom
