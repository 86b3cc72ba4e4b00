import Mathlib
import Shadeloom.Decimal.Reader
/-!
# Signs of numerals

A double without a minus sign is told apart from every other one by its bits, with one pattern for
NaN. Reading digits gives only such doubles, so a numeral is never the negative zero.
-/
namespace Shadeloom

open Float.Model (Format UnpackedFloat)
open Float.Model.UnpackedFloat

/-- Whether a number taken apart has no minus sign. -/
inductive IsUnsigned : UnpackedFloat → Prop
  | notANumber : IsUnsigned .notANumber
  | infinity : IsUnsigned (.infinity .positive)
  | zero : IsUnsigned (.zero .positive)
  | finite (mantissa : Nat) (exponent : Int) (positive : 0 < mantissa) :
    IsUnsigned (.finite .positive mantissa exponent positive)

namespace IsUnsigned

variable {a b : UnpackedFloat}

/-- A rounded number has the sign that it is given. -/
theorem roundWithAccuracy (mantissa : Nat) (exponent : Int) (accuracy : Accuracy) :
    IsUnsigned (UnpackedFloat.roundWithAccuracy .binary64 .positive mantissa exponent accuracy) := by
  unfold UnpackedFloat.roundWithAccuracy
  dsimp only
  split
  · exact .zero
  · exact .finite _ _ _

/-- A product of numbers without a minus sign has none. -/
theorem mul (left : IsUnsigned a) (right : IsUnsigned b) :
    IsUnsigned (UnpackedFloat.mul .binary64 a b) := by
  cases left <;> cases right <;>
    first | exact .notANumber | exact .infinity | exact .zero | exact roundWithAccuracy _ _ _

/-- A quotient of numbers without a minus sign has none. -/
theorem div (left : IsUnsigned a) (right : IsUnsigned b) :
    IsUnsigned (UnpackedFloat.div .binary64 a b) := by
  cases left <;> cases right <;>
    first | exact .notANumber | exact .infinity | exact .zero | exact roundWithAccuracy _ _ _

/-- A natural number has no minus sign. -/
theorem ofNat (n : Nat) : IsUnsigned (UnpackedFloat.ofNat .binary64 n) := by
  unfold UnpackedFloat.ofNat UnpackedFloat.ofInt UnpackedFloat.normalize
  split
  · rename_i less
    rw [Int.compare_eq_lt] at less
    omega
  · exact .zero
  · exact roundWithAccuracy _ _ _

/-- Digits with an exponent have no minus sign. -/
theorem ofScientific (digits : Nat) (exponent : Int) :
    IsUnsigned (UnpackedFloat.ofScientific .binary64 digits exponent) := by
  unfold UnpackedFloat.ofScientific
  split
  · exact .zero
  · split
    · exact .infinity
    · split
      · exact .zero
      · split
        · exact mul (.finite _ _ _) (.finite _ _ _)
        · exact div (.finite _ _ _) (.finite _ _ _)

end IsUnsigned

/-- The sign bit of a number that is put together is that of its sign. -/
theorem unpackSign_packComponents (format : Format) (sign : Sign)
    (exponent : BitVec format.exponentBits) (mantissa : BitVec format.mantissaBitsWithoutImplicit) :
    unpackSign (packComponents format sign exponent mantissa) = sign.toBitVec := by
  ext place below
  obtain rfl : place = 0 := by omega
  simp [unpackSign, packComponents, BitVec.getLsbD_append, BitVec.getElem_append]

/-- A packed number without a minus sign has the sign bit zero. -/
theorem unpackSign_pack {a : UnpackedFloat} (unsigned : IsUnsigned a) :
    unpackSign (pack .binary64 a) = 0#1 := by
  cases unsigned with
  | notANumber => exact unpackSign_packComponents _ _ _ _
  | infinity => exact unpackSign_packComponents _ _ _ _
  | zero => exact unpackSign_packComponents _ _ _ _
  | finite mantissa exponent positive =>
    unfold pack
    dsimp only
    split
    · exact unpackSign_packComponents _ _ _ _
    · split <;> exact unpackSign_packComponents _ _ _ _

/-- Bits with the sign bit zero stand for a number without a minus sign. -/
theorem isUnsigned_unpack {bits : BitVec Format.binary64.numBits} (sign : unpackSign bits = 0#1) :
    IsUnsigned (unpack .binary64 bits) := by
  have positive : Sign.ofBitVec (unpackSign bits) = .positive := by rw [sign]; rfl
  unfold unpack
  simp only [positive]
  split
  · split
    · exact .infinity
    · exact .notANumber
  · split
    · split
      · exact .zero
      · exact .finite _ _ _
    · exact .finite _ _ _

/-- Whether a double has the sign bit zero. -/
def Unsigned (x : Float) : Prop :=
  IsUnsigned x.toModel.unpack

/-- A double that is packed from a number without a minus sign has none. -/
theorem unsigned_ofModel {a : UnpackedFloat} (unsigned : IsUnsigned a) :
    Unsigned (.ofModel (.pack a)) :=
  isUnsigned_unpack (unpackSign_pack unsigned)

/-- The powers of ten that are doubles have no minus sign. -/
theorem unsigned_powerOfTen (exponent : Nat) (small : exponent < Float.exactlyRepresentablePowersOfTen.size) :
    Unsigned (Float.exactlyRepresentablePowersOfTen[exponent]) := by
  have all : ∀ place : Fin 23, @unpackSign .binary64
      (Float.exactlyRepresentablePowersOfTen[place]).toModel.toBits.toBitVec = 0#1 := by
    decide +kernel
  exact isUnsigned_unpack (all ⟨exponent, small⟩)

/-- The double nearest to a decimal numeral has no minus sign. -/
theorem unsigned_ofScientific (digits : Nat) (negative : Bool) (exponent : Nat) :
    Unsigned (Float.ofScientific digits negative exponent) := by
  unfold Float.ofScientific
  split
  · rename_i small
    have whole : IsUnsigned (digits.toUInt64.toFloat).toModel.unpack :=
      unsigned_ofModel (IsUnsigned.ofNat _)
    have power := unsigned_powerOfTen exponent (by
      simp [Float.exactlyRepresentablePowersOfTen]; omega)
    dsimp only
    split
    · exact unsigned_ofModel (whole.div power)
    · exact unsigned_ofModel (whole.mul power)
  · exact unsigned_ofModel (IsUnsigned.ofScientific _ _)

namespace Decimal

/-- Digits are read as a number without a minus sign. -/
theorem unsigned_nearest (digits : Nat) (exponent : Int) : Unsigned (nearest digits exponent) := by
  unfold nearest
  split <;> exact unsigned_ofScientific _ _ _

/-- A number without sign is the nearest one to some digits. -/
theorem unsigned_unsigned? {text : List Char} {x : Float} (read : unsigned? text = some x) :
    Unsigned x := by
  unfold unsigned? at read
  dsimp only at read
  split at read
  all_goals
    split at read
    · cases read
    · obtain ⟨exponent, -, rfl⟩ := Option.map_eq_some_iff.1 read
      exact unsigned_nearest _ _

/-- A text without a sign is read as a number without a minus sign. -/
theorem unsigned_magnitude? {text : List Char} {x : Float} (read : magnitude? text = some x) :
    Unsigned x := by
  unfold magnitude? at read
  dsimp only at read
  split at read
  · cases read
    exact unsigned_ofModel ((unsigned_ofScientific _ _ _).div (unsigned_ofScientific _ _ _))
  · split at read
    · cases read
      exact unsigned_ofModel ((unsigned_ofScientific _ _ _).div (unsigned_ofScientific _ _ _))
    · exact unsigned_unsigned? read

end Decimal

/-- Doubles with the same bits are the same. -/
theorem eq_of_toBits {x y : Float} (same : x.toBits = y.toBits) : x = y := by
  obtain ⟨⟨bits, valid⟩⟩ := x
  obtain ⟨⟨bits', valid'⟩⟩ := y
  have same : bits = bits' := same
  subst same
  rfl

/-- Bits are zero when their three parts are. -/
theorem eq_zero_of_parts {bits : BitVec Format.binary64.numBits} (sign : unpackSign bits = 0#1)
    (exponent : unpackExponent bits = 0#11) (mantissa : unpackMantissa bits = 0#52) : bits = 0 := by
  have sign := congrArg BitVec.toNat sign
  have exponent := congrArg BitVec.toNat exponent
  have mantissa := congrArg BitVec.toNat mantissa
  have small := bits.isLt
  simp [unpackSign, unpackExponent, unpackMantissa, BitVec.extractLsb] at sign exponent mantissa small
  rw [Nat.shiftRight_eq_div_pow] at sign exponent
  apply BitVec.eq_of_toNat_eq
  have small : bits.toNat < 2 ^ 64 := small
  show bits.toNat = 0
  omega

/-- The parts of bits that stand for the zero without a minus sign. -/
theorem parts_of_zero {bits : BitVec Format.binary64.numBits}
    (zero : unpack .binary64 bits = .zero .positive) :
    unpackExponent bits = 0#11 ∧ unpackMantissa bits = 0#52 ∧ unpackSign bits = 0#1 := by
  unfold unpack at zero
  dsimp only at zero
  split at zero
  · split at zero <;> cases zero
  · split at zero
    · rename_i exponent
      split at zero
      · rename_i mantissa
        injection zero with sign
        refine ⟨exponent, mantissa, ?_⟩
        unfold Sign.ofBitVec at sign
        split at sign
        · assumption
        · cases sign
      · cases zero
    · cases zero

/-- The parts of bits that stand for no number. -/
theorem parts_of_notANumber {bits : BitVec Format.binary64.numBits}
    (nan : unpack .binary64 bits = .notANumber) :
    unpackExponent bits = -1#11 ∧ unpackMantissa bits ≠ 0#52 := by
  unfold unpack at nan
  dsimp only at nan
  split at nan
  · rename_i exponent
    split at nan
    · cases nan
    · rename_i mantissa
      exact ⟨exponent, mantissa⟩
  · split at nan
    · split at nan <;> cases nan
    · cases nan

/-- A double without a minus sign that equals zero is the zero without a minus sign. -/
theorem eq_zero_of_unsigned {x : Float} (unsigned : Unsigned x) (zero : (x == 0.0) = true) :
    x = 0.0 := by
  have parts : x.toModel.unpack = .zero .positive := by
    have order : (x.toModel.unpack.compare (.zero .positive) == some .eq) = true := zero
    unfold Unsigned at unsigned
    generalize x.toModel.unpack = a at unsigned order
    cases unsigned with
    | zero => rfl
    | notANumber => exact absurd order (by decide)
    | infinity => exact absurd order (by decide)
    | finite mantissa exponent positive => cases order
  obtain ⟨exponent, mantissa, sign⟩ := parts_of_zero parts
  exact eq_of_toBits (UInt64.toBitVec_inj.1 (eq_zero_of_parts sign exponent mantissa))

/-- There is one double that is no number. -/
theorem eq_of_isNaN {x : Float} (nan : x.isNaN = true) : x = 0.0 / 0.0 := by
  have parts : x.toModel.unpack = .notANumber := by
    have nan : x.toModel.unpack.isNaN = true := nan
    generalize x.toModel.unpack = a at nan
    cases a with
    | notANumber => rfl
    | _ => cases nan
  obtain ⟨exponent, mantissa⟩ := parts_of_notANumber parts
  refine eq_of_toBits (UInt64.toBitVec_inj.1 ((x.toModel.valid.eq_packedNaN exponent mantissa).trans ?_))
  decide +kernel

end Shadeloom
