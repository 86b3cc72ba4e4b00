import Shadeloom.Decimal.Magnitude
/-!
# The fewest digits that read back

The reals that round to a double form an interval around it, whose ends belong to it exactly when
the mantissa is even. The shortest numeral of a double is the one on the coarsest decimal grid
that has a point in the interval; of two such points the closer, and on a tie a rule of the
caller.
-/
namespace Shadeloom.Decimal

/-- Which of two equally close numerals is taken. -/
inductive Tie where
  | toEven
  | upward
  deriving Repr, DecidableEq

/-- Whether a numeral rounds to the magnitude (to nearest, ties to even). -/
def Magnitude.readsBack (value : Magnitude) (numeral : Numeral) : Bool :=
  let below := if value.tightBelow then 4 * value.mantissa - 1 else 4 * value.mantissa - 2
  let (low, unit) := Magnitude.ratio ⟨below, value.exponent - 2, false⟩ numeral.exponent
  let (high, _) := Magnitude.ratio ⟨4 * value.mantissa + 2, value.exponent - 2, false⟩
    numeral.exponent
  let point := numeral.digits * unit
  if value.mantissa % 2 = 0 then low ≤ point && point ≤ high else low < point && point < high

/-- The numeral on the grid of `10 ^ unit` that reads back, if one does. -/
def Magnitude.onGrid? (value : Magnitude) (tie : Tie) (unit : Int) : Option Numeral :=
  let (num, den) := value.ratio unit
  let floor := num / den
  let lower : Numeral := ⟨floor, unit⟩
  let upper : Numeral := ⟨floor + 1, unit⟩
  match value.readsBack lower, value.readsBack upper with
  | false, false => none
  | true, false => some lower
  | false, true => some upper
  | true, true =>
    match compare (2 * (num % den)) den with
    | .lt => some lower
    | .gt => some upper
    | .eq =>
      match tie with
      | .upward => some upper
      | .toEven => some (if floor % 2 = 0 then lower else upper)

/-- A numeral without the zeros at its right end. -/
def Numeral.strip (numeral : Numeral) : Numeral :=
  if positive : 0 < numeral.digits then
    if numeral.digits % 10 = 0 then
      Numeral.strip ⟨numeral.digits / 10, numeral.exponent + 1⟩
    else numeral
  else numeral
termination_by numeral.digits
decreasing_by exact Nat.div_lt_self positive (by decide)

/-- The shortest numeral that reads back as a positive magnitude.

Seventeen digits suffice; the exact value stands for the case that they did not. -/
def Magnitude.shortest (value : Magnitude) (tie : Tie) : Numeral :=
  let leading := value.leadingExponent
  let grids := (List.range 17).map fun (digits : Nat) => leading - (digits : Int)
  let exact : Numeral :=
    ⟨(value.mantissa <<< value.exponent.toNat) * Nat.pow 5 (-value.exponent).toNat,
      min value.exponent 0⟩
  ((grids.findSome? (value.onGrid? tie)).getD exact).strip

/-- A numeral taken from a grid reads back. -/
theorem Magnitude.readsBack_of_onGrid? {value : Magnitude} {tie : Tie} {unit : Int}
    {numeral : Numeral} (hit : value.onGrid? tie unit = some numeral) :
    value.readsBack numeral = true := by
  unfold Magnitude.onGrid? at hit
  simp only at hit
  split at hit
  · simp at hit
  · rename_i low _; simp only [Option.some.injEq] at hit; exact hit ▸ low
  · rename_i _ high; simp only [Option.some.injEq] at hit; exact hit ▸ high
  · rename_i low high
    split at hit
    · simp only [Option.some.injEq] at hit; exact hit ▸ low
    · simp only [Option.some.injEq] at hit; exact hit ▸ high
    · split at hit
      · simp only [Option.some.injEq] at hit; exact hit ▸ high
      · simp only [Option.some.injEq] at hit
        subst hit
        split
        · exact low
        · exact high

end Shadeloom.Decimal
